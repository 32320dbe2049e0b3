import Mathlib.Data.List.Nodup
import Mathlib.Data.List.Perm.Subperm
import MenuFirmware.Lib.RingBuf

/-!
# Rings of descriptors

A ring of `N` descriptors between a CPU and a device.  A bit in each descriptor says who holds it;
each side goes round on its own and sets or clears the bit of the descriptor it has come to.

* `Held N held first count`   exactly the `count` descriptors from `first` on are held;
* `Held.give`, `Held.take`    one more at the end, one less at the front;
* `Held.countP`               how many are held;
* `segment_congr`             what the held descriptors stand for;
* `Seg`, `segments n l`       a message cut into segments of `n`, the first and the last one marked;
* `collect`                   what the receiver of the segments makes of them;
* `collect_segments`          it gets the message back.
-/

namespace DescRing

/-! ## who holds what -/

section
variable {N : Nat} {held : Nat → Bool} {first count : Nat}

/-- exactly the `count` descriptors from `first` on are held -/
structure Held (N : Nat) (held : Nat → Bool) (first count : Nat) : Prop where
  first_lt : first < N
  count_le : count ≤ N
  at_index : ∀ i < N, held ((first + i) % N) = decide (i < count)

theorem Held.pos (h : Held N held first count) : 0 < N := Nat.lt_of_le_of_lt (Nat.zero_le _) h.first_lt

theorem index_inj {r i j : Nat} (hi : i < N) (hj : j < N) (h : (r + i) % N = (r + j) % N) :
    i = j := by
  rcases Nat.lt_trichotomy i j with hlt | heq | hgt
  · exact absurd h (RingBuf.index_ne hj hlt)
  · exact heq
  · exact absurd h.symm (RingBuf.index_ne hi hgt)

theorem index_perm (hf : first < N) :
    ((List.range N).map fun i => (first + i) % N).Perm (List.range N) := by
  apply List.Subperm.perm_of_length_le
  · apply List.subperm_of_subset
    · exact (List.nodup_map_iff_inj_on List.nodup_range).2 fun i hi j hj h =>
        index_inj (List.mem_range.1 hi) (List.mem_range.1 hj) h
    · intro x hx
      obtain ⟨i, -, rfl⟩ := List.mem_map.1 hx
      exact List.mem_range.2 (Nat.mod_lt _ (by omega))
  · simp

theorem countP_lt (n : Nat) : ∀ N, (List.range N).countP (fun i => decide (i < n)) = min N n
  | 0 => by simp
  | N + 1 => by
    rw [List.range_succ, List.countP_append, countP_lt n N, List.countP_singleton]
    by_cases h : N < n <;> simp [h] <;> omega

theorem Held.countP (h : Held N held first count) : (List.range N).countP held = count := by
  rw [← (index_perm h.first_lt).countP_eq, List.countP_map, ← Nat.min_eq_right h.count_le,
    ← countP_lt count N]
  apply List.countP_congr
  intro i hi
  rw [Function.comp_apply, h.at_index i (List.mem_range.1 hi)]

/-- what is behind the held ones is not held -/
theorem Held.free (h : Held N held first count) {j : Nat} (hj : count + j < N) :
    held ((first + count + j) % N) = false := by
  rw [Nat.add_assoc, h.at_index _ hj]
  exact decide_eq_false (by omega)

theorem Held.front (h : Held N held first (count + 1)) : held first = true := by
  have hat := h.at_index 0 h.pos
  rw [Nat.add_zero, Nat.mod_eq_of_lt h.first_lt] at hat
  rw [hat]
  exact decide_eq_true (Nat.succ_pos count)

theorem Held.front_empty (h : Held N held first 0) : held first = false := by
  have hat := h.at_index 0 h.pos
  rw [Nat.add_zero, Nat.mod_eq_of_lt h.first_lt] at hat
  exact hat

/-- where a descriptor `j` steps behind the held ones is held, the ring has come round -/
theorem Held.wrapped (h : Held N held first count) {j : Nat}
    (hown : held ((first + count + j) % N) = true) : N ≤ count + j := by
  by_contra hlt
  rw [h.free (by omega)] at hown
  exact Bool.false_ne_true hown

/-- where the next one is not held, not all are -/
theorem Held.lt_of_free (h : Held N held first count)
    (hown : held ((first + count) % N) = false) : count < N := by
  refine Nat.lt_of_le_of_ne h.count_le fun hall => ?_
  have hat := h.at_index 0 h.pos
  rw [Nat.add_zero, Nat.mod_eq_of_lt h.first_lt, decide_eq_true (hall ▸ h.pos)] at hat
  rw [hall, Nat.add_mod_right, Nat.mod_eq_of_lt h.first_lt, hat] at hown
  exact Bool.false_ne_true hown.symm

theorem Held.give (h : Held N held first count) (hlt : count < N) :
    Held N (Function.update held ((first + count) % N) true) first (count + 1) where
  first_lt := h.first_lt
  count_le := hlt
  at_index := by
    intro i hi
    by_cases e : i = count
    · subst e
      rw [Function.update_self]
      exact (decide_eq_true (Nat.lt_succ_self i)).symm
    · rw [Function.update_of_ne fun heq => e (index_inj hi hlt heq), h.at_index i hi]
      exact decide_eq_decide.2 (by omega)

theorem Held.take (h : Held N held first (count + 1)) :
    Held N (Function.update held first false) ((first + 1) % N) count where
  first_lt := Nat.mod_lt _ h.pos
  count_le := Nat.le_of_succ_le h.count_le
  at_index := by
    intro i hi
    have hidx : ((first + 1) % N + i) % N = (first + (i + 1)) % N := by
      rw [Nat.mod_add_mod, Nat.add_assoc, Nat.add_comm 1 i]
    rw [hidx]
    by_cases e : i + 1 = N
    · -- round the ring, at the one that was taken
      have hround : (first + (i + 1)) % N = first := by
        rw [e, Nat.add_mod_right, Nat.mod_eq_of_lt h.first_lt]
      have hle := h.count_le
      rw [hround, Function.update_self]
      exact (decide_eq_false (by omega)).symm
    · have hne : (first + (i + 1)) % N ≠ first := by
        intro heq
        have hzero : (first + (i + 1)) % N = (first + 0) % N := by
          rw [heq, Nat.add_zero, Nat.mod_eq_of_lt h.first_lt]
        have := index_inj (by omega) h.pos hzero
        omega
      rw [Function.update_of_ne hne, h.at_index _ (by omega)]
      exact decide_eq_decide.2 (by omega)

end

/-! ## what the held ones stand for -/

section
variable {α : Type*} {N : Nat}

theorem segment_congr {slots slots' : Nat → α} {pos count : Nat}
    (h : ∀ i < count, slots ((pos + i) % N) = slots' ((pos + i) % N)) :
    RingBuf.segment slots N pos count = RingBuf.segment slots' N pos count := by
  apply List.map_congr_left
  intro i hi
  exact h i (List.mem_range.1 hi)

end

/-! ## segments of a message -/

section
variable {α : Type*}

/-- a part of a message; the first and the last one are marked -/
structure Seg (α : Type*) where
  first : Bool
  last : Bool
  bytes : List α

/-- the messages that are complete, and the one under way -/
structure Collected (α : Type*) where
  messages : List (List α)
  underWay : List α

/-- the receiver: a first segment begins a message, a last one ends it -/
def collect (c : Collected α) (g : Seg α) : Collected α :=
  let bytes := (if g.first then [] else c.underWay) ++ g.bytes
  if g.last then ⟨c.messages ++ [bytes], []⟩ else ⟨c.messages, bytes⟩

/-- how many segments of `n` a message of `len` takes -/
def segCount (n len : Nat) : Nat := (len + n - 1) / n

/-- where a cell stands -/
theorem cell_place {n r : Nat} (j : Nat) (h : r < n) : (n * j + r) / n = j ∧ (n * j + r) % n = r := by
  rw [Nat.mul_add_div (by omega), Nat.div_eq_of_lt h, Nat.mul_add_mod, Nat.mod_eq_of_lt h]
  exact ⟨rfl, rfl⟩

def segAt (n : Nat) (l : List α) (i : Nat) : Seg α where
  first := i == 0
  last := i + 1 == segCount n l.length
  bytes := (l.drop (n * i)).take n

/-- the segments of a message from the `i`th on -/
def segmentsFrom (n : Nat) (l : List α) (i : Nat) : List (Seg α) :=
  (List.range' i (segCount n l.length - i)).map (segAt n l)

theorem segAt_length (n : Nat) (l : List α) (i : Nat) :
    (segAt n l i).bytes.length = min n (l.length - n * i) := by
  simp [segAt]

theorem segCount_pos {n len : Nat} (hn : 0 < n) (hlen : 0 < len) : 0 < segCount n len :=
  Nat.div_pos (by omega) hn

theorem segCount_bounds {n len : Nat} (hn : 0 < n) (hlen : 0 < len) :
    n * (segCount n len - 1) < len ∧ len ≤ n * segCount n len := by
  have hpos := segCount_pos hn hlen
  have hmod := Nat.mod_lt (len + n - 1) hn
  have hdiv : n * segCount n len + (len + n - 1) % n = len + n - 1 := Nat.div_add_mod _ _
  have hpred : n * (segCount n len - 1) = n * segCount n len - n := by
    rw [Nat.mul_sub_one]
  have hge : n ≤ n * segCount n len := Nat.le_mul_of_pos_right n hpos
  omega

theorem segmentsFrom_succ (n : Nat) (l : List α) {i : Nat} (h : i < segCount n l.length) :
    segmentsFrom n l i = segAt n l i :: segmentsFrom n l (i + 1) := by
  unfold segmentsFrom
  obtain ⟨m, hm⟩ : ∃ m, segCount n l.length - i = m + 1 := ⟨segCount n l.length - i - 1, by omega⟩
  rw [hm, show segCount n l.length - (i + 1) = m by omega, List.range'_succ, List.map_cons]

theorem segmentsFrom_end (n : Nat) (l : List α) {i : Nat} (h : segCount n l.length ≤ i) :
    segmentsFrom n l i = [] := by
  unfold segmentsFrom
  rw [Nat.sub_eq_zero_of_le h]
  rfl

/-- the segments behind the first `i`, with the message under way as far as it has come -/
theorem collect_from {n : Nat} (hn : 0 < n) (l : List α) (ms : List (List α)) (k : Nat) :
    ∀ i, 0 < i → i + k = segCount n l.length → 0 < k →
      (segmentsFrom n l i).foldl collect ⟨ms, l.take (n * i)⟩ = ⟨ms ++ [l], []⟩ := by
  induction k with
  | zero => exact fun _ _ _ h => absurd h (Nat.lt_irrefl 0)
  | succ k ih =>
    intro i hi hk _
    have hlt : i < segCount n l.length := by omega
    have hpos : 0 < l.length := by
      by_contra hzero
      have hcount : segCount n l.length = 0 := by
        unfold segCount
        rw [show l.length = 0 by omega]
        exact Nat.div_eq_of_lt (by omega)
      omega
    have hbounds := segCount_bounds hn hpos
    have htake : l.take (n * i) ++ (l.drop (n * i)).take n = l.take (n * (i + 1)) := by
      rw [Nat.mul_succ, List.take_add]
    have hfirst : (i == 0) = false := beq_false_of_ne (by omega)
    rw [segmentsFrom_succ n l hlt, List.foldl_cons]
    by_cases hlast : i + 1 = segCount n l.length
    · have hall : l.take (n * (i + 1)) = l := by
        apply List.take_of_length_le
        rw [hlast]
        exact hbounds.2
      have hstep : collect ⟨ms, l.take (n * i)⟩ (segAt n l i) = ⟨ms ++ [l], []⟩ := by
        simp only [collect, segAt, hfirst, hlast, htake, BEq.rfl, if_true, Bool.false_eq_true,
          if_false]
        rw [← hlast, hall]
      rw [hstep, segmentsFrom_end n l (by omega)]
      rfl
    · have hbeq : (i + 1 == segCount n l.length) = false := beq_false_of_ne hlast
      have hstep : collect ⟨ms, l.take (n * i)⟩ (segAt n l i) = ⟨ms, l.take (n * (i + 1))⟩ := by
        simp only [collect, segAt, hfirst, hbeq, htake, Bool.false_eq_true, if_false]
      rw [hstep]
      exact ih (i + 1) (by omega) (by omega) (by omega)

/-- the receiver gets the message back, whatever was under way -/
theorem collect_segments {n : Nat} (hn : 0 < n) {l : List α} (hl : l ≠ []) (c : Collected α) :
    (segmentsFrom n l 0).foldl collect c = ⟨c.messages ++ [l], []⟩ := by
  have hpos : 0 < l.length := List.length_pos_of_ne_nil hl
  have hcount := segCount_pos hn hpos
  have hbounds := segCount_bounds hn hpos
  rw [segmentsFrom_succ n l hcount, List.foldl_cons]
  by_cases hone : segCount n l.length = 1
  · have hall : l.take n = l := by
      apply List.take_of_length_le
      rw [hone, Nat.mul_one] at hbounds
      exact hbounds.2
    have hstep : collect c (segAt n l 0) = ⟨c.messages ++ [l], []⟩ := by
      simp only [collect, segAt, hone, Nat.mul_zero, List.drop_zero, hall, BEq.rfl, if_true,
        List.nil_append]
    rw [hstep, segmentsFrom_end n l (by omega)]
    rfl
  · have hbeq : (0 + 1 == segCount n l.length) = false := beq_false_of_ne (by omega)
    have hstep : collect c (segAt n l 0) = ⟨c.messages, l.take (n * 1)⟩ := by
      simp only [collect, segAt, hbeq, Nat.mul_zero, List.drop_zero, Nat.mul_one, BEq.rfl, if_true,
        List.nil_append, Bool.false_eq_true, if_false]
    rw [hstep]
    exact collect_from hn l c.messages (segCount n l.length - 1) 1 Nat.one_pos (by omega) (by omega)

end

end DescRing
