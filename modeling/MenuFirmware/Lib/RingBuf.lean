import Mathlib.Data.List.Basic
import Mathlib.Data.Nat.ModEq
import Mathlib.Logic.Function.Basic

/-!
# Ring buffers without a count

A ring of `N` slots with a read and a write index.  The two are equal when the ring is empty, and
again when `N` elements have been written, which it cannot tell apart.

* `RingBuf`           slots and indices, the indices in range;
* `count`, `contents` the elements from the read index on, up to the write index;
* `push`, `pop`       neither checks anything;
* `segment`           the `count` elements of a ring from `pos` on, for rings that keep a count;
* `contents_push`     an element joins at the end, as long as a slot stays free;
* `contents_push_full`  LOSS: the element that takes the last slot empties the ring;
* `contents_pop`      the first element leaves.
-/

set_option linter.unusedSectionVars false

structure RingBuf (α : Type*) (N : Nat) where
  slots : Nat → α
  read : Nat
  write : Nat
  read_lt : read < N
  write_lt : write < N

namespace RingBuf

section
variable {α : Type*} {N : Nat}

theorem size_pos (r : RingBuf α N) : 0 < N := Nat.lt_of_le_of_lt (Nat.zero_le _) r.read_lt

def push (r : RingBuf α N) (x : α) : RingBuf α N where
  slots := Function.update r.slots r.write x
  read := r.read
  write := (r.write + 1) % N
  read_lt := r.read_lt
  write_lt := Nat.mod_lt _ r.size_pos

def pop (r : RingBuf α N) : RingBuf α N where
  slots := r.slots
  read := (r.read + 1) % N
  write := r.write
  read_lt := Nat.mod_lt _ r.size_pos
  write_lt := r.write_lt

/-- the distance from the read to the write index -/
def count (r : RingBuf α N) : Nat := (r.write + (N - r.read)) % N

def contents (r : RingBuf α N) : List α :=
  (List.range r.count).map fun i => r.slots ((r.read + i) % N)

theorem push_pop (r : RingBuf α N) (x : α) : (r.push x).pop = r.pop.push x := rfl

theorem count_lt (r : RingBuf α N) : r.count < N := Nat.mod_lt _ r.size_pos

theorem contents_length (r : RingBuf α N) : r.contents.length = r.count := by
  unfold contents
  rw [List.length_map, List.length_range]

/-! ## indices -/

/-- one step further round the ring -/
theorem succ_mod {a : Nat} (h : a < N) : (a + 1) % N = if a + 1 = N then 0 else a + 1 := by
  by_cases e : a + 1 = N
  · rw [if_pos e, e, Nat.mod_self]
  · rw [if_neg e, Nat.mod_eq_of_lt (by omega)]

theorem count_eq (r : RingBuf α N) :
    r.count = if r.read ≤ r.write then r.write - r.read else r.write + N - r.read := by
  have hr := r.read_lt
  have hw := r.write_lt
  unfold count
  by_cases h : r.read ≤ r.write
  · rw [if_pos h]
    have e : r.write + (N - r.read) = (r.write - r.read) + N := by omega
    rw [e, Nat.add_mod_right, Nat.mod_eq_of_lt (by omega)]
  · rw [if_neg h, Nat.mod_eq_of_lt (by omega)]
    omega

theorem count_eq_zero (r : RingBuf α N) : r.count = 0 ↔ r.read = r.write := by
  have hr := r.read_lt
  have hw := r.write_lt
  rw [count_eq]
  by_cases h : r.read ≤ r.write
  · rw [if_pos h]
    omega
  · rw [if_neg h]
    omega

theorem contents_eq_nil (r : RingBuf α N) : r.contents = [] ↔ r.read = r.write := by
  rw [← List.length_eq_zero_iff, contents_length, count_eq_zero]

theorem count_push (r : RingBuf α N) (x : α) : (r.push x).count = (r.count + 1) % N := by
  have hr := r.read_lt
  have hw := r.write_lt
  have hc := r.count_lt
  have hrp : (r.push x).read = r.read := rfl
  have hwp : (r.push x).write = (r.write + 1) % N := rfl
  rw [succ_mod hc, count_eq, count_eq, hrp, hwp, succ_mod hw]
  split_ifs <;> omega

theorem count_pop (r : RingBuf α N) (h : r.read ≠ r.write) : r.pop.count + 1 = r.count := by
  have hr := r.read_lt
  have hw := r.write_lt
  have hrp : r.pop.read = (r.read + 1) % N := rfl
  have hwp : r.pop.write = r.write := rfl
  rw [count_eq, count_eq, hrp, hwp, succ_mod hr]
  split_ifs <;> omega

/-- the slot that is written next is `count` slots behind the first -/
theorem write_eq (r : RingBuf α N) : (r.read + r.count) % N = r.write := by
  have hr := r.read_lt
  have hw := r.write_lt
  rw [count_eq]
  by_cases h : r.read ≤ r.write
  · rw [if_pos h, Nat.mod_eq_of_lt (by omega)]
    omega
  · rw [if_neg h]
    have e : r.read + (r.write + N - r.read) = r.write + N := by omega
    rw [e, Nat.add_mod_right, Nat.mod_eq_of_lt hw]

theorem index_ne {r i j : Nat} (hj : j < N) (h : i < j) : (r + i) % N ≠ (r + j) % N := by
  intro e
  have hij : i ≡ j [MOD N] := Nat.ModEq.add_left_cancel' r e
  exact absurd (hij.eq_of_lt_of_lt (Nat.lt_trans h hj) hj) (Nat.ne_of_lt h)

/-! ## segments of a ring -/

/-- the `count` elements of a ring of `N` slots from `pos` on -/
def segment (slots : Nat → α) (N pos count : Nat) : List α :=
  (List.range count).map fun i => slots ((pos + i) % N)

theorem segment_length (slots : Nat → α) (N pos count : Nat) :
    (segment slots N pos count).length = count := by
  unfold segment
  rw [List.length_map, List.length_range]

theorem segment_push (slots : Nat → α) (pos : Nat) {count : Nat} (x : α) (h : count < N) :
    segment (Function.update slots ((pos + count) % N) x) N pos (count + 1) =
      segment slots N pos count ++ [x] := by
  unfold segment
  rw [List.range_succ, List.map_append, List.map_singleton, Function.update_self]
  congr 1
  apply List.map_congr_left
  intro i hi
  exact Function.update_of_ne (index_ne h (List.mem_range.1 hi)) ..

theorem segment_pop (slots : Nat → α) (N pos count : Nat) :
    segment slots N pos (count + 1) =
      slots (pos % N) :: segment slots N ((pos + 1) % N) count := by
  unfold segment
  rw [List.range_succ_eq_map, List.map_cons, List.map_map, Nat.add_zero]
  congr 1
  apply List.map_congr_left
  intro i _
  show slots ((pos + (i + 1)) % N) = slots (((pos + 1) % N + i) % N)
  rw [Nat.mod_add_mod, Nat.add_assoc, Nat.add_comm 1 i]

/-! ## contents -/

theorem contents_eq_segment (r : RingBuf α N) :
    r.contents = segment r.slots N r.read r.count := rfl

theorem contents_push (r : RingBuf α N) (x : α) (h : r.count + 1 < N) :
    (r.push x).contents = r.contents ++ [x] := by
  have hc : (r.push x).count = r.count + 1 := by rw [count_push, Nat.mod_eq_of_lt h]
  rw [contents_eq_segment, contents_eq_segment, hc, ← segment_push r.slots r.read x r.count_lt,
    write_eq]
  rfl

theorem contents_push_full (r : RingBuf α N) (x : α) (h : r.count + 1 = N) :
    (r.push x).contents = [] := by
  have hc : (r.push x).count = 0 := by rw [count_push, h, Nat.mod_self]
  unfold contents
  rw [hc]
  rfl

theorem contents_pop (r : RingBuf α N) (h : r.read ≠ r.write) :
    r.contents = r.slots r.read :: r.pop.contents := by
  rw [contents_eq_segment, contents_eq_segment, ← count_pop r h, segment_pop,
    Nat.mod_eq_of_lt r.read_lt]
  rfl

/-- a slot that is being read keeps its element while another slot stays free behind it -/
theorem slot_push (r : RingBuf α N) (x : α) (h : r.pop.count + 1 < N) :
    (r.push x).slots r.read = r.slots r.read := by
  have hne : r.read ≠ r.write := by
    intro e
    have hr := r.read_lt
    have hrp : r.pop.read = (r.read + 1) % N := rfl
    have hwp : r.pop.write = r.write := rfl
    rw [count_eq, hrp, hwp, succ_mod hr] at h
    split_ifs at h <;> omega
  exact Function.update_of_ne hne ..

end

end RingBuf
