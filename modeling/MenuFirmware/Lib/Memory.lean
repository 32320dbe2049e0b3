import Mathlib.Data.List.Basic
import Mathlib.Data.List.GetD
import Mathlib.Logic.Function.Basic

/-!
# Flat memory

Memory is a function from addresses; nothing stops at the end of an object.

* `slice m pos n`      the `n` cells from `pos` on;
* `memcpy m pos src`   `src` copied to `pos`;
* `slice_add`          a slice in two parts;
* `slice_windows`     a slice in windows;
* `slice_congr`        cells that agree make slices that agree;
* `slice_memcpy`      a copy to the end of a slice;
* `slice_memcpy_at`, `slice_memcpy_apart`   a copy to a slice, a copy beside it;
* `memcpy_slice_at`, `memcpy_below`, `memcpy_above`   what a copy changes and what it does not.
-/

namespace Memory

section
variable {α : Type*}

/-- the `n` cells from `pos` on -/
def slice (m : Nat → α) (pos n : Nat) : List α := (List.range n).map fun i => m (pos + i)

/-- `src` copied to the cells from `pos` on -/
def memcpy (m : Nat → α) (pos : Nat) (src : List α) : Nat → α :=
  fun i => if pos ≤ i then src.getD (i - pos) (m i) else m i

theorem slice_length (m : Nat → α) (pos n : Nat) : (slice m pos n).length = n := by
  unfold slice
  rw [List.length_map, List.length_range]

theorem slice_add (m : Nat → α) (pos k n : Nat) :
    slice m pos (k + n) = slice m pos k ++ slice m (pos + k) n := by
  unfold slice
  rw [List.range_add, List.map_append, List.map_map]
  congr 1
  apply List.map_congr_left
  intro i hi
  show m (pos + (k + i)) = m (pos + k + i)
  rw [Nat.add_assoc]

/-- `n` cells in windows of `w`, the last one as short as it must be -/
theorem slice_windows (m : Nat → α) (pos w n k : Nat) :
    ((List.range k).map fun i => slice m (pos + w * i) (min w (n - w * i))).flatten =
      slice m pos (min (w * k) n) := by
  induction k with
  | zero => rfl
  | succ k ih =>
    rw [List.range_succ, List.map_append, List.flatten_append, ih, List.map_singleton,
      List.flatten_singleton, Nat.mul_succ]
    by_cases hk : w * k ≤ n
    · rw [Nat.min_eq_left hk, ← slice_add]
      congr 1
      omega
    · rw [Nat.sub_eq_zero_of_le (by omega), Nat.min_zero, Nat.min_eq_right (by omega),
        Nat.min_eq_right (by omega)]
      exact List.append_nil _

theorem slice_succ (m : Nat → α) (pos n : Nat) :
    slice m pos (n + 1) = m pos :: slice m (pos + 1) n := by
  rw [Nat.add_comm, slice_add]
  rfl

theorem slice_congr {m m' : Nat → α} {pos n : Nat}
    (h : ∀ i < n, m (pos + i) = m' (pos + i)) : slice m pos n = slice m' pos n := by
  apply List.map_congr_left
  intro i hi
  exact h i (List.mem_range.1 hi)

theorem slice_const {m : Nat → α} {pos n : Nat} {x : α} (h : ∀ i < n, m (pos + i) = x) :
    slice m pos n = List.replicate n x := by
  have hconst : slice m pos n = slice (fun _ => x) pos n := slice_congr h
  rw [hconst]
  unfold slice
  rw [List.map_const', List.length_range]

theorem slice_getD (m : Nat → α) (pos : Nat) {n i : Nat} (hi : i < n) (d : α) :
    (slice m pos n).getD i d = m (pos + i) := by
  unfold slice
  rw [List.getD_eq_getElem _ _ (by simpa using hi), List.getElem_map, List.getElem_range]

theorem slice_update (m : Nat → α) (i n : Nat) (x : α) :
    slice (Function.update m i x) 0 n = (slice m 0 n).set i x := by
  apply List.ext_getElem
  · rw [List.length_set, slice_length, slice_length]
  · intro j h1 h2
    have hget : ∀ (m' : Nat → α) (h : j < (slice m' 0 n).length), (slice m' 0 n)[j] = m' j := by
      intro m' h
      simp [slice]
    rw [hget, List.getElem_set, hget]
    by_cases hj : i = j
    · rw [hj, Function.update_self, if_pos rfl]
    · rw [Function.update_of_ne (Ne.symm hj), if_neg hj]

theorem memcpy_below (m : Nat → α) {pos i : Nat} (src : List α) (h : i < pos) :
    memcpy m pos src i = m i := if_neg (Nat.not_le.2 h)

theorem memcpy_above (m : Nat → α) {pos i : Nat} {src : List α} (h : pos + src.length ≤ i) :
    memcpy m pos src i = m i := by
  unfold memcpy
  rw [if_pos (by omega), List.getD_eq_default _ _ (by omega)]

theorem memcpy_at (m : Nat → α) {pos i : Nat} {src : List α} (h : i < src.length) (d : α) :
    memcpy m pos src (pos + i) = src.getD i d := by
  unfold memcpy
  rw [if_pos (Nat.le_add_right _ _), Nat.add_sub_cancel_left, List.getD_eq_getElem _ _ h,
    List.getD_eq_getElem _ _ h]

theorem memcpy_replicate (m : Nat → α) (x : α) {n i : Nat} (h : i < n) :
    memcpy m 0 (List.replicate n x) i = x := by
  unfold memcpy
  rw [if_pos (Nat.zero_le i), Nat.sub_zero, List.getD_replicate _ h]

theorem memcpy_nil (m : Nat → α) (pos : Nat) : memcpy m pos [] = m := by
  funext i
  unfold memcpy
  rw [List.getD_nil, ite_self]

theorem slice_memcpy_at (m : Nat → α) (pos : Nat) {n : Nat} {src : List α} (h : src.length = n) :
    slice (memcpy m pos src) pos n = src := by
  subst h
  apply List.ext_getElem (slice_length _ _ _)
  intro i h1 h2
  have hd : (slice (memcpy m pos src) pos src.length)[i] = memcpy m pos src (pos + i) := by
    simp [slice]
  rw [hd, memcpy_at m h2 src[i], List.getD_eq_getElem _ _ h2]

/-- a copy beside a slice -/
theorem slice_memcpy_apart (m : Nat → α) {pos pos' n : Nat} {src : List α}
    (h : pos' + n ≤ pos ∨ pos + src.length ≤ pos') :
    slice (memcpy m pos src) pos' n = slice m pos' n := by
  apply slice_congr
  intro i hi
  rcases h with h | h
  · exact memcpy_below m src (by omega)
  · exact memcpy_above m (by omega)

/-- a copy to the end of a slice makes it longer -/
theorem slice_memcpy (m : Nat → α) (pos : Nat) (src : List α) :
    slice (memcpy m pos src) 0 (pos + src.length) = slice m 0 pos ++ src := by
  rw [slice_add, slice_memcpy_apart m (Or.inl (Nat.le_of_eq (Nat.zero_add pos))), Nat.zero_add,
    slice_memcpy_at m pos rfl]

theorem memcpy_slice_at (m m' : Nat → α) (pos pos' : Nat) {n i : Nat} (h : i < n) :
    memcpy m pos (slice m' pos' n) (pos + i) = m' (pos' + i) := by
  unfold memcpy
  rw [if_pos (Nat.le_add_right _ _), Nat.add_sub_cancel_left, slice_getD m' pos' h]

end

end Memory
