import Mathlib.Data.List.Basic

/-!
# A list in blocks

A list is cut into blocks of `n`; what does not fill a block is the rest.

* `blocks n l`, `rest n l`   the blocks and the rest;
* `blocks_flatten_rest`      together they are the list;
* `blocks_append_of_lt`, `blocks_append_of_eq`  what more elements do: they lengthen the rest, or
                             complete it to a block.
-/

set_option linter.unusedSectionVars false

namespace Blocks

section
variable {α : Type*} (n : Nat)

def blocks (l : List α) : List (List α) :=
  (List.range (l.length / n)).map fun i => (l.drop (n * i)).take n

def rest (l : List α) : List α := l.drop (n * (l.length / n))

theorem blocks_length (l : List α) : (blocks n l).length = l.length / n := by
  unfold blocks
  rw [List.length_map, List.length_range]

theorem rest_length (l : List α) : (rest n l).length = l.length % n := by
  have h := Nat.div_add_mod l.length n
  unfold rest
  rw [List.length_drop]
  omega

theorem take_blocks (l : List α) (k : Nat) :
    ((List.range k).map fun i => (l.drop (n * i)).take n).flatten = l.take (n * k) := by
  induction k with
  | zero => rfl
  | succ k ih =>
    rw [List.range_succ, List.map_append, List.flatten_append, ih, Nat.mul_succ, List.take_add]
    simp

theorem blocks_flatten_rest (l : List α) : (blocks n l).flatten ++ rest n l = l := by
  unfold blocks rest
  rw [take_blocks, List.take_append_drop]

variable {n}

/-- a block ends within the list -/
theorem block_end {l : List α} {i : Nat} (h : i < l.length / n) : n * i + n ≤ l.length := by
  have hle : n * (i + 1) ≤ l.length :=
    Nat.le_trans (Nat.mul_le_mul_left n h) (Nat.mul_div_le l.length n)
  rwa [Nat.mul_succ] at hle

theorem length_of_mem_blocks {l b : List α} (h : b ∈ blocks n l) : b.length = n := by
  obtain ⟨i, hi, rfl⟩ := List.mem_map.1 h
  have hend := block_end (List.mem_range.1 hi)
  rw [List.length_take, List.length_drop]
  omega

/-- the blocks of a longer list begin with those of the shorter -/
theorem blocks_of_append (l m : List α) :
    ((List.range (l.length / n)).map fun i => ((l ++ m).drop (n * i)).take n) = blocks n l := by
  apply List.map_congr_left
  intro i hi
  have hend := block_end (List.mem_range.1 hi)
  rw [List.drop_append_of_le_length (by omega), List.take_append_of_le_length]
  rw [List.length_drop]
  omega

theorem blocks_append_of_lt (l m : List α) (h : l.length % n + m.length < n) :
    blocks n (l ++ m) = blocks n l := by
  have hdiv : (l ++ m).length / n = l.length / n := by
    have hn : 0 < n := by omega
    have hl := Nat.div_add_mod l.length n
    rw [List.length_append]
    refine Nat.div_eq_of_lt_le ?_ ?_
    · rw [Nat.mul_comm]
      omega
    · rw [Nat.add_mul, Nat.mul_comm, Nat.one_mul]
      omega
  rw [← blocks_of_append l m]
  unfold blocks
  rw [hdiv]

theorem rest_append_of_lt (l m : List α) (h : l.length % n + m.length < n) :
    rest n (l ++ m) = rest n l ++ m := by
  have hall := blocks_flatten_rest n (l ++ m)
  rw [blocks_append_of_lt l m h] at hall
  refine List.append_cancel_left (hall.trans ?_)
  rw [← List.append_assoc, blocks_flatten_rest]

theorem blocks_append_of_eq (l m : List α) (hn : 0 < n) (h : l.length % n + m.length = n) :
    blocks n (l ++ m) = blocks n l ++ [rest n l ++ m] := by
  have hl := Nat.div_add_mod l.length n
  have hdiv : (l ++ m).length / n = l.length / n + 1 := by
    rw [List.length_append]
    refine Nat.div_eq_of_lt_le ?_ ?_
    · rw [Nat.add_mul, Nat.mul_comm, Nat.one_mul]
      omega
    · rw [Nat.add_mul, Nat.add_mul, Nat.mul_comm, Nat.one_mul]
      omega
  have hlast : ((l ++ m).drop (n * (l.length / n))).take n = rest n l ++ m := by
    rw [List.drop_append_of_le_length (by omega)]
    apply List.take_of_length_le
    rw [List.length_append, List.length_drop]
    omega
  unfold blocks
  rw [hdiv, List.range_succ, List.map_append, List.map_singleton, hlast]
  exact congrArg (· ++ [rest n l ++ m]) (blocks_of_append l m)

end

end Blocks
