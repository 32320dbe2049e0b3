import MenuFirmware.Lib.Trace

/-!
# A bounded queue

* `Fifo α N`        a list of at most `N` elements: `push` at the end, dropped when `N` are
                    pending; `pop` at the front; `clear`;
* `Fifo.conservation`  what was accepted since the last clear is what was read since then, in
                    order, followed by what is pending.
-/

/-- at most `N` elements, the oldest first -/
structure Fifo (α : Type*) (N : Nat) where
  items : List α
  length_le : items.length ≤ N

/-- what can be asked of a queue -/
inductive FifoOp (α : Type*) where
  | push (x : α)
  | pop
  | clear

namespace Fifo

section
variable {α : Type*} {N : Nat}

def empty : Fifo α N := ⟨[], Nat.zero_le N⟩

/-- a full queue drops the element -/
def push (q : Fifo α N) (x : α) : Fifo α N :=
  if h : q.items.length < N then
    ⟨q.items ++ [x], by rw [List.length_append, List.length_singleton]; exact h⟩
  else q

def pop (q : Fifo α N) : Fifo α N :=
  ⟨q.items.tail, by
    rw [List.length_tail]
    exact Nat.le_trans (Nat.sub_le _ _) q.length_le⟩

def step (q : Fifo α N) : FifoOp α → Fifo α N
  | .push x => q.push x
  | .pop => q.pop
  | .clear => empty

/-- what a `pop` reads: the oldest element, if there is one -/
def read (q : Fifo α N) : FifoOp α → Option α
  | .push _ => none
  | .pop => q.items.head?
  | .clear => none

theorem ext_items {q r : Fifo α N} (h : q.items = r.items) : q = r := by
  cases q
  cases r
  cases h
  rfl

theorem items_pop (q : Fifo α N) : q.pop.items = q.items.tail := rfl

theorem items_push_of_lt {q : Fifo α N} (h : q.items.length < N) (x : α) :
    (q.push x).items = q.items ++ [x] := by
  unfold push
  rw [dif_pos h]

theorem push_of_full {q : Fifo α N} (h : q.items.length = N) (x : α) : q.push x = q := by
  unfold push
  rw [dif_neg (by omega)]

theorem mem_push {q : Fifo α N} {x y : α} (h : y ∈ (q.push x).items) : y ∈ q.items ∨ y = x := by
  by_cases hx : q.items.length < N
  · rw [items_push_of_lt hx] at h
    exact (List.mem_append.1 h).imp_right List.mem_singleton.1
  · rw [push_of_full (Nat.le_antisymm q.length_le (Nat.not_lt.1 hx))] at h
    exact Or.inl h

/-! ## what goes in and what comes out -/

/-- the elements accepted since the last clear; `acc` is what was accepted before -/
def accepted : Fifo α N → List α → List (FifoOp α) → List α
  | _, acc, [] => acc
  | q, acc, .push x :: ops =>
    accepted (q.push x) (if q.items.length < N then acc ++ [x] else acc) ops
  | q, acc, .pop :: ops => accepted q.pop acc ops
  | _, _, .clear :: ops => accepted empty [] ops

/-- the elements read since the last clear; `got` is what was read before -/
def delivered : Fifo α N → List α → List (FifoOp α) → List α
  | _, got, [] => got
  | q, got, .push x :: ops => delivered (q.push x) got ops
  | q, got, .pop :: ops => delivered q.pop (got ++ q.items.head?.toList) ops
  | _, _, .clear :: ops => delivered empty [] ops

theorem conservation_from (q : Fifo α N) (acc got : List α) (ops : List (FifoOp α))
    (h : acc = got ++ q.items) :
    accepted q acc ops = delivered q got ops ++ (Runs.run step q ops).items := by
  induction ops generalizing q acc got with
  | nil => exact h
  | cons op ops ih =>
    cases op with
    | push x =>
      refine ih (q.push x) _ got ?_
      by_cases hx : q.items.length < N
      · rw [if_pos hx, items_push_of_lt hx, h, List.append_assoc]
      · rw [if_neg hx, push_of_full (Nat.le_antisymm q.length_le (Nat.not_lt.1 hx)), h]
    | pop =>
      refine ih q.pop acc _ ?_
      rw [h, items_pop, List.append_assoc]
      cases q.items with
      | nil => rfl
      | cons x xs => rfl
    | clear => exact ih empty [] [] rfl

/-- **Conservation.**  What was accepted since the last clear is what was read since then, in the
same order, followed by what is still pending. -/
theorem conservation (ops : List (FifoOp α)) :
    accepted (empty : Fifo α N) [] ops =
      delivered (empty : Fifo α N) [] ops ++ (Runs.run step (empty : Fifo α N) ops).items :=
  conservation_from empty [] [] ops rfl

end

end Fifo
