import MenuFirmware.Lib.Trace

/-!
# A queue in front of a line

Elements are put at one end and sent one at a time from the other: a line that is free takes the
next element at once.

* `Sender α N`         at most `N` elements wait, and none does while the line is free;
* `put`, `done`        an element is put (unless `N` wait), the line has finished one;
* `Sender.conservation`  what was put is what was sent, then what is on the line, then what waits;
* `Sender.drained`     when the line has finished often enough, everything put has been sent.
-/

structure Sender (α : Type*) (N : Nat) where
  waiting : List α
  /-- what is on the line -/
  sending : Option α
  sent : List α
  length_le : waiting.length ≤ N
  busy_of_waiting : sending = none → waiting = []

inductive SenderOp (α : Type*) where
  | put (x : α)
  | done

namespace Sender
open Runs

section
variable {α : Type*} {N : Nat}

def empty : Sender α N := ⟨[], none, [], Nat.zero_le N, fun _ => rfl⟩

/-- a full queue does not take the element; a free line takes it past the queue -/
def put (q : Sender α N) (x : α) : Sender α N :=
  if h : q.waiting.length < N then
    match hs : q.sending with
    | none => ⟨[], some x, q.sent, Nat.zero_le N, fun e => nomatch e⟩
    | some y =>
      ⟨q.waiting ++ [x], some y, q.sent,
        by rw [List.length_append, List.length_singleton]; exact h, fun e => nomatch e⟩
  else q

/-- the line has finished its element and takes the next one -/
def done (q : Sender α N) : Sender α N where
  waiting := q.waiting.tail
  sending := q.waiting.head?
  sent := q.sent ++ q.sending.toList
  length_le := by
    rw [List.length_tail]
    exact Nat.le_trans (Nat.sub_le _ _) q.length_le
  busy_of_waiting h := by
    rw [List.head?_eq_none_iff.1 h, List.tail_nil]

def step (q : Sender α N) : SenderOp α → Sender α N
  | .put x => q.put x
  | .done => q.done

/-- the elements that are taken on the operations `ops` -/
def takes (q : Sender α N) : SenderOp α → Option α
  | .put x => if q.waiting.length < N then some x else none
  | .done => none

/-- everything that has been taken: sent, on the line, waiting -/
def all (q : Sender α N) : List α := q.sent ++ q.sending.toList ++ q.waiting

theorem put_full {q : Sender α N} (h : ¬ q.waiting.length < N) (x : α) : q.put x = q := by
  unfold put
  rw [dif_neg h]

theorem put_free {q : Sender α N} (h : q.waiting.length < N) (hs : q.sending = none) (x : α) :
    (q.put x).waiting = [] ∧ (q.put x).sending = some x ∧ (q.put x).sent = q.sent := by
  unfold put
  rw [dif_pos h]
  split
  · exact ⟨rfl, rfl, rfl⟩
  · next y hy => rw [hs] at hy; cases hy

theorem put_busy {q : Sender α N} {y : α} (h : q.waiting.length < N) (hs : q.sending = some y)
    (x : α) : (q.put x).waiting = q.waiting ++ [x] ∧ (q.put x).sending = some y ∧
      (q.put x).sent = q.sent := by
  unfold put
  rw [dif_pos h]
  split
  · next hn => rw [hs] at hn; cases hn
  · next z hz =>
    rw [hs] at hz
    exact ⟨rfl, hz.symm, rfl⟩

theorem all_put {q : Sender α N} (h : q.waiting.length < N) (x : α) :
    (q.put x).all = q.all ++ [x] := by
  unfold all
  cases hs : q.sending with
  | none =>
    obtain ⟨hw, hn, hd⟩ := put_free h hs x
    rw [hw, hn, hd, q.busy_of_waiting hs, List.append_nil, List.append_nil, Option.toList_none,
      List.append_nil, Option.toList_some]
  | some y =>
    obtain ⟨hw, hn, hd⟩ := put_busy h hs x
    rw [hw, hn, hd, List.append_assoc, List.append_assoc, List.append_assoc]

theorem all_done (q : Sender α N) : q.done.all = q.all := by
  show q.sent ++ q.sending.toList ++ q.waiting.head?.toList ++ q.waiting.tail = _
  rw [List.append_assoc (q.sent ++ q.sending.toList)]
  unfold all
  congr 1
  cases q.waiting with
  | nil => rfl
  | cons x xs => rfl

/-- what one operation adds -/
theorem all_step (q : Sender α N) (op : SenderOp α) :
    (q.step op).all = q.all ++ (q.takes op).toList := by
  cases op with
  | put x =>
    show (q.put x).all = q.all ++ (if q.waiting.length < N then some x else none).toList
    by_cases h : q.waiting.length < N
    · rw [if_pos h, all_put h, Option.toList_some]
    · rw [if_neg h, put_full h, Option.toList_none, List.append_nil]
  | done =>
    show q.done.all = q.all ++ []
    rw [all_done, List.append_nil]

/-- **Conservation.**  What has been taken is what was sent, in the same order, followed by what is
on the line and what waits. -/
theorem conservation (ops : List (SenderOp α)) :
    (run step (empty : Sender α N) ops).all = emitted step takes (empty : Sender α N) ops := by
  induction ops using List.reverseRecOn with
  | nil => rfl
  | append_singleton ops op ih =>
    rw [run_snoc, all_step, ih]
    cases h : takes (run step (empty : Sender α N) ops) op with
    | none => rw [emitted_snoc_none h, Option.toList_none, List.append_nil]
    | some x => rw [emitted_snoc_some h, Option.toList_some]

/-! ## sending the rest -/

/-- the elements that are not yet sent -/
def left (q : Sender α N) : Nat := q.waiting.length + q.sending.toList.length

theorem left_done (q : Sender α N) : q.done.left = q.left - 1 := by
  show q.waiting.tail.length + q.waiting.head?.toList.length = _
  unfold left
  cases hs : q.sending with
  | none =>
    rw [q.busy_of_waiting hs]
    rfl
  | some y =>
    cases q.waiting with
    | nil => rfl
    | cons x xs => rfl

theorem sent_of_left {q : Sender α N} (h : q.left = 0) : q.sent = q.all := by
  unfold left at h
  have hw : q.waiting = [] := List.eq_nil_of_length_eq_zero (by omega)
  have hs : q.sending.toList = [] := List.eq_nil_of_length_eq_zero (by omega)
  unfold all
  rw [hw, hs, List.append_nil, List.append_nil]

/-- **Nothing is kept back.**  Once the line has finished often enough, all that was taken has been
sent. -/
theorem drained (q : Sender α N) {n : Nat} (h : q.left ≤ n) :
    (run step q (List.replicate n .done)).sent = q.all := by
  induction n generalizing q with
  | zero => exact sent_of_left (Nat.le_zero.1 h)
  | succ n ih =>
    show (run step q.done (List.replicate n .done)).sent = q.all
    rw [ih q.done (by rw [left_done]; omega), all_done]

end

end Sender
