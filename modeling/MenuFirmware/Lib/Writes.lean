import Mathlib.Data.List.Nodup
import Mathlib.Logic.Function.Basic

/-!
# Lists of writes

A table is a function from keys to values; a list of writes changes it entry by entry, so that a
key holds the last value written to it.

* `applyAll f ws`        the table `f` after the writes `ws`;
* `applyAll_outside`     a key that is not written keeps its value;
* `applyAll_mem`         with distinct keys every write is the last to its key.
-/

set_option linter.unusedSectionVars false

namespace Writes

section
variable {κ β : Type*} [DecidableEq κ]

def applyAll (f : κ → β) (ws : List (κ × β)) : κ → β :=
  ws.foldl (fun f w => Function.update f w.1 w.2) f

theorem applyAll_cons (f : κ → β) (w : κ × β) (ws : List (κ × β)) :
    applyAll f (w :: ws) = applyAll (Function.update f w.1 w.2) ws := rfl
theorem applyAll_append (f : κ → β) (a b : List (κ × β)) :
    applyAll f (a ++ b) = applyAll (applyAll f a) b := by
  simp [applyAll, List.foldl_append]

theorem applyAll_outside (f : κ → β) (ws : List (κ × β)) (k : κ) (h : k ∉ ws.map Prod.fst) :
    applyAll f ws k = f k := by
  induction ws generalizing f with
  | nil => rfl
  | cons w ws ih =>
    rw [List.map_cons, List.mem_cons, not_or] at h
    rw [applyAll_cons, ih _ h.2, Function.update_of_ne h.1]

theorem applyAll_mem (f : κ → β) (ws : List (κ × β)) (k : κ) (v : β) (h : (k, v) ∈ ws)
    (hd : (ws.map Prod.fst).Nodup) : applyAll f ws k = v := by
  induction ws generalizing f with
  | nil => exact absurd h List.not_mem_nil
  | cons w ws ih =>
    rw [List.map_cons, List.nodup_cons] at hd
    rw [applyAll_cons]
    rcases List.mem_cons.1 h with rfl | h
    · rw [applyAll_outside _ _ _ hd.1, Function.update_self]
    · exact ih _ h hd.2

end

end Writes
