import Mathlib.Data.List.Induction
import Mathlib.Data.List.ReduceOption
import MenuFirmware.Lib.Run

/-!
# What a run answers

A system that answers every event: `step : σ → α → σ` and `out : σ → α → β`.

* `outputs step out s as`   the answers to the events `as`, in order;
* `run_simulation`, `outputs_simulation`   two systems whose steps keep a relation and answer the
                            same from related states: the relation holds at the end, the answers
                            are equal;
* `Along_simulation`        the same for steps under a guard;
* `emitted step out s as`   the messages of a system that does not answer every event;
* `emitted_concat`          the event that emitted the last message.
-/

namespace Runs

section
variable {σ τ α β : Type*} (step : σ → α → σ) (out : σ → α → β)

/-- the answers to the events `as` -/
def outputs : σ → List α → List β
  | _, [] => []
  | s, a :: as => out s a :: outputs (step s a) as

theorem outputs_nil (s : σ) : outputs step out s [] = [] := rfl
theorem outputs_cons (s : σ) (a : α) (as : List α) :
    outputs step out s (a :: as) = out s a :: outputs step out (step s a) as := rfl

theorem outputs_append (s : σ) (as bs : List α) :
    outputs step out s (as ++ bs) = outputs step out s as ++ outputs step out (run step s as) bs := by
  induction as generalizing s with
  | nil => rfl
  | cons a as ih => rw [List.cons_append, outputs_cons, outputs_cons, run_cons, ih, List.cons_append]

theorem outputs_snoc (s : σ) (as : List α) (a : α) :
    outputs step out s (as ++ [a]) = outputs step out s as ++ [out (run step s as) a] := by
  rw [outputs_append, outputs_cons, outputs_nil]

theorem run_snoc (s : σ) (as : List α) (a : α) :
    run step s (as ++ [a]) = step (run step s as) a := by
  rw [run_append, run_cons, run_nil]

variable {step out}

theorem Always_snoc {P : σ → Prop} (s : σ) (as : List α) (a : α) :
    Always step P s (as ++ [a]) ↔ Always step P s as ∧ P (run step s (as ++ [a])) := by
  induction as generalizing s with
  | nil => exact Iff.rfl
  | cons b as ih =>
    show P s ∧ Always step P (step s b) (as ++ [a]) ↔ _
    rw [ih]
    exact and_assoc.symm

variable {step' : τ → α → τ} {out' : τ → α → β} {R : σ → τ → Prop}

theorem run_simulation (hstep : ∀ s t a, R s t → R (step s a) (step' t a)) {s : σ} {t : τ}
    (h0 : R s t) (as : List α) : R (run step s as) (run step' t as) := by
  induction as generalizing s t with
  | nil => exact h0
  | cons a as ih => exact ih (hstep s t a h0)

theorem outputs_simulation (hstep : ∀ s t a, R s t → R (step s a) (step' t a))
    (hout : ∀ s t a, R s t → out s a = out' t a) {s : σ} {t : τ} (h0 : R s t) (as : List α) :
    outputs step out s as = outputs step' out' t as := by
  induction as generalizing s t with
  | nil => rfl
  | cons a as ih => rw [outputs_cons, outputs_cons, hout s t a h0, ih (hstep s t a h0)]

/-- steps that keep the relation only where they meet their guards: the guards of the two runs are
met together -/
theorem Along_simulation {G : σ → α → Prop} {G' : τ → α → Prop}
    (hG : ∀ s t a, R s t → (G s a ↔ G' t a))
    (hstep : ∀ s t a, R s t → G s a → R (step s a) (step' t a)) {s : σ} {t : τ} (h0 : R s t)
    (as : List α) : Along step G s as ↔ Along step' G' t as := by
  induction as generalizing s t with
  | nil => exact Iff.rfl
  | cons a as ih =>
    show G s a ∧ Along step G (step s a) as ↔ G' t a ∧ Along step' G' (step' t a) as
    rw [← hG s t a h0]
    exact and_congr_right fun hg => ih (hstep s t a h0 hg)

/-! ## systems that do not answer every event -/

variable (step) (msg : σ → α → Option β)

/-- the messages emitted on the events `as` -/
def emitted (s : σ) (as : List α) : List β := (outputs step msg s as).reduceOption

theorem emitted_nil (s : σ) : emitted step msg s [] = [] := rfl

theorem emitted_append (s : σ) (as bs : List α) :
    emitted step msg s (as ++ bs) = emitted step msg s as ++ emitted step msg (run step s as) bs := by
  unfold emitted
  rw [outputs_append, List.reduceOption_append]

variable {step msg}

theorem emitted_cons_some {s : σ} {a : α} {b : β} (h : msg s a = some b) (as : List α) :
    emitted step msg s (a :: as) = b :: emitted step msg (step s a) as := by
  unfold emitted
  rw [outputs_cons, h, List.reduceOption_cons_of_some]

theorem emitted_cons_none {s : σ} {a : α} (h : msg s a = none) (as : List α) :
    emitted step msg s (a :: as) = emitted step msg (step s a) as := by
  unfold emitted
  rw [outputs_cons, h, List.reduceOption_cons_of_none]

theorem emitted_snoc_some {s : σ} {as : List α} {a : α} {b : β}
    (h : msg (run step s as) a = some b) :
    emitted step msg s (as ++ [a]) = emitted step msg s as ++ [b] := by
  rw [emitted_append, emitted_cons_some h, emitted_nil]

theorem emitted_snoc_none {s : σ} {as : List α} {a : α} (h : msg (run step s as) a = none) :
    emitted step msg s (as ++ [a]) = emitted step msg s as := by
  rw [emitted_append, emitted_cons_none h, emitted_nil, List.append_nil]

theorem emitted_simulation {step' : τ → β → τ}
    (hsome : ∀ s t a b, R s t → msg s a = some b → R (step s a) (step' t b))
    (hnone : ∀ s t a, R s t → msg s a = none → R (step s a) t) {s : σ} {t : τ} (h0 : R s t)
    (as : List α) : R (run step s as) (run step' t (emitted step msg s as)) := by
  induction as generalizing s t with
  | nil => exact h0
  | cons a as ih =>
    cases hm : msg s a with
    | none =>
      rw [emitted_cons_none hm]
      exact ih (hnone s t a h0 hm)
    | some b =>
      rw [emitted_cons_some hm]
      exact ih (hsome s t a b h0 hm)

/-- where the last message comes from -/
theorem emitted_concat {s : σ} {as : List α} {l : List β} {b : β}
    (h : emitted step msg s as = l ++ [b]) :
    ∃ as' a, as' ++ [a] <+: as ∧ emitted step msg s as' = l ∧ msg (run step s as') a = some b := by
  induction as using List.reverseRecOn with
  | nil => exact absurd h.symm (List.append_ne_nil_of_right_ne_nil l (List.cons_ne_nil b []))
  | append_singleton as a ih =>
    cases hm : msg (run step s as) a with
    | none =>
      rw [emitted_snoc_none hm] at h
      obtain ⟨as', a', hpre, he, hb⟩ := ih h
      exact ⟨as', a', hpre.trans (List.prefix_append as [a]), he, hb⟩
    | some c =>
      rw [emitted_snoc_some hm] at h
      obtain ⟨he, hc⟩ := List.append_inj' h rfl
      exact ⟨as, a, List.prefix_rfl, he, hm.trans (congrArg some (List.cons.inj hc).1)⟩

end

end Runs
