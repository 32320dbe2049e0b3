import Mathlib.Data.List.Basic

/-!
# Runs of a deterministic step function

A system is a step function `step : σ → α → σ` from a state and an event to the next state.
An event that is not enabled is a step that changes nothing.

* `run step s as`       the state after the events `as`;
* `run_invariant`       what every step keeps holds at the end of every run;
* `run_invariant_mem`   so does what the events of the run keep;
* `run_invariant_along` what every guarded step keeps holds at the end of every guarded run;
* `run_invariant_within` what the steps from `P` to `P` keep holds at the end of a run always in `P`;
* `Along step G s as`   every event of the run meets its guard `G` in the state it is taken in;
* `Always step P s as`  `P` holds at the start and after every event of the run;
* `Along_iff_split`     `Along`, event by event;
* `Along_congr_of`      two guards that agree under an invariant of the guarded steps;
* `Since step B Q s as`  some event met `B`, and none after it met `Q`;
* `Always_iff_Along`    EXACTNESS: where guarded steps keep an invariant that implies `P` and an
                        unguarded step breaks `P`, a run is always in `P` iff every step is guarded;
* `run_iff_Along`       what a step keeps exactly under its guard holds at the end iff all are guarded;
* `run_set_ne`          where a step can be undone, and tells its events apart, a single event that
                        is replaced changes the end of the run.
-/

set_option linter.unusedSectionVars false

namespace Runs

section
variable {σ α : Type*} (step : σ → α → σ)

/-- the state after the events `as` -/
def run (s : σ) (as : List α) : σ := as.foldl step s

/-- every event of the run meets the guard `G` in the state it is taken in -/
def Along (G : σ → α → Prop) : σ → List α → Prop
  | _, [] => True
  | s, a :: as => G s a ∧ Along G (step s a) as

/-- `P` holds at the start and after every event -/
def Always (P : σ → Prop) : σ → List α → Prop
  | s, [] => P s
  | s, a :: as => P s ∧ Always P (step s a) as

theorem run_nil (s : σ) : run step s [] = s := rfl
theorem run_cons (s : σ) (a : α) (as : List α) :
    run step s (a :: as) = run step (step s a) as := rfl
theorem run_append (s : σ) (as bs : List α) :
    run step s (as ++ bs) = run step (run step s as) bs := by
  simp [run, List.foldl_append]

variable {step} {G A : σ → α → Prop} {P I : σ → Prop}

theorem run_invariant_mem {as : List α} (hstep : ∀ s, ∀ a ∈ as, P s → P (step s a)) {s : σ}
    (h0 : P s) : P (run step s as) := by
  induction as generalizing s with
  | nil => exact h0
  | cons a as ih =>
    exact ih (fun t b hb => hstep t b (List.mem_cons_of_mem a hb)) (hstep s a List.mem_cons_self h0)

theorem run_invariant (hstep : ∀ s a, P s → P (step s a)) {s : σ} (h0 : P s) (as : List α) :
    P (run step s as) := run_invariant_mem (fun t a _ => hstep t a) h0

/-- what the guarded steps keep holds at the end of every guarded run -/
theorem run_invariant_along (hstep : ∀ s a, P s → G s a → P (step s a)) {s : σ} (h0 : P s)
    {as : List α} (h : Along step G s as) : P (run step s as) := by
  induction as generalizing s with
  | nil => exact h0
  | cons a as ih => exact ih (hstep s a h0 h.1) h.2

theorem Along_append (s : σ) (as bs : List α) :
    Along step G s (as ++ bs) ↔ Along step G s as ∧ Along step G (run step s as) bs := by
  induction as generalizing s with
  | nil => simp [Along, run_nil]
  | cons a as ih => simp only [List.cons_append, Along, run_cons, ih, and_assoc]

theorem Along_congr {H : σ → α → Prop} (h : ∀ s a, G s a ↔ H s a) (s : σ) (as : List α) :
    Along step G s as ↔ Along step H s as := by
  induction as generalizing s with
  | nil => exact Iff.rfl
  | cons a as ih => exact and_congr (h s a) (ih _)

/-- two guards that agree wherever an invariant holds, which the guarded steps keep -/
theorem Along_congr_of {H : σ → α → Prop} (h : ∀ s a, I s → (G s a ↔ H s a))
    (hstep : ∀ s a, I s → G s a → I (step s a)) {s : σ} (h0 : I s) (as : List α) :
    Along step G s as ↔ Along step H s as := by
  induction as generalizing s with
  | nil => exact Iff.rfl
  | cons a as ih =>
    show G s a ∧ Along step G (step s a) as ↔ H s a ∧ Along step H (step s a) as
    rw [← h s a h0]
    exact and_congr_right fun hg => ih (hstep s a h0 hg)

instance instDecidableAlong [∀ s a, Decidable (G s a)] : (s : σ) → (as : List α) → Decidable (Along step G s as)
  | _, [] => instDecidableTrue
  | s, a :: as =>
    have := instDecidableAlong (step s a) as
    inferInstanceAs (Decidable (G s a ∧ Along step G (step s a) as))

theorem Always.head {s : σ} {as : List α} (h : Always step P s as) : P s := by
  cases as with
  | nil => exact h
  | cons a as => exact h.1

/-- what the steps between two states in `P` keep holds at the end of a run that is always in `P` -/
theorem run_invariant_within {as : List α} (hstep : ∀ s, ∀ a ∈ as, P s → P (step s a) → I s → I (step s a))
    {s : σ} (h : Always step P s as) (h0 : I s) : I (run step s as) := by
  induction as generalizing s with
  | nil => exact h0
  | cons a as ih =>
    exact ih (fun t b hb => hstep t b (List.mem_cons_of_mem a hb)) h.2
      (hstep s a List.mem_cons_self h.1 h.2.head h0)

theorem Always.last {s : σ} {as : List α} (h : Always step P s as) : P (run step s as) := by
  induction as generalizing s with
  | nil => exact h
  | cons a as ih => exact ih h.2

theorem Always_append {s : σ} {as bs : List α} :
    Always step P s (as ++ bs) ↔ Always step P s as ∧ Always step P (run step s as) bs := by
  induction as generalizing s with
  | nil => exact ⟨fun h => ⟨h.head, h⟩, fun h => h.2⟩
  | cons a as ih => exact (and_congr_right fun _ => ih).trans and_assoc.symm

/-- `Along` speaks of every event in the state after the events before it -/
theorem Along_iff_split (s : σ) (as : List α) :
    Along step G s as ↔ ∀ pre a post, as = pre ++ a :: post → G (run step s pre) a := by
  induction as generalizing s with
  | nil =>
    refine iff_of_true trivial fun pre a post h => ?_
    exact absurd h.symm (List.append_ne_nil_of_right_ne_nil pre (List.cons_ne_nil a post))
  | cons b as ih =>
    constructor
    · intro h pre a post e
      cases pre with
      | nil =>
        obtain ⟨rfl, rfl⟩ := List.cons.inj e
        exact h.1
      | cons c pre =>
        obtain ⟨rfl, rfl⟩ := List.cons.inj e
        exact (ih _).1 h.2 pre a post rfl
    · intro h
      refine ⟨h [] b as rfl, (ih _).2 fun pre a post e => ?_⟩
      exact h (b :: pre) a post (by rw [e, List.cons_append])

/-- some event met `B` in its state, and none after it met `Q` -/
def Since (step : σ → α → σ) (B Q : σ → α → Prop) (s : σ) (as : List α) : Prop :=
  ∃ pre a post, as = pre ++ a :: post ∧ B (run step s pre) a ∧
    Along step (fun t b => ¬ Q t b) (run step s (pre ++ [a])) post

theorem not_Since_nil {B Q : σ → α → Prop} (s : σ) : ¬ Since step B Q s [] := by
  rintro ⟨pre, a, post, e, -⟩
  exact absurd e.symm (List.append_ne_nil_of_right_ne_nil pre (List.cons_ne_nil a post))

theorem Since_snoc {B Q : σ → α → Prop} (s : σ) (as : List α) (a : α) :
    Since step B Q s (as ++ [a]) ↔
      B (run step s as) a ∨ (Since step B Q s as ∧ ¬ Q (run step s as) a) := by
  constructor
  · rintro ⟨pre, b, post, e, hb, hq⟩
    rcases List.eq_nil_or_concat post with rfl | ⟨post, c, rfl⟩
    · left
      obtain ⟨rfl, e2⟩ := List.append_inj' e rfl
      rw [(List.cons.inj e2).1]
      exact hb
    · right
      have e2 : as ++ [a] = (pre ++ b :: post) ++ [c] := by
        rw [e, List.concat_eq_append, List.append_assoc, List.cons_append]
      obtain ⟨rfl, e3⟩ := List.append_inj' e2 rfl
      rw [List.concat_eq_append, Along_append] at hq
      refine ⟨⟨pre, b, post, rfl, hb, hq.1⟩, ?_⟩
      rw [(List.cons.inj e3).1]
      have hrun : run step s (pre ++ b :: post) = run step (run step s (pre ++ [b])) post := by
        rw [← run_append, List.append_assoc, List.singleton_append]
      rw [hrun]
      exact hq.2.1
  · rintro (hb | ⟨⟨pre, b, post, rfl, hb, hq⟩, ha⟩)
    · exact ⟨as, a, [], rfl, hb, trivial⟩
    · refine ⟨pre, b, post ++ [a], by rw [List.append_assoc, List.cons_append], hb, ?_⟩
      have hrun : run step s (pre ++ b :: post) = run step (run step s (pre ++ [b])) post := by
        rw [← run_append, List.append_assoc, List.singleton_append]
      rw [hrun] at ha
      exact (Along_append _ _ _).2 ⟨hq, ha, trivial⟩

/-- exactness in an environment whose events meet `A` -/
theorem Always_iff_Along_of (hP : ∀ s, I s → P s)
    (good : ∀ s a, I s → A s a → G s a → I (step s a))
    (bad : ∀ s a, I s → A s a → ¬ G s a → ¬ P (step s a)) {s : σ} {as : List α} (h0 : I s)
    (hA : Along step A s as) : Always step P s as ↔ Along step G s as := by
  induction as generalizing s with
  | nil => exact ⟨fun _ => trivial, fun _ => hP s h0⟩
  | cons a as ih =>
    obtain ⟨ha, hA⟩ := hA
    constructor
    · intro h
      by_cases hg : G s a
      · exact ⟨hg, (ih (good s a h0 ha hg) hA).1 h.2⟩
      · exact absurd h.2.head (bad s a h0 ha hg)
    · intro h
      exact ⟨hP s h0, (ih (good s a h0 ha h.1) hA).2 h.2⟩

theorem Along_true (s : σ) (as : List α) : Along step (fun _ _ => True) s as := by
  induction as generalizing s with
  | nil => trivial
  | cons a as ih => exact ⟨trivial, ih _⟩

/-- **Exactness.**  Guarded steps keep an invariant that implies `P`, an unguarded step from the
invariant breaks `P`: the run is always in `P` iff all its steps are guarded. -/
theorem Always_iff_Along (hP : ∀ s, I s → P s) (good : ∀ s a, I s → G s a → I (step s a))
    (bad : ∀ s a, I s → ¬ G s a → ¬ P (step s a)) {s : σ} {as : List α} (h0 : I s) :
    Always step P s as ↔ Along step G s as :=
  Always_iff_Along_of hP (fun s a h _ => good s a h) (fun s a h _ => bad s a h) h0
    (Along_true s as)

/-- what holds after a step iff it held before and the guard was met: at the end of a run it holds
iff it held at the start and every guard was met -/
theorem run_iff_Along (h : ∀ s a, P (step s a) ↔ P s ∧ G s a) (s : σ) (as : List α) :
    P (run step s as) ↔ P s ∧ Along step G s as := by
  induction as generalizing s with
  | nil => exact (and_iff_left trivial).symm
  | cons a as ih =>
    show P (run step (step s a) as) ↔ P s ∧ G s a ∧ Along step G (step s a) as
    rw [ih, h, and_assoc]

/-- steps that can be undone: so can a run -/
theorem run_injective (h : ∀ a, Function.Injective fun s => step s a) (as : List α) :
    Function.Injective fun s => run step s as := by
  induction as with
  | nil => exact fun _ _ e => e
  | cons a as ih => exact fun _ _ e => h a (ih e)

theorem run_set_ne (h : ∀ a, Function.Injective fun s => step s a)
    (h' : ∀ s, Function.Injective (step s)) (s : σ) {as : List α} {i : Nat} (hi : i < as.length)
    {b : α} (hb : b ≠ as[i]) : run step s (as.set i b) ≠ run step s as := by
  induction as generalizing s i with
  | nil => exact absurd hi (Nat.not_lt_zero i)
  | cons a as ih =>
    cases i with
    | zero => exact fun e => hb (h' s (run_injective h as e))
    | succ i => exact ih (step s a) (Nat.lt_of_succ_lt_succ hi) hb

end

end Runs
