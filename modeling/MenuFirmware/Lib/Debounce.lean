import Mathlib.Data.List.Infix
import Mathlib.Data.List.Induction
import Mathlib.Data.List.DropRight

/-!
# Stable values of a stream of samples

A sample value is stable at an instant when the last `n` samples are all equal to it.

* `Stable n cs v`      the last `n` samples of `cs` are `v`;
* `LastStable n cs v`  some instant was stable at `v` and no later one at another value;
* `Backed n cs v`      two instants, the present one and an earlier one, are stable at `v`, and no
                       instant between them at another value;
* `lastStable_snoc`, `backed_snoc`   what one more sample does;
* `LastStable.unique`  there is at most one last stable value;
* `findStable`         it, computed, and with it whether an instant is backed;
* `streak v cs`        how many samples at the end of `cs` are `v`.
-/

namespace Debounce

section
variable {α : Type*} {n : Nat}

/-- the last `n` samples are equal to `v` -/
def Stable (n : Nat) (cs : List α) (v : α) : Prop := List.replicate n v <:+ cs

/-- an instant stable at `v`, and none after it stable at another value -/
def LastStable (n : Nat) (cs : List α) (v : α) : Prop :=
  ∃ pre, pre <+: cs ∧ Stable n pre v ∧
    ∀ mid w, pre <+: mid → mid <+: cs → Stable n mid w → w = v

/-- two instants stable at `v`, the second one the present, and no other stable value between -/
def Backed (n : Nat) (cs : List α) (v : α) : Prop :=
  Stable n cs v ∧ ∃ pre, pre <+: cs ∧ pre ≠ cs ∧ Stable n pre v ∧
    ∀ mid w, pre <+: mid → mid <+: cs → Stable n mid w → w = v

theorem Stable.length {cs : List α} {v : α} (h : Stable n cs v) : n ≤ cs.length := by
  have hl := h.length_le
  rwa [List.length_replicate] at hl

theorem Stable.unique (hn : 0 < n) {cs : List α} {v w : α} (hv : Stable n cs v)
    (hw : Stable n cs w) : v = w := by
  have he : List.replicate n v = List.replicate n w :=
    (List.suffix_of_suffix_length_le hv hw (by simp)).eq_of_length (by simp)
  exact List.eq_of_mem_replicate (he ▸ List.mem_replicate.2 ⟨hn.ne', rfl⟩)

theorem Stable.lastStable (hn : 0 < n) {cs : List α} {v : α} (h : Stable n cs v) :
    LastStable n cs v := by
  refine ⟨cs, List.prefix_rfl, h, fun mid w hmid hcs hw => ?_⟩
  have he : cs = mid := hmid.eq_of_length_le hcs.length_le
  subst he
  exact Stable.unique hn hw h

theorem LastStable.unique {cs : List α} {v w : α} (hv : LastStable n cs v)
    (hw : LastStable n cs w) : v = w := by
  obtain ⟨p, hp, hpv, hpu⟩ := hv
  obtain ⟨q, hq, hqw, hqu⟩ := hw
  rcases List.prefix_or_prefix_of_prefix hp hq with hpq | hqp
  · exact (hpu q w hpq hq hqw).symm
  · exact hqu p v hqp hp hpv

theorem not_lastStable_nil (hn : 0 < n) (v : α) : ¬ LastStable n [] v := by
  intro h
  obtain ⟨pre, hpre, hv, -⟩ := h
  have h0 := hpre.length_le
  have h1 := hv.length
  rw [List.length_nil] at h0
  omega

/-- one more sample that is not stable at another value -/
theorem LastStable.snoc {cs : List α} {v : α} (h : LastStable n cs v) (c : α)
    (hc : ∀ w, Stable n (cs ++ [c]) w → w = v) : LastStable n (cs ++ [c]) v := by
  obtain ⟨pre, hpre, hv, hu⟩ := h
  refine ⟨pre, hpre.trans (List.prefix_append cs [c]), hv, fun mid w hmid hcs hw => ?_⟩
  rcases List.prefix_concat_iff.1 hcs with rfl | hcs
  · exact hc w hw
  · exact hu mid w hmid hcs hw

theorem lastStable_snoc (hn : 0 < n) (cs : List α) (c v : α) :
    LastStable n (cs ++ [c]) v ↔ Stable n (cs ++ [c]) v ∨
      (LastStable n cs v ∧ ∀ w, ¬ Stable n (cs ++ [c]) w) := by
  constructor
  · intro h
    by_cases hs : ∃ w, Stable n (cs ++ [c]) w
    · obtain ⟨w, hw⟩ := hs
      rw [LastStable.unique h (hw.lastStable hn)]
      exact Or.inl hw
    · have hs' : ∀ w, ¬ Stable n (cs ++ [c]) w := fun w hw => hs ⟨w, hw⟩
      obtain ⟨pre, hpre, hv, hu⟩ := h
      rcases List.prefix_concat_iff.1 hpre with rfl | hpre
      · exact absurd hv (hs' v)
      · refine Or.inr ⟨⟨pre, hpre, hv, fun mid w hmid hcs hw => ?_⟩, hs'⟩
        exact hu mid w hmid (hcs.trans (List.prefix_append cs [c])) hw
  · intro h
    rcases h with h | ⟨h, hs⟩
    · exact h.lastStable hn
    · exact h.snoc c fun w hw => absurd hw (hs w)

/-- a sample is backed when it is stable at the last stable value -/
theorem backed_snoc (cs : List α) (c v : α) :
    Backed n (cs ++ [c]) v ↔ Stable n (cs ++ [c]) v ∧ LastStable n cs v := by
  constructor
  · intro h
    obtain ⟨hs, pre, hpre, hne, hv, hu⟩ := h
    refine ⟨hs, pre, ?_, hv, fun mid w hmid hcs hw => ?_⟩
    · rcases List.prefix_concat_iff.1 hpre with h | h
      · exact absurd h hne
      · exact h
    · exact hu mid w hmid (hcs.trans (List.prefix_append cs [c])) hw
  · intro h
    obtain ⟨hs, pre, hpre, hv, hu⟩ := h
    refine ⟨hs, pre, hpre.trans (List.prefix_append cs [c]), ?_, hv, fun mid w hmid hcs hw => ?_⟩
    · intro he
      have hl := hpre.length_le
      rw [he, List.length_append, List.length_singleton] at hl
      omega
    · rcases List.prefix_concat_iff.1 hcs with rfl | hcs
      · -- the present instant is stable at `v`, so `w` can only differ if `n = 0`
        rcases Nat.eq_zero_or_pos n with rfl | hn
        · exact hu cs w hpre List.prefix_rfl (List.nil_suffix)
        · exact Stable.unique hn hw hs
      · exact hu mid w hmid hcs hw

/-! ## computed -/

theorem stable_reverse (cs : List α) (v : α) :
    Stable n cs v ↔ List.replicate n v <+: cs.reverse := by
  unfold Stable
  rw [← List.reverse_prefix, List.reverse_replicate]

theorem Stable.head (hn : 0 < n) {cs : List α} {c v : α} (h : Stable n (cs ++ [c]) v) : v = c := by
  obtain ⟨m, rfl⟩ := Nat.exists_eq_succ_of_ne_zero hn.ne'
  rw [stable_reverse, List.reverse_append, List.replicate_succ] at h
  exact (List.cons_prefix_cons.1 h).1

theorem stable_succ_iff (cs : List α) (c v : α) :
    Stable (n + 1) (cs ++ [c]) v ↔ c = v ∧ Stable n cs v := by
  rw [stable_reverse, stable_reverse, List.reverse_append, List.reverse_singleton,
    List.singleton_append, List.replicate_succ, List.cons_prefix_cons]
  exact and_congr_left fun _ => eq_comm

variable [DecidableEq α]

/-- the last stable value, of samples given newest first -/
def findStable (n : Nat) : List α → Option α
  | [] => none
  | c :: h => if List.replicate n c <+: c :: h then some c else findStable n h

theorem lastStable_iff (hn : 0 < n) (cs : List α) (v : α) :
    LastStable n cs v ↔ findStable n cs.reverse = some v := by
  induction cs using List.reverseRecOn with
  | nil => exact iff_of_false (not_lastStable_nil hn v) (by simp [findStable])
  | append_singleton cs c ih =>
    rw [lastStable_snoc hn, List.reverse_append, List.reverse_singleton, List.singleton_append,
      findStable, ih]
    have hc : List.replicate n c <+: c :: cs.reverse ↔ Stable n (cs ++ [c]) c := by
      rw [stable_reverse, List.reverse_append, List.reverse_singleton, List.singleton_append]
    by_cases hs : Stable n (cs ++ [c]) c
    · rw [if_pos (hc.2 hs)]
      constructor
      · intro h
        rcases h with h | ⟨-, h⟩
        · rw [h.head hn]
        · exact absurd hs (h c)
      · intro h
        exact Or.inl (Option.some.inj h ▸ hs)
    · rw [if_neg (mt hc.1 hs)]
      have hno : ∀ w, ¬ Stable n (cs ++ [c]) w := fun w hw => hs (hw.head hn ▸ hw)
      exact ⟨fun h => (h.resolve_left (hno v)).1, fun h => Or.inr ⟨h, hno⟩⟩

theorem backed_iff (hn : 0 < n) (cs : List α) (v : α) :
    Backed n cs v ↔ Stable n cs v ∧ findStable n cs.dropLast.reverse = some v := by
  rw [← lastStable_iff hn]
  rcases List.eq_nil_or_concat cs with rfl | ⟨cs, c, rfl⟩
  · refine iff_of_false (fun h => ?_) fun h => ?_
    · exact absurd h.1.length (Nat.not_le.2 hn)
    · exact absurd h.1.length (Nat.not_le.2 hn)
  · rw [List.concat_eq_append, List.dropLast_concat]
    exact backed_snoc cs c v

instance instDecidableBacked (cs : List α) (v : α) : Decidable (Backed (n + 1) cs v) :=
  haveI : Decidable (Stable (n + 1) cs v) :=
    inferInstanceAs (Decidable (List.replicate (n + 1) v <:+ cs))
  decidable_of_iff _ (backed_iff (Nat.succ_pos n) cs v).symm

/-! ## how long the present value has lasted -/

/-- the number of samples at the end of `cs` that are `v` -/
def streak (v : α) (cs : List α) : Nat := (cs.rtakeWhile fun c => decide (c = v)).length

theorem streak_nil (v : α) : streak v [] = 0 := rfl

theorem streak_snoc_self (v : α) (cs : List α) : streak v (cs ++ [v]) = streak v cs + 1 := by
  unfold streak
  rw [List.rtakeWhile_concat_pos _ _ _ (by simp), List.length_append, List.length_singleton]

theorem streak_snoc_ne {v c : α} (h : c ≠ v) (cs : List α) : streak v (cs ++ [c]) = 0 := by
  unfold streak
  rw [List.rtakeWhile_concat_neg _ _ _ (by simpa using h), List.length_nil]

theorem stable_iff_streak (cs : List α) (v : α) : Stable n cs v ↔ n ≤ streak v cs := by
  induction cs using List.reverseRecOn generalizing n with
  | nil =>
    rw [streak_nil, Nat.le_zero]
    constructor
    · intro h
      exact Nat.le_zero.1 h.length
    · intro h
      subst h
      exact List.nil_suffix
  | append_singleton cs c ih =>
    cases n with
    | zero => exact iff_of_true List.nil_suffix (Nat.zero_le _)
    | succ n =>
      rw [stable_succ_iff, ih]
      by_cases hc : c = v
      · subst hc
        rw [streak_snoc_self, Nat.succ_le_succ_iff]
        exact and_iff_right rfl
      · rw [streak_snoc_ne hc]
        exact iff_of_false (fun h => hc h.1) (Nat.not_succ_le_zero n)

end

end Debounce
