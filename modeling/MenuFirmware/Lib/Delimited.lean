import Mathlib.Data.List.Basic

/-!
# Fields between separators

A text is searched for a separator from a cursor on; a NUL ends every search.  The cursor stands on
the character before the one the next search begins with, and moves on by one where a search fails.

* `find sep nul l`      the distance to the first separator of `l`, before any NUL;
* `Plain sep nul l`     neither of the two is in `l`;
* `fields sep nul n l`  what `n` searches find from the cursor on;
* `fields_join`         the fields of a text that is made of fields;
* `Closed sep nul n l`  every one of the `n` searches ends inside `l`;
* `fields_append`       so they find the same, whatever follows `l`;
* `open_split`          otherwise one of them runs off the end.
-/

set_option linter.unusedSectionVars false

namespace Delimited

section
variable {α : Type*} [DecidableEq α] (sep nul : α)

/-- the distance to the first separator; the end of the list counts as a NUL -/
def find : List α → Option Nat
  | [] => none
  | b :: l => if b = sep then some 0 else if b = nul then none else (find l).map (· + 1)

def Plain (l : List α) : Prop := ∀ b ∈ l, b ≠ sep ∧ b ≠ nul

instance instDecidablePlain (l : List α) : Decidable (Plain sep nul l) :=
  inferInstanceAs (Decidable (∀ b ∈ l, b ≠ sep ∧ b ≠ nul))

/-- what the next `n` searches find -/
def fields : Nat → List α → List (Option (List α))
  | 0, _ => []
  | n + 1, sub =>
    match find sep nul sub.tail with
    | some k => some (sub.tail.take k) :: fields n (sub.tail.drop k)
    | none => none :: fields n sub.tail

/-- the next `n` searches find a separator or meet a NUL -/
def Closed : Nat → List α → Prop
  | 0, _ => True
  | n + 1, sub =>
    match find sep nul sub.tail with
    | some k => Closed n (sub.tail.drop k)
    | none => nul ∈ sub.tail ∧ Closed n sub.tail

variable {sep nul}

/-! ## one search -/

theorem plain_nil : Plain sep nul ([] : List α) := fun _ h => nomatch h

theorem plain_cons {b : α} {l : List α} :
    Plain sep nul (b :: l) ↔ (b ≠ sep ∧ b ≠ nul) ∧ Plain sep nul l := List.forall_mem_cons

theorem plain_append {l l' : List α} :
    Plain sep nul (l ++ l') ↔ Plain sep nul l ∧ Plain sep nul l' := List.forall_mem_append

theorem find_cons_sep (l : List α) : find sep nul (sep :: l) = some 0 := if_pos rfl

theorem find_cons_plain {b : α} (hb : b ≠ sep ∧ b ≠ nul) (l : List α) :
    find sep nul (b :: l) = (find sep nul l).map (· + 1) := by
  rw [find, if_neg hb.1, if_neg hb.2]

theorem find_cons_nul (h : sep ≠ nul) (l : List α) : find sep nul (nul :: l) = none := by
  rw [find, if_neg (Ne.symm h), if_pos rfl]

theorem find_of_not_mem {l : List α} (h : sep ∉ l) : find sep nul l = none := by
  induction l with
  | nil => rfl
  | cons b l ih =>
    have hb : b ≠ sep := fun e => h (e ▸ List.mem_cons_self)
    rw [find, if_neg hb, ih (List.not_mem_of_not_mem_cons h), Option.map_none, ite_self]

theorem find_plain {l : List α} (h : Plain sep nul l) : find sep nul l = none :=
  find_of_not_mem fun hmem => (h sep hmem).1 rfl

theorem find_sep {f : List α} (h : Plain sep nul f) (r : List α) :
    find sep nul (f ++ sep :: r) = some f.length := by
  induction f with
  | nil => exact find_cons_sep r
  | cons b f ih =>
    obtain ⟨hb, hf⟩ := plain_cons.1 h
    rw [List.cons_append, find_cons_plain hb, ih hf, Option.map_some, List.length_cons]

theorem find_nul (hne : sep ≠ nul) {f : List α} (h : Plain sep nul f) (r : List α) :
    find sep nul (f ++ nul :: r) = none := by
  induction f with
  | nil => exact find_cons_nul hne r
  | cons b f ih =>
    obtain ⟨hb, hf⟩ := plain_cons.1 h
    rw [List.cons_append, find_cons_plain hb, ih hf, Option.map_none]

/-- the three ways in which a search can end -/
theorem plain_or_split (sep nul : α) (l : List α) :
    Plain sep nul l ∨ (∃ f r, Plain sep nul f ∧ l = f ++ sep :: r) ∨
      ∃ f r, Plain sep nul f ∧ l = f ++ nul :: r := by
  induction l with
  | nil => exact Or.inl plain_nil
  | cons b l ih =>
    by_cases hs : b = sep
    · exact Or.inr (Or.inl ⟨[], l, plain_nil, by rw [hs, List.nil_append]⟩)
    · by_cases hn : b = nul
      · exact Or.inr (Or.inr ⟨[], l, plain_nil, by rw [hn, List.nil_append]⟩)
      · rcases ih with h | ⟨f, r, hf, rfl⟩ | ⟨f, r, hf, rfl⟩
        · exact Or.inl (plain_cons.2 ⟨⟨hs, hn⟩, h⟩)
        · exact Or.inr (Or.inl ⟨b :: f, r, plain_cons.2 ⟨⟨hs, hn⟩, hf⟩, rfl⟩)
        · exact Or.inr (Or.inr ⟨b :: f, r, plain_cons.2 ⟨⟨hs, hn⟩, hf⟩, rfl⟩)

theorem find_eq_some (hne : sep ≠ nul) {l : List α} {k : Nat} (h : find sep nul l = some k) :
    ∃ f r, Plain sep nul f ∧ l = f ++ sep :: r ∧ f.length = k := by
  rcases plain_or_split sep nul l with hp | ⟨f, r, hf, rfl⟩ | ⟨f, r, hf, rfl⟩
  · rw [find_plain hp] at h
    cases h
  · rw [find_sep hf] at h
    exact ⟨f, r, hf, rfl, Option.some.inj h⟩
  · rw [find_nul hne hf] at h
    cases h

theorem find_eq_none {l : List α} (h : find sep nul l = none) :
    Plain sep nul l ∨ ∃ f r, Plain sep nul f ∧ l = f ++ nul :: r := by
  rcases plain_or_split sep nul l with hp | ⟨f, r, hf, rfl⟩ | hn
  · exact Or.inl hp
  · rw [find_sep hf] at h
    cases h
  · exact Or.inr hn

/-! ## several searches -/

theorem fields_length (n : Nat) (sub : List α) : (fields sep nul n sub).length = n := by
  induction n generalizing sub with
  | zero => rfl
  | succ n ih =>
    rw [fields]
    split
    · rw [List.length_cons, ih]
    · rw [List.length_cons, ih]

/-- the search that finds the field `f` -/
theorem fields_found {f : List α} (hf : Plain sep nul f) (n : Nat) (c : α) (r : List α) :
    fields sep nul (n + 1) (c :: (f ++ sep :: r)) = some f :: fields sep nul n (sep :: r) := by
  rw [fields, List.tail_cons, find_sep hf]
  simp only [List.take_left, List.drop_left]

/-- a search that fails -/
theorem fields_failed {sub : List α} (h : find sep nul sub.tail = none) (n : Nat) :
    fields sep nul (n + 1) sub = none :: fields sep nul n sub.tail := by
  rw [fields, h]

/-- **A text made of fields.** -/
theorem fields_join {fs : List (List α)} (h : ∀ f ∈ fs, Plain sep nul f) (rest : List α) :
    fields sep nul fs.length (sep :: (fs.flatMap (· ++ [sep]) ++ rest)) = fs.map some := by
  induction fs with
  | nil => rfl
  | cons f fs ih =>
    obtain ⟨hf, hfs⟩ := List.forall_mem_cons.1 h
    rw [List.flatMap_cons, List.append_assoc, List.append_assoc, List.singleton_append,
      List.length_cons, fields_found hf, ih hfs, List.map_cons]

/-- no field holds a separator or a NUL -/
theorem fields_plain (hne : sep ≠ nul) {n : Nat} {sub f : List α}
    (h : some f ∈ fields sep nul n sub) : Plain sep nul f := by
  induction n generalizing sub with
  | zero => cases h
  | succ n ih =>
    cases hk : find sep nul sub.tail with
    | none =>
      rw [fields_failed hk] at h
      rcases List.mem_cons.1 h with e | h
      · cases e
      · exact ih h
    | some k =>
      rw [fields, hk] at h
      rcases List.mem_cons.1 h with e | h
      · obtain ⟨g, r, hg, hl, hlen⟩ := find_eq_some hne hk
        rw [hl, ← hlen, List.take_left] at e
        exact Option.some.inj e ▸ hg
      · exact ih h

/-- nothing is found where there is no separator -/
theorem fields_of_not_mem {l : List α} (h : sep ∉ l) (n : Nat) (c : α) :
    fields sep nul n (c :: l) = List.replicate n none := by
  induction n generalizing c l with
  | zero => rfl
  | succ n ih =>
    rw [fields_failed (find_of_not_mem h), List.tail_cons, List.replicate_succ]
    congr 1
    cases l with
    | nil =>
      have hnil : ∀ m, fields sep nul m ([] : List α) = List.replicate m none := by
        intro m
        induction m with
        | zero => rfl
        | succ m ihm => rw [fields_failed rfl, List.tail_nil, ihm, List.replicate_succ]
      exact hnil n
    | cons b l => exact ih (List.not_mem_of_not_mem_cons h) b

/-! ## searches that stay inside -/

section
variable (hne : sep ≠ nul)
include hne

/-- what follows a text in which all searches end makes no difference -/
theorem fields_append {n : Nat} {sub : List α} (h : Closed sep nul n sub) (left : List α) :
    fields sep nul n (sub ++ left) = fields sep nul n sub := by
  induction n generalizing sub with
  | zero => rfl
  | succ n ih =>
    cases sub with
    | nil => exact absurd h.1 (List.not_mem_nil)
    | cons c sub =>
      rw [Closed, List.tail_cons] at h
      cases hk : find sep nul sub with
      | some k =>
        obtain ⟨f, r, hf, rfl, rfl⟩ := find_eq_some hne hk
        rw [hk] at h
        simp only [List.drop_left] at h
        rw [List.cons_append, List.append_assoc, List.cons_append, fields_found hf, fields_found hf,
          ← List.cons_append, ih h]
      | none =>
        rw [hk] at h
        rcases find_eq_none hk with hp | ⟨f, r, hf, rfl⟩
        · exact absurd rfl (hp nul h.1).2
        · have hk' : find sep nul ((c :: (f ++ nul :: r)) ++ left).tail = none := by
            rw [List.cons_append, List.tail_cons, List.append_assoc, List.cons_append]
            exact find_nul hne hf _
          rw [fields_failed hk', fields_failed hk, List.cons_append, List.tail_cons, List.tail_cons,
            ih h.2]

/-- otherwise some search runs off the end: what it finds depends on what follows -/
theorem open_split {n : Nat} {c : α} {sub : List α} (h : ¬ Closed sep nul n (c :: sub)) :
    ∃ pre m r, n = pre.length + (m + 1) ∧ Plain sep nul r ∧
      ∀ left, fields sep nul n (c :: (sub ++ left)) =
        pre ++ fields sep nul (m + 1) (c :: (r ++ left)) := by
  induction n generalizing c sub with
  | zero => exact absurd trivial h
  | succ n ih =>
    -- only the tail of the cursor is looked at
    have hhead : ∀ m b l, fields sep nul (m + 1) (b :: l) = fields sep nul (m + 1) (c :: l) :=
      fun _ _ _ => rfl
    rcases plain_or_split sep nul sub with hp | ⟨f, r, hf, rfl⟩ | ⟨f, r, hf, rfl⟩
    · exact ⟨[], n, sub, (Nat.zero_add _).symm, hp, fun _ => rfl⟩
    · rw [Closed, List.tail_cons, find_sep hf] at h
      simp only [List.drop_left] at h
      obtain ⟨pre, m, l, hlen, hl, heq⟩ := ih h
      refine ⟨some f :: pre, m, l, by rw [List.length_cons]; omega, hl, fun left => ?_⟩
      rw [List.append_assoc, List.cons_append, fields_found hf, heq left, hhead m sep,
        List.cons_append]
    · have hmem : nul ∈ f ++ nul :: r := List.mem_append_right f List.mem_cons_self
      have hnone : ∀ left, find sep nul (c :: ((f ++ nul :: r) ++ left)).tail = none := by
        intro left
        rw [List.tail_cons, List.append_assoc, List.cons_append]
        exact find_nul hne hf _
      rw [Closed, List.tail_cons, find_nul hne hf] at h
      obtain ⟨b, l, hbl⟩ := List.exists_cons_of_ne_nil (List.ne_nil_of_mem hmem)
      rw [hbl] at h
      obtain ⟨pre, m, r', hlen, hr, heq⟩ := ih fun hc => h ⟨hbl ▸ hmem, hc⟩
      refine ⟨none :: pre, m, r', by rw [List.length_cons]; omega, hr, fun left => ?_⟩
      rw [fields_failed (hnone left), List.tail_cons, hbl, List.cons_append, heq left, hhead m b,
        List.cons_append]

end

end

end Delimited
