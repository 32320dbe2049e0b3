import MenuFirmware.Gps.Rmc

/-!
# The validity byte (`uart4.c`)

`usefullBuffer` is not initialised, and `isUsefull` is set from it after every field, not only after
the one that is copied into it.  A field that is long enough to end at the last byte of `Save_Data`
sets `isUsefull` too.

* `usefullAfter`         what the storing of the fields makes of `isUsefull`;
* `storeFields_usefull`  it is what the parser does;
* `storeFields_others`   the other bytes do not depend on `usefullBuffer`;
* `StatusFixed`          a condition on the fields;
* `usefullAfter_iff`     `isUsefull` does not depend on `usefullBuffer` iff it holds.
-/

set_option linter.unusedSectionVars false
set_option linter.unusedVariables false

namespace MenuFirmware
open Delimited

/-! ## what the storing makes of it -/

/-- the test of `usefullBuffer[0]` -/
def usefullTest (u b : UInt8) : UInt8 := if u = 0x41 then 1 else if u = 0x56 then 0 else b

/-- `usefullBuffer[0]` with the field `i` in it -/
def statusWith (i : Nat) (f : List UInt8) (u : UInt8) : UInt8 := if i = 2 then f.headD u else u

/-- `isUsefull` with the field `i` copied -/
def usefullCopied (i : Nat) (f : List UInt8) (b : UInt8) : UInt8 := saveWith i f (fun _ => b) isUsefull

/-- `isUsefull` after the fields: `u` is the first byte of `usefullBuffer` before them, `b` is
`isUsefull` before them -/
def usefullAfter : List Nat → List (Option (List UInt8)) → UInt8 → UInt8 → UInt8
  | i :: is, some f :: fs, u, b =>
    usefullAfter is fs (statusWith i f u) (usefullTest (statusWith i f u) (usefullCopied i f b))
  | _ :: is, none :: fs, u, b => usefullAfter is fs u b
  | _, _, _, b => b

theorem testField_isUsefull (p : GpsParse) :
    (testField p).save isUsefull = usefullTest p.usefull.1 (p.save isUsefull) := by
  unfold testField usefullTest
  split_ifs
  · show Function.update (Function.update p.save isParseData 1) isUsefull 1 isUsefull = 1
    rw [Function.update_self]
  · show Function.update (Function.update p.save isParseData 1) isUsefull 0 isUsefull = 0
    rw [Function.update_self]
  · have hne : isUsefull ≠ isParseData := by decide
    show Function.update p.save isParseData 1 isUsefull = _
    rw [Function.update_of_ne hne]

theorem usefullWith_fst {i : Nat} {f : List UInt8} (h : Reaches i f.length) (u : UInt8 × UInt8) :
    (usefullWith i f u).1 = statusWith i f u.1 := by
  unfold usefullWith statusWith
  by_cases h2 : i = 2
  · rw [if_pos h2, if_pos h2]
    match f, h.2 h2 with
    | [], _ => rfl
    | [_], _ => rfl
    | [_, _], _ => rfl
  · rw [if_neg h2, if_neg h2]

/-- a copy writes a byte or leaves it, whatever the others are -/
theorem saveWith_congr (i : Nat) (f : List UInt8) {s t : SaveData} {j : Fin 52} (h : s j = t j) :
    saveWith i f s j = saveWith i f t j := by
  unfold saveWith
  cases target i with
  | none => exact h
  | some m =>
    show s.put m.off f j = t.put m.off f j
    unfold SaveData.put
    rw [h]

theorem storeFields_usefull {is : List Nat} {fs : List (Option (List UInt8))} (hn : NoNul fs)
    {p q : GpsParse} (h : storeFields is fs p = some q) :
    q.save isUsefull = usefullAfter is fs p.usefull.1 (p.save isUsefull) := by
  induction is generalizing fs p with
  | nil =>
    rw [storeFields_nil] at h
    rw [← Option.some.inj h]
    rfl
  | cons i is ih =>
    match fs with
    | [] =>
      rw [storeFields_noFields] at h
      rw [← Option.some.inj h]
      rfl
    | none :: fs => exact ih hn.tail h
    | some f :: fs =>
      by_cases hr : Reaches i f.length
      · rw [storeFields_reaches hn hr] at h
        have hu : (withField i f p).usefull.1 = statusWith i f p.usefull.1 := usefullWith_fst hr _
        have hb : (withField i f p).save isUsefull = usefullCopied i f (p.save isUsefull) :=
          saveWith_congr i f rfl
        rw [ih hn.tail h, testField_usefull, testField_isUsefull, hu, hb]
        rfl
      · rw [storeFields_not_reaches hr] at h
        cases h

/-- two parses that agree before the fields agree after them, but for `isUsefull` -/
theorem storeFields_others {is : List Nat} {fs : List (Option (List UInt8))} (hn : NoNul fs)
    {j : Fin 52} (hflag : j ≠ isParseData) (hlast : j ≠ isUsefull) {p p' q q' : GpsParse}
    (hp : p.save j = p'.save j) (h : storeFields is fs p = some q)
    (h' : storeFields is fs p' = some q') : q.save j = q'.save j := by
  have hstep : ∀ i ∈ is, ∀ (f : List UInt8) (r r' : GpsParse), Reaches i f.length →
      r.save j = r'.save j →
      (testField (withField i f r)).save j = (testField (withField i f r')).save j := by
    intro i _ f r r' _ hr
    rw [testField_save _ hflag hlast, testField_save _ hflag hlast]
    exact saveWith_congr i f hr
  exact storeFields_related (R := fun r r' => r.save j = r'.save j) hn hstep hp h h'

/-! ## which fields fix it -/

/-- the copy of the field ends at the last byte of `Save_Data` -/
def Covers (i : Nat) (f : List UInt8) : Prop := ∃ m, target i = some m ∧ m.off + f.length = 52

/-- nothing is found; or the status is there, and it is one of the two that are tested for, or no
field stands before it, or a field behind it is copied over `isUsefull` -/
def StatusFixed (fs : List (Option (List UInt8))) : Prop :=
  (∀ f, some f ∉ fs) ∨
    ∃ x c f more, fs = x :: some (c :: f) :: more ∧
      (c = 0x41 ∨ c = 0x56 ∨ x = none ∨
        ¬ AllFields (fun i f => ¬ Covers i f) (List.range' 3 7) more)

theorem usefullCopied_covers {i : Nat} {f : List UInt8} (h : Covers i f) (b b' : UInt8) :
    usefullCopied i f b = usefullCopied i f b' := by
  obtain ⟨m, hm, hend⟩ := h
  have hoff : m.off ≤ 51 := by
    unfold target at hm
    split at hm <;> cases hm <;> decide
  have hput : ∀ s : SaveData, saveWith i f s isUsefull = f.getD (51 - m.off) 0 := by
    intro s
    unfold saveWith
    rw [hm]
    exact saved_put s m.off f isUsefull hoff (show 51 < m.off + f.length by omega)
  exact (hput _).trans (hput _).symm

theorem usefullCopied_not_covers {i : Nat} {f : List UInt8} (hr : Reaches i f.length)
    (h : ¬ Covers i f) (b : UInt8) : usefullCopied i f b = b := by
  unfold usefullCopied saveWith
  cases hm : target i with
  | none => rfl
  | some m =>
    have hend : m.off + f.length ≤ 52 := hr.1 m hm
    have hne : m.off + f.length ≠ 52 := fun e => h ⟨m, hm, e⟩
    show (SaveData.put (fun _ => b) m.off f) isUsefull = b
    unfold SaveData.put
    exact if_neg fun hin => absurd hin.2 (show ¬ 51 < m.off + f.length by omega)

/-- the fields leave `usefullBuffer` as it is -/
def StatusKept (is : List Nat) (fs : List (Option (List UInt8))) : Prop :=
  AllFields (fun i f => i = 2 → f = []) is fs

theorem statusWith_kept {i : Nat} {f : List UInt8} (h : i = 2 → f = []) (u : UInt8) :
    statusWith i f u = u := by
  unfold statusWith
  by_cases h2 : i = 2
  · rw [if_pos h2, h h2]
    rfl
  · rw [if_neg h2]

/-- a status that is tested for is kept -/
theorem usefullAfter_same {u v : UInt8} (hv : ∀ b, usefullTest u b = v) {is : List Nat}
    {fs : List (Option (List UInt8))} (hk : StatusKept is fs) : usefullAfter is fs u v = v := by
  induction is generalizing fs with
  | nil => cases fs <;> rfl
  | cons i is ih =>
    match fs with
    | [] => rfl
    | none :: fs => exact ih hk
    | some f :: fs =>
      rw [usefullAfter, statusWith_kept hk.1, hv]
      exact ih hk.2

/-- and set by the first field that is found -/
theorem usefullAfter_set {u v : UInt8} (hv : ∀ b, usefullTest u b = v) {is : List Nat}
    {fs : List (Option (List UInt8))} (hk : StatusKept is fs) (hlen : is.length = fs.length)
    (hfound : ∃ f, some f ∈ fs) (b : UInt8) : usefullAfter is fs u b = v := by
  induction is generalizing fs with
  | nil =>
    obtain ⟨f, hf⟩ := hfound
    rw [List.eq_nil_of_length_eq_zero hlen.symm] at hf
    cases hf
  | cons i is ih =>
    match fs with
    | none :: fs =>
      obtain ⟨f, hf⟩ := hfound
      rcases List.mem_cons.1 hf with e | hf
      · cases e
      · exact ih hk (Nat.succ.inj hlen) ⟨f, hf⟩
    | some f :: fs =>
      rw [usefullAfter, statusWith_kept hk.1, hv]
      exact usefullAfter_same hv hk.2

/-- another status changes nothing, as long as no field is copied over `isUsefull` -/
theorem usefullAfter_neutral {u : UInt8} (hu : ∀ b, usefullTest u b = b) {is : List Nat}
    {fs : List (Option (List UInt8))} (hk : StatusKept is fs) (hr : AllReach is fs)
    (hc : AllFields (fun i f => ¬ Covers i f) is fs) (b : UInt8) : usefullAfter is fs u b = b := by
  induction is generalizing fs with
  | nil => cases fs <;> rfl
  | cons i is ih =>
    match fs with
    | [] => rfl
    | none :: fs => exact ih hk hr hc
    | some f :: fs =>
      rw [usefullAfter, statusWith_kept hk.1, hu, usefullCopied_not_covers hr.1 hc.1]
      exact ih hk.2 hr.2 hc.2

/-- a field that is copied over `isUsefull` makes it forget what it was -/
theorem usefullAfter_covered {is : List Nat} {fs : List (Option (List UInt8))}
    (hc : ¬ AllFields (fun i f => ¬ Covers i f) is fs) (u b b' : UInt8) :
    usefullAfter is fs u b = usefullAfter is fs u b' := by
  induction is generalizing fs u b b' with
  | nil => cases fs <;> exact absurd trivial hc
  | cons i is ih =>
    match fs with
    | [] => exact absurd trivial hc
    | none :: fs => exact ih hc u b b'
    | some f :: fs =>
      rw [usefullAfter, usefullAfter]
      by_cases hf : Covers i f
      · rw [usefullCopied_covers hf b b']
      · exact ih (fun h => hc ⟨hf, h⟩) _ _ _

theorem usefullAfter_none {is : List Nat} {fs : List (Option (List UInt8))}
    (h : ∀ f, some f ∉ fs) (u b : UInt8) : usefullAfter is fs u b = b := by
  induction is generalizing fs with
  | nil => cases fs <;> rfl
  | cons i is ih =>
    match fs with
    | [] => rfl
    | none :: fs => exact ih fun f hf => h f (List.mem_cons_of_mem none hf)
    | some f :: fs => exact absurd List.mem_cons_self (h f)

/-! ## exactness -/

theorem usefullTest_active (b : UInt8) : usefullTest 0x41 b = 1 := rfl
theorem usefullTest_void (b : UInt8) : usefullTest 0x56 b = 0 := rfl

theorem usefullTest_neutral {u : UInt8} (hA : u ≠ 0x41) (hV : u ≠ 0x56) (b : UInt8) :
    usefullTest u b = b := by
  unfold usefullTest
  rw [if_neg hA, if_neg hV]

/-- where only the second field can change `usefullBuffer`, the others keep it -/
theorem statusKept_of_not_mem {is : List Nat} (h : 2 ∉ is) (fs : List (Option (List UInt8))) :
    StatusKept is fs := by
  induction is generalizing fs with
  | nil => cases fs <;> trivial
  | cons i is ih =>
    have ih' := ih (List.not_mem_of_not_mem_cons h)
    match fs with
    | [] => trivial
    | none :: fs => exact ih' fs
    | some f :: fs => exact ⟨fun e => absurd (e ▸ List.mem_cons_self) h, ih' fs⟩

/-- where nothing changes `usefullBuffer`, `isUsefull` tells what was in it, if a field is found -/
theorem usefullAfter_differ {fs : List (Option (List UInt8))} {is : List Nat}
    (hk : StatusKept is fs) (hlen : is.length = fs.length) (hfound : ∃ f, some f ∈ fs) (b : UInt8) :
    usefullAfter is fs 0x41 b ≠ usefullAfter is fs 0x56 b := by
  rw [usefullAfter_set usefullTest_active hk hlen hfound,
    usefullAfter_set usefullTest_void hk hlen hfound]
  decide

/-- without a status -/
theorem usefullAfter_kept_iff {fs : List (Option (List UInt8))} {is : List Nat}
    (hk : StatusKept is fs) (hlen : is.length = fs.length) :
    (∀ u u' b, usefullAfter is fs u b = usefullAfter is fs u' b) ↔ ∀ f, some f ∉ fs := by
  constructor
  · intro h f hf
    exact usefullAfter_differ hk hlen ⟨f, hf⟩ 0 (h 0x41 0x56 0)
  · intro h u u' b
    rw [usefullAfter_none h, usefullAfter_none h]

/-- the first two fields, when the second one holds a status -/
theorem usefullAfter_two {c : UInt8} {f : List UInt8} (hr : Reaches 2 (c :: f).length)
    (x : Option (List UInt8)) (is : List Nat) (more : List (Option (List UInt8))) (u b : UInt8) :
    usefullAfter (1 :: 2 :: is) (x :: some (c :: f) :: more) u b =
      usefullAfter is more c (usefullTest c (usefullAfter [1] [x] u b)) := by
  have hcopied : ∀ b, usefullCopied 2 (c :: f) b = b := fun _ => rfl
  have hstatus : ∀ u, statusWith 2 (c :: f) u = c := fun _ => rfl
  cases x with
  | none =>
    show usefullAfter (2 :: is) (some (c :: f) :: more) u b = _
    rw [usefullAfter, hcopied, hstatus]
    rfl
  | some g =>
    have hone : statusWith 1 g u = u := rfl
    rw [usefullAfter, usefullAfter, hcopied, hstatus, usefullAfter, hone]
    rfl

/-- with a status -/
theorem usefullAfter_status_iff {c : UInt8} {f : List UInt8} {x : Option (List UInt8)}
    {more : List (Option (List UInt8))} (hr2 : Reaches 2 (c :: f).length)
    (hr : AllReach (List.range' 3 7) more) :
    (∀ u u' b, usefullAfter (1 :: 2 :: List.range' 3 7) (x :: some (c :: f) :: more) u b =
        usefullAfter (1 :: 2 :: List.range' 3 7) (x :: some (c :: f) :: more) u' b) ↔
      c = 0x41 ∨ c = 0x56 ∨ x = none ∨
        ¬ AllFields (fun i f => ¬ Covers i f) (List.range' 3 7) more := by
  have hk : StatusKept (List.range' 3 7) more := statusKept_of_not_mem (by decide) more
  simp only [usefullAfter_two hr2 x (List.range' 3 7) more]
  constructor
  · intro h
    by_contra hno
    obtain ⟨hA, hno⟩ := not_or.1 hno
    obtain ⟨hV, hno⟩ := not_or.1 hno
    obtain ⟨hx, hcov⟩ := not_or.1 hno
    -- the first field has set `isUsefull` from what was in `usefullBuffer`, and nothing undoes it
    obtain ⟨g, rfl⟩ := Option.ne_none_iff_exists'.1 hx
    have hneutral := usefullTest_neutral hA hV
    have hb := h 0x41 0x56 0
    rw [hneutral, hneutral, usefullAfter_neutral hneutral hk hr (not_not.1 hcov),
      usefullAfter_neutral hneutral hk hr (not_not.1 hcov)] at hb
    have hone : StatusKept [1] [some g] := statusKept_of_not_mem (by decide) [some g]
    exact usefullAfter_differ hone rfl ⟨g, List.mem_cons_self⟩ 0 hb
  · rintro (rfl | rfl | rfl | h) u u' b
    · rw [usefullTest_active, usefullTest_active]
    · rw [usefullTest_void, usefullTest_void]
    · rfl
    · exact usefullAfter_covered h c _ _

/-- **The validity byte.**  It does not depend on `usefullBuffer` iff the fields fix it. -/
theorem usefullAfter_iff {fs : List (Option (List UInt8))} (hlen : fs.length = 9)
    (hr : AllReach (List.range' 1 9) fs) :
    (∀ u u' b, usefullAfter (List.range' 1 9) fs u b = usefullAfter (List.range' 1 9) fs u' b) ↔
      StatusFixed fs := by
  match fs, hlen with
  | x :: some (c :: f) :: more, hlen =>
    obtain ⟨-, hr'⟩ := (allFields_append (show [1].length = [x].length from rfl) (List.range' 2 8)
      (some (c :: f) :: more)).1 hr
    refine (usefullAfter_status_iff hr'.1 hr'.2).trans ⟨fun h => Or.inr ⟨x, c, f, more, rfl, h⟩, ?_⟩
    rintro (hnone | ⟨x', c', f', more', e, h⟩)
    · exact absurd (List.mem_cons_of_mem x List.mem_cons_self) (hnone (c :: f))
    · cases e
      exact h
  | x :: some [] :: more, hlen =>
    have hk : StatusKept (List.range' 1 9) (x :: some [] :: more) :=
      (allFields_append (show [1].length = [x].length from rfl) (List.range' 2 8) (some [] :: more)).2
        ⟨statusKept_of_not_mem (by decide) _, fun _ => rfl, statusKept_of_not_mem (by decide) _⟩
    refine (usefullAfter_kept_iff hk hlen.symm).trans ⟨Or.inl, ?_⟩
    rintro (hnone | ⟨x', c', f', more', e, h⟩)
    · exact hnone
    · cases e
  | x :: none :: more, hlen =>
    have hk : StatusKept (List.range' 1 9) (x :: none :: more) :=
      (allFields_append (show [1].length = [x].length from rfl) (List.range' 2 8) (none :: more)).2
        ⟨statusKept_of_not_mem (by decide) _, statusKept_of_not_mem (by decide) more⟩
    refine (usefullAfter_kept_iff hk hlen.symm).trans ⟨Or.inl, ?_⟩
    rintro (hnone | ⟨x', c', f', more', e, h⟩)
    · exact hnone
    · cases e

end MenuFirmware
