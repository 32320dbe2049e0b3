import MenuFirmware.Lib.Delimited
import Mathlib.Logic.Function.Basic

/-!
# The sentence parser (`uart4.c`)

`parseGpsBuffer` is given the start of a buffer without a terminator.  It looks for commas with
`strstr`, copies what lies between two of them to where the number of the field says, and tests the
validity byte after every field it finds.

* `SaveData`           the 52 bytes of `Save_Data`; `copy` writes into it from an offset on;
* `GpsParse`           what the parser reads and writes; its copies are kept;
* `parseGpsBuffer`     the parser; `none` where a copy leaves its object, or a null pointer is read;
* `parseLoop_eq`       searching and storing are two things: `storeFields` of the `fields` found;
* `Reaches`, `FitsArray`  a field stays inside its object, inside its array; `withField` is then
                       what its copy leaves;
* `storeFields_related`  what one field keeps of two parses, all fields keep;
* `storeFields_isSome_iff`, `storeFields_fit_iff`  all copies of a sentence do iff every field found
                       does.
-/

set_option linter.unusedSectionVars false
set_option linter.unusedVariables false

namespace MenuFirmware
open Delimited

/-! ## the data -/

def comma : UInt8 := 0x2C

/-- `Save_Data`, byte by byte -/
abbrev SaveData := Fin 52 → UInt8

/-- a member of `Save_Data`: where it begins, and its size -/
structure SaveMember where
  off : Nat
  size : Nat

def utcTimeLength : Nat := 11
def latitudeLength : Nat := 11
def nsLength : Nat := 2
def longitudeLength : Nat := 12
def ewLength : Nat := 2

/-- `isGetData` stands before it -/
def isParseData : Fin 52 := 1

def saveUTCTime : SaveMember := ⟨2, utcTimeLength⟩
def saveUTCDate : SaveMember := ⟨saveUTCTime.off + saveUTCTime.size, utcTimeLength⟩
def saveLatitude : SaveMember := ⟨saveUTCDate.off + saveUTCDate.size, latitudeLength⟩
def saveNS : SaveMember := ⟨saveLatitude.off + saveLatitude.size, nsLength⟩
def saveLongitude : SaveMember := ⟨saveNS.off + saveNS.size, longitudeLength⟩
def saveEW : SaveMember := ⟨saveLongitude.off + saveLongitude.size, ewLength⟩

/-- the last byte -/
def isUsefull : Fin 52 := 51

/-- the bytes from `off` on become `f` -/
def SaveData.put (s : SaveData) (off : Nat) (f : List UInt8) : SaveData :=
  fun i => if off ≤ i.1 ∧ i.1 < off + f.length then f.getD (i.1 - off) 0 else s i

/-- `memcpy` into `Save_Data`: it may run on into the next members, not out of the structure -/
def SaveData.copy (s : SaveData) (off : Nat) (f : List UInt8) : Option SaveData :=
  if off + f.length ≤ 52 then some (s.put off f) else none

structure GpsParse where
  save : SaveData
  /-- the flag `utc_time` -/
  utcTime : UInt8
  /-- `usefullBuffer`, which no one initialises; it keeps its place on the stack -/
  usefull : UInt8 × UInt8
  /-- ghost: the copies made, each with the size of the array it goes to and its length -/
  copies : List (Nat × Nat)

/-- before the first sentence -/
def gpsParseInit : GpsParse := ⟨fun _ => 0, 0, (0, 0), []⟩

/-! ## the code -/

def copyMember (p : GpsParse) (m : SaveMember) (f : List UInt8) : Option GpsParse :=
  (p.save.copy m.off f).map fun s =>
    { p with save := s, copies := p.copies ++ [(m.size, f.length)] }

/-- `memcpy` into the two bytes of `usefullBuffer` -/
def copyUsefull (u : UInt8 × UInt8) : List UInt8 → Option (UInt8 × UInt8)
  | [] => some u
  | [a] => some (a, u.2)
  | [a, b] => some (a, b)
  | _ :: _ :: _ :: _ => none

/-- the cases of the `switch`, for the field between the `i`-th comma and the next one -/
def copyField (i : Nat) (f : List UInt8) (p : GpsParse) : Option GpsParse :=
  match i with
  | 1 => (copyMember p saveUTCTime f).map fun p => { p with utcTime := 1 }
  | 2 =>
    (copyUsefull p.usefull f).map fun u =>
      { p with usefull := u, copies := p.copies ++ [(2, f.length)] }
  | 3 => copyMember p saveLatitude f
  | 4 =>
    -- the statement after the `if` is commented out, so that the `if` governs the `break`
    (copyMember p saveNS f).bind fun p =>
      if p.save ⟨saveNS.off, by decide⟩ ≠ 0 then some p else copyMember p saveLongitude f
  | 5 => copyMember p saveLongitude f
  | 6 => copyMember p saveEW f
  | 9 => copyMember p saveUTCDate f
  | _ => some p

/-- what follows the `switch` -/
def testField (p : GpsParse) : GpsParse :=
  let s := Function.update p.save isParseData 1
  if p.usefull.1 = 0x41 then { p with save := Function.update s isUsefull 1 }
  else if p.usefull.1 = 0x56 then { p with save := Function.update s isUsefull 0 }
  else { p with save := s }

/-- the loop for the values `is` of `i`; the memory from `subString` on is `sub` -/
def parseLoop : List Nat → List UInt8 → GpsParse → Option GpsParse
  | [], _, p => some p
  | i :: is, sub, p =>
    match find comma 0 sub.tail with
    | some k =>
      (copyField i (sub.tail.take k) p).bind fun p => parseLoop is (sub.tail.drop k) (testField p)
    | none => parseLoop is sub.tail p

def isRmc (buf : List UInt8) : Bool :=
  buf.getD 0 0 == 0x24 && buf.getD 4 0 == 0x4D && buf.getD 5 0 == 0x43

/-- `buf` is the memory from the start of the buffer up to where some NUL stands -/
def parseGpsBuffer (buf : List UInt8) (p : GpsParse) : Option GpsParse :=
  if isRmc buf then
    match find comma 0 buf with
    | some k => parseLoop (List.range' 1 9) (buf.drop k) p
    -- `subString` is null here, is counted up and read from
    | none => none
  else some p

/-! ## searching and storing -/

/-- the fields found, stored one after the other -/
def storeFields : List Nat → List (Option (List UInt8)) → GpsParse → Option GpsParse
  | i :: is, some f :: fs, p => (copyField i f p).bind fun p => storeFields is fs (testField p)
  | _ :: is, none :: fs, p => storeFields is fs p
  | _, _, p => some p

theorem storeFields_some (i : Nat) (is : List Nat) (f : List UInt8)
    (fs : List (Option (List UInt8))) (p : GpsParse) :
    storeFields (i :: is) (some f :: fs) p =
      (copyField i f p).bind fun p => storeFields is fs (testField p) := rfl
theorem storeFields_none (i : Nat) (is : List Nat) (fs : List (Option (List UInt8)))
    (p : GpsParse) : storeFields (i :: is) (none :: fs) p = storeFields is fs p := rfl
theorem storeFields_nil (fs : List (Option (List UInt8))) (p : GpsParse) :
    storeFields [] fs p = some p := by
  cases fs <;> rfl
theorem storeFields_noFields (is : List Nat) (p : GpsParse) : storeFields is [] p = some p := by
  cases is <;> rfl

/-- what is found does not depend on what is stored -/
theorem parseLoop_eq (is : List Nat) (sub : List UInt8) (p : GpsParse) :
    parseLoop is sub p = storeFields is (fields comma 0 is.length sub) p := by
  induction is generalizing sub p with
  | nil => rfl
  | cons i is ih =>
    rw [parseLoop, List.length_cons, fields]
    cases find comma 0 sub.tail with
    | none =>
      rw [storeFields_none]
      exact ih _ _
    | some k =>
      rw [storeFields_some]
      simp only [ih]

theorem comma_ne : comma ≠ 0 := by decide

/-- the parser on the memory behind the first comma -/
theorem parseGpsBuffer_comma {head : List UInt8} (hh : Plain comma 0 head) (rest : List UInt8)
    (p : GpsParse) (hr : isRmc (head ++ comma :: rest) = true) :
    parseGpsBuffer (head ++ comma :: rest) p =
      storeFields (List.range' 1 9) (fields comma 0 9 (comma :: rest)) p := by
  unfold parseGpsBuffer
  rw [if_pos hr, find_sep hh]
  simp only [List.drop_left, parseLoop_eq]
  rfl

/-! ## one copy -/

/-- the member that the field `i` goes to -/
def target : Nat → Option SaveMember
  | 1 => some saveUTCTime
  | 3 => some saveLatitude
  | 4 => some saveNS
  | 5 => some saveLongitude
  | 6 => some saveEW
  | 9 => some saveUTCDate
  | _ => none

/-- a field of `n` bytes stays inside the object it is copied into -/
def Reaches (i n : Nat) : Prop :=
  (∀ m, target i = some m → m.off + n ≤ 52) ∧ (i = 2 → n ≤ 2)

/-- it stays inside its array -/
def FitsArray (i n : Nat) : Prop := (∀ m, target i = some m → n ≤ m.size) ∧ (i = 2 → n ≤ 2)

/-- `Save_Data` with the field `i` in it -/
def saveWith (i : Nat) (f : List UInt8) (s : SaveData) : SaveData :=
  match target i with
  | some m => s.put m.off f
  | none => s

/-- `usefullBuffer` with the field `i` in it -/
def usefullWith (i : Nat) (f : List UInt8) (u : UInt8 × UInt8) : UInt8 × UInt8 :=
  if i = 2 then (copyUsefull u f).getD u else u

/-- all copies so far stay inside their arrays -/
def CopiesFit (p : GpsParse) : Prop := ∀ c ∈ p.copies, c.2 ≤ c.1

theorem put_nil (s : SaveData) (off : Nat) : s.put off [] = s := by
  funext i
  unfold SaveData.put
  rw [List.length_nil, Nat.add_zero, if_neg (by omega)]

theorem copyUsefull_of_le (u : UInt8 × UInt8) {f : List UInt8} (h : f.length ≤ 2) :
    copyUsefull u f = some ((copyUsefull u f).getD u) := by
  match f, h with
  | [], _ => rfl
  | [_], _ => rfl
  | [_, _], _ => rfl

theorem copyUsefull_of_gt (u : UInt8 × UInt8) {f : List UInt8} (h : 2 < f.length) :
    copyUsefull u f = none := by
  match f, h with
  | _ :: _ :: _ :: _, _ => rfl

/-- the copies that the field `i` makes -/
def copiesOf (i : Nat) (f : List UInt8) (p : GpsParse) : List (Nat × Nat) :=
  (((target i).map fun m => (m.size, f.length)).toList ++
      if i = 2 then [(2, f.length)] else []) ++
    if i = 4 ∧ f = [] ∧ p.save ⟨saveNS.off, by decide⟩ = 0 then [(saveLongitude.size, 0)] else []

/-- the state with the field `i` in it -/
def withField (i : Nat) (f : List UInt8) (p : GpsParse) : GpsParse where
  save := saveWith i f p.save
  utcTime := if i = 1 then 1 else p.utcTime
  usefull := usefullWith i f p.usefull
  copies := p.copies ++ copiesOf i f p

theorem copyMember_of_le {p : GpsParse} {m : SaveMember} {f : List UInt8} (h : m.off + f.length ≤ 52) :
    copyMember p m f =
      some { p with save := p.save.put m.off f, copies := p.copies ++ [(m.size, f.length)] } := by
  unfold copyMember SaveData.copy
  rw [if_pos h]
  rfl

theorem copyMember_of_gt {p : GpsParse} {m : SaveMember} {f : List UInt8}
    (h : ¬ m.off + f.length ≤ 52) : copyMember p m f = none := by
  unfold copyMember SaveData.copy
  rw [if_neg h]
  rfl

/-- a field that goes to a member, and the case ends there -/
theorem copyMember_reaches {i : Nat} {m : SaveMember} (hm : target i = some m) (h2 : i ≠ 2)
    (f : List UInt8) : Reaches i f.length ↔ m.off + f.length ≤ 52 := by
  unfold Reaches
  rw [hm]
  exact ⟨fun h => h.1 m rfl, fun h => ⟨fun m' e => Option.some.inj e ▸ h, fun e => absurd e h2⟩⟩

/-- a case of the `switch` that is one copy -/
theorem copyMember_eq_withField {i : Nat} {m : SaveMember} (hm : target i = some m) (h1 : i ≠ 1)
    (h2 : i ≠ 2) (h4 : i ≠ 4) {f : List UInt8} (h : m.off + f.length ≤ 52) (p : GpsParse) :
    copyMember p m f = some (withField i f p) := by
  rw [copyMember_of_le h]
  unfold withField saveWith usefullWith copiesOf
  rw [if_neg h1, if_neg h2, if_neg h2, if_neg fun e => h4 e.1, hm, List.append_nil, List.append_nil]
  rfl

theorem copiesOf_four_twice {p : GpsParse} (h : p.save ⟨saveNS.off, by decide⟩ = 0) :
    copiesOf 4 [] p = [(saveNS.size, 0), (saveLongitude.size, 0)] := by
  have hc : (4 : Nat) = 4 ∧ ([] : List UInt8) = [] ∧ p.save ⟨saveNS.off, by decide⟩ = 0 :=
    ⟨rfl, rfl, h⟩
  unfold copiesOf
  rw [if_pos hc]
  rfl

theorem copiesOf_four_once {p : GpsParse} {f : List UInt8}
    (h : ¬ (f = [] ∧ p.save ⟨saveNS.off, by decide⟩ = 0)) :
    copiesOf 4 f p = [(saveNS.size, f.length)] := by
  have hc : ¬ ((4 : Nat) = 4 ∧ f = [] ∧ p.save ⟨saveNS.off, by decide⟩ = 0) := fun e => h e.2
  unfold copiesOf
  rw [if_neg hc]
  rfl

/-- the field behind the fourth comma: an empty one may be copied on into the longitude -/
theorem copyField_four {f : List UInt8} (hf : (0 : UInt8) ∉ f) (p : GpsParse)
    (h : saveNS.off + f.length ≤ 52) : copyField 4 f p = some (withField 4 f p) := by
  show (copyMember p saveNS f).bind _ = _
  rw [copyMember_of_le h, Option.bind_some]
  have hnil : ∀ s : SaveData, saveWith 4 [] s = s := fun s => put_nil s saveNS.off
  show (if (p.save.put saveNS.off f) ⟨saveNS.off, by decide⟩ ≠ 0 then _ else _) = _
  cases f with
  | nil =>
    rw [put_nil]
    by_cases hns : p.save ⟨saveNS.off, by decide⟩ = 0
    · have hlong : saveLongitude.off + ([] : List UInt8).length ≤ 52 := by decide
      rw [if_neg (not_not.2 hns), copyMember_of_le hlong, put_nil]
      unfold withField
      rw [copiesOf_four_twice hns, hnil, List.append_assoc]
      rfl
    · rw [if_pos hns]
      unfold withField
      rw [copiesOf_four_once fun e => hns e.2, hnil]
      rfl
  | cons b f =>
    have hb : (p.save.put saveNS.off (b :: f)) ⟨saveNS.off, by decide⟩ = b := by
      unfold SaveData.put
      rw [if_pos ⟨Nat.le_refl _, Nat.lt_add_of_pos_right (Nat.succ_pos _)⟩]
      simp only [Nat.sub_self, List.getD_cons_zero]
    have hb0 : b ≠ 0 := fun e => hf (e ▸ List.mem_cons_self)
    rw [hb, if_pos hb0]
    unfold withField
    rw [copiesOf_four_once (f := b :: f) fun e => List.cons_ne_nil b f e.1]
    rfl

theorem copyField_of_reaches {i : Nat} {f : List UInt8} (hf : (0 : UInt8) ∉ f)
    (h : Reaches i f.length) (p : GpsParse) : copyField i f p = some (withField i f p) := by
  match i with
  | 1 =>
    show (copyMember p saveUTCTime f).map _ = _
    rw [copyMember_of_le (h.1 saveUTCTime rfl)]
    rfl
  | 2 =>
    show (copyUsefull p.usefull f).map _ = _
    rw [copyUsefull_of_le p.usefull (h.2 rfl)]
    rfl
  | 3 => exact copyMember_eq_withField rfl (by decide) (by decide) (by decide) (h.1 saveLatitude rfl) p
  | 4 => exact copyField_four hf p (h.1 saveNS rfl)
  | 5 => exact copyMember_eq_withField rfl (by decide) (by decide) (by decide) (h.1 saveLongitude rfl) p
  | 6 => exact copyMember_eq_withField rfl (by decide) (by decide) (by decide) (h.1 saveEW rfl) p
  | 9 => exact copyMember_eq_withField rfl (by decide) (by decide) (by decide) (h.1 saveUTCDate rfl) p
  | 0 | 7 | 8 | n + 10 =>
    show some p = _
    unfold withField
    simp [saveWith, usefullWith, copiesOf, target]

theorem copyField_of_not_reaches {i : Nat} {f : List UInt8} (h : ¬ Reaches i f.length)
    (p : GpsParse) : copyField i f p = none := by
  have hgt : ∀ m, target i = some m → i ≠ 2 → copyMember p m f = none :=
    fun m hm h2 => copyMember_of_gt fun hle => h ((copyMember_reaches hm h2 f).2 hle)
  have hnone : target i = none → i ≠ 2 → False := by
    intro ht h2
    refine h ⟨fun m e => ?_, fun e => absurd e h2⟩
    rw [ht] at e
    cases e
  match i with
  | 1 =>
    show (copyMember p saveUTCTime f).map _ = _
    rw [hgt _ rfl (by decide)]
    rfl
  | 2 =>
    have hlen : 2 < f.length := by
      by_contra hle
      exact h ⟨nofun, fun _ => Nat.not_lt.1 hle⟩
    show (copyUsefull p.usefull f).map _ = _
    rw [copyUsefull_of_gt p.usefull hlen]
    rfl
  | 3 => exact hgt saveLatitude rfl (by decide)
  | 4 =>
    show (copyMember p saveNS f).bind _ = _
    rw [hgt _ rfl (by decide)]
    rfl
  | 5 => exact hgt saveLongitude rfl (by decide)
  | 6 => exact hgt saveEW rfl (by decide)
  | 9 => exact hgt saveUTCDate rfl (by decide)
  | 0 => exact (hnone rfl (by decide)).elim
  | 7 => exact (hnone rfl (by decide)).elim
  | 8 => exact (hnone rfl (by decide)).elim
  | n + 10 => exact (hnone rfl (by omega)).elim

/-! ## the copies that stay in their arrays -/

theorem fitsArray_reaches {i n : Nat} (h : FitsArray i n) : Reaches i n := by
  refine ⟨fun m hm => ?_, h.2⟩
  have hn := h.1 m hm
  have hroom : m.off + m.size ≤ 52 := by
    unfold target at hm
    split at hm <;> cases hm <;> decide
  omega

/-- the copies of a field stay in their arrays iff the field fits -/
theorem copiesOf_fit_iff (i : Nat) (f : List UInt8) (p : GpsParse) :
    (∀ c ∈ copiesOf i f p, c.2 ≤ c.1) ↔ FitsArray i f.length := by
  have hextra : ∀ c ∈ (if i = 4 ∧ f = [] ∧ p.save ⟨saveNS.off, by decide⟩ = 0 then
      [(saveLongitude.size, 0)] else []), c.2 ≤ c.1 := by
    intro c hc
    split at hc
    · rw [List.mem_singleton.1 hc]
      exact Nat.zero_le _
    · cases hc
  have htwo : (∀ c ∈ (if i = 2 then [(2, f.length)] else []), c.2 ≤ c.1) ↔ (i = 2 → f.length ≤ 2) := by
    by_cases h2 : i = 2
    · rw [if_pos h2, List.forall_mem_singleton]
      exact ⟨fun h _ => h, fun h => h h2⟩
    · rw [if_neg h2]
      exact ⟨fun _ e => absurd e h2, fun _ => nofun⟩
  have htarget : (∀ c ∈ ((target i).map fun m => (m.size, f.length)).toList, c.2 ≤ c.1) ↔
      ∀ m, target i = some m → f.length ≤ m.size := by
    cases target i with
    | none => exact ⟨fun _ => nofun, fun _ => nofun⟩
    | some m =>
      rw [Option.map_some, Option.toList_some, List.forall_mem_singleton]
      exact ⟨fun h m' e => Option.some.inj e ▸ h, fun h => h m rfl⟩
  unfold copiesOf FitsArray
  rw [List.forall_mem_append, List.forall_mem_append, htwo, htarget]
  exact and_iff_left hextra

/-! ## all copies -/

/-- every field found meets `P` -/
def AllFields (P : Nat → List UInt8 → Prop) : List Nat → List (Option (List UInt8)) → Prop
  | i :: is, some f :: fs => P i f ∧ AllFields P is fs
  | _ :: is, none :: fs => AllFields P is fs
  | _, _ => True

theorem allFields_append {P : Nat → List UInt8 → Prop} {is : List Nat}
    {fs : List (Option (List UInt8))} (hlen : is.length = fs.length) (js : List Nat)
    (gs : List (Option (List UInt8))) :
    AllFields P (is ++ js) (fs ++ gs) ↔ AllFields P is fs ∧ AllFields P js gs := by
  induction is generalizing fs with
  | nil =>
    rw [List.eq_nil_of_length_eq_zero hlen.symm]
    exact (and_iff_right trivial).symm
  | cons i is ih =>
    match fs with
    | none :: fs => exact ih (Nat.succ.inj hlen)
    | some f :: fs => exact (and_congr_right fun _ => ih (Nat.succ.inj hlen)).trans and_assoc.symm

theorem allFields_replicate_none (P : Nat → List UInt8 → Prop) (is : List Nat) (n : Nat) :
    AllFields P is (List.replicate n none) := by
  induction is generalizing n with
  | nil => cases n <;> trivial
  | cons i is ih =>
    cases n with
    | zero => trivial
    | succ n => exact ih n

theorem allFields_mem {P : Nat → List UInt8 → Prop} {is : List Nat} {fs : List (List UInt8)}
    (hlen : is.length = fs.length) (h : AllFields P is (fs.map some)) {i : Nat} (hi : i ∈ is) :
    ∃ f ∈ fs, P i f := by
  induction is generalizing fs with
  | nil => cases hi
  | cons j is ih =>
    match fs with
    | f :: fs =>
      rcases List.mem_cons.1 hi with rfl | hi
      · exact ⟨f, List.mem_cons_self, h.1⟩
      · obtain ⟨g, hg, hP⟩ := ih (Nat.succ.inj hlen) h.2 hi
        exact ⟨g, List.mem_cons_of_mem f hg, hP⟩

/-- every field found stays inside the object it is copied into -/
def AllReach (is : List Nat) (fs : List (Option (List UInt8))) : Prop :=
  AllFields (fun i f => Reaches i f.length) is fs

/-- every field found fits its array -/
def AllFit (is : List Nat) (fs : List (Option (List UInt8))) : Prop :=
  AllFields (fun i f => FitsArray i f.length) is fs

/-- the fields hold no NUL -/
def NoNul (fs : List (Option (List UInt8))) : Prop := ∀ f, some f ∈ fs → (0 : UInt8) ∉ f

theorem noNul_fields (n : Nat) (sub : List UInt8) : NoNul (fields comma 0 n sub) :=
  fun _ hf h0 => (fields_plain comma_ne hf 0 h0).2 rfl

theorem NoNul.tail {x : Option (List UInt8)} {fs : List (Option (List UInt8))}
    (h : NoNul (x :: fs)) : NoNul fs := fun f hf => h f (List.mem_cons_of_mem x hf)

/-- one step of the storing -/
theorem storeFields_reaches {i : Nat} {is : List Nat} {f : List UInt8}
    {fs : List (Option (List UInt8))} (hn : NoNul (some f :: fs)) (h : Reaches i f.length)
    (p : GpsParse) :
    storeFields (i :: is) (some f :: fs) p = storeFields is fs (testField (withField i f p)) := by
  rw [storeFields_some, copyField_of_reaches (hn f List.mem_cons_self) h, Option.bind_some]

theorem storeFields_not_reaches {i : Nat} {is : List Nat} {f : List UInt8}
    {fs : List (Option (List UInt8))} (h : ¬ Reaches i f.length) (p : GpsParse) :
    storeFields (i :: is) (some f :: fs) p = none := by
  rw [storeFields_some, copyField_of_not_reaches h]
  rfl

/-- the storing goes through iff every copy stays inside its object -/
theorem storeFields_isSome_iff {is : List Nat} {fs : List (Option (List UInt8))} (hn : NoNul fs)
    (p : GpsParse) : (storeFields is fs p).isSome = true ↔ AllReach is fs := by
  induction is generalizing fs p with
  | nil =>
    rw [storeFields_nil]
    exact iff_of_true rfl (by cases fs <;> trivial)
  | cons i is ih =>
    match fs with
    | [] => exact ⟨fun _ => trivial, fun _ => rfl⟩
    | none :: fs => exact ih hn.tail p
    | some f :: fs =>
      by_cases h : Reaches i f.length
      · rw [storeFields_reaches hn h, ih hn.tail]
        exact ⟨fun h' => ⟨h, h'⟩, fun h' => h'.2⟩
      · rw [storeFields_not_reaches h]
        exact ⟨fun e => absurd e Bool.false_ne_true, fun h' => absurd h'.1 h⟩

/-- **Run.**  What the storing of every field keeps of two parses, the storing of all fields does. -/
theorem storeFields_related {R : GpsParse → GpsParse → Prop} {is : List Nat}
    {fs : List (Option (List UInt8))} (hn : NoNul fs)
    (hstep : ∀ i ∈ is, ∀ f p p', Reaches i f.length → R p p' →
      R (testField (withField i f p)) (testField (withField i f p')))
    {p p' q q' : GpsParse} (hp : R p p') (h : storeFields is fs p = some q)
    (h' : storeFields is fs p' = some q') : R q q' := by
  induction is generalizing fs p p' with
  | nil =>
    rw [storeFields_nil] at h h'
    rwa [← Option.some.inj h, ← Option.some.inj h']
  | cons i is ih =>
    have hstep' := fun j hj => hstep j (List.mem_cons_of_mem i hj)
    match fs with
    | [] =>
      rw [storeFields_noFields] at h h'
      rwa [← Option.some.inj h, ← Option.some.inj h']
    | none :: fs => exact ih hn.tail hstep' hp h h'
    | some f :: fs =>
      by_cases hr : Reaches i f.length
      · rw [storeFields_reaches hn hr] at h h'
        exact ih hn.tail hstep' (hstep i List.mem_cons_self f p p' hr hp) h h'
      · rw [storeFields_not_reaches hr] at h
        cases h

theorem testField_copies (p : GpsParse) : (testField p).copies = p.copies := by
  unfold testField
  split_ifs <;> rfl

theorem testField_utcTime (p : GpsParse) : (testField p).utcTime = p.utcTime := by
  unfold testField
  split_ifs <;> rfl

theorem testField_usefull (p : GpsParse) : (testField p).usefull = p.usefull := by
  unfold testField
  split_ifs <;> rfl

/-- the test of the validity byte writes two flags -/
theorem testField_save (p : GpsParse) {i : Fin 52} (h1 : i ≠ isParseData) (h2 : i ≠ isUsefull) :
    (testField p).save i = p.save i := by
  unfold testField
  split_ifs
  · show Function.update (Function.update p.save isParseData 1) isUsefull 1 i = _
    rw [Function.update_of_ne h2, Function.update_of_ne h1]
  · show Function.update (Function.update p.save isParseData 1) isUsefull 0 i = _
    rw [Function.update_of_ne h2, Function.update_of_ne h1]
  · show Function.update p.save isParseData 1 i = _
    rw [Function.update_of_ne h1]

theorem copiesFit_testField (p : GpsParse) : CopiesFit (testField p) ↔ CopiesFit p := by
  unfold CopiesFit
  rw [testField_copies]

theorem copiesFit_withField (i : Nat) (f : List UInt8) (p : GpsParse) :
    CopiesFit (withField i f p) ↔ CopiesFit p ∧ FitsArray i f.length := by
  unfold CopiesFit
  show (∀ c ∈ p.copies ++ copiesOf i f p, c.2 ≤ c.1) ↔ _
  rw [List.forall_mem_append, copiesOf_fit_iff]

/-- **All copies of a sentence stay in their arrays iff every field found fits.** -/
theorem storeFields_fit_iff {is : List Nat} {fs : List (Option (List UInt8))} (hn : NoNul fs)
    (p : GpsParse) :
    (∃ q, storeFields is fs p = some q ∧ CopiesFit q) ↔ CopiesFit p ∧ AllFit is fs := by
  induction is generalizing fs p with
  | nil =>
    have hall : AllFit [] fs := by cases fs <;> trivial
    rw [storeFields_nil]
    exact ⟨fun ⟨q, e, hq⟩ => ⟨Option.some.inj e ▸ hq, hall⟩, fun h => ⟨p, rfl, h.1⟩⟩
  | cons i is ih =>
    match fs with
    | [] => exact ⟨fun ⟨q, e, hq⟩ => ⟨Option.some.inj e ▸ hq, trivial⟩, fun h => ⟨p, rfl, h.1⟩⟩
    | none :: fs => exact ih hn.tail p
    | some f :: fs =>
      show _ ↔ CopiesFit p ∧ FitsArray i f.length ∧ AllFit is fs
      by_cases h : Reaches i f.length
      · rw [storeFields_reaches hn h, ih hn.tail, copiesFit_testField, copiesFit_withField, and_assoc]
      · rw [storeFields_not_reaches h]
        refine ⟨fun ⟨q, e, _⟩ => ?_, fun h' => absurd (fitsArray_reaches h'.2.1) h⟩
        cases e

end MenuFirmware
