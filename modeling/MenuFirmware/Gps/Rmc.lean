import MenuFirmware.Gps.Nmea
import Mathlib.Data.List.GetD

/-!
# RMC sentences

What a receiver sends: a head, nine fields between commas and a rest that says nothing about them.

* `RmcSentence`         such a sentence; its fields may have any lengths;
* `parse_bytes`         the parser stores the nine fields;
* `Saved`               certain bytes of `Save_Data` are a given text;
* `parse_time`, `parse_date`  after the parser, the time and the date are the fields 1 and 9.
-/

set_option linter.unusedSectionVars false
set_option linter.unusedVariables false

namespace MenuFirmware
open Delimited

/-! ## the sentence -/

structure RmcSentence where
  head : List UInt8
  fs : List (List UInt8)
  /-- what follows the nine fields, up to the end of the memory -/
  rest : List UInt8
  rmc : isRmc head = true
  head_plain : Plain comma 0 head
  nine : fs.length = 9
  plain : ∀ f ∈ fs, Plain comma 0 f

/-- the memory that the parser is given -/
def RmcSentence.bytes (s : RmcSentence) : List UInt8 :=
  s.head ++ comma :: (s.fs.flatMap (· ++ [comma]) ++ s.rest)

/-- all copies of the sentence stay inside their objects -/
def RmcSentence.Reach (s : RmcSentence) : Prop := AllReach (List.range' 1 9) (s.fs.map some)

/-- the first six bytes decide -/
theorem isRmc_append {head : List UInt8} (h : isRmc head = true) (l : List UInt8) :
    isRmc (head ++ l) = true := by
  unfold isRmc at h ⊢
  have hlen : 5 < head.length := by
    by_contra hlt
    rw [List.getD_eq_default head 0 (Nat.not_lt.1 hlt)] at h
    simp at h
  rw [List.getD_append _ _ _ _ (by omega), List.getD_append _ _ _ _ (by omega),
    List.getD_append _ _ _ _ hlen]
  exact h

theorem parse_bytes (s : RmcSentence) (p : GpsParse) :
    parseGpsBuffer s.bytes p = storeFields (List.range' 1 9) (s.fs.map some) p := by
  unfold RmcSentence.bytes
  rw [parseGpsBuffer_comma s.head_plain _ p (isRmc_append s.rmc _), ← s.nine,
    fields_join s.plain s.rest, s.nine]

theorem noNul_map {fs : List (List UInt8)} (h : ∀ f ∈ fs, Plain comma 0 f) :
    NoNul (fs.map some) := by
  intro f hf h0
  obtain ⟨g, hg, e⟩ := List.mem_map.1 hf
  exact (h g hg 0 (Option.some.inj e ▸ h0)).2 rfl

theorem parse_bytes_isSome (s : RmcSentence) (p : GpsParse) :
    (parseGpsBuffer s.bytes p).isSome = true ↔ s.Reach := by
  rw [parse_bytes]
  exact storeFields_isSome_iff (noNul_map s.plain) p

/-! ## what stays -/

/-- the bytes of `Save_Data` from `off` on are `f` -/
def Saved (s : SaveData) (off : Nat) (f : List UInt8) : Prop :=
  ∀ i : Fin 52, off ≤ i.1 → i.1 < off + f.length → s i = f.getD (i.1 - off) 0

theorem saved_put (s : SaveData) (off : Nat) (f : List UInt8) : Saved (s.put off f) off f := by
  intro i hlo hhi
  unfold SaveData.put
  rw [if_pos ⟨hlo, hhi⟩]

theorem put_below {s : SaveData} {off : Nat} {i : Fin 52} (h : i.1 < off) (f : List UInt8) :
    s.put off f i = s i := by
  unfold SaveData.put
  rw [if_neg (by omega)]

/-- a field other than the first one is copied to behind `UTCTime` -/
theorem saveWith_below {i : Nat} (h1 : i ≠ 1) {j : Fin 52} (hj : j.1 < saveUTCDate.off)
    (f : List UInt8) (s : SaveData) : saveWith i f s j = s j := by
  have hoff : ∀ m, target i = some m → saveUTCDate.off ≤ m.off := by
    intro m hm
    unfold target at hm
    split at hm <;> cases hm <;> first | exact absurd rfl h1 | decide
  unfold saveWith
  cases hm : target i with
  | none => rfl
  | some m => exact put_below (Nat.lt_of_lt_of_le hj (hoff m hm)) f

/-- so the fields behind the first one leave `UTCTime` as it is -/
theorem storeFields_below {is : List Nat} {fs : List (Option (List UInt8))} (hn : NoNul fs)
    (h1 : 1 ∉ is) {j : Fin 52} (hflag : j ≠ isParseData) (hj : j.1 < saveUTCDate.off)
    {p q : GpsParse} (h : storeFields is fs p = some q) : q.save j = p.save j := by
  have hlast : j ≠ isUsefull := by
    rintro rfl
    exact absurd hj (by decide)
  have hstep : ∀ i ∈ is, ∀ (f : List UInt8) (r r' : GpsParse), Reaches i f.length →
      r.save j = p.save j → (testField (withField i f r)).save j = p.save j := by
    intro i hi f r r' _ hr
    rw [testField_save _ hflag hlast, ← hr]
    exact saveWith_below (fun e => h1 (e ▸ hi)) hj f r.save
  exact storeFields_related (R := fun r _ => r.save j = p.save j) hn hstep rfl h h

/-- the flag for the time is not taken back -/
theorem storeFields_utcTime {is : List Nat} {fs : List (Option (List UInt8))} (hn : NoNul fs)
    {p q : GpsParse} (hp : p.utcTime = 1) (h : storeFields is fs p = some q) : q.utcTime = 1 := by
  have hstep : ∀ i ∈ is, ∀ (f : List UInt8) (r r' : GpsParse), Reaches i f.length →
      r.utcTime = 1 → (testField (withField i f r)).utcTime = 1 := by
    intro i _ f r r' _ hr
    rw [testField_utcTime]
    show (if i = 1 then 1 else r.utcTime) = 1
    rw [hr, ite_self]
  exact storeFields_related (R := fun r _ => r.utcTime = 1) hn hstep hp h h

theorem storeFields_append {is : List Nat} {fs : List (Option (List UInt8))}
    (hlen : is.length = fs.length) (js : List Nat) (gs : List (Option (List UInt8)))
    (p : GpsParse) :
    storeFields (is ++ js) (fs ++ gs) p = (storeFields is fs p).bind (storeFields js gs) := by
  induction is generalizing fs p with
  | nil =>
    rw [List.eq_nil_of_length_eq_zero hlen.symm]
    rfl
  | cons i is ih =>
    match fs with
    | none :: fs => exact ih (Nat.succ.inj hlen) p
    | some f :: fs =>
      rw [List.cons_append, List.cons_append, storeFields_some, storeFields_some, Option.bind_assoc]
      congr 1
      funext q
      exact ih (Nat.succ.inj hlen) (testField q)

/-! ## the time and the date -/

/-- **The time.**  What the first field holds is in `UTCTime`, and the flag for it is set. -/
theorem parse_time {s : RmcSentence} {time : List UInt8} {more : List (List UInt8)}
    (hfs : s.fs = time :: more) {p q : GpsParse} (h : parseGpsBuffer s.bytes p = some q) :
    Saved q.save saveUTCTime.off (time.take utcTimeLength) ∧ q.utcTime = 1 := by
  have hn := noNul_map s.plain
  have hreach : s.Reach := by
    rw [← parse_bytes_isSome s p, h]
    rfl
  unfold RmcSentence.Reach at hreach
  rw [parse_bytes, hfs] at h
  rw [hfs] at hn hreach
  have hr : Reaches 1 time.length := hreach.1
  have hstep : storeFields (List.range' 1 9) ((time :: more).map some) p =
      storeFields (List.range' 2 8) (more.map some) (testField (withField 1 time p)) :=
    storeFields_reaches hn hr p
  rw [hstep] at h
  constructor
  · intro i hlo hhi
    rw [List.length_take] at hhi
    have htime : i.1 < saveUTCTime.off + time.length := by omega
    have hbelow : i.1 < saveUTCDate.off := by
      have hend : saveUTCTime.off + utcTimeLength = saveUTCDate.off := rfl
      omega
    have hflag : i ≠ isParseData := by
      rintro rfl
      exact absurd hlo (by decide)
    have hlast : i ≠ isUsefull := by
      rintro rfl
      exact absurd hbelow (by decide)
    rw [storeFields_below hn.tail (by decide) hflag hbelow h, testField_save _ hflag hlast,
      List.getD_eq_getElem?_getD, List.getElem?_take_of_lt (by omega), ← List.getD_eq_getElem?_getD]
    exact saved_put p.save saveUTCTime.off time i hlo htime
  · refine storeFields_utcTime hn.tail ?_ h
    rw [testField_utcTime]
    rfl

/-- **The date.**  The ninth field is copied last, to `UTCDate`. -/
theorem parse_date {s : RmcSentence} {before : List (List UInt8)} {date : List UInt8}
    (hfs : s.fs = before ++ [date]) (hdate : saveUTCDate.off + date.length < 52) {p q : GpsParse}
    (h : parseGpsBuffer s.bytes p = some q) : Saved q.save saveUTCDate.off date := by
  have hn := noNul_map s.plain
  have hlen : (List.range' 1 8).length = (before.map some).length := by
    have hnine := s.nine
    rw [hfs, List.length_append, List.length_singleton] at hnine
    rw [List.length_map, List.length_range']
    omega
  rw [parse_bytes, hfs, List.map_append] at h
  rw [hfs, List.map_append] at hn
  have h' : (storeFields (List.range' 1 8) (before.map some) p).bind
      (storeFields [9] [some date]) = some q := by
    rw [← storeFields_append hlen]
    exact h
  obtain ⟨r, -, hr⟩ := Option.bind_eq_some_iff.1 h'
  have hlast : NoNul [some date] := fun f hf => hn f (List.mem_append_right _ hf)
  have hreach : Reaches 9 date.length := by
    refine ⟨fun m hm => ?_, fun e => absurd e (by decide)⟩
    cases hm
    exact Nat.le_of_lt hdate
  rw [storeFields_reaches hlast hreach, storeFields_nil] at hr
  intro i hlo hhi
  rw [← Option.some.inj hr, testField_save]
  · exact saved_put r.save saveUTCDate.off date i hlo hhi
  · rintro rfl
    exact absurd hlo (by decide)
  · rintro rfl
    exact absurd (Nat.lt_of_lt_of_le hhi (Nat.le_of_lt_succ hdate)) (by decide)

/-! ## reading and clearing a member -/

/-- the `i`-th byte of a member -/
def SaveData.byte (s : SaveData) (m : SaveMember) (i : Nat) : UInt8 :=
  if h : m.off + i < 52 then s ⟨m.off + i, h⟩ else 0

/-- `memset` of a whole member to 0 -/
def SaveData.clear (s : SaveData) (m : SaveMember) : SaveData :=
  s.put m.off (List.replicate m.size 0)

theorem saved_byte {s : SaveData} {m : SaveMember} {f : List UInt8} (h : Saved s m.off f) {i : Nat}
    (hi : i < f.length) (hm : m.off + f.length ≤ 52) : s.byte m i = f.getD i 0 := by
  unfold SaveData.byte
  rw [dif_pos (by omega), h ⟨m.off + i, by omega⟩ (Nat.le_add_right ..) (Nat.add_lt_add_left hi _)]
  congr 1
  exact Nat.add_sub_cancel_left ..

/-! ## a head, and digits -/

/-- `$GPRMC` -/
def gprmc : List UInt8 := [0x24, 0x47, 0x50, 0x52, 0x4D, 0x43]

theorem gprmc_rmc : isRmc gprmc = true := by decide
theorem gprmc_plain : Plain comma 0 gprmc := by decide

/-- a number below 100 in two digits -/
def twoDigits (n : Nat) : List UInt8 := [UInt8.ofNat (48 + n / 10), UInt8.ofNat (48 + n % 10)]

theorem twoDigits_ne_zero (n : Nat) (h : n < 100) : UInt8.ofNat (48 + n / 10) ≠ 0 := by
  have hall : ∀ n : Fin 100, UInt8.ofNat (48 + n.1 / 10) ≠ 0 := by decide +kernel
  exact hall ⟨n, h⟩

end MenuFirmware
