import MenuFirmware.Gps.Rmc
import MenuFirmware.Lib.Run

/-!
# The hour of a sentence (`uart4.c`, `meau_flash.c`)

`Get_UTCTime` adds the offset to the hour of the last sentence, in eight bits, and brings the sum
back into a day with two loops.

* `subDays`, `addDays`  the loops; `utcHour` the hour that comes of them;
* `loops_eq_iff`        it is the sum modulo 24 iff the sum fits eight bits and is not a whole
                        number of days from one day on: there it is 24;
* `getUtcTime`          a call, which shows a sentence once;
* `utcStep`             sentences, changes of the offset and calls;
* `hourShown_iff`       over every run of them, the hours shown are right iff each of the sums is one
                        of these.
-/

set_option linter.unusedSectionVars false
set_option linter.unusedVariables false

namespace MenuFirmware
open Delimited Runs

/-! ## the code -/

/-- what an `int8_t` keeps of an `int` -/
def toInt8 (x : Int) : Int := (x + 128) % 256 - 128

/-- `while(time > 24) time -= 24` -/
def subDays (time : Int) : Int :=
  if 24 < time then subDays (toInt8 (time - 24)) else time
termination_by time.toNat
decreasing_by
  unfold toInt8
  omega

/-- `while(time < 0) time += 24` -/
def addDays (time : Int) : Int :=
  if time < 0 then addDays (toInt8 (time + 24)) else time
termination_by (-time).toNat
decreasing_by
  unfold toInt8
  omega

/-- the hour and the offset in `time`, and the two loops -/
def utcHour (b₀ b₁ : UInt8) (offset : Int) : Int :=
  addDays (subDays (toInt8 (toInt8 ((b₀.toNat - 0x30) * 10 + (b₁.toNat - 0x30)) + offset)))

/-- the two bytes that are written back -/
def hourBytes (time : Int) : List UInt8 :=
  [UInt8.ofInt (time.tdiv 10 + 0x30), UInt8.ofInt (time.tmod 10 + 0x30)]

/-- `utc_offset_num` is a `char` -/
def setUtcOffsetNum (num : Int8) : UInt8 := num.toUInt8
def getUtcOffsetNum (utcOffsetNum : UInt8) : Int8 := utcOffsetNum.toInt8

def defaultUtcOffsetNum : UInt8 := 8

theorem getUtcOffsetNum_set (num : Int8) : getUtcOffsetNum (setUtcOffsetNum num) = num := rfl

/-- the offset is applied to the bytes of the time itself -/
def applyOffset (utcOffsetNum : UInt8) (p : GpsParse) : GpsParse :=
  if p.utcTime ≠ 0 then
    { p with
      save := p.save.put saveUTCTime.off (hourBytes (utcHour (p.save.byte saveUTCTime 0)
        (p.save.byte saveUTCTime 1) (getUtcOffsetNum utcOffsetNum).toInt))
      utcTime := 0 }
  else p

/-- the row that is shown -/
def utcTimeRow (time : Nat → UInt8) : List UInt8 :=
  [time 0, time 1, 0x68, time 2, time 3, 0x6D, time 4, time 5, 0x73]

/-- what `Get_UTCTime` writes -/
structure TimeCall where
  parse : GpsParse
  /-- the row `buf[line]` -/
  buf : Nat → UInt8

def getUtcTime (utcOffsetNum : UInt8) (c : TimeCall) : TimeCall :=
  if c.parse.save.byte saveUTCTime 0 ≠ 0 then
    { parse := { applyOffset utcOffsetNum c.parse with
        save := (applyOffset utcOffsetNum c.parse).save.clear saveUTCTime }
      buf := fun j =>
        (utcTimeRow ((applyOffset utcOffsetNum c.parse).save.byte saveUTCTime)).getD j (c.buf j) }
  else c

/-! ## the hour -/

/-- the sums for which the hour is right -/
def OffsetFits (sum : Int) : Prop := sum ≤ 127 ∧ ¬ (24 ≤ sum ∧ sum % 24 = 0)

theorem subDays_of_le {time : Int} (h : time ≤ 24) : subDays time = time := by
  rw [subDays, if_neg (by omega)]

theorem addDays_of_nonneg {time : Int} (h : 0 ≤ time) : addDays time = time := by
  rw [addDays, if_neg (by omega)]

/-- the first loop ends between 1 and 24 -/
theorem subDays_of_pos {time : Int} (h : 0 < time) (h127 : time ≤ 127) :
    subDays time = (time - 1) % 24 + 1 := by
  by_cases hday : 24 < time
  · have hwrap : toInt8 (time - 24) = time - 24 := by
      unfold toInt8
      omega
    rw [subDays, if_pos hday, hwrap, subDays_of_pos (by omega) (by omega)]
    omega
  · rw [subDays_of_le (by omega)]
    omega
termination_by time.toNat

/-- the second one between 0 and 23 -/
theorem addDays_of_neg {time : Int} (h : time < 0) (h128 : -128 ≤ time) :
    addDays time = time % 24 := by
  have hwrap : toInt8 (time + 24) = time + 24 := by
    unfold toInt8
    omega
  rw [addDays, if_pos h, hwrap]
  by_cases hday : time + 24 < 0
  · rw [addDays_of_neg hday (by omega)]
    omega
  · rw [addDays_of_nonneg (by omega)]
    omega
termination_by (-time).toNat

/-- what the loops make of a sum -/
theorem loops_eq {sum : Int} (hlo : -128 ≤ sum) (hhi : sum ≤ 150) :
    addDays (subDays (toInt8 sum)) =
      if 127 < sum then (sum + 8) % 24 else if 0 < sum then (sum - 1) % 24 + 1 else sum % 24 := by
  by_cases h127 : 127 < sum
  · have hwrap : toInt8 sum = sum - 256 := by
      unfold toInt8
      omega
    rw [if_pos h127, hwrap, subDays_of_le (by omega), addDays_of_neg (by omega) (by omega)]
    omega
  · have hwrap : toInt8 sum = sum := by
      unfold toInt8
      omega
    rw [if_neg h127, hwrap]
    by_cases hpos : 0 < sum
    · rw [if_pos hpos, subDays_of_pos hpos (by omega), addDays_of_nonneg (by omega)]
    · rw [if_neg hpos, subDays_of_le (by omega)]
      by_cases hneg : sum < 0
      · exact addDays_of_neg hneg hlo
      · rw [addDays_of_nonneg (by omega)]
        omega

/-- **The hour.** -/
theorem loops_eq_iff {sum : Int} (hlo : -128 ≤ sum) (hhi : sum ≤ 150) :
    addDays (subDays (toInt8 sum)) = sum % 24 ↔ OffsetFits sum := by
  rw [loops_eq hlo hhi]
  unfold OffsetFits
  split_ifs <;> omega

/-- the loops end within two digits -/
theorem loops_range {sum : Int} (hlo : -128 ≤ sum) (hhi : sum ≤ 150) :
    0 ≤ addDays (subDays (toInt8 sum)) ∧ addDays (subDays (toInt8 sum)) ≤ 24 := by
  rw [loops_eq hlo hhi]
  split_ifs <;> omega

/-! ## the digits -/

/-- two digits are read as their number -/
theorem utcHour_digits {h : Nat} (hh : h < 24) (offset : Int) :
    utcHour (UInt8.ofNat (48 + h / 10)) (UInt8.ofNat (48 + h % 10)) offset =
      addDays (subDays (toInt8 (h + offset))) := by
  have htens : (UInt8.ofNat (48 + h / 10)).toNat = 48 + h / 10 :=
    UInt8.toNat_ofNat_of_lt' (show 48 + h / 10 < 256 by omega)
  have hunits : (UInt8.ofNat (48 + h % 10)).toNat = 48 + h % 10 :=
    UInt8.toNat_ofNat_of_lt' (show 48 + h % 10 < 256 by omega)
  have hhour : toInt8 (((48 + h / 10 : Nat) - 0x30) * 10 + ((48 + h % 10 : Nat) - 0x30)) = h := by
    unfold toInt8
    omega
  unfold utcHour
  rw [htens, hunits, hhour]

/-- a number is written as its two digits -/
theorem hourBytes_eq_iff {time : Int} (hlo : 0 ≤ time) (hhi : time ≤ 24) {n : Nat} (hn : n < 24) :
    hourBytes time = twoDigits n ↔ time = n := by
  have hall : ∀ t : Fin 25, ∀ n : Fin 24, hourBytes (t.1 : Nat) = twoDigits n.1 ↔ t.1 = n.1 := by
    decide +kernel
  obtain ⟨t, rfl⟩ := Int.eq_ofNat_of_zero_le hlo
  rw [hall ⟨t, by omega⟩ ⟨n, hn⟩, Int.natCast_inj]

/-! ## a call -/

theorem saved_prefix {s : SaveData} {off : Nat} {f g : List UInt8} (h : Saved s off (f ++ g)) :
    Saved s off f := by
  intro i hlo hhi
  rw [h i hlo (by rw [List.length_append]; omega), List.getD_append _ _ _ _ (by omega)]

/-- `UTCTime` holds an hour that no one has shown -/
structure Unshown (h : Nat) (p : GpsParse) : Prop where
  hour_lt : h < 24
  saved : Saved p.save saveUTCTime.off (twoDigits h)
  flag : p.utcTime = 1

theorem Unshown.byte {h : Nat} {p : GpsParse} (hu : Unshown h p) :
    p.save.byte saveUTCTime 0 = UInt8.ofNat (48 + h / 10) ∧
      p.save.byte saveUTCTime 1 = UInt8.ofNat (48 + h % 10) :=
  ⟨saved_byte hu.saved (i := 0) (show 0 < 2 by decide) (show 2 + 2 ≤ 52 by decide),
    saved_byte hu.saved (i := 1) (show 1 < 2 by decide) (show 2 + 2 ≤ 52 by decide)⟩

theorem Unshown.ne_zero {h : Nat} {p : GpsParse} (hu : Unshown h p) :
    p.save.byte saveUTCTime 0 ≠ 0 := by
  have hlt := hu.hour_lt
  rw [hu.byte.1]
  exact twoDigits_ne_zero h (by omega)

/-- **A call.**  It shows the hour that the loops make of the hour and the offset. -/
theorem getUtcTime_unshown {h : Nat} {c : TimeCall} (hu : Unshown h c.parse) (utcOffsetNum : UInt8) :
    (List.range 2).map (getUtcTime utcOffsetNum c).buf =
      hourBytes (addDays (subDays (toInt8 (h + (getUtcOffsetNum utcOffsetNum).toInt)))) := by
  have hflag : c.parse.utcTime ≠ 0 := by
    rw [hu.flag]
    decide
  obtain ⟨h0, h1⟩ := hu.byte
  unfold getUtcTime applyOffset
  rw [if_pos hu.ne_zero, if_pos hflag, h0, h1, utcHour_digits hu.hour_lt]
  rfl

theorem clear_byte (s : SaveData) : (s.clear saveUTCTime).byte saveUTCTime 0 = 0 :=
  saved_byte (saved_put s saveUTCTime.off _) (i := 0) (by decide) (show 2 + 11 ≤ 52 by decide)

/-- after a call nothing is left to show -/
theorem getUtcTime_cleared (utcOffsetNum : UInt8) (c : TimeCall) :
    (getUtcTime utcOffsetNum c).parse.save.byte saveUTCTime 0 = 0 := by
  unfold getUtcTime
  by_cases h : c.parse.save.byte saveUTCTime 0 ≠ 0
  · rw [if_pos h]
    exact clear_byte _
  · rw [if_neg h]
    exact not_not.1 h

/-! ## every run -/

/-- an RMC sentence with an hour in its first field -/
structure TimedSentence extends RmcSentence where
  hour : Nat
  /-- what follows the hour in the first field -/
  minutes : List UInt8
  more : List (List UInt8)
  hour_lt : hour < 24
  timed : fs = (twoDigits hour ++ minutes) :: more
  reach : toRmcSentence.Reach

inductive UtcEvent where
  /-- a sentence is parsed, and `usefullBuffer` holds what the stack holds -/
  | sentence (s : TimedSentence) (usefull : UInt8 × UInt8)
  | setOffset (num : Int8)
  /-- a call of `Get_UTCTime` -/
  | poll

structure UtcRun where
  parse : Option GpsParse
  buf : Nat → UInt8
  utcOffsetNum : UInt8
  /-- ghost: the hour of the last sentence -/
  hour : Nat
  /-- ghost: a sentence has come since the last call -/
  unshown : Bool

def utcStep (s : UtcRun) : UtcEvent → UtcRun
  | .sentence t usefull =>
    { s with
      parse := s.parse.bind fun p => parseGpsBuffer t.bytes { p with usefull := usefull }
      hour := t.hour, unshown := true }
  | .setOffset num => { s with utcOffsetNum := setUtcOffsetNum num }
  | .poll =>
    { s with
      parse := s.parse.map fun p => (getUtcTime s.utcOffsetNum ⟨p, s.buf⟩).parse
      buf := (s.parse.map fun p => (getUtcTime s.utcOffsetNum ⟨p, s.buf⟩).buf).getD s.buf
      unshown := false }

def utcInit (buf : Nat → UInt8) (utcOffsetNum : UInt8) : UtcRun :=
  ⟨some gpsParseInit, buf, utcOffsetNum, 0, false⟩

/-- the hour of the last sentence and the current offset -/
def UtcRun.sum (s : UtcRun) : Int := s.hour + (getUtcOffsetNum s.utcOffsetNum).toInt

/-- a call that shows an hour shows the right one -/
def HourShown (s : UtcRun) : UtcEvent → Prop
  | .poll => ∃ p, s.parse = some p ∧ (p.save.byte saveUTCTime 0 ≠ 0 →
      (List.range 2).map (getUtcTime s.utcOffsetNum ⟨p, s.buf⟩).buf =
        twoDigits (s.sum % 24).toNat)
  | _ => True

/-- at a call with a new sentence, the sum of its hour and the offset is one of those that fit -/
def HourFits (s : UtcRun) : UtcEvent → Prop
  | .poll => s.unshown = true → OffsetFits s.sum
  | _ => True

/-- the parser has gone through, and `UTCTime` holds an hour iff there is one to show -/
structure UtcGood (s : UtcRun) : Prop where
  parse : ∃ p, s.parse = some p ∧ (s.unshown = true → Unshown s.hour p) ∧
    (s.unshown = false → p.save.byte saveUTCTime 0 = 0)

theorem utcInit_good (buf : Nat → UInt8) (utcOffsetNum : UInt8) : UtcGood (utcInit buf utcOffsetNum) :=
  ⟨gpsParseInit, rfl, fun e => absurd e Bool.false_ne_true, fun _ => rfl⟩

/-- a sentence leaves its hour to be shown -/
theorem unshown_parse (t : TimedSentence) {p q : GpsParse} (h : parseGpsBuffer t.bytes p = some q) :
    Unshown t.hour q := by
  obtain ⟨hsaved, hflag⟩ := parse_time t.timed h
  have htake : (twoDigits t.hour ++ t.minutes).take utcTimeLength =
      twoDigits t.hour ++ t.minutes.take 9 := rfl
  rw [htake] at hsaved
  exact ⟨t.hour_lt, saved_prefix hsaved, hflag⟩

/-- **Step.** -/
theorem utcStep_good {s : UtcRun} (h : UtcGood s) (e : UtcEvent) : UtcGood (utcStep s e) := by
  obtain ⟨p, hp, hun, hno⟩ := h.parse
  cases e with
  | sentence t usefull =>
    have hsome := (parse_bytes_isSome t.toRmcSentence { p with usefull := usefull }).2 t.reach
    obtain ⟨q, hq⟩ := Option.isSome_iff_exists.1 hsome
    refine ⟨q, ?_, fun _ => unshown_parse t hq, fun e => absurd e.symm Bool.false_ne_true⟩
    show s.parse.bind _ = some q
    rw [hp]
    exact hq
  | setOffset num => exact ⟨p, hp, hun, hno⟩
  | poll =>
    refine ⟨(getUtcTime s.utcOffsetNum ⟨p, s.buf⟩).parse, ?_, fun e => absurd e Bool.false_ne_true,
      fun _ => getUtcTime_cleared ..⟩
    show s.parse.map _ = _
    rw [hp]
    rfl

/-- a call shows the right hour iff the sum fits -/
theorem hourShown_step_iff {s : UtcRun} (h : UtcGood s) (e : UtcEvent) :
    HourShown s e ↔ HourFits s e := by
  obtain ⟨p, hp, hun, hno⟩ := h.parse
  cases e with
  | sentence t usefull => exact Iff.rfl
  | setOffset num => exact Iff.rfl
  | poll =>
    show (∃ p, s.parse = some p ∧ _) ↔ (s.unshown = true → OffsetFits s.sum)
    cases hs : s.unshown with
    | false =>
      refine iff_of_true ⟨p, hp, fun hne => absurd (hno hs) hne⟩ fun e => absurd e Bool.false_ne_true
    | true =>
      have hu := hun hs
      have hlt := hu.hour_lt
      have hlo := (getUtcOffsetNum s.utcOffsetNum).le_toInt
      have hhi := (getUtcOffsetNum s.utcOffsetNum).toInt_lt
      have hsum : -128 ≤ s.sum ∧ s.sum ≤ 150 := by
        unfold UtcRun.sum
        omega
      obtain ⟨hr0, hr24⟩ := loops_range hsum.1 hsum.2
      have hcall : (List.range 2).map (getUtcTime s.utcOffsetNum ⟨p, s.buf⟩).buf =
          hourBytes (addDays (subDays (toInt8 s.sum))) := getUtcTime_unshown hu s.utcOffsetNum
      have hmod : ((s.sum % 24).toNat : Int) = s.sum % 24 := Int.toNat_of_nonneg (by omega)
      have hiff : (List.range 2).map (getUtcTime s.utcOffsetNum ⟨p, s.buf⟩).buf =
          twoDigits (s.sum % 24).toNat ↔ OffsetFits s.sum := by
        rw [hcall, ← loops_eq_iff hsum.1 hsum.2, hourBytes_eq_iff hr0 hr24 (by omega), hmod]
      constructor
      · rintro ⟨p', hp', hshown⟩ -
        cases hp.symm.trans hp'
        exact hiff.1 (hshown hu.ne_zero)
      · intro hfit
        exact ⟨p, hp, fun _ => hiff.2 (hfit rfl)⟩

/-- **The hour.**  In every run of sentences, changes of the offset and calls, from any offset on,
every hour shown is the one of the last sentence plus the current offset, modulo 24, iff at every
call with a new sentence their sum fits. -/
theorem hourShown_iff (buf : Nat → UInt8) (utcOffsetNum : UInt8) (es : List UtcEvent) :
    Along utcStep HourShown (utcInit buf utcOffsetNum) es ↔
      Along utcStep HourFits (utcInit buf utcOffsetNum) es := by
  have hiff : ∀ (s : UtcRun) (e : UtcEvent), UtcGood s → (HourShown s e ↔ HourFits s e) :=
    fun _ e h => hourShown_step_iff h e
  have hstep : ∀ (s : UtcRun) (e : UtcEvent), UtcGood s → HourShown s e → UtcGood (utcStep s e) :=
    fun _ e h _ => utcStep_good h e
  exact Along_congr_of hiff hstep (utcInit_good buf utcOffsetNum) es

/-- the sentence `$GPRMC,160000,,,,,,,,,` -/
def fourInTheAfternoon : TimedSentence where
  head := gprmc
  fs := (twoDigits 16 ++ [0x30, 0x30, 0x30, 0x30]) :: List.replicate 8 []
  rest := []
  rmc := gprmc_rmc
  head_plain := gprmc_plain
  nine := rfl
  plain := by decide
  hour := 16
  minutes := [0x30, 0x30, 0x30, 0x30]
  more := List.replicate 8 []
  hour_lt := by decide
  timed := rfl
  reach := by
    unfold RmcSentence.Reach
    rw [← storeFields_isSome_iff (noNul_map (by decide)) gpsParseInit]
    decide +kernel

/-- with the default offset it is shown at hour 24 -/
theorem hourShown_midnight : ¬ Along utcStep HourShown (utcInit (fun _ => 0) defaultUtcOffsetNum)
    [.sentence fourInTheAfternoon (0, 0), .poll] := by
  rintro ⟨-, hshown, -⟩
  have hgood := utcStep_good (utcInit_good (fun _ => 0) defaultUtcOffsetNum)
    (.sentence fourInTheAfternoon (0, 0))
  have hfits := (hourShown_step_iff hgood .poll).1 hshown rfl
  exact hfits.2 (by decide)

end MenuFirmware
