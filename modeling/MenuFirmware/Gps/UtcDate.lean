import MenuFirmware.Gps.Rmc
import MenuFirmware.Gps.Rtc

/-!
# The date of a sentence (`uart4.c`, `rtc.c`)

`Get_UTCDate` shows the date of the last sentence, as `20yy/mm/dd`, and sets the RTC to it.

* `setRtcDate`          packs `ddmmyy` pairwise, and gives the pairs to the members of the structure;
* `halRtcSetDate`       the register that comes of it;
* `getUtcDate`          both; `ShowsDate` is what it is for;
* `getUtcDate_date`     the display is right; the RTC gets the day as its month, the month as its day;
* `showsDate_iff`       so the two agree with the sentence iff day and month are the same number.
-/

set_option linter.unusedSectionVars false
set_option linter.unusedVariables false

namespace MenuFirmware
open Delimited

/-! ## the code -/

def rtcWeekdayMonday : UInt8 := 1

structure RtcDate where
  weekDay : UInt8
  month : UInt8
  date : UInt8
  year : UInt8

/-- the loop of `Set_RTC_Date`: an odd byte is packed into the one before it -/
def bcdDateStep (date bcd : Nat → UInt8) (i : Nat) : Nat → UInt8 :=
  if i % 2 ≠ 0 then
    Function.update (Function.update bcd i (date i - 48)) (i - 1)
      (bcd (i - 1) * 16 + (date i - 48))
  else Function.update bcd i (date i - 48)

def bcdDate (date : Nat → UInt8) : Nat → UInt8 :=
  (List.range 6).foldl (bcdDateStep date) fun _ => 0

def setRtcDate (date : Nat → UInt8) : RtcDate where
  weekDay := rtcWeekdayMonday
  month := bcdDate date 0
  date := bcdDate date 2
  year := bcdDate date 4

/-- the register `RTC->DR` after `HAL_RTC_SetDate` with `RTC_FORMAT_BCD` -/
def halRtcSetDate (d : RtcDate) : UInt32 :=
  ((d.year.toUInt32 <<< 16) ||| (d.month.toUInt32 <<< 8) ||| d.date.toUInt32 |||
    (d.weekDay.toUInt32 <<< 13)) &&& 0x00FFFF3F

/-- what `Get_UTCDate` reads and writes -/
structure DateCall where
  save : SaveData
  /-- the row `buf[0]` -/
  buf : Nat → UInt8
  dr : UInt32

/-- the row that is shown -/
def dateRow (date : Nat → UInt8) : List UInt8 :=
  [0x32, 0x30, date 4, date 5, 0x2F, date 2, date 3, 0x2F, date 0, date 1]

def getUtcDate (c : DateCall) : DateCall :=
  if c.save.byte saveUTCDate 0 ≠ 0 then
    { save := c.save.clear saveUTCDate
      buf := fun j => (dateRow (c.save.byte saveUTCDate)).getD j (c.buf j)
      dr := halRtcSetDate (setRtcDate (c.save.byte saveUTCDate)) }
  else c

/-! ## the purpose -/

/-- `20yy/mm/dd` -/
def dateText (dd mm yy : Nat) : List UInt8 :=
  twoDigits 20 ++ twoDigits yy ++ [0x2F] ++ twoDigits mm ++ [0x2F] ++ twoDigits dd

/-- the fields of the register -/
def drYear (dr : UInt32) : UInt32 := (dr &&& 0xFF0000) >>> 16
def drMonth (dr : UInt32) : UInt32 := (dr &&& 0x1F00) >>> 8
def drDate (dr : UInt32) : UInt32 := dr &&& 0x3F

/-- the row shows the date, and the RTC is set to it -/
structure ShowsDate (dd mm yy : Nat) (c : DateCall) : Prop where
  row : (List.range 10).map c.buf = dateText dd mm yy
  date : drDate c.dr = bcd2 dd
  month : drMonth c.dr = bcd2 mm
  year : drYear c.dr = bcd2 yy

/-- an RMC sentence with a date in its ninth field -/
structure DatedSentence extends RmcSentence where
  before : List (List UInt8)
  dd : Nat
  mm : Nat
  yy : Nat
  dd_le : dd ≤ 31
  mm_le : mm ≤ 12
  yy_le : yy ≤ 99
  dated : fs = before ++ [twoDigits dd ++ twoDigits mm ++ twoDigits yy]

/-! ## packing -/

/-- two digits, packed -/
theorem pack_twoDigits {n : Nat} (h : n < 100) :
    (UInt8.ofNat (48 + n / 10) - 48) * 16 + (UInt8.ofNat (48 + n % 10) - 48) =
      (bcd2 n).toUInt8 := by
  have hall : ∀ n : Fin 100, (UInt8.ofNat (48 + n.1 / 10) - 48) * 16 +
      (UInt8.ofNat (48 + n.1 % 10) - 48) = (bcd2 n.1).toUInt8 := by decide +kernel
  exact hall ⟨n, h⟩

theorem bcd2_toUInt8 {n : Nat} (h : n < 100) : (bcd2 n).toUInt8.toUInt32 = bcd2 n := by
  have hall : ∀ n : Fin 100, (bcd2 n.1).toUInt8.toUInt32 = bcd2 n.1 := by decide +kernel
  exact hall ⟨n, h⟩

theorem bcd2_injective {m n : Nat} (hm : m < 100) (hn : n < 100) (h : bcd2 m = bcd2 n) : m = n := by
  have hval : ∀ k, k < 100 → (bcd2 k).toNat = k / 10 * 16 + k % 10 := by
    intro k hk
    show (k / 10 * 16 + k % 10) % 2 ^ 32 = _
    omega
  have he := congrArg UInt32.toNat h
  rw [hval m hm, hval n hn] at he
  omega

/-- the pairs, packed -/
theorem bcdDate_pairs (date : Nat → UInt8) :
    bcdDate date 0 = (date 0 - 48) * 16 + (date 1 - 48) ∧
      bcdDate date 2 = (date 2 - 48) * 16 + (date 3 - 48) ∧
      bcdDate date 4 = (date 4 - 48) * 16 + (date 5 - 48) := ⟨rfl, rfl, rfl⟩

/-- the bytes of a date field -/
theorem setRtcDate_digits {date : Nat → UInt8} {dd mm yy : Nat} (hd : dd ≤ 31) (hm : mm ≤ 12)
    (hy : yy ≤ 99)
    (h : ∀ i, i < 6 → date i = (twoDigits dd ++ twoDigits mm ++ twoDigits yy).getD i 0) :
    setRtcDate date =
      ⟨rtcWeekdayMonday, (bcd2 dd).toUInt8, (bcd2 mm).toUInt8, (bcd2 yy).toUInt8⟩ := by
  obtain ⟨h0, h2, h4⟩ := bcdDate_pairs date
  rw [h 0 (by decide), h 1 (by decide)] at h0
  rw [h 2 (by decide), h 3 (by decide)] at h2
  rw [h 4 (by decide), h 5 (by decide)] at h4
  unfold setRtcDate
  rw [h0, h2, h4, ← pack_twoDigits (show dd < 100 by omega),
    ← pack_twoDigits (show mm < 100 by omega), ← pack_twoDigits (show yy < 100 by omega)]
  rfl

/-! ## the register -/

theorem halRtcSetDate_and {y m d : Nat} (hy : y < 100) (hm : m < 100) (hd : d < 100)
    (mask : UInt32) (hmask : 0x00FFFF3F &&& mask = mask) :
    halRtcSetDate ⟨rtcWeekdayMonday, (bcd2 m).toUInt8, (bcd2 d).toUInt8, (bcd2 y).toUInt8⟩ &&& mask =
      (bcd2 y <<< 16 &&& mask) ||| (bcd2 m <<< 8 &&& mask) ||| (bcd2 d &&& mask) |||
        (0x2000 &&& mask) := by
  unfold halRtcSetDate
  simp only [bcd2_toUInt8 hy, bcd2_toUInt8 hm, bcd2_toUInt8 hd]
  rw [UInt32.and_assoc, hmask]
  apply UInt32.toBitVec_inj.1
  simp only [UInt32.toBitVec_and, UInt32.toBitVec_or, BitVec.and_or_distrib_right]
  rfl

/-- the RTC gets the second argument as its month, the third one as its day -/
theorem halRtcSetDate_fields {y m d : Nat} (hy : y < 100) (hm : m < 100) (hd : d ≤ 31) :
    drYear (halRtcSetDate ⟨rtcWeekdayMonday, (bcd2 m).toUInt8, (bcd2 d).toUInt8, (bcd2 y).toUInt8⟩) =
        bcd2 y ∧
      drMonth (halRtcSetDate
        ⟨rtcWeekdayMonday, (bcd2 m).toUInt8, (bcd2 d).toUInt8, (bcd2 y).toUInt8⟩) = bcd2 m &&& 0x1F ∧
      drDate (halRtcSetDate
        ⟨rtcWeekdayMonday, (bcd2 m).toUInt8, (bcd2 d).toUInt8, (bcd2 y).toUInt8⟩) = bcd2 d := by
  have hy' : ∀ n : Fin 100, bcd2 n.1 <<< 16 &&& (0x3F : UInt32) = 0 ∧
      bcd2 n.1 <<< 16 &&& (0x1F00 : UInt32) = 0 ∧
      (bcd2 n.1 <<< 16 &&& (0xFF0000 : UInt32)) >>> 16 = bcd2 n.1 := by decide +kernel
  have hm' : ∀ n : Fin 100, bcd2 n.1 <<< 8 &&& (0x3F : UInt32) = 0 ∧
      (bcd2 n.1 <<< 8 &&& (0x1F00 : UInt32)) >>> 8 = bcd2 n.1 &&& 0x1F ∧
      bcd2 n.1 <<< 8 &&& (0xFF0000 : UInt32) = 0 := by decide +kernel
  have hd' : ∀ n : Fin 32, bcd2 n.1 &&& (0x3F : UInt32) = bcd2 n.1 ∧
      bcd2 n.1 &&& (0x1F00 : UInt32) = 0 ∧ bcd2 n.1 &&& (0xFF0000 : UInt32) = 0 := by decide +kernel
  obtain ⟨hy1, hy2, hy3⟩ := hy' ⟨y, hy⟩
  obtain ⟨hm1, hm2, hm3⟩ := hm' ⟨m, hm⟩
  obtain ⟨hd1, hd2, hd3⟩ := hd' ⟨d, Nat.lt_succ_of_le hd⟩
  have hw1 : (0x2000 : UInt32) &&& 0xFF0000 = 0 := rfl
  have hw2 : (0x2000 : UInt32) &&& 0x1F00 = 0 := rfl
  have hd99 : d < 100 := by omega
  refine ⟨?_, ?_, ?_⟩
  · unfold drYear
    rw [halRtcSetDate_and hy hm hd99 _ rfl, hm3, hd3, hw1, UInt32.or_zero, UInt32.or_zero,
      UInt32.or_zero]
    exact hy3
  · unfold drMonth
    rw [halRtcSetDate_and hy hm hd99 _ rfl, hy2, hd2, hw2, UInt32.zero_or, UInt32.or_zero,
      UInt32.or_zero]
    exact hm2
  · unfold drDate
    rw [halRtcSetDate_and hy hm hd99 _ rfl, hy1, hm1, UInt32.zero_or, UInt32.zero_or, hd1]
    exact UInt32.or_zero ..

/-! ## the date of a sentence -/

/-- what a call does with the bytes of a date -/
theorem getUtcDate_date {c : DateCall} {dd mm yy : Nat} (hd : dd ≤ 31) (hm : mm ≤ 12)
    (hy : yy ≤ 99)
    (h : Saved c.save saveUTCDate.off (twoDigits dd ++ twoDigits mm ++ twoDigits yy)) :
    (List.range 10).map (getUtcDate c).buf = dateText dd mm yy ∧
      drDate (getUtcDate c).dr = bcd2 mm ∧ drMonth (getUtcDate c).dr = bcd2 dd &&& 0x1F ∧
      drYear (getUtcDate c).dr = bcd2 yy := by
  have hbyte : ∀ i, i < 6 → c.save.byte saveUTCDate i =
      (twoDigits dd ++ twoDigits mm ++ twoDigits yy).getD i 0 :=
    fun i hi => saved_byte h hi (show 13 + 6 ≤ 52 by decide)
  have hne : c.save.byte saveUTCDate 0 ≠ 0 := by
    rw [hbyte 0 (by decide)]
    exact twoDigits_ne_zero dd (by omega)
  unfold getUtcDate
  rw [if_pos hne]
  have hreg := halRtcSetDate_fields (show yy < 100 by omega) (show dd < 100 by omega)
    (show mm ≤ 31 by omega)
  rw [← setRtcDate_digits hd hm hy hbyte] at hreg
  refine ⟨?_, hreg.2.2, hreg.2.1, hreg.1⟩
  show dateRow (c.save.byte saveUTCDate) = _
  unfold dateRow
  rw [hbyte 0 (by decide), hbyte 1 (by decide), hbyte 2 (by decide), hbyte 3 (by decide),
    hbyte 4 (by decide), hbyte 5 (by decide)]
  rfl

/-- day and month are told apart by the register -/
theorem showsDate_iff_eq {c : DateCall} {dd mm yy : Nat} (hd : dd ≤ 31) (hm : mm ≤ 12)
    (hy : yy ≤ 99)
    (h : Saved c.save saveUTCDate.off (twoDigits dd ++ twoDigits mm ++ twoDigits yy)) :
    ShowsDate dd mm yy (getUtcDate c) ↔ dd = mm := by
  obtain ⟨hrow, hdate, hmonth, hyear⟩ := getUtcDate_date hd hm hy h
  constructor
  · intro hs
    have he := hs.date
    rw [hdate] at he
    exact (bcd2_injective (by omega) (by omega) he).symm
  · rintro rfl
    have hmask : ∀ n : Fin 13, bcd2 n.1 &&& 0x1F = bcd2 n.1 := by decide +kernel
    exact ⟨hrow, hdate, by rw [hmonth]; exact hmask ⟨dd, Nat.lt_succ_of_le hm⟩, hyear⟩

/-- **The date.**  Whatever was received before, a sentence is shown and set with its date iff its
fields stay inside the memory they are copied into, and its day and month are the same number. -/
theorem showsDate_iff (s : DatedSentence) (p : GpsParse) (buf : Nat → UInt8) (dr : UInt32) :
    (∃ q, parseGpsBuffer s.bytes p = some q ∧
      ShowsDate s.dd s.mm s.yy (getUtcDate ⟨q.save, buf, dr⟩)) ↔ s.Reach ∧ s.dd = s.mm := by
  have hsaved : ∀ q, parseGpsBuffer s.bytes p = some q →
      Saved q.save saveUTCDate.off (twoDigits s.dd ++ twoDigits s.mm ++ twoDigits s.yy) :=
    fun q hq => parse_date s.dated (show 13 + 6 < 52 by decide) hq
  have heq : ∀ q, parseGpsBuffer s.bytes p = some q →
      (ShowsDate s.dd s.mm s.yy (getUtcDate ⟨q.save, buf, dr⟩) ↔ s.dd = s.mm) :=
    fun q hq => showsDate_iff_eq s.dd_le s.mm_le s.yy_le (hsaved q hq)
  rw [← parse_bytes_isSome s.toRmcSentence p, Option.isSome_iff_exists]
  constructor
  · rintro ⟨q, hq, hs⟩
    exact ⟨⟨q, hq⟩, (heq q hq).1 hs⟩
  · rintro ⟨⟨q, hq⟩, hs⟩
    exact ⟨q, hq, (heq q hq).2 hs⟩

/-- the sentence `$GPRMC,,A,,,,,,,130718,` -/
def thirteenthOfJuly : DatedSentence where
  head := gprmc
  fs := [[], [0x41], [], [], [], [], [], [], twoDigits 13 ++ twoDigits 7 ++ twoDigits 18]
  rest := []
  rmc := gprmc_rmc
  head_plain := gprmc_plain
  nine := rfl
  plain := by decide
  before := [[], [0x41], [], [], [], [], [], []]
  dd := 13
  mm := 7
  yy := 18
  dd_le := by decide
  mm_le := by decide
  yy_le := by decide
  dated := rfl

/-- the RTC is set to the seventh of the thirteenth month -/
theorem showsDate_thirteenth : ¬ ∃ q,
    parseGpsBuffer thirteenthOfJuly.bytes gpsParseInit = some q ∧
      ShowsDate 13 7 18 (getUtcDate ⟨q.save, fun _ => 0, 0⟩) := by
  rintro ⟨q, hq, hs⟩
  have hdate : (parseGpsBuffer thirteenthOfJuly.bytes gpsParseInit).map
      (fun q => drDate (getUtcDate ⟨q.save, fun _ => 0, 0⟩).dr) = some 0x07 := by decide +kernel
  rw [hq] at hdate
  have he := hs.date.symm.trans (Option.some.inj hdate)
  exact absurd he (by decide)

end MenuFirmware
