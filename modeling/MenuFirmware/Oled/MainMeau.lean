import MenuFirmware.Gps.UtcTime
import MenuFirmware.Oled.Panel

/-!
# The main screen (`main_meau.c`)

Every 100 ms the main screen is drawn over itself.  A digit is meant to be drawn only where it has
changed since, but `Static_Display_Once` asks for all of them and is never taken back.

* `MainEnv`, `MainMeau`   what the drawing reads, and the static variables of the file;
* `delayText`             the characters of the delay, from the registers of the FPGA;
* `dspInterface`          the drawing, in the three display modes;
* `delay_reads`           which number the characters are, by the source of the clock;
* `dspInterface_fits`     everything that is drawn stays on the panel.
-/

set_option linter.unusedSectionVars false
set_option linter.unusedVariables false

namespace MenuFirmware
open Runs Canvas

/-! ## the code -/

/-- what the drawing reads -/
structure MainEnv where
  /-- `Get_Config_Display_mode` -/
  displayMode : UInt8
  /-- `Get_Config_SRC_clocktype` -/
  srcClocktype : UInt8
  /-- `Get_Status` -/
  status : UInt8
  /-- `Reg_0x8d_num`, which a poll has read -/
  reg0x8dNum : UInt8
  /-- what `Get_Reg_0x88` and the like return, the last answer stored for an address -/
  reg : UInt8 → UInt8
  utcOffsetNum : UInt8
  parse : GpsParse
  /-- `Get_GPS_Display_Status` -/
  gpsDisplayStatus : UInt8
  /-- `Get_gps_value` -/
  gpsValue : UInt8
  vidLinkFlag : UInt8
  /-- `Get_SRC_MODE` -/
  srcMode : UInt8
  /-- what lies behind `line_2`, an array with no room for its zero -/
  behind : Nat → UInt8

structure MainMeau where
  blinkFlag : Bool
  /-- `n` of `set_blink_flag` -/
  blinkNext : Bool
  staticDisplayOnce : UInt8
  preMode : UInt8
  judge0 : UInt8
  judge1 : UInt8
  judge2 : UInt8
  judge3 : UInt8
  judge4 : UInt8

def mainMeauInit : MainMeau :=
  ⟨false, true, 1, 0, ascii 'a', ascii 'a', ascii 'a', ascii 'a', ascii 'a'⟩

def setBlinkFlag (m : MainMeau) : MainMeau :=
  if m.blinkNext then { m with blinkNext := false, blinkFlag := true }
  else { m with blinkNext := true, blinkFlag := false }

def page0Piece4StaticDisplay : List ScreenCall :=
  [.showString 0 0 (literal "  +/-") 12, .showChar 64 0 (ascii '.') 12,
    .showChar 80 0 (ascii 'm') 12, .showChar 88 0 (ascii 's') 12]

/-- `line_1[0]`, which is zero before the call of `Get_UTCTime` -/
def utcLine (env : MainEnv) : Nat → UInt8 := (getUtcTime env.utcOffsetNum ⟨env.parse, fun _ => 0⟩).buf

/-- `line_2` and what lies behind it -/
def tolLine (env : MainEnv) : Nat → UInt8 := fun i => if i < 3 then ascii '0' else env.behind (i - 3)

def page0Piece4DynamicDisplay (env : MainEnv) : List ScreenCall :=
  (if env.gpsDisplayStatus = 0x01 then
    [.showString 40 255 (utcLine env) 12, .showString 0 255 (literal "UTC: ") 12]
  else if env.gpsDisplayStatus = 0x00 then
    [.showString 40 255 (literal "          ") 12, .showString 0 255 (literal "     ") 12]
  else []) ++
  [.showString 40 0 (tolLine env) 12, .showChar 72 0 (ascii '1') 12]

def page0Piece3StaticDisplay (env : MainEnv) : List ScreenCall :=
  if env.displayMode = 3 then
    [.showString 0 2 (literal " AVG: s") 16, .showChar 80 2 (ascii '.') 16,
      .showChar 96 2 (ascii 'm') 16, .showChar 104 2 (ascii 's') 16,
      .showString 0 4 (literal " JIT: s") 16, .showChar 80 4 (ascii '.') 16,
      .showChar 96 4 (ascii 'm') 16, .showChar 104 4 (ascii 's') 16]
  else if env.displayMode = 1 ∨ env.displayMode = 2 then
    [.showChar 84 0 (ascii 's') 32, .showChar 52 4 (ascii '.') 32, .showChar 84 4 (ascii 'm') 32,
      .showChar 100 4 (ascii 's') 32]
  else []

/-- `sec`, the three characters of `line_4`, and `j` -/
structure DelayText where
  sec : UInt8
  line0 : UInt8
  line1 : UInt8
  line2 : UInt8
  j : UInt8

def digitChar (n : UInt32) : UInt8 := (n + 0x30).toUInt8

/-- `gps_mode_jitter`, before the division -/
def gpsModeJitter (env : MainEnv) : UInt32 :=
  (env.reg 0x8c).toUInt32 + (env.reg 0x8b).toUInt32 * 0x100 + (env.reg 0x8a).toUInt32 * 0x10000 +
    (env.reg 0x89).toUInt32 * 0x1000000

/-- what stands for no delay -/
def delayNine : DelayText := ⟨ascii '9', ascii '9', ascii '9', ascii '9', ascii '9'⟩

def delayText (env : MainEnv) : DelayText :=
  if env.srcClocktype = 0x01 then
    if (env.reg0x8dNum &&& 0x04) >>> 2 = 1 then
      ⟨env.reg 0x8e + 0x30, ((env.reg 0x80 &&& 0xf0) >>> 4) + 0x30, (env.reg 0x80 &&& 0x0f) + 0x30,
        ((env.reg 0x81 &&& 0xf0) >>> 4) + 0x30, (env.reg 0x81 &&& 0x0f) + 0x30⟩
    else delayNine
  else if env.srcClocktype = 0x03 ∨ env.srcClocktype = 0x02 then
    if (env.reg0x8dNum &&& 0x08) >>> 3 = 1 then
      if env.reg 0x88 < 0x09 then
        let jitter := gpsModeJitter env / 0x9c4
        ⟨env.reg 0x88 + 0x30, digitChar (jitter % 10000 / 1000), digitChar (jitter % 1000 / 100),
          digitChar (jitter % 100 / 10), digitChar (jitter % 10)⟩
      else delayNine
    else delayNine
  else ⟨ascii '0', ascii '9', ascii '9', ascii '9', ascii '0'⟩

/-- `judge != v || Static_Display_Once == 1` -/
def MainMeau.redraws (m : MainMeau) (judge v : UInt8) : Bool :=
  judge != v || m.staticDisplayOnce == 1

def page0Piece3DynamicDisplay (m : MainMeau) (env : MainEnv) : MainMeau × List ScreenCall :=
  let t := delayText env
  if env.displayMode = 3 ∨ env.displayMode = 1 ∨ env.displayMode = 2 then
    let one := m.redraws m.judge1 t.line0
    let two := m.redraws m.judge2 t.line1
    let three := m.redraws m.judge3 t.line2
    let four := m.redraws m.judge4 t.j
    let zero := m.redraws m.judge0 t.sec
    ({ m with
        judge1 := if one then t.line0 else m.judge1
        judge2 := if two then t.line1 else m.judge2
        judge3 := if three then t.line2 else m.judge3
        -- the branch of `sec` sets `judge_4` too, and never `judge_0`
        judge4 := if four || zero then t.j else m.judge4 },
      if env.displayMode = 3 then
        (if one then [.showChar 56 4 t.line0 16, .showChar 56 2 t.line0 16] else []) ++
        (if two then [.showChar 64 4 t.line1 16, .showChar 64 2 t.line1 16] else []) ++
        (if three then [.showChar 72 4 t.line2 16, .showChar 72 2 t.line2 16] else []) ++
        (if four then [.showChar 88 4 t.j 16, .showChar 88 2 t.j 16] else []) ++
        (if zero then [.showChar 40 4 t.sec 16, .showChar 40 2 t.sec 16] else [])
      else
        (if one then [.showChar 4 4 t.line0 32] else []) ++
        (if two then [.showChar 20 4 t.line1 32] else []) ++
        (if three then [.showChar 36 4 t.line2 32] else []) ++
        (if four then [.showChar 68 4 t.j 32] else []) ++
        (if zero then [.showChar 68 0 t.sec 32] else []))
  else (m, [])

def page0Piece2DynamicDisplay (m : MainMeau) (status : UInt8) : List ScreenCall :=
  .showString 0 5 (literal "  STATUS:") 12 ::
    if status = 1 then
      if m.blinkFlag then [.showString 72 5 (literal "ERROR") 12]
      else [.showString 72 5 (literal "     ") 12]
    else if status = 0 then [.showString 72 5 (literal "GOOD") 12]
    else if status = 2 then [.showString 72 5 (literal "INIT") 12]
    else []

def page0Piece1DynamicDisplay (m : MainMeau) (env : MainEnv) : List ScreenCall :=
  let video := if env.displayMode = 2 then "AUD " else "VID "
  (if env.gpsDisplayStatus = 0x01 then
    if env.gpsValue = 0 then
      if m.blinkFlag then [.showString 0 6 (literal "GPS ") 12]
      else [.showString 0 6 (literal "   ") 12]
    else [.showString 0 6 (literal "GPS ") 12]
  else if env.gpsDisplayStatus = 0x00 then [.showString 0 6 (literal "   ") 12]
  else []) ++
  (if env.vidLinkFlag = 0 then
    if m.blinkFlag then [.showString 32 6 (literal video) 12]
    else [.showString 32 6 (literal "   ") 12]
  else [.showString 32 6 (literal video) 12]) ++
  (if env.srcMode = 1 then [.showString 64 6 (literal "MASTER") 12]
  else if env.srcMode = 0 then [.showString 64 6 (literal "SLAVE ") 12]
  else [])

def modeChanged (m : MainMeau) (env : MainEnv) : Bool := env.displayMode != m.preMode

/-- the beginning of `Dsp_interface` -/
def enterMode (m : MainMeau) (env : MainEnv) : MainMeau :=
  if modeChanged m env then { m with preMode := env.displayMode, staticDisplayOnce := 1 } else m

/-- `Page0_piece3_Dynamic_Display`, which is called where the status is good only -/
def delayDisplay (m : MainMeau) (env : MainEnv) : MainMeau × List ScreenCall :=
  if env.status = 0 then page0Piece3DynamicDisplay m env else (m, [])

/-- `Dsp_interface`, called with `num` -/
def dspInterface (m : MainMeau) (env : MainEnv) (num : Bool) : MainMeau × List ScreenCall :=
  let delay := delayDisplay (enterMode m env) env
  (if env.displayMode = 3 ∨ env.displayMode = 1 ∨ env.displayMode = 2 then delay.1
    else enterMode m env,
    (if modeChanged m env then [.clear] else []) ++
      if env.displayMode = 3 then
        (if num || modeChanged m env then page0Piece4StaticDisplay ++ page0Piece3StaticDisplay env
          else []) ++
          page0Piece4DynamicDisplay env ++ delay.2 ++ page0Piece2DynamicDisplay delay.1 env.status ++
          page0Piece1DynamicDisplay delay.1 env
      else if env.displayMode = 1 ∨ env.displayMode = 2 then page0Piece3StaticDisplay env ++ delay.2
      else [])

/-! ## the number -/

/-- the number that the characters are read as, in tenths of a millisecond -/
def DelayText.tenths (t : DelayText) : Nat :=
  [t.sec, t.line0, t.line1, t.line2, t.j].foldl (fun v c => 10 * v + (c.toNat - 0x30)) 0

theorem digitChar_toNat {n : UInt32} (h : n.toNat < 10) : (digitChar n).toNat - 0x30 = n.toNat := by
  unfold digitChar
  rw [UInt32.toNat_toUInt8, UInt32.toNat_add]
  show (n.toNat + 48) % 2 ^ 32 % 2 ^ 8 - 48 = n.toNat
  omega

theorem gpsModeJitter_toNat (env : MainEnv) :
    (gpsModeJitter env).toNat = (env.reg 0x89).toNat * 2 ^ 24 + (env.reg 0x8a).toNat * 2 ^ 16 +
      (env.reg 0x8b).toNat * 2 ^ 8 + (env.reg 0x8c).toNat := by
  have h9 := (env.reg 0x89).toNat_lt
  have ha := (env.reg 0x8a).toNat_lt
  have hb := (env.reg 0x8b).toNat_lt
  have hc := (env.reg 0x8c).toNat_lt
  unfold gpsModeJitter
  simp only [UInt32.toNat_add, UInt32.toNat_mul, UInt8.toNat_toUInt32]
  show ((((env.reg 0x8c).toNat + (env.reg 0x8b).toNat * 256 % 2 ^ 32) % 2 ^ 32 +
    (env.reg 0x8a).toNat * 65536 % 2 ^ 32) % 2 ^ 32 + (env.reg 0x89).toNat * 16777216 % 2 ^ 32) %
      2 ^ 32 = _
  omega

theorem tenths_digits {sec : UInt8} (hsec : sec < 9) (x : UInt32) :
    DelayText.tenths ⟨sec + 0x30, digitChar (x % 10000 / 1000), digitChar (x % 1000 / 100),
      digitChar (x % 100 / 10), digitChar (x % 10)⟩ = sec.toNat * 10000 + x.toNat % 10000 := by
  have hsecond : (sec + 0x30).toNat - 0x30 = sec.toNat := by
    have hlt : sec.toNat < 9 := hsec
    rw [UInt8.toNat_add]
    show (sec.toNat + 48) % 256 - 48 = _
    omega
  have h0 : (digitChar (x % 10000 / 1000)).toNat - 0x30 = x.toNat % 10000 / 1000 := by
    have hx : (x % 10000 / 1000).toNat = x.toNat % 10000 / 1000 := by simp
    rw [digitChar_toNat (by omega), hx]
  have h1 : (digitChar (x % 1000 / 100)).toNat - 0x30 = x.toNat % 1000 / 100 := by
    have hx : (x % 1000 / 100).toNat = x.toNat % 1000 / 100 := by simp
    rw [digitChar_toNat (by omega), hx]
  have h2 : (digitChar (x % 100 / 10)).toNat - 0x30 = x.toNat % 100 / 10 := by
    have hx : (x % 100 / 10).toNat = x.toNat % 100 / 10 := by simp
    rw [digitChar_toNat (by omega), hx]
  have h3 : (digitChar (x % 10)).toNat - 0x30 = x.toNat % 10 := by
    have hx : (x % 10).toNat = x.toNat % 10 := by simp
    rw [digitChar_toNat (by omega), hx]
  unfold DelayText.tenths
  simp only [List.foldl_cons, List.foldl_nil]
  rw [hsecond, h0, h1, h2, h3]
  omega

/-- from the GPS and the oscillator, 2500 steps of the registers are a tenth -/
theorem delay_reads {env : MainEnv} (hclock : env.srcClocktype = 0x03 ∨ env.srcClocktype = 0x02)
    (hlock : (env.reg0x8dNum &&& 0x08) >>> 3 = 1) (hsec : env.reg 0x88 < 0x09) :
    (delayText env).tenths =
      (env.reg 0x88).toNat * 10000 + (gpsModeJitter env).toNat / 2500 % 10000 := by
  have hwire : ¬ env.srcClocktype = 0x01 := by
    rcases hclock with h | h
    · rw [h]
      decide
    · rw [h]
      decide
  have hdiv : (gpsModeJitter env / 0x9c4).toNat = (gpsModeJitter env).toNat / 2500 := by simp
  unfold delayText
  rw [if_neg hwire, if_pos hclock, if_pos hlock, if_pos hsec]
  exact (tenths_digits hsec _).trans (by rw [hdiv])

/-! ## with all digits asked for -/

/-- a digit of the two lines of the detail mode -/
def detailDigit (x chr : UInt8) : List ScreenCall := [.showChar x 4 chr 16, .showChar x 2 chr 16]

def detailDigits (t : DelayText) : List ScreenCall :=
  detailDigit 56 t.line0 ++ detailDigit 64 t.line1 ++ detailDigit 72 t.line2 ++ detailDigit 88 t.j ++
    detailDigit 40 t.sec

/-- the digits of the other two modes -/
def largeDigits (t : DelayText) : List ScreenCall :=
  [.showChar 4 4 t.line0 32, .showChar 20 4 t.line1 32, .showChar 36 4 t.line2 32,
    .showChar 68 4 t.j 32, .showChar 68 0 t.sec 32]

/-- the display modes that show the delay in large digits -/
def LargeMode (mode : UInt8) : Prop := mode = 1 ∨ mode = 2

instance : DecidablePred LargeMode := fun mode => by
  unfold LargeMode
  infer_instance

def delayDigits (mode : UInt8) (t : DelayText) : List ScreenCall :=
  if mode = 3 then detailDigits t else if LargeMode mode then largeDigits t else []

/-- what stays as it is while the main screen is drawn -/
structure SameScreen (m m' : MainMeau) : Prop where
  once : m'.staticDisplayOnce = m.staticDisplayOnce
  preMode : m'.preMode = m.preMode
  blink : m'.blinkFlag = m.blinkFlag

theorem piece3Dynamic_same (m : MainMeau) (env : MainEnv) :
    SameScreen m (page0Piece3DynamicDisplay m env).1 := by
  unfold page0Piece3DynamicDisplay
  split
  · exact ⟨rfl, rfl, rfl⟩
  · exact ⟨rfl, rfl, rfl⟩

theorem piece3Dynamic_once {m : MainMeau} (h : m.staticDisplayOnce = 1) (env : MainEnv) :
    (page0Piece3DynamicDisplay m env).2 = delayDigits env.displayMode (delayText env) := by
  have hall : ∀ judge v, m.redraws judge v = true := by
    intro judge v
    unfold MainMeau.redraws
    rw [h]
    exact Bool.or_true _
  unfold page0Piece3DynamicDisplay delayDigits
  by_cases h3 : env.displayMode = 3
  · rw [if_pos (Or.inl h3), if_pos h3]
    simp only [hall, h3, if_true]
    rfl
  · by_cases hlarge : LargeMode env.displayMode
    · have hany : env.displayMode = 3 ∨ env.displayMode = 1 ∨ env.displayMode = 2 := Or.inr hlarge
      rw [if_pos hany, if_neg h3, if_pos hlarge]
      simp only [hall, h3, if_true, if_false]
      rfl
    · have hnone : ¬ (env.displayMode = 3 ∨ env.displayMode = 1 ∨ env.displayMode = 2) := fun h =>
        h.elim h3 hlarge
      rw [if_neg hnone, if_neg h3, if_neg hlarge]

/-- what is drawn before the delay, on a screen that is left as it was or just cleared -/
def beforeDelay (env : MainEnv) (cleared : Bool) : List ScreenCall :=
  if env.displayMode = 3 then
    (if cleared then page0Piece4StaticDisplay ++ page0Piece3StaticDisplay env else []) ++
      page0Piece4DynamicDisplay env
  else page0Piece3StaticDisplay env

def behindDelay (m : MainMeau) (env : MainEnv) : List ScreenCall :=
  if env.displayMode = 3 then
    page0Piece2DynamicDisplay m env.status ++ page0Piece1DynamicDisplay m env
  else []

def mainCalls (m : MainMeau) (env : MainEnv) (cleared : Bool) : List ScreenCall :=
  beforeDelay env cleared ++
    (if env.status = 0 then delayDigits env.displayMode (delayText env) else []) ++ behindDelay m env

/-- the screen is cleared: the menu was on it, or the mode is another one -/
def clears (m : MainMeau) (env : MainEnv) (num : Bool) : Bool := num || modeChanged m env

theorem enterMode_eq {m : MainMeau} (h : m.staticDisplayOnce = 1) (env : MainEnv) :
    (enterMode m env).staticDisplayOnce = 1 ∧ (enterMode m env).preMode = env.displayMode ∧
      (enterMode m env).blinkFlag = m.blinkFlag := by
  unfold enterMode
  by_cases hmode : env.displayMode = m.preMode
  · have hsame : modeChanged m env = false := bne_eq_false_iff_eq.2 hmode
    rw [hsame]
    exact ⟨h, hmode.symm, rfl⟩
  · have hchanged : modeChanged m env = true := bne_iff_ne.2 hmode
    rw [hchanged]
    exact ⟨rfl, rfl, rfl⟩

theorem delayDisplay_same (m : MainMeau) (env : MainEnv) : SameScreen m (delayDisplay m env).1 := by
  unfold delayDisplay
  split
  · exact piece3Dynamic_same m env
  · exact ⟨rfl, rfl, rfl⟩

theorem dspInterface_state {m : MainMeau} (h : m.staticDisplayOnce = 1) (env : MainEnv) (num : Bool) :
    (dspInterface m env num).1.staticDisplayOnce = 1 ∧
      (dspInterface m env num).1.preMode = env.displayMode ∧
      (dspInterface m env num).1.blinkFlag = m.blinkFlag := by
  obtain ⟨honce, hpre, hblink⟩ := enterMode_eq h env
  obtain ⟨hs, hp, hb⟩ := delayDisplay_same (enterMode m env) env
  unfold dspInterface
  simp only
  split
  · exact ⟨hs.trans honce, hp.trans hpre, hb.trans hblink⟩
  · exact ⟨honce, hpre, hblink⟩

/-- the lines of the status and of the sources depend on the flag that blinks only -/
theorem piece2_congr {m m' : MainMeau} (h : m'.blinkFlag = m.blinkFlag) (status : UInt8) :
    page0Piece2DynamicDisplay m' status = page0Piece2DynamicDisplay m status := by
  unfold page0Piece2DynamicDisplay
  rw [h]

theorem piece1_congr {m m' : MainMeau} (h : m'.blinkFlag = m.blinkFlag) (env : MainEnv) :
    page0Piece1DynamicDisplay m' env = page0Piece1DynamicDisplay m env := by
  unfold page0Piece1DynamicDisplay
  rw [h]

theorem delayDisplay_once {m : MainMeau} (h : m.staticDisplayOnce = 1) (env : MainEnv) :
    (delayDisplay m env).2 =
      if env.status = 0 then delayDigits env.displayMode (delayText env) else [] := by
  unfold delayDisplay
  split
  · exact piece3Dynamic_once h env
  · rfl

theorem dspInterface_calls {m : MainMeau} (h : m.staticDisplayOnce = 1) (env : MainEnv) (num : Bool) :
    (dspInterface m env num).2 =
      (if modeChanged m env then [.clear] else []) ++ mainCalls m env (clears m env num) := by
  obtain ⟨honce, -, hblink⟩ := enterMode_eq h env
  have hb := (delayDisplay_same (enterMode m env) env).blink.trans hblink
  unfold dspInterface mainCalls beforeDelay behindDelay clears
  simp only [delayDisplay_once honce, piece2_congr hb, piece1_congr hb]
  by_cases h3 : env.displayMode = 3
  · simp only [h3, if_true, List.append_assoc]
  · by_cases hlarge : LargeMode env.displayMode
    · have hor : env.displayMode = 1 ∨ env.displayMode = 2 := hlarge
      simp only [h3, hor, if_true, if_false, List.append_nil]
    · have hor : ¬ (env.displayMode = 1 ∨ env.displayMode = 2) := hlarge
      have hstatic : page0Piece3StaticDisplay env = [] := by
        unfold page0Piece3StaticDisplay
        rw [if_neg h3, if_neg hor]
      have hdigits : delayDigits env.displayMode (delayText env) = [] := by
        unfold delayDigits
        rw [if_neg h3, if_neg hlarge]
      simp only [h3, hor, hstatic, hdigits, if_false, ite_self, List.append_nil]

/-! ## what stays on the panel -/

theorem tolLine_ends {env : MainEnv} (h : ∃ k ≤ 8, env.behind k = 0) : ∃ k ≤ 11, tolLine env k = 0 := by
  obtain ⟨k, hk, hzero⟩ := h
  refine ⟨k + 3, by omega, ?_⟩
  unfold tolLine
  rw [if_neg (by omega), Nat.add_sub_cancel]
  exact hzero

/-- the time takes nine places -/
theorem utcLine_ends (env : MainEnv) : utcLine env 9 = 0 := by
  unfold utcLine getUtcTime
  split
  · rfl
  · rfl

/-- a string in the small font that ends before the panel does -/
theorem string_fits {x y : UInt8} {str : Nat → UInt8} {m : Nat} (hx : x.toNat + 8 * m ≤ 128)
    (hy : (y + 1).toNat < 8) (h : ∃ k ≤ m, str k = 0) :
    (ScreenCall.showString x y str 12).Fits ∧
      ∀ b ∈ (ScreenCall.showString x y str 12).boxes, b.top = (y + 1).toNat ∧ b.height = 1 := by
  have hrow : ∀ c ∈ stringCalls x y str 12, c.y = y ∧ c.x.toNat + 8 ≤ 128 := by
    obtain ⟨k, hk, hzero⟩ := h
    refine loop_row stringTurns ⟨x, y, 0⟩ m ?_ ⟨k, hk, ?_⟩ hx
    · show 0 + m < 256
      omega
    · show str (0 + k) = 0
      rwa [Nat.zero_add]
  refine ⟨⟨Or.inl rfl, fun c hc => ?_⟩, fun b hb => ?_⟩
  · obtain ⟨hcy, hcx⟩ := hrow c hc
    show (c.y + 1).toNat + 1 ≤ 8 ∧ c.x.toNat + 2 + 8 ≤ 130
    rw [hcy]
    omega
  · obtain ⟨c, hc, rfl⟩ := List.mem_map.1 hb
    obtain ⟨hcy, hcx⟩ := hrow c hc
    rw [← hcy]
    exact ⟨rfl, rfl⟩

/-- the calls stay on the panel and in the pages from `lo` to `hi` -/
def InRows (lo hi : Nat) (calls : List ScreenCall) : Prop :=
  ∀ call ∈ calls, call.Fits ∧ ∀ b ∈ call.boxes, lo ≤ b.top ∧ b.top + b.height ≤ hi

instance (lo hi : Nat) : DecidablePred (InRows lo hi) := fun calls => by
  unfold InRows
  infer_instance

theorem InRows.append {lo hi : Nat} {a b : List ScreenCall} (ha : InRows lo hi a)
    (hb : InRows lo hi b) : InRows lo hi (a ++ b) := by
  intro c hc
  rcases List.mem_append.1 hc with hc | hc
  · exact ha c hc
  · exact hb c hc

theorem InRows.cons {lo hi : Nat} {call : ScreenCall} {calls : List ScreenCall}
    (hcall : call.Fits ∧ ∀ b ∈ call.boxes, lo ≤ b.top ∧ b.top + b.height ≤ hi)
    (h : InRows lo hi calls) : InRows lo hi (call :: calls) := by
  intro c hc
  rcases List.mem_cons.1 hc with rfl | hc
  · exact hcall
  · exact h c hc

theorem InRows.ite {lo hi : Nat} {c : Prop} [Decidable c] {a b : List ScreenCall}
    (ha : InRows lo hi a) (hb : InRows lo hi b) : InRows lo hi (if c then a else b) := by
  split
  · exact ha
  · exact hb

theorem piece4Static_rows : InRows 0 2 page0Piece4StaticDisplay := by decide

theorem piece4Dynamic_rows {env : MainEnv} (h : ∃ k ≤ 8, env.behind k = 0) :
    InRows 0 2 (page0Piece4DynamicDisplay env) := by
  have hutc : (ScreenCall.showString 40 255 (utcLine env) 12).Fits ∧
      ∀ b ∈ (ScreenCall.showString 40 255 (utcLine env) 12).boxes,
        0 ≤ b.top ∧ b.top + b.height ≤ 2 := by
    obtain ⟨hfit, hbox⟩ := string_fits (x := 40) (y := 255) (m := 9) (by decide) (by decide)
      ⟨9, Nat.le_refl 9, utcLine_ends env⟩
    exact ⟨hfit, fun b hb => ⟨Nat.zero_le _, by rw [(hbox b hb).1, (hbox b hb).2]; decide⟩⟩
  have htol : (ScreenCall.showString 40 0 (tolLine env) 12).Fits ∧
      ∀ b ∈ (ScreenCall.showString 40 0 (tolLine env) 12).boxes,
        0 ≤ b.top ∧ b.top + b.height ≤ 2 := by
    obtain ⟨hfit, hbox⟩ := string_fits (x := 40) (y := 0) (m := 11) (by decide) (by decide)
      (tolLine_ends h)
    exact ⟨hfit, fun b hb => ⟨Nat.zero_le _, by rw [(hbox b hb).1, (hbox b hb).2]; decide⟩⟩
  unfold page0Piece4DynamicDisplay
  exact (InRows.ite (InRows.cons hutc (by decide)) (InRows.ite (by decide) (by decide))).append
    (InRows.cons htol (by decide))

theorem piece2_rows (m : MainMeau) (status : UInt8) :
    InRows 6 7 (page0Piece2DynamicDisplay m status) := by
  unfold page0Piece2DynamicDisplay
  refine InRows.cons (by decide) (InRows.ite (InRows.ite (by decide) (by decide)) ?_)
  exact InRows.ite (by decide) (InRows.ite (by decide) (by decide))

theorem piece1_rows (m : MainMeau) (env : MainEnv) :
    InRows 7 8 (page0Piece1DynamicDisplay m env) := by
  have hvideo : InRows 7 8 [.showString 32 6 (literal (if env.displayMode = 2 then "AUD " else "VID "))
      12] := by
    split
    · decide
    · decide
  unfold page0Piece1DynamicDisplay
  refine (InRows.append ?_ ?_).append ?_
  · exact InRows.ite (InRows.ite (InRows.ite (by decide) (by decide)) (by decide))
      (InRows.ite (by decide) (by decide))
  · exact InRows.ite (InRows.ite hvideo (by decide)) hvideo
  · exact InRows.ite (by decide) (InRows.ite (by decide) (by decide))

theorem piece3Static_fits (env : MainEnv) : ∀ call ∈ page0Piece3StaticDisplay env, call.Fits := by
  unfold page0Piece3StaticDisplay
  split
  · decide
  · split
    · decide
    · decide

theorem delayDigits_fits (mode : UInt8) (t : DelayText) : ∀ call ∈ delayDigits mode t, call.Fits := by
  intro call hcall
  unfold delayDigits at hcall
  by_cases h3 : mode = 3
  · simp only [h3, if_true, detailDigits, detailDigit, List.mem_append, List.mem_cons,
      List.not_mem_nil, or_false] at hcall
    rcases hcall with (((((rfl | rfl) | rfl | rfl) | rfl | rfl) | rfl | rfl) | rfl | rfl)
    all_goals exact ⟨by decide, by decide⟩
  · by_cases hlarge : LargeMode mode
    · simp only [h3, hlarge, if_true, if_false, largeDigits, List.mem_cons, List.not_mem_nil,
        or_false] at hcall
      rcases hcall with rfl | rfl | rfl | rfl | rfl
      all_goals exact ⟨by decide, by decide⟩
    · rw [if_neg h3, if_neg hlarge] at hcall
      exact absurd hcall List.not_mem_nil

/-- everything that is drawn has a font and stays on the panel -/
theorem mainCalls_fits {env : MainEnv} (h : ∃ k ≤ 8, env.behind k = 0) (m : MainMeau) (cleared : Bool) :
    ∀ call ∈ mainCalls m env cleared, call.Fits := by
  intro call hcall
  unfold mainCalls beforeDelay behindDelay at hcall
  rcases List.mem_append.1 hcall with hcall | hcall
  · rcases List.mem_append.1 hcall with hcall | hcall
    · split at hcall
      · rcases List.mem_append.1 hcall with hcall | hcall
        · split at hcall
          · rcases List.mem_append.1 hcall with hcall | hcall
            · exact (piece4Static_rows call hcall).1
            · exact piece3Static_fits env call hcall
          · exact absurd hcall List.not_mem_nil
        · exact (piece4Dynamic_rows h call hcall).1
      · exact piece3Static_fits env call hcall
    · split at hcall
      · exact delayDigits_fits _ _ call hcall
      · exact absurd hcall List.not_mem_nil
  · split at hcall
    · rcases List.mem_append.1 hcall with hcall | hcall
      · exact (piece2_rows m env.status call hcall).1
      · exact (piece1_rows m env call hcall).1
    · exact absurd hcall List.not_mem_nil

end MenuFirmware
