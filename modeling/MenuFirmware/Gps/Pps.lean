import MenuFirmware.Lib.Debounce
import MenuFirmware.Lib.Trace
import MenuFirmware.Serial.Receive

/-!
# The pulse per second (`gps_pps.c`)

Every pulse of the GPS interrupts with the clock count of the second that ends.  A count between
0.8 and 1.2 of the running mean goes into the mean; any other one is thrown away and starts the
count of good pulses over.

* `gpsPpsInterrupt`        the handler, statement by statement: `takePulse`, then the block under
                           `#if 1`;
* `verdicts`               which pulses of a history were inside the window;
* `fiFoActiveCnt_eq`       the count of good pulses is the length of the present streak, cut at 128;
* `takePulse_sets_iff`     `FiFo_Active` opens at 129 good pulses in a row;
* `dirftFlag_justified_iff`   the whole handler keeps to its own comment on no pulse at all;
* `ppsTables_run`          no history of pulses writes outside the two tables.
-/

namespace MenuFirmware
open Runs Debounce

/-! ## the state -/

def tolArrNumb : Nat := 128
def fiFoActiveCntMax : UInt8 := 128

/-- the statics of `gps_pps.c` and of its interrupt handler -/
structure GpsPps where
  clkDirftCurrent : UInt32
  cnt : UInt32
  previousCpuclk : UInt32
  x : UInt8
  delayArr : List UInt32
  averageArr : List UInt32
  fiFoActive : UInt8
  fiFoActiveCnt : UInt8
  clkDriftCalc : UInt32
  configRw9Num : UInt8
  configRwaNum : UInt8
  configRwbNum : UInt8
  configRwcNum : UInt8
  sendDirftFlag : UInt8
  sendSecPlusFlag : UInt8
  gpsSec : UInt8

def gpsPpsInit : GpsPps where
  clkDirftCurrent := 12500000
  cnt := 0
  previousCpuclk := 0
  x := 0
  delayArr := List.replicate tolArrNumb 0
  averageArr := List.replicate tolArrNumb 0
  fiFoActive := 0
  fiFoActiveCnt := 0
  clkDriftCalc := 0
  configRw9Num := 0
  configRwaNum := 0
  configRwbNum := 0
  configRwcNum := 0
  sendDirftFlag := 0
  sendSecPlusFlag := 0
  gpsSec := 0

/-! ## the handler -/

def setSendDirftFlag (s : GpsPps) (flag : UInt8) : GpsPps :=
  { s with sendDirftFlag := if flag ≠ 0 then 1 else 0 }

def getSendDirftFlag (s : GpsPps) : UInt8 := s.sendDirftFlag

def setSendSecPlus (s : GpsPps) (flag sec : UInt8) : GpsPps :=
  { s with
    sendSecPlusFlag := if flag ≠ 0 then 1 else 0
    gpsSec := if flag ≠ 0 then sec else s.gpsSec }

/-- the four assignments of the drift bytes -/
def setDirftNum (s : GpsPps) (v : UInt32) : GpsPps where
  __ := s
  configRwcNum := (v % 0x100).toUInt8
  configRwbNum := (v % 0x10000 / 0x100).toUInt8
  configRwaNum := (v % 0x1000000 / 0x10000).toUInt8
  configRw9Num := (v / 0x1000000).toUInt8

def cpuDelay (s : GpsPps) (cpuclk : UInt32) : UInt32 := cpuclk - s.previousCpuclk

/-- `cpu_delay > clk_dirft_current*1.2`, with 6/5 for the constant -/
def tooLong (s : GpsPps) (cpuclk : UInt32) : Bool :=
  decide (6 * s.clkDirftCurrent.toNat < 5 * (cpuDelay s cpuclk).toNat)

/-- `cpu_delay < clk_dirft_current*0.8`, with 4/5 for the constant -/
def tooShort (s : GpsPps) (cpuclk : UInt32) : Bool :=
  decide (5 * (cpuDelay s cpuclk).toNat < 4 * s.clkDirftCurrent.toNat)

def dropPulse (s : GpsPps) (cpuclk : UInt32) : GpsPps :=
  { s with previousCpuclk := cpuclk, fiFoActiveCnt := 0, fiFoActive := 0 }

/-- the running mean with one more second -/
def nextMean (s : GpsPps) (cpuclk : UInt32) : UInt32 :=
  (s.clkDirftCurrent * s.cnt + cpuDelay s cpuclk) / (s.cnt + 1)

/-- the pulse goes into the mean and into the two tables -/
def recordPulse (s : GpsPps) (cpuclk : UInt32) : GpsPps where
  __ := s
  clkDirftCurrent := nextMean s cpuclk
  averageArr := s.averageArr.set s.x.toNat (nextMean s cpuclk)
  delayArr := s.delayArr.set s.x.toNat (cpuDelay s cpuclk)
  x := UInt8.ofNat (rbufNextPt s.x.toNat 1 tolArrNumb)
  cnt := s.cnt + 1

/-- `FiFo_Active_cnt++`, cut at its maximum; the drift counts only after 128 good pulses in a row -/
def countPulse (s : GpsPps) : GpsPps :=
  if fiFoActiveCntMax < s.fiFoActiveCnt + 1 then
    { s with fiFoActiveCnt := fiFoActiveCntMax, fiFoActive := 1 }
  else { s with fiFoActiveCnt := s.fiFoActiveCnt + 1, fiFoActive := 0 }

def offerDrift (s : GpsPps) : GpsPps :=
  if s.fiFoActive ≠ 0 then
    setSendDirftFlag (setDirftNum { s with clkDriftCalc := s.clkDirftCurrent } s.clkDirftCurrent) 1
  else s

def cutCnt (s : GpsPps) : GpsPps :=
  if UInt32.ofNat tolArrNumb < s.cnt then { s with cnt := UInt32.ofNat tolArrNumb } else s

def acceptPulse (s : GpsPps) (cpuclk : UInt32) : GpsPps :=
  cutCnt (offerDrift (countPulse (recordPulse s cpuclk)))

/-- the three ways of the window -/
def judgePulse (s : GpsPps) (cpuclk : UInt32) : GpsPps :=
  if tooLong s cpuclk then dropPulse s cpuclk
  else if tooShort s cpuclk then dropPulse s cpuclk
  else acceptPulse s cpuclk

def setPrevious (s : GpsPps) (cpuclk : UInt32) : GpsPps := { s with previousCpuclk := cpuclk }

/-- the handler down to the block under `#if 1` -/
def takePulse (s : GpsPps) (cpuclk : UInt32) : GpsPps :=
  setSendSecPlus (setPrevious (judgePulse s cpuclk) cpuclk) 1 0

/-- `GPS_PPS_Interrupt`; `cpuclk` is what `Get_RTC_clk` reads -/
def gpsPpsInterrupt (s : GpsPps) (cpuclk : UInt32) : GpsPps :=
  -- the block under `#if 1`, marked `test`, runs whatever `takePulse` decided
  setSendDirftFlag (setDirftNum (takePulse s cpuclk) (takePulse s cpuclk).clkDirftCurrent) 1

def inWindow (s : GpsPps) (cpuclk : UInt32) : Bool := !tooLong s cpuclk && !tooShort s cpuclk

/-! ## histories of pulses -/

def ppsRun (ts : List UInt32) : GpsPps := run gpsPpsInterrupt gpsPpsInit ts

/-- pulse by pulse, whether it was inside the window -/
def verdicts (ts : List UInt32) : List Bool := outputs gpsPpsInterrupt inWindow gpsPpsInit ts

/-- `h` sets the flag: it leaves it set also when it finds it clear -/
def SetsDirftFlag (h : GpsPps → UInt32 → GpsPps) (s : GpsPps) (cpuclk : UInt32) : Prop :=
  getSendDirftFlag (h (setSendDirftFlag s 0) cpuclk) = 1

theorem ppsRun_snoc (ts : List UInt32) (t : UInt32) :
    ppsRun (ts ++ [t]) = gpsPpsInterrupt (ppsRun ts) t := run_snoc ..

theorem verdicts_snoc (ts : List UInt32) (t : UInt32) :
    verdicts (ts ++ [t]) = verdicts ts ++ [inWindow (ppsRun ts) t] := outputs_snoc ..

theorem judgePulse_in {s : GpsPps} {t : UInt32} (h : inWindow s t = true) :
    judgePulse s t = acceptPulse s t := by
  simp only [inWindow, Bool.and_eq_true, Bool.not_eq_true'] at h
  unfold judgePulse
  rw [h.1, h.2]
  rfl

theorem judgePulse_out {s : GpsPps} {t : UInt32} (h : inWindow s t = false) :
    judgePulse s t = dropPulse s t := by
  unfold judgePulse
  by_cases hl : tooLong s t = true
  · rw [if_pos hl]
  · rw [if_neg hl]
    by_cases hs : tooShort s t = true
    · rw [if_pos hs]
    · simp [inWindow, hl, hs] at h

/-! ## the count of good pulses -/

@[simp] theorem cutCnt_fiFoActiveCnt (s : GpsPps) :
    (cutCnt s).fiFoActiveCnt = s.fiFoActiveCnt := by
  unfold cutCnt
  split <;> rfl

@[simp] theorem cutCnt_sendDirftFlag (s : GpsPps) :
    (cutCnt s).sendDirftFlag = s.sendDirftFlag := by
  unfold cutCnt
  split <;> rfl

@[simp] theorem offerDrift_fiFoActiveCnt (s : GpsPps) :
    (offerDrift s).fiFoActiveCnt = s.fiFoActiveCnt := by
  unfold offerDrift
  split <;> rfl

theorem acceptPulse_fiFoActiveCnt (s : GpsPps) (t : UInt32) :
    (acceptPulse s t).fiFoActiveCnt = (countPulse (recordPulse s t)).fiFoActiveCnt := by
  simp [acceptPulse]

theorem active_lt_iff {c : UInt8} (hc : c.toNat ≤ 128) :
    fiFoActiveCntMax < c + 1 ↔ 128 < c.toNat + 1 := by
  rw [UInt8.lt_iff_toNat_lt, UInt8.toNat_add]
  show 128 < (c.toNat + 1) % 256 ↔ _
  omega

/-- one more good pulse, cut at 128 -/
theorem countPulse_cnt {s : GpsPps} (hc : s.fiFoActiveCnt.toNat ≤ 128) :
    (countPulse s).fiFoActiveCnt.toNat = min (s.fiFoActiveCnt.toNat + 1) 128 := by
  unfold countPulse
  by_cases h : fiFoActiveCntMax < s.fiFoActiveCnt + 1
  · rw [if_pos h]
    show 128 = _
    have := (active_lt_iff hc).1 h
    omega
  · rw [if_neg h]
    show (s.fiFoActiveCnt + 1).toNat = _
    have := mt (active_lt_iff hc).2 h
    rw [UInt8.toNat_add]
    show (s.fiFoActiveCnt.toNat + 1) % 256 = _
    omega

theorem fiFoActiveCnt_eq (ts : List UInt32) :
    (ppsRun ts).fiFoActiveCnt.toNat = min (streak true (verdicts ts)) 128 := by
  induction ts using List.reverseRecOn with
  | nil => rfl
  | append_singleton ts t ih =>
    rw [ppsRun_snoc, verdicts_snoc]
    show (judgePulse (ppsRun ts) t).fiFoActiveCnt.toNat = _
    cases hw : inWindow (ppsRun ts) t with
    | true =>
      rw [judgePulse_in hw, streak_snoc_self, acceptPulse_fiFoActiveCnt]
      have hc : (recordPulse (ppsRun ts) t).fiFoActiveCnt = (ppsRun ts).fiFoActiveCnt := rfl
      rw [countPulse_cnt (by rw [hc, ih]; exact Nat.min_le_right _ _), hc, ih]
      omega
    | false =>
      rw [judgePulse_out hw, streak_snoc_ne Bool.false_ne_true]
      rfl

/-! ## the gate, and the statement after it -/

theorem offerDrift_sendDirftFlag (s : GpsPps) :
    (offerDrift s).sendDirftFlag = if s.fiFoActive ≠ 0 then 1 else s.sendDirftFlag := by
  unfold offerDrift
  by_cases h : s.fiFoActive ≠ 0
  · rw [if_pos h, if_pos h]
    rfl
  · rw [if_neg h, if_neg h]

theorem countPulse_active (s : GpsPps) :
    (countPulse s).fiFoActive ≠ 0 ↔ fiFoActiveCntMax < s.fiFoActiveCnt + 1 := by
  unfold countPulse
  by_cases h : fiFoActiveCntMax < s.fiFoActiveCnt + 1
  · rw [if_pos h]
    have h1 : (1 : UInt8) ≠ 0 := by decide
    exact iff_of_true h1 h
  · rw [if_neg h]
    exact iff_of_false (fun hne => hne rfl) h

theorem countPulse_sendDirftFlag (s : GpsPps) :
    (countPulse s).sendDirftFlag = s.sendDirftFlag := by
  unfold countPulse
  split <;> rfl

/-- the gate that the comment at `FiFo_Active_cnt` asks for: 129 good pulses in a row -/
theorem takePulse_sets_iff (ts : List UInt32) (t : UInt32) :
    SetsDirftFlag takePulse (ppsRun ts) t ↔ Stable 129 (verdicts (ts ++ [t])) true := by
  have hcnt := fiFoActiveCnt_eq ts
  rw [stable_iff_streak, verdicts_snoc]
  show (judgePulse (setSendDirftFlag (ppsRun ts) 0) t).sendDirftFlag = 1 ↔ _
  have hwin : inWindow (setSendDirftFlag (ppsRun ts) 0) t = inWindow (ppsRun ts) t := rfl
  cases hw : inWindow (ppsRun ts) t with
  | false =>
    rw [judgePulse_out (hwin.trans hw), streak_snoc_ne Bool.false_ne_true]
    have h0 : (0 : UInt8) ≠ 1 := by decide
    exact iff_of_false h0 (by omega)
  | true =>
    rw [judgePulse_in (hwin.trans hw), streak_snoc_self]
    unfold acceptPulse
    rw [cutCnt_sendDirftFlag, offerDrift_sendDirftFlag, countPulse_sendDirftFlag]
    show (if _ then (1 : UInt8) else 0) = 1 ↔ _
    have hgate : ∀ r : GpsPps, r.fiFoActiveCnt = (ppsRun ts).fiFoActiveCnt →
        ((countPulse r).fiFoActive ≠ 0 ↔ 129 ≤ streak true (verdicts ts) + 1) := by
      intro r hr
      rw [countPulse_active, hr, active_lt_iff (by omega)]
      omega
    rw [← hgate (recordPulse (setSendDirftFlag (ppsRun ts) 0) t) rfl]
    split
    · next h => exact iff_of_true rfl h
    · next h =>
      have h0 : (0 : UInt8) ≠ 1 := by decide
      exact iff_of_false h0 h

/-- what the block under `#if 1` does -/
theorem gpsPpsInterrupt_sets (s : GpsPps) (t : UInt32) : SetsDirftFlag gpsPpsInterrupt s t := rfl

/-- every time one of the pulses `ts` sets the flag, the last 128 pulses were inside the window -/
def DirftFlagJustified (ts : List UInt32) : Prop :=
  ∀ pre t, pre ++ [t] <+: ts → SetsDirftFlag gpsPpsInterrupt (ppsRun pre) t →
    Stable 128 (verdicts (pre ++ [t])) true

theorem dirftFlag_first_pulse : ¬ DirftFlagJustified [12500000] := by
  intro h
  have h0 := (h [] 12500000 List.prefix_rfl (gpsPpsInterrupt_sets _ _)).length
  exact absurd h0 (by decide)

/-- the gate of the handler is sound, and the statement after the gate breaks the rule at the very
first pulse -/
theorem dirftFlag_justified_iff (ts : List UInt32) :
    (DirftFlagJustified ts ↔ ts = []) ∧
    ∀ pre t, SetsDirftFlag takePulse (ppsRun pre) t → Stable 128 (verdicts (pre ++ [t])) true := by
  refine ⟨⟨fun h => ?_, fun h => ?_⟩, fun pre t h => ?_⟩
  · cases ts with
    | nil => rfl
    | cons t ts =>
      -- one pulse cannot be the last of 128
      have h1 := (h [] t (List.prefix_append [t] ts) (gpsPpsInterrupt_sets _ _)).length
      have h2 : ¬ 128 ≤ 1 := by decide
      exact absurd h1 h2
  · subst h
    intro pre t hpre
    exact absurd (List.prefix_nil.1 hpre) (List.append_ne_nil_of_right_ne_nil pre (by simp))
  · rw [takePulse_sets_iff, stable_iff_streak] at h
    exact (stable_iff_streak _ _).2 (Nat.le_of_succ_le h)

/-! ## the tables -/

/-- the index and the number of samples stay inside the tables -/
structure PpsTables (s : GpsPps) : Prop where
  x_lt : s.x.toNat < tolArrNumb
  delay : s.delayArr.length = tolArrNumb
  average : s.averageArr.length = tolArrNumb
  cnt_le : s.cnt.toNat ≤ tolArrNumb

theorem PpsTables.of_eq {s s' : GpsPps} (h : PpsTables s) (hx : s'.x = s.x)
    (hd : s'.delayArr = s.delayArr) (ha : s'.averageArr = s.averageArr) (hc : s'.cnt = s.cnt) :
    PpsTables s' := by
  refine ⟨?_, ?_, ?_, ?_⟩
  · rw [hx]
    exact h.x_lt
  · rw [hd]
    exact h.delay
  · rw [ha]
    exact h.average
  · rw [hc]
    exact h.cnt_le

theorem cutCnt_tables {s : GpsPps} (hx : s.x.toNat < tolArrNumb)
    (hd : s.delayArr.length = tolArrNumb) (ha : s.averageArr.length = tolArrNumb) :
    PpsTables (cutCnt s) := by
  unfold cutCnt
  by_cases h : UInt32.ofNat tolArrNumb < s.cnt
  · rw [if_pos h]
    exact ⟨hx, hd, ha, Nat.le_refl 128⟩
  · rw [if_neg h]
    exact ⟨hx, hd, ha, Nat.le_of_not_lt fun hlt => h (UInt32.lt_iff_toNat_lt.2 hlt)⟩

theorem acceptPulse_tables {s : GpsPps} (h : PpsTables s) (t : UInt32) :
    PpsTables (acceptPulse s t) := by
  have hframe : ∀ r : GpsPps, (offerDrift (countPulse r)).x = r.x ∧
      (offerDrift (countPulse r)).delayArr = r.delayArr ∧
      (offerDrift (countPulse r)).averageArr = r.averageArr := by
    intro r
    unfold offerDrift countPulse
    split <;> split <;> exact ⟨rfl, rfl, rfl⟩
  obtain ⟨hx, hd, ha⟩ := hframe (recordPulse s t)
  apply cutCnt_tables
  · rw [hx]
    show (UInt8.ofNat (rbufNextPt s.x.toNat 1 (2 ^ 7))).toNat < 128
    rw [rbufNextPt_two_pow, UInt8.toNat_ofNat']
    omega
  · rw [hd]
    exact (List.length_set ..).trans h.delay
  · rw [ha]
    exact (List.length_set ..).trans h.average

theorem judgePulse_tables {s : GpsPps} (h : PpsTables s) (t : UInt32) :
    PpsTables (judgePulse s t) := by
  cases hw : inWindow s t with
  | true =>
    rw [judgePulse_in hw]
    exact acceptPulse_tables h t
  | false =>
    rw [judgePulse_out hw]
    exact h.of_eq rfl rfl rfl rfl

/-- no history of pulses writes outside the tables -/
theorem ppsTables_run (ts : List UInt32) : PpsTables (ppsRun ts) := by
  have hend : ∀ (r : GpsPps) (t v : UInt32), PpsTables r → PpsTables
      (setSendDirftFlag (setDirftNum (setSendSecPlus (setPrevious r t) 1 0) v) 1) :=
    fun r t v h => h.of_eq rfl rfl rfl rfl
  refine run_invariant (fun s t h => ?_) ?_ ts
  · exact hend (judgePulse s t) t _ (judgePulse_tables h t)
  · exact ⟨by decide, List.length_replicate, List.length_replicate, by decide⟩

end MenuFirmware
