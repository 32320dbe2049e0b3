import MenuFirmware.Gps.Dirft

/-!
# The running mean of the seconds

The mean is kept in 32 bits, with up to 128 seconds behind it, and the window moves with the mean:
pulses that come a fifth later every time pull it up until the product of mean and weight no longer
fits.

* `Pulses`, `pulsesStep`  the running mean over the natural numbers;
* `mean_between`        a mean with one more sample lies between the mean and the sample;
* `MeanRight`           no update of a history wraps, and every new mean lies between the old one and
                        the delay;
* `meanRight_iff`       that is so iff the sums of the mean over the natural numbers fit, for instance
                        when no delay exceeds 33294320 ticks.
-/

namespace MenuFirmware
open Runs

/-! ## the mean over the natural numbers -/

/-- a mean of `cnt` samples with the sample `d` in addition, rounded down -/
def meanWith (mean cnt d : Nat) : Nat := (mean * cnt + d) / (cnt + 1)

theorem mean_between (mean cnt d : Nat) :
    min mean d ≤ meanWith mean cnt d ∧ meanWith mean cnt d ≤ max mean d := by
  unfold meanWith
  constructor
  · rw [Nat.le_div_iff_mul_le (Nat.succ_pos cnt), Nat.mul_succ]
    exact Nat.add_le_add (Nat.mul_le_mul_right cnt (Nat.min_le_left mean d)) (Nat.min_le_right mean d)
  · apply Nat.div_le_of_le_mul
    rw [Nat.mul_comm (cnt + 1), Nat.mul_succ]
    exact Nat.add_le_add (Nat.mul_le_mul_right cnt (Nat.le_max_left mean d)) (Nat.le_max_right mean d)

/-- the running mean, the number of samples in it, at most 128, and the last pulse -/
structure Pulses where
  mean : Nat
  cnt : Nat
  last : UInt32

def pulsesInit : Pulses := ⟨12500000, 0, 0⟩

/-- the ticks since the last pulse -/
def Pulses.delay (p : Pulses) (t : UInt32) : Nat := (t - p.last).toNat

/-- between 4/5 and 6/5 of the mean -/
def Pulses.accepts (p : Pulses) (t : UInt32) : Prop :=
  4 * p.mean ≤ 5 * p.delay t ∧ 5 * p.delay t ≤ 6 * p.mean

instance (p : Pulses) (t : UInt32) : Decidable (p.accepts t) := inferInstanceAs (Decidable (_ ∧ _))

def pulsesStep (p : Pulses) (t : UInt32) : Pulses :=
  if p.accepts t then ⟨meanWith p.mean p.cnt (p.delay t), min (p.cnt + 1) tolArrNumb, t⟩
  else { p with last := t }

/-- a sum that fits into 32 bits -/
def Pulses.SumFits (p : Pulses) (t : UInt32) : Prop :=
  p.accepts t → p.mean * p.cnt + p.delay t < 2 ^ 32

/-! ## what the code computes -/

/-- an update that does not wrap, and a mean between the old one and the delay -/
def UpdateRight (s : GpsPps) (t : UInt32) : Prop :=
  inWindow s t = true →
    s.clkDirftCurrent.toNat * s.cnt.toNat + (cpuDelay s t).toNat < 2 ^ 32 ∧
    min s.clkDirftCurrent.toNat (cpuDelay s t).toNat
      ≤ (gpsPpsInterrupt s t).clkDirftCurrent.toNat ∧
    (gpsPpsInterrupt s t).clkDirftCurrent.toNat
      ≤ max s.clkDirftCurrent.toNat (cpuDelay s t).toNat

/-- every update of the history -/
def MeanRight (ts : List UInt32) : Prop := Along gpsPpsInterrupt UpdateRight gpsPpsInit ts

/-- the code keeps what the natural numbers keep -/
structure GpsPps.Keeps (s : GpsPps) (p : Pulses) : Prop where
  mean : s.clkDirftCurrent.toNat = p.mean
  cnt : s.cnt.toNat = p.cnt
  last : s.previousCpuclk = p.last
  cnt_le : p.cnt ≤ tolArrNumb

theorem keeps_init : gpsPpsInit.Keeps pulsesInit := ⟨rfl, rfl, rfl, by decide⟩

section
variable {s : GpsPps} {p : Pulses} {t : UInt32}

theorem GpsPps.Keeps.delay (h : s.Keeps p) : (cpuDelay s t).toNat = p.delay t := by
  unfold cpuDelay Pulses.delay
  rw [h.last]

theorem GpsPps.Keeps.inWindow_iff (h : s.Keeps p) : inWindow s t = true ↔ p.accepts t := by
  unfold inWindow tooLong tooShort Pulses.accepts
  rw [h.delay, h.mean, Bool.and_eq_true, Bool.not_eq_true', Bool.not_eq_true',
    decide_eq_false_iff_not, decide_eq_false_iff_not, Nat.not_lt, Nat.not_lt, and_comm]

/-- without a wrap the new mean is the one over the natural numbers -/
theorem nextMean_toNat (h : s.Keeps p) (hsum : p.mean * p.cnt + p.delay t < 2 ^ 32) :
    (nextMean s t).toNat = meanWith p.mean p.cnt (p.delay t) := by
  have hcnt : p.cnt ≤ 128 := h.cnt_le
  have h1 : (1 : UInt32).toNat = 1 := rfl
  unfold nextMean meanWith
  rw [UInt32.toNat_div, UInt32.toNat_add, UInt32.toNat_mul, UInt32.toNat_add, h1, h.mean, h.cnt,
    h.delay, Nat.mod_add_mod, Nat.mod_eq_of_lt hsum, Nat.mod_eq_of_lt (show p.cnt + 1 < 2 ^ 32 by omega)]

theorem acceptPulse_cnt (s : GpsPps) (t : UInt32) (h : s.cnt.toNat ≤ tolArrNumb) :
    (acceptPulse s t).cnt.toNat = min (s.cnt.toNat + 1) tolArrNumb := by
  have hframe : ∀ r : GpsPps, (offerDrift (countPulse r)).cnt = r.cnt := by
    intro r
    unfold offerDrift countPulse
    split <;> split <;> rfl
  have hcut : ∀ r : GpsPps, (cutCnt r).cnt.toNat = min r.cnt.toNat tolArrNumb := by
    intro r
    unfold cutCnt
    by_cases hr : UInt32.ofNat tolArrNumb < r.cnt
    · rw [if_pos hr]
      exact (Nat.min_eq_right (Nat.le_of_lt (UInt32.lt_iff_toNat_lt.1 hr))).symm
    · rw [if_neg hr]
      exact (Nat.min_eq_left (Nat.le_of_not_lt fun hlt => hr (UInt32.lt_iff_toNat_lt.2 hlt))).symm
  unfold acceptPulse
  rw [hcut, hframe]
  show min ((s.cnt + 1).toNat) tolArrNumb = _
  rw [UInt32.toNat_add]
  show min ((s.cnt.toNat + 1) % 2 ^ 32) tolArrNumb = _
  unfold tolArrNumb at *
  rw [Nat.mod_eq_of_lt (by omega)]

theorem gpsPpsInterrupt_cnt (s : GpsPps) (t : UInt32) :
    (gpsPpsInterrupt s t).cnt = if inWindow s t then (acceptPulse s t).cnt else s.cnt := by
  show (judgePulse s t).cnt = _
  cases hw : inWindow s t with
  | true =>
    rw [judgePulse_in hw]
    rfl
  | false =>
    rw [judgePulse_out hw]
    rfl

/-- an update of the code is right iff the sum over the natural numbers fits -/
theorem updateRight_iff (h : s.Keeps p) : UpdateRight s t ↔ p.SumFits t := by
  unfold UpdateRight Pulses.SumFits
  rw [h.inWindow_iff]
  apply forall_congr'
  intro hacc
  rw [h.mean, h.cnt, h.delay]
  refine ⟨fun hr => hr.1, fun hsum => ⟨hsum, ?_⟩⟩
  rw [gpsPpsInterrupt_mean, if_pos (h.inWindow_iff.2 hacc), nextMean_toNat h hsum]
  exact mean_between p.mean p.cnt (p.delay t)

/-- **Step.**  A right update keeps the two means together. -/
theorem keeps_step (h : s.Keeps p) (hr : UpdateRight s t) :
    (gpsPpsInterrupt s t).Keeps (pulsesStep p t) := by
  have hfit := (updateRight_iff h).1 hr
  unfold pulsesStep
  by_cases hacc : p.accepts t
  · have hw : inWindow s t = true := h.inWindow_iff.2 hacc
    rw [if_pos hacc]
    refine ⟨?_, ?_, rfl, Nat.min_le_right _ _⟩
    · rw [gpsPpsInterrupt_mean, if_pos hw]
      exact nextMean_toNat h (hfit hacc)
    · rw [gpsPpsInterrupt_cnt, if_pos hw, acceptPulse_cnt s t (h.cnt ▸ h.cnt_le), h.cnt]
  · have hw : ¬ inWindow s t = true := fun e => hacc (h.inWindow_iff.1 e)
    rw [if_neg hacc]
    refine ⟨?_, ?_, rfl, h.cnt_le⟩
    · rw [gpsPpsInterrupt_mean, if_neg hw]
      exact h.mean
    · rw [gpsPpsInterrupt_cnt, if_neg hw]
      exact h.cnt

/-- **Run.**  The updates of a run are right iff the sums fit. -/
theorem keeps_along (h : s.Keeps p) (ts : List UInt32) :
    Along gpsPpsInterrupt UpdateRight s ts ↔ Along pulsesStep Pulses.SumFits p ts := by
  have hG : ∀ (s : GpsPps) (p : Pulses) (t : UInt32), s.Keeps p →
      (UpdateRight s t ↔ p.SumFits t) := fun _ _ _ hk => updateRight_iff hk
  have hS : ∀ (s : GpsPps) (p : Pulses) (t : UInt32), s.Keeps p → UpdateRight s t →
      (gpsPpsInterrupt s t).Keeps (pulsesStep p t) := fun _ _ _ hk hr => keeps_step hk hr
  exact Along_simulation hG hS h ts

end

/-! ## bounded delays -/

/-- the longest delay with which no sum of 129 can leave 32 bits -/
def delayMax : Nat := 33294320

/-- the mean stays below the longest delay -/
def Pulses.Bounded (p : Pulses) : Prop := p.mean ≤ delayMax ∧ p.cnt ≤ tolArrNumb

theorem bounded_step {p : Pulses} {t : UInt32} (h : p.Bounded) (ht : p.accepts t → p.delay t ≤ delayMax) :
    (pulsesStep p t).Bounded := by
  unfold pulsesStep
  by_cases hacc : p.accepts t
  · rw [if_pos hacc]
    exact ⟨Nat.le_trans (mean_between _ _ _).2 (Nat.max_le.2 ⟨h.1, ht hacc⟩), Nat.min_le_right _ _⟩
  · rw [if_neg hacc]
    exact h

theorem sumFits_of_bounded {p : Pulses} {t : UInt32} (h : p.Bounded)
    (ht : p.accepts t → p.delay t ≤ delayMax) : p.SumFits t := by
  intro hacc
  have hprod : p.mean * p.cnt ≤ delayMax * tolArrNumb := Nat.mul_le_mul h.1 h.2
  have hd := ht hacc
  unfold delayMax tolArrNumb at *
  omega

theorem sumFits_of_delays {p : Pulses} {ts : List UInt32} (h : p.Bounded)
    (ht : Along pulsesStep (fun p t => p.accepts t → p.delay t ≤ delayMax) p ts) :
    Along pulsesStep Pulses.SumFits p ts := by
  induction ts generalizing p with
  | nil => trivial
  | cons t ts ih => exact ⟨sumFits_of_bounded h ht.1, ih (bounded_step h ht.1) ht.2⟩

/-! ## every history -/

/-- **The running mean.**  All updates of a history are right iff the sums of the running mean over
the natural numbers fit into 32 bits, which they do while no accepted delay exceeds `delayMax`. -/
theorem meanRight_iff (ts : List UInt32) :
    (MeanRight ts ↔ Along pulsesStep Pulses.SumFits pulsesInit ts) ∧
    (Along pulsesStep (fun p t => p.accepts t → p.delay t ≤ delayMax) pulsesInit ts →
      MeanRight ts) := by
  have hiff : MeanRight ts ↔ Along pulsesStep Pulses.SumFits pulsesInit ts :=
    keeps_along keeps_init ts
  have hinit : pulsesInit.Bounded :=
    ⟨show 12500000 ≤ 33294320 by omega, Nat.zero_le 128⟩
  exact ⟨hiff, fun h => hiff.2 (sumFits_of_delays hinit h)⟩

/-- the pulse that is late by a fifth of the mean, or the one after a midnight of the RTC -/
def lateBy (s : GpsPps) : UInt32 :=
  let t := s.previousCpuclk + 6 * s.clkDirftCurrent / 5
  if t ≤ 1728000000 then t else 1

/-- `n` pulses that are as late as the window allows -/
def latePulses : Nat → GpsPps → List UInt32
  | 0, _ => []
  | n + 1, s => lateBy s :: latePulses n (gpsPpsInterrupt s (lateBy s))

/-- after 122 such pulses, one of them thrown away at a midnight, the mean has come so far that the
next sum wraps, and the mean falls from 35502296 to 65379 -/
theorem meanRight_latePulses :
    ¬ MeanRight (latePulses 122 gpsPpsInit ++ [lateBy (ppsRun (latePulses 122 gpsPpsInit))]) := by
  have hin : inWindow (ppsRun (latePulses 122 gpsPpsInit))
      (lateBy (ppsRun (latePulses 122 gpsPpsInit))) = true := by decide +kernel
  have hlow : (gpsPpsInterrupt (ppsRun (latePulses 122 gpsPpsInit))
      (lateBy (ppsRun (latePulses 122 gpsPpsInit)))).clkDirftCurrent.toNat < 65380 := by
    decide +kernel
  have hold : 65380 ≤ min (ppsRun (latePulses 122 gpsPpsInit)).clkDirftCurrent.toNat
      (cpuDelay (ppsRun (latePulses 122 gpsPpsInit))
        (lateBy (ppsRun (latePulses 122 gpsPpsInit)))).toNat := by decide +kernel
  intro h
  have hlast := ((Along_append _ _ _).1 h).2.1 hin
  exact absurd (Nat.le_trans hold hlast.2.1) (Nat.not_le.2 hlow)

end MenuFirmware
