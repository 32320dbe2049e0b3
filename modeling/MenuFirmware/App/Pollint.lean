import MenuFirmware.Lib.Trace
import Mathlib.Data.List.Nodup
import Mathlib.Tactic.IntervalCases

/-!
# The polling loop (`pollint.c`)

The tick interrupt sets a flag; the pass of the main loop that finds it moves three decimal counters
on and runs the one job that is due at their digits.  Ticks that come while the flag is set are lost.

* `pollint`, `changeTimeCountOk`   one pass, and the pass of the waiting loops;
* `ticksFound`, `waitingTick`   the ticks that were found, read off the events;
* `CountsTo`                       the counters are the digits of that number;
* `pollint_schedule`               over every run, each job runs at its phase in its period;
* `iwdg_fed`                       how long the watchdog is left alone when passes take long;
* `delayms_ends`                   when the waiting loops end.
-/

namespace MenuFirmware
open Runs

/-! ## the code -/

/-- `STR_POLLINT` -/
structure StrPollint where
  msCountDown : UInt16
  msCount : UInt8
  /-- `_10msCount` -/
  tenMsCount : UInt8
  /-- `_100msCount` -/
  hundredMsCount : UInt8
  pollintack : Bool

def strPollintInit : StrPollint := ⟨0, 0, 0, 0, false⟩

/-- `TimerTickNproc` -/
def timerTickNproc (p : StrPollint) : StrPollint := { p with pollintack := true }

def changeTime1mSec (p : StrPollint) : StrPollint :=
  let p := { p with
    pollintack := false
    msCountDown := if p.msCountDown > 0 then p.msCountDown - 1 else p.msCountDown
    msCount := (p.msCount + 1) % 10 }
  if p.msCount = 0 then
    let p := { p with tenMsCount := (p.tenMsCount + 1) % 10 }
    if p.tenMsCount = 0 then { p with hundredMsCount := (p.hundredMsCount + 1) % 10 } else p
  else p

/-- `ChangeTimeCount_OK` -/
def changeTimeCountOk (p : StrPollint) : Bool × StrPollint :=
  if p.pollintack then (true, changeTime1mSec p) else (false, p)

/-- what the loop calls -/
inductive Job where
  | pollintEthSend
  | pollintSpiTransmit
  | usart3RxReaddy
  | usart3CheckSerial
  | configCheckStatus
  | mxLwipProcess
  | keyScan
  | sendGpsInfo
  | sendDirft
  | powerOnReadRegOnce
  | displayMainMenu
  /-- `Set_Update_Flash_Flag(0)`, `Arr_Init` and `Write2Flash` -/
  | updateFlash
  | reg0x83
  | reg0x8d
  | reg0x84
  | iwdgRefresh
  | setBlinkFlag
  | reg0x87
  | reg0x82
  deriving DecidableEq

/-- what the conditions before the calls look at -/
structure PollEnv where
  status : UInt8
  srcClocktype : UInt8
  sendDirftFlag : Bool
  updateFlashFlag : Bool

def pollint1Sec (p : StrPollint) : List Job :=
  match p.hundredMsCount with
  | 2 => [.reg0x83]
  | 3 => [.reg0x8d]
  | 4 => [.reg0x84]
  | 5 => [.iwdgRefresh]
  | 6 => [.setBlinkFlag]
  | 7 => [.reg0x87]
  | 9 => [.reg0x82]
  | _ => []

def pollint100mSec (env : PollEnv) (p : StrPollint) : List Job :=
  match p.tenMsCount with
  | 1 => []
  | 2 => [.displayMainMenu]
  | 3 | 4 | 5 | 6 | 7 | 8 => []
  | 9 => if env.updateFlashFlag then [.updateFlash] else []
  | _ => pollint1Sec p

def pollint10mSec (env : PollEnv) (p : StrPollint) : List Job :=
  match p.msCount with
  | 1 => []
  | 2 => [.keyScan]
  | 3 | 4 => []
  | 5 => if env.status = 0 then if env.srcClocktype = 0x03 then [.sendGpsInfo] else [] else []
  | 6 => if env.status = 0 then if env.sendDirftFlag then [.sendDirft] else [] else []
  | 7 | 8 => []
  | 9 => [.powerOnReadRegOnce]
  | _ => pollint100mSec env p

/-- one pass: the calls, in order -/
def pollint (p : StrPollint) (env : PollEnv) : StrPollint × List Job :=
  let r := changeTimeCountOk p
  (r.2, [.pollintEthSend, .pollintSpiTransmit] ++
    if r.1 then [.usart3RxReaddy, .usart3CheckSerial, .configCheckStatus] ++
      pollint10mSec env r.2 ++ [.mxLwipProcess] else [])

inductive PollEvent where
  /-- the interrupt -/
  | tick
  /-- a pass of the main loop -/
  | poll (env : PollEnv)
  /-- a pass of the loop in `delayms_Lock` -/
  | wait

def pollStep (p : StrPollint) : PollEvent → StrPollint
  | .tick => timerTickNproc p
  | .poll env => (pollint p env).1
  | .wait => (changeTimeCountOk p).2

/-- `delayms_Lock` and `delay_NoLock` before their loops; these run while the countdown is not 0 -/
def startDelay (p : StrPollint) (value : UInt16) : StrPollint :=
  { p with msCountDown := value + 1 }

/-! ## counting the ticks -/

/-- a tick since the last pass, or the flag as it was -/
def waitingTick (ack : Bool) : List PollEvent → Bool
  | [] => ack
  | .tick :: es => waitingTick true es
  | .poll _ :: es => waitingTick false es
  | .wait :: es => waitingTick false es

/-- the passes that find a tick -/
def ticksFound (ack : Bool) : List PollEvent → Nat
  | [] => 0
  | .tick :: es => ticksFound true es
  | .poll _ :: es => ticksFound false es + ack.toNat
  | .wait :: es => ticksFound false es + ack.toNat

/-- the counters are the last three digits of `n` -/
structure CountsTo (p : StrPollint) (n : Nat) : Prop where
  ms : p.msCount.toNat = n % 10
  ten : p.tenMsCount.toNat = n / 10 % 10
  hundred : p.hundredMsCount.toNat = n / 100 % 10

section
variable {p : StrPollint} {n : Nat}

theorem digit_next {x : UInt8} (h : x.toNat < 10) : ((x + 1) % 10).toNat = (x.toNat + 1) % 10 := by
  rw [UInt8.toNat_mod, UInt8.toNat_add, show (1 : UInt8).toNat = 1 from rfl,
    show (10 : UInt8).toNat = 10 from rfl, Nat.mod_eq_of_lt (show x.toNat + 1 < 2 ^ 8 by omega)]

theorem digit_zero {x : UInt8} : x = 0 ↔ x.toNat = 0 := UInt8.toNat_inj.symm

/-- a tick is counted -/
theorem CountsTo.next (h : CountsTo p n) : CountsTo (changeTime1mSec p) (n + 1) := by
  have hms := digit_next (show p.msCount.toNat < 10 by rw [h.ms]; omega)
  have hten := digit_next (show p.tenMsCount.toNat < 10 by rw [h.ten]; omega)
  have hhundred := digit_next (show p.hundredMsCount.toNat < 10 by rw [h.hundred]; omega)
  rw [h.ms] at hms
  rw [h.ten] at hten
  rw [h.hundred] at hhundred
  have hten' := h.ten
  have hhundred' := h.hundred
  unfold changeTime1mSec
  simp only [digit_zero]
  by_cases hcarry : ((p.msCount + 1) % 10).toNat = 0
  · rw [if_pos hcarry]
    by_cases hcarry' : ((p.tenMsCount + 1) % 10).toNat = 0
    · rw [if_pos hcarry']
      exact ⟨by dsimp only; omega, by dsimp only; omega, by dsimp only; omega⟩
    · rw [if_neg hcarry']
      exact ⟨by dsimp only; omega, by dsimp only; omega, by dsimp only; omega⟩
  · rw [if_neg hcarry]
    exact ⟨by dsimp only; omega, by dsimp only; omega, by dsimp only; omega⟩

/-- both loops look for a tick in the same way -/
theorem changeTimeCountOk_counts (h : CountsTo p n) :
    CountsTo (changeTimeCountOk p).2 (n + p.pollintack.toNat) := by
  unfold changeTimeCountOk
  cases p.pollintack with
  | true => exact h.next
  | false => exact h

theorem changeTime1mSec_ack (p : StrPollint) : (changeTime1mSec p).pollintack = false := by
  unfold changeTime1mSec
  simp only
  split_ifs <;> rfl

theorem changeTimeCountOk_ack (p : StrPollint) : (changeTimeCountOk p).2.pollintack = false := by
  unfold changeTimeCountOk
  split_ifs with h
  · exact changeTime1mSec_ack p
  · exact Bool.eq_false_iff.2 h

theorem run_waitingTick (p : StrPollint) (es : List PollEvent) :
    (run pollStep p es).pollintack = waitingTick p.pollintack es := by
  induction es generalizing p with
  | nil => rfl
  | cons e es ih =>
    rw [run_cons, ih]
    cases e with
    | tick => rfl
    | poll env => exact congrArg (waitingTick · es) (changeTimeCountOk_ack p)
    | wait => exact congrArg (waitingTick · es) (changeTimeCountOk_ack p)

theorem run_counts (h : CountsTo p n) (es : List PollEvent) :
    CountsTo (run pollStep p es) (n + ticksFound p.pollintack es) := by
  induction es generalizing p n with
  | nil => exact h
  | cons e es ih =>
    rw [run_cons]
    cases e with
    | tick => exact ih (p := timerTickNproc p) ⟨h.ms, h.ten, h.hundred⟩
    | poll env =>
      have hrest := ih (changeTimeCountOk_counts h)
      rw [changeTimeCountOk_ack, Nat.add_assoc, Nat.add_comm p.pollintack.toNat] at hrest
      exact hrest
    | wait =>
      have hrest := ih (changeTimeCountOk_counts h)
      rw [changeTimeCountOk_ack, Nat.add_assoc, Nat.add_comm p.pollintack.toNat] at hrest
      exact hrest

end

/-! ## which job is due -/

/-- the period of a job and its phase in it, in ticks -/
def Job.slot : Job → Option (Nat × Nat)
  | .keyScan => some (10, 2)
  | .sendGpsInfo => some (10, 5)
  | .sendDirft => some (10, 6)
  | .powerOnReadRegOnce => some (10, 9)
  | .displayMainMenu => some (100, 20)
  | .updateFlash => some (100, 90)
  | .reg0x83 => some (1000, 200)
  | .reg0x8d => some (1000, 300)
  | .reg0x84 => some (1000, 400)
  | .iwdgRefresh => some (1000, 500)
  | .setBlinkFlag => some (1000, 600)
  | .reg0x87 => some (1000, 700)
  | .reg0x82 => some (1000, 900)
  | _ => none

/-- the condition before the call -/
def Job.allowed (env : PollEnv) : Job → Bool
  | .sendGpsInfo => env.status == 0 && env.srcClocktype == 0x03
  | .sendDirft => env.status == 0 && env.sendDirftFlag
  | .updateFlash => env.updateFlashFlag
  | _ => true

/-- the slot that is due at the digits of a tick -/
def slotAt (hundred ten ms : Nat) : Nat × Nat :=
  if ms ≠ 0 then (10, ms) else if ten ≠ 0 then (100, 10 * ten) else (1000, 100 * hundred)

def periodicJobs : List Job :=
  [.keyScan, .sendGpsInfo, .sendDirft, .powerOnReadRegOnce, .displayMainMenu, .updateFlash,
    .reg0x83, .reg0x8d, .reg0x84, .iwdgRefresh, .setBlinkFlag, .reg0x87, .reg0x82]

def jobsAt (hundred ten ms : Nat) : List Job :=
  periodicJobs.filter fun j => j.slot = some (slotAt hundred ten ms)

theorem mem_periodicJobs {j : Job} {slot : Nat × Nat} (h : j.slot = some slot) :
    j ∈ periodicJobs := by
  cases j <;> cases h <;> simp [periodicJobs]

/-- a slot is due once in its period -/
theorem slotAt_eq_iff {j : Job} {period phase : Nat} (h : j.slot = some (period, phase)) (n : Nat) :
    slotAt (n / 100 % 10) (n / 10 % 10) (n % 10) = (period, phase) ↔ n % period = phase := by
  unfold slotAt
  cases j <;> cases h <;> split_ifs <;> rw [Prod.mk.injEq] <;> omega

section
variable {p : StrPollint} {n : Nat}

theorem digit_cases {x : UInt8} {k : Nat} (h : x.toNat = k) : x = UInt8.ofNat k := by
  rw [← h, UInt8.ofNat_toNat]

theorem pollint1Sec_jobs (env : PollEnv) (h : p.hundredMsCount.toNat = n % 10) :
    pollint1Sec p = (jobsAt (n % 10) 0 0).filter (Job.allowed env) := by
  have hlt : n % 10 < 10 := by omega
  unfold pollint1Sec
  rw [digit_cases h]
  generalize n % 10 = k at hlt
  interval_cases k <;> rfl

theorem pollint100mSec_jobs (env : PollEnv) {m : Nat} (hten : p.tenMsCount.toNat = n % 10)
    (h : p.hundredMsCount.toNat = m % 10) :
    pollint100mSec env p = (jobsAt (m % 10) (n % 10) 0).filter (Job.allowed env) := by
  have hlt : n % 10 < 10 := by omega
  have hsec := pollint1Sec_jobs env h
  unfold pollint100mSec
  rw [digit_cases hten]
  generalize n % 10 = k at hlt
  interval_cases k
  · exact hsec
  · rfl
  · rfl
  · rfl
  · rfl
  · rfl
  · rfl
  · rfl
  · rfl
  · show (if env.updateFlashFlag then _ else _) = List.filter _ [Job.updateFlash]
    cases hflag : env.updateFlashFlag <;> simp [Job.allowed, hflag]

/-- the pass runs what is due at the digits, where its condition allows it -/
theorem pollint10mSec_jobs (env : PollEnv) (h : CountsTo p n) :
    pollint10mSec env p =
      (jobsAt (n / 100 % 10) (n / 10 % 10) (n % 10)).filter (Job.allowed env) := by
  have hlt : n % 10 < 10 := by omega
  have hrest := pollint100mSec_jobs env h.ten h.hundred
  unfold pollint10mSec
  rw [digit_cases h.ms]
  generalize n % 10 = k at hlt
  interval_cases k
  · exact hrest
  · rfl
  · rfl
  · rfl
  · rfl
  · show (if env.status = 0 then if env.srcClocktype = 0x03 then _ else _ else _) =
      List.filter _ [Job.sendGpsInfo]
    by_cases hs : env.status = 0 <;> by_cases hc : env.srcClocktype = 3 <;> simp [Job.allowed, hs, hc]
  · show (if env.status = 0 then if env.sendDirftFlag then _ else _ else _) =
      List.filter _ [Job.sendDirft]
    by_cases hs : env.status = 0 <;> cases hc : env.sendDirftFlag <;> simp [Job.allowed, hs, hc]
  · rfl
  · rfl
  · rfl

/-- how often a pass calls a job: once where it is due and allowed, not at all elsewhere -/
theorem pollint_count (h : CountsTo p n) (env : PollEnv) {j : Job} {period phase : Nat}
    (hj : j.slot = some (period, phase)) :
    (pollint p env).2.count j =
      if p.pollintack = true ∧ (n + 1) % period = phase ∧ j.allowed env = true then 1 else 0 := by
  have hne : ∀ k : Job, k.slot = none → (k == j) = false := by
    intro k hk
    rw [beq_eq_false_iff_ne]
    intro heq
    rw [heq, hj] at hk
    cases hk
  unfold pollint changeTimeCountOk
  cases p.pollintack with
  | false =>
    simp [List.count_cons, hne .pollintEthSend rfl, hne .pollintSpiTransmit rfl]
  | true =>
    have hjobs := pollint10mSec_jobs env h.next
    have hcount : (pollint10mSec env (changeTime1mSec p)).count j =
        if (n + 1) % period = phase ∧ j.allowed env = true then 1 else 0 := by
      have hmem : j ∈ pollint10mSec env (changeTime1mSec p) ↔
          (n + 1) % period = phase ∧ j.allowed env = true := by
        rw [hjobs, List.mem_filter, jobsAt, List.mem_filter, decide_eq_true_iff, hj,
          Option.some_inj, eq_comm, slotAt_eq_iff hj]
        exact and_congr_left fun _ => and_iff_right (mem_periodicJobs hj)
      have hnodup : (pollint10mSec env (changeTime1mSec p)).Nodup := by
        rw [hjobs]
        exact ((by decide : periodicJobs.Nodup).filter _).filter _
      by_cases hin : (n + 1) % period = phase ∧ j.allowed env = true
      · rw [if_pos hin]
        exact List.count_eq_one_of_mem hnodup (hmem.2 hin)
      · rw [if_neg hin]
        exact List.count_eq_zero.2 fun hc => hin (hmem.1 hc)
    simp [List.count_cons, List.count_append, hne .pollintEthSend rfl, hne .pollintSpiTransmit rfl,
      hne .usart3RxReaddy rfl, hne .usart3CheckSerial rfl, hne .configCheckStatus rfl,
      hne .mxLwipProcess rfl, hcount]

/-! ## every run -/

/-- what a pass of the main loop calls -/
def jobsOf (p : StrPollint) : PollEvent → List Job
  | .poll env => (pollint p env).2
  | _ => []

/-- what the whole run has called -/
def allJobs (p : StrPollint) (es : List PollEvent) : List Job := (outputs pollStep jobsOf p es).flatten

theorem allJobs_cons (p : StrPollint) (e : PollEvent) (es : List PollEvent) :
    allJobs p (e :: es) = jobsOf p e ++ allJobs (pollStep p e) es := rfl

theorem slot_bounds {j : Job} {period phase : Nat} (h : j.slot = some (period, phase)) :
    0 < phase ∧ phase < period := by
  cases j <;> cases h <;> decide

/-- one more tick, and one more call if the job is due at it -/
theorem calls_succ {period phase : Nat} (h : phase < period) (n : Nat) :
    (n + 1 + (period - phase)) / period =
      (n + (period - phase)) / period + if (n + 1) % period = phase then 1 else 0 := by
  have hdvd : period ∣ n + 1 + (period - phase) ↔ (n + 1) % period = phase := by
    have hmod := Nat.div_add_mod (n + 1) period
    have hlt := Nat.mod_lt (n + 1) (show 0 < period by omega)
    generalize (n + 1) % period = r at hmod hlt ⊢
    rw [← hmod, Nat.add_assoc, Nat.dvd_add_right (Nat.dvd_mul_right _ _)]
    constructor
    · rintro ⟨q, hq⟩
      have hq1 : q = 1 := by
        by_contra hne
        rcases Nat.lt_or_gt_of_ne hne with hlt1 | hgt1
        · obtain rfl : q = 0 := by omega
          omega
        · have hmul := Nat.mul_le_mul_left period (show 2 ≤ q by omega)
          omega
      rw [hq1] at hq
      omega
    · intro hr
      exact ⟨1, by omega⟩
  have hsum : n + 1 + (period - phase) = n + (period - phase) + 1 := by omega
  simp only [← hdvd]
  rw [hsum]
  exact Nat.succ_div

theorem run_calls {j : Job} {period phase : Nat} (hj : j.slot = some (period, phase))
    (hall : ∀ env, j.allowed env = true) {es : List PollEvent} (hes : PollEvent.wait ∉ es)
    (h : CountsTo p n) :
    (allJobs p es).count j + (n + (period - phase)) / period =
      (n + ticksFound p.pollintack es + (period - phase)) / period := by
  induction es generalizing p n with
  | nil => exact Nat.zero_add _
  | cons e es ih =>
    have hes' : PollEvent.wait ∉ es := fun hin => hes (List.mem_cons_of_mem e hin)
    rw [allJobs_cons, List.count_append]
    cases e with
    | tick =>
      have hrest := ih hes' (p := timerTickNproc p) ⟨h.ms, h.ten, h.hundred⟩
      rw [show (jobsOf p .tick).count j = 0 from rfl, Nat.zero_add]
      exact hrest
    | poll env =>
      have hrest := ih hes' (changeTimeCountOk_counts h)
      have hpass := pollint_count h env hj
      have hnext := calls_succ (slot_bounds hj).2 n
      rw [changeTimeCountOk_ack] at hrest
      show (pollint p env).2.count j + (allJobs (changeTimeCountOk p).2 es).count j + _ =
        (n + (ticksFound false es + p.pollintack.toNat) + _) / _
      rw [show n + (ticksFound false es + p.pollintack.toNat) = n + p.pollintack.toNat +
        ticksFound false es by omega, ← hrest, hpass]
      cases hack : p.pollintack with
      | true =>
        show _ = _ + (n + 1 + (period - phase)) / period
        rw [hnext]
        simp only [hall env, and_true, true_and]
        omega
      | false => simp
    | wait => exact absurd List.mem_cons_self hes

theorem strPollintInit_counts : CountsTo strPollintInit 0 := ⟨rfl, rfl, rfl⟩

/-- **The schedule.**  Whatever has happened, the next pass calls a job exactly if it finds a tick
whose number has the phase of the job in its period, and its condition allows it.  Without waiting
loops, a job without a condition has been called once in every period. -/
theorem pollint_schedule (es : List PollEvent) {j : Job} {period phase : Nat}
    (hj : j.slot = some (period, phase)) :
    (∀ env, (pollint (run pollStep strPollintInit es) env).2.count j =
      if waitingTick false es = true ∧ (ticksFound false es + 1) % period = phase ∧
        j.allowed env = true then 1 else 0) ∧
    ((∀ env, j.allowed env = true) → PollEvent.wait ∉ es →
      (allJobs strPollintInit es).count j = (ticksFound false es + (period - phase)) / period) := by
  refine ⟨fun env => ?_, fun hall hes => ?_⟩
  · have hcounts := run_counts strPollintInit_counts es
    rw [pollint_count hcounts env hj, run_waitingTick, Nat.zero_add]
    rfl
  · have hcalls := run_calls hj hall hes strPollintInit_counts
    have hbounds := slot_bounds hj
    rw [Nat.zero_add, Nat.zero_add, Nat.div_eq_of_lt (show period - phase < period by omega)] at hcalls
    exact hcalls

end

/-- a pass after each of 25 ticks: the keys are scanned at the ticks 2, 12 and 22 -/
theorem pollint_schedule_keyScan :
    (allJobs strPollintInit
      (List.replicate 25 [.tick, .poll ⟨0, 0, false, false⟩]).flatten).count .keyScan = 3 :=
  ((pollint_schedule _ (j := .keyScan) rfl).2 (fun _ => rfl) (by simp)).trans (by decide)

/-! ## the watchdog -/

/-- no more than `most` ticks without a pass of the main loop, `k` of them so far -/
def Paced (most : Nat) : Nat → List PollEvent → Prop
  | k, [] => k ≤ most
  | k, .tick :: es => Paced most (k + 1) es
  | k, .poll _ :: es => k ≤ most ∧ Paced most 0 es
  | _, .wait :: _ => False

/-- the ticks since the watchdog was fed the last time, `k` of them so far -/
def unfed (p : StrPollint) (k : Nat) : List PollEvent → Nat
  | [] => k
  | .tick :: es => unfed (timerTickNproc p) (k + 1) es
  | .poll env :: es =>
    unfed (pollint p env).1 (if .iwdgRefresh ∈ (pollint p env).2 then 0 else k) es
  | .wait :: es => unfed (changeTimeCountOk p).2 k es

/-- `Reload` at a prescaler of 256 and a clock of 32 kHz -/
def iwdgTimeoutMs : Nat := 0xEA6 * 256 / 32

section
variable {p : StrPollint} {n k w most : Nat}

/-- the pass feeds the watchdog, or moves one step on to the one that does -/
theorem unfed_pass (h : CountsTo p n) (hw : p.pollintack = false → w = 0) (hle : w ≤ most)
    (hk : k ≤ (n + 500) % 1000 * most + w) (env : PollEnv) :
    (if .iwdgRefresh ∈ (pollint p env).2 then 0 else k) ≤
      (n + p.pollintack.toNat + 500) % 1000 * most := by
  have hcount := pollint_count h env (j := .iwdgRefresh) rfl
  by_cases hin : Job.iwdgRefresh ∈ (pollint p env).2
  · rw [if_pos hin]
    exact Nat.zero_le _
  · rw [if_neg hin]
    rw [List.count_eq_zero.2 hin] at hcount
    cases hack : p.pollintack with
    | false =>
      rw [hw hack] at hk
      exact hk
    | true =>
      have hphase : (n + 1) % 1000 ≠ 500 := by
        intro hphase
        rw [if_pos ⟨hack, hphase, rfl⟩] at hcount
        omega
      have hnext : (n + 1 + 500) % 1000 = (n + 500) % 1000 + 1 := by omega
      show k ≤ (n + 1 + 500) % 1000 * most
      rw [hnext, Nat.succ_mul]
      omega

theorem unfed_le (es : List PollEvent) (h : CountsTo p n) (hw : p.pollintack = false → w = 0)
    (hk : k ≤ (n + 500) % 1000 * most + w) (hes : Paced most w es) :
    unfed p k es ≤ 1000 * most := by
  induction es generalizing p n k w with
  | nil =>
    have hle : w ≤ most := hes
    have hmul := Nat.mul_le_mul_right most (show (n + 500) % 1000 ≤ 999 by omega)
    show k ≤ 1000 * most
    omega
  | cons e es ih =>
    cases e with
    | tick =>
      exact ih (p := timerTickNproc p) ⟨h.ms, h.ten, h.hundred⟩ (fun hack => nomatch hack)
        (show k + 1 ≤ _ + (w + 1) by omega) hes
    | poll env =>
      obtain ⟨hle, hrest⟩ := hes
      exact ih (changeTimeCountOk_counts h) (fun _ => rfl) (unfed_pass h hw hle hk env) hrest
    | wait => exact hes.elim

/-- **The watchdog.**  While no pass of the main loop is more than `most` ticks after the last one,
the watchdog is never left alone for more than `1000 * most` ticks; at 29 that is less than it
waits. -/
theorem iwdg_fed (most : Nat) (es : List PollEvent) (hes : Paced most 0 es) :
    unfed strPollintInit 0 es ≤ 1000 * most ∧
      (most ≤ 29 → unfed strPollintInit 0 es < iwdgTimeoutMs) := by
  have hle := unfed_le es strPollintInit_counts (fun _ => rfl) (Nat.zero_le _) hes
  refine ⟨hle, fun hmost => ?_⟩
  have hmul := Nat.mul_le_mul_left 1000 hmost
  have htimeout : iwdgTimeoutMs = 30000 := rfl
  omega

end

/-- two ticks and a pass -/
theorem iwdg_fed_two :
    unfed strPollintInit 0 [.tick, .tick, .poll ⟨0, 0, false, false⟩] < iwdgTimeoutMs := by
  have hpaced : Paced 2 0 [.tick, .tick, .poll ⟨0, 0, false, false⟩] :=
    ⟨by decide, Nat.zero_le 2⟩
  exact (iwdg_fed 2 _ hpaced).2 (by decide)

/-! ## the waiting loops -/

section
variable {p : StrPollint}

theorem countDown_pred (x : UInt16) : (if x > 0 then x - 1 else x).toNat = x.toNat - 1 := by
  by_cases h : x > 0
  · have hpos : 0 < x.toNat := h
    rw [if_pos h, UInt16.toNat_sub_of_le x 1 (show 1 ≤ x.toNat from hpos)]
    rfl
  · have hzero : ¬ 0 < x.toNat := h
    rw [if_neg h]
    omega

theorem changeTimeCountOk_countDown (p : StrPollint) :
    (changeTimeCountOk p).2.msCountDown.toNat = p.msCountDown.toNat - p.pollintack.toNat := by
  unfold changeTimeCountOk
  cases p.pollintack with
  | false => rfl
  | true =>
    have hdown : (changeTime1mSec p).msCountDown =
        if p.msCountDown > 0 then p.msCountDown - 1 else p.msCountDown := by
      unfold changeTime1mSec
      simp only
      split_ifs <;> rfl
    show (changeTime1mSec p).msCountDown.toNat = _
    rw [hdown]
    exact countDown_pred p.msCountDown

theorem run_countDown (p : StrPollint) (es : List PollEvent) :
    (run pollStep p es).msCountDown.toNat = p.msCountDown.toNat - ticksFound p.pollintack es := by
  induction es generalizing p with
  | nil => rfl
  | cons e es ih =>
    rw [run_cons, ih]
    cases e with
    | tick => rfl
    | poll env =>
      show (changeTimeCountOk p).2.msCountDown.toNat - ticksFound (changeTimeCountOk p).2.pollintack es =
        p.msCountDown.toNat - (ticksFound false es + p.pollintack.toNat)
      rw [changeTimeCountOk_countDown, changeTimeCountOk_ack]
      omega
    | wait =>
      show (changeTimeCountOk p).2.msCountDown.toNat - ticksFound (changeTimeCountOk p).2.pollintack es =
        p.msCountDown.toNat - (ticksFound false es + p.pollintack.toNat)
      rw [changeTimeCountOk_countDown, changeTimeCountOk_ack]
      omega

def PollEvent.isTick : PollEvent → Bool
  | .tick => true
  | _ => false

/-- no pass finds a tick that has not come -/
theorem ticksFound_le (ack : Bool) (es : List PollEvent) :
    ticksFound ack es ≤ es.countP PollEvent.isTick + ack.toNat := by
  induction es generalizing ack with
  | nil => exact Nat.zero_le _
  | cons e es ih =>
    cases e with
    | tick =>
      have hrest := ih true
      rw [List.countP_cons]
      show ticksFound true es ≤ _ + 1 + _
      exact hrest.trans (Nat.le_add_right _ _)
    | poll env =>
      have hrest := ih false
      rw [List.countP_cons]
      exact Nat.add_le_add_right hrest _
    | wait =>
      have hrest := ih false
      rw [List.countP_cons]
      exact Nat.add_le_add_right hrest _

/-- **The delays.**  The loop ends with the pass that finds tick number `value + 1`, which at 0xFFFF
is at once; by then `value` ticks at least have come since it began. -/
theorem delayms_ends (p : StrPollint) (value : UInt16) (es : List PollEvent) :
    ((run pollStep (startDelay p value) es).msCountDown = 0 ↔
      (value + 1).toNat ≤ ticksFound p.pollintack es) ∧
    ((run pollStep (startDelay p value) es).msCountDown = 0 → value ≠ 0xFFFF →
      value.toNat ≤ es.countP PollEvent.isTick) := by
  have hdown := run_countDown (startDelay p value) es
  have hiff : (run pollStep (startDelay p value) es).msCountDown = 0 ↔
      (value + 1).toNat ≤ ticksFound p.pollintack es := by
    rw [← UInt16.toNat_inj, hdown]
    exact Nat.sub_eq_zero_iff_le
  refine ⟨hiff, fun hzero hvalue => ?_⟩
  have hle := hiff.1 hzero
  have hticks := ticksFound_le p.pollintack es
  have hack := Bool.toNat_le p.pollintack
  have hlt := value.toNat_lt
  have hne : value.toNat ≠ 0xFFFF := fun h => hvalue (UInt16.toNat_inj.1 h)
  have hsucc : (value + 1).toNat = value.toNat + 1 := by
    rw [UInt16.toNat_add, show (1 : UInt16).toNat = 1 from rfl, Nat.mod_eq_of_lt (by omega)]
  omega

end

/-- a delay of 2 with a tick waiting already: three ticks found, two of them new -/
theorem delayms_ends_two : (2 : UInt16).toNat ≤
    ([.wait, .tick, .wait, .tick, .wait] : List PollEvent).countP PollEvent.isTick :=
  (delayms_ends ⟨0, 0, 0, 0, true⟩ 2 [.wait, .tick, .wait, .tick, .wait]).2 (by decide) (by decide)

end MenuFirmware
