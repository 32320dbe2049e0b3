import Mathlib.Tactic.IntervalCases
import MenuFirmware.Gps.Pps
import MenuFirmware.Spi.Machine

/-!
# The drift on its way to the FPGA (`Send_Dirft`)

The four bytes of the drift go out one at a time, on four ticks of the main loop.  The pulse
interrupt may rewrite them between any two of these ticks.

* `sendDirft`, `gpsStep`     the sender, and its interleaving with the interrupt;
* `gpsRun_pps`               the sender leaves the drift alone: its value is that of the pulses so far;
* `cycle_of_reg`             a cycle under way, as a stretch of the run;
* `sent_cycle`               byte `k` of a cycle is byte `k` of the drift at tick `k`;
* `oneDrift_iff`             the cycles of a run carry one drift each, iff some pulse agrees with all
                             four; pulses that keep the mean do no harm.
-/

namespace MenuFirmware
open Runs

/-! ## the sender -/

structure GpsDev where
  pps : GpsPps
  reg : UInt8

def gpsInit : GpsDev := ⟨gpsPpsInit, 1⟩

/-- `Send_Dirft` -/
def sendDirft (s : GpsDev) : GpsDev × Option Request :=
  if s.reg = 1 then
    ({ s with reg := s.reg + 1 }, some (.sendGpsDirft 0x09 s.pps.configRw9Num))
  else if s.reg = 2 then
    ({ s with reg := s.reg + 1 }, some (.sendGpsDirft 0x0a s.pps.configRwaNum))
  else if s.reg = 3 then
    ({ s with reg := s.reg + 1 }, some (.sendGpsDirft 0x0b s.pps.configRwbNum))
  else if s.reg = 4 then
    ({ s with pps := setSendDirftFlag s.pps 0, reg := 1 },
      some (.sendGpsDirft 0x0c s.pps.configRwcNum))
  else ({ s with reg := 1 }, none)

/-- `case 6` of `Pollint10mSec`, where `Get_Status` allows it -/
def pollDirft (s : GpsDev) : GpsDev × Option Request :=
  if getSendDirftFlag s.pps ≠ 0 then sendDirft s else (s, none)

inductive GpsEvent where
  /-- `GPS_PPS_Interrupt`, with the clock count it reads -/
  | pulse (cpuclk : UInt32)
  | send
  deriving DecidableEq

def gpsStep (s : GpsDev) : GpsEvent → GpsDev
  | .pulse cpuclk => { s with pps := gpsPpsInterrupt s.pps cpuclk }
  | .send => (pollDirft s).1

def gpsMsg (s : GpsDev) : GpsEvent → Option Request
  | .pulse _ => none
  | .send => (pollDirft s).2

def gpsRun (as : List GpsEvent) : GpsDev := run gpsStep gpsInit as

/-- what a run sends to the FPGA -/
def gpsSent (as : List GpsEvent) : List Request := emitted gpsStep gpsMsg gpsInit as

/-- the pulses of a run -/
def pulses : List GpsEvent → List UInt32
  | [] => []
  | .pulse t :: as => t :: pulses as
  | .send :: as => pulses as

/-- the drift that the last of the pulses `ts` has computed -/
def drift (ts : List UInt32) : UInt32 := (ppsRun ts).clkDirftCurrent

/-- byte `k` of `v`, the most significant one first -/
def beByte (v : UInt32) (k : Nat) : UInt8 := UInt8.ofNat (v.toNat / 256 ^ (3 - k))

def dirftNum (s : GpsPps) : Nat → UInt8
  | 0 => s.configRw9Num
  | 1 => s.configRwaNum
  | 2 => s.configRwbNum
  | _ => s.configRwcNum

/-- the message of tick `k` of a cycle -/
def dirftFrame (k : Nat) (b : UInt8) : Request := .sendGpsDirft (UInt8.ofNat (9 + k)) b

theorem gpsRun_snoc (as : List GpsEvent) (a : GpsEvent) :
    gpsRun (as ++ [a]) = gpsStep (gpsRun as) a := run_snoc ..

theorem gpsRun_append (as bs : List GpsEvent) :
    gpsRun (as ++ bs) = run gpsStep (gpsRun as) bs := run_append ..

theorem gpsSent_append (as bs : List GpsEvent) :
    gpsSent (as ++ bs) = gpsSent as ++ emitted gpsStep gpsMsg (gpsRun as) bs := emitted_append ..

theorem pulses_append (as bs : List GpsEvent) : pulses (as ++ bs) = pulses as ++ pulses bs := by
  induction as with
  | nil => rfl
  | cons a as ih =>
    cases a with
    | pulse t => exact congrArg (t :: ·) ih
    | send => exact ih

theorem pulses_map (ts : List UInt32) : pulses (ts.map .pulse) = ts := by
  induction ts with
  | nil => rfl
  | cons t ts ih => exact congrArg (t :: ·) ih

theorem sendDirft_at {s : GpsDev} {k : Nat} (hk : k < 4) (h : s.reg = UInt8.ofNat (k + 1)) :
    (sendDirft s).2 = some (dirftFrame k (dirftNum s.pps k)) := by
  unfold sendDirft
  rw [h]
  interval_cases k <;> rfl

theorem sendDirft_next {s : GpsDev} {k : Nat} (hk : k < 3) (h : s.reg = UInt8.ofNat (k + 1)) :
    (sendDirft s).1 = { s with reg := UInt8.ofNat (k + 2) } := by
  unfold sendDirft
  rw [h]
  interval_cases k <;> rfl

theorem sendDirft_last {s : GpsDev} (h : s.reg = 4) :
    (sendDirft s).1 = { s with pps := setSendDirftFlag s.pps 0, reg := 1 } := by
  unfold sendDirft
  rw [h]
  rfl

/-! ## the interrupt and the flag -/

theorem cutCnt_setFlag (s : GpsPps) (flag : UInt8) :
    cutCnt (setSendDirftFlag s flag) = setSendDirftFlag (cutCnt s) flag := by
  show (if UInt32.ofNat tolArrNumb < s.cnt then _ else _) = _
  unfold cutCnt
  split <;> rfl

theorem countPulse_setFlag (s : GpsPps) (flag : UInt8) :
    countPulse (setSendDirftFlag s flag) = setSendDirftFlag (countPulse s) flag := by
  show (if fiFoActiveCntMax < s.fiFoActiveCnt + 1 then _ else _) = _
  unfold countPulse
  split <;> rfl

theorem offerDrift_setFlag (s : GpsPps) (flag : UInt8) :
    setSendDirftFlag (offerDrift (setSendDirftFlag s flag)) 1 =
      setSendDirftFlag (offerDrift s) 1 := by
  show setSendDirftFlag (if s.fiFoActive ≠ 0 then _ else _) 1 = _
  unfold offerDrift
  split <;> rfl

theorem judgePulse_setFlag (s : GpsPps) (flag : UInt8) (t : UInt32) :
    setSendDirftFlag (judgePulse (setSendDirftFlag s flag) t) 1 =
      setSendDirftFlag (judgePulse s t) 1 := by
  have hwin : inWindow (setSendDirftFlag s flag) t = inWindow s t := rfl
  cases hw : inWindow s t with
  | true =>
    rw [judgePulse_in hw, judgePulse_in (hwin.trans hw)]
    have hrec : recordPulse (setSendDirftFlag s flag) t =
        setSendDirftFlag (recordPulse s t) flag := rfl
    unfold acceptPulse
    rw [← cutCnt_setFlag, hrec, countPulse_setFlag, offerDrift_setFlag, cutCnt_setFlag]
  | false =>
    rw [judgePulse_out hw, judgePulse_out (hwin.trans hw)]
    rfl

/-- the handler does not look at the flag -/
theorem gpsPpsInterrupt_setFlag (s : GpsPps) (flag : UInt8) (t : UInt32) :
    gpsPpsInterrupt (setSendDirftFlag s flag) t = gpsPpsInterrupt s t := by
  have hend : ∀ r : GpsPps, setSendDirftFlag (setDirftNum (setSendSecPlus (setPrevious r t) 1 0)
      (setSendSecPlus (setPrevious r t) 1 0).clkDirftCurrent) 1 =
      setDirftNum (setSendSecPlus (setPrevious (setSendDirftFlag r 1) t) 1 0)
        (setSendDirftFlag r 1).clkDirftCurrent := fun r => rfl
  unfold gpsPpsInterrupt takePulse
  rw [hend, hend, judgePulse_setFlag]

theorem sendDirft_pps (s : GpsDev) :
    setSendDirftFlag (sendDirft s).1.pps 0 = setSendDirftFlag s.pps 0 := by
  unfold sendDirft
  repeat' split
  all_goals rfl

/-- the sender leaves the drift and its bytes alone -/
theorem gpsRun_pps (as : List GpsEvent) :
    setSendDirftFlag (gpsRun as).pps 0 = setSendDirftFlag (ppsRun (pulses as)) 0 := by
  induction as using List.reverseRecOn with
  | nil => rfl
  | append_singleton as a ih =>
    rw [gpsRun_snoc, pulses_append]
    cases a with
    | pulse t =>
      show setSendDirftFlag (gpsPpsInterrupt _ t) 0 = setSendDirftFlag (ppsRun (_ ++ [t])) 0
      rw [ppsRun_snoc, ← gpsPpsInterrupt_setFlag _ 0, ih, gpsPpsInterrupt_setFlag]
    | send =>
      show setSendDirftFlag (pollDirft (gpsRun as)).1.pps 0 = setSendDirftFlag (ppsRun (_ ++ [])) 0
      rw [List.append_nil, ← ih]
      unfold pollDirft
      split
      · exact sendDirft_pps _
      · rfl

/-- a pulse writes the bytes of the drift, whatever it thinks of it -/
theorem dirftNum_pulses {ts : List UInt32} (h : ts ≠ []) {k : Nat} (hk : k < 4) :
    dirftNum (ppsRun ts) k = beByte (drift ts) k := by
  have hbytes : ∀ (s : GpsPps) (v : UInt32), dirftNum (setDirftNum s v) k = beByte v k := by
    intro s v
    have hv := v.toNat_lt
    apply UInt8.toNat_inj.1
    interval_cases k
    · show (v / 0x1000000).toUInt8.toNat = (UInt8.ofNat (v.toNat / 256 ^ 3)).toNat
      rw [UInt32.toNat_toUInt8, UInt32.toNat_div, UInt8.toNat_ofNat']
      rfl
    · show (v % 0x1000000 / 0x10000).toUInt8.toNat = (UInt8.ofNat (v.toNat / 256 ^ 2)).toNat
      rw [UInt32.toNat_toUInt8, UInt32.toNat_div, UInt32.toNat_mod, UInt8.toNat_ofNat']
      show v.toNat % 0x1000000 / 0x10000 % 256 = v.toNat / 0x10000 % 256
      omega
    · show (v % 0x10000 / 0x100).toUInt8.toNat = (UInt8.ofNat (v.toNat / 256 ^ 1)).toNat
      rw [UInt32.toNat_toUInt8, UInt32.toNat_div, UInt32.toNat_mod, UInt8.toNat_ofNat']
      show v.toNat % 0x10000 / 0x100 % 256 = v.toNat / 0x100 % 256
      omega
    · show (v % 0x100).toUInt8.toNat = (UInt8.ofNat (v.toNat / 256 ^ 0)).toNat
      rw [UInt32.toNat_toUInt8, UInt32.toNat_mod, UInt8.toNat_ofNat']
      show v.toNat % 0x100 % 256 = v.toNat / 1 % 256
      omega
  obtain ⟨ts, t, rfl⟩ := (List.eq_nil_or_concat' ts).resolve_left h
  unfold drift
  rw [ppsRun_snoc]
  exact hbytes (takePulse (ppsRun ts) t) (takePulse (ppsRun ts) t).clkDirftCurrent

theorem dirftNum_run {as : List GpsEvent} (h : pulses as ≠ []) {k : Nat} (hk : k < 4) :
    dirftNum (gpsRun as).pps k = beByte (drift (pulses as)) k := by
  have hnum : ∀ s : GpsPps, dirftNum (setSendDirftFlag s 0) k = dirftNum s k := by
    intro s
    interval_cases k <;> rfl
  rw [← dirftNum_pulses h hk, ← hnum (gpsRun as).pps, gpsRun_pps, hnum]

theorem mean_run (as : List GpsEvent) :
    (gpsRun as).pps.clkDirftCurrent = drift (pulses as) := by
  have h := congrArg GpsPps.clkDirftCurrent (gpsRun_pps as)
  exact h

/-- the flag is up only after a pulse -/
theorem pulses_of_flag {as : List GpsEvent} (h : getSendDirftFlag (gpsRun as).pps ≠ 0) :
    pulses as ≠ [] := by
  induction as using List.reverseRecOn with
  | nil => exact absurd rfl h
  | append_singleton as a ih =>
    rw [pulses_append]
    cases a with
    | pulse t => exact List.append_ne_nil_of_right_ne_nil _ (List.cons_ne_nil t [])
    | send =>
      refine List.append_ne_nil_of_left_ne_nil (ih fun h0 => h ?_) _
      rw [gpsRun_snoc]
      show getSendDirftFlag (pollDirft (gpsRun as)).1.pps = 0
      unfold pollDirft
      rw [if_neg fun hne => hne h0]
      exact h0

/-! ## cycles -/

/-- a tick of the sender and the pulses after it, for each list of `Ps` -/
def cycleEvents : List (List UInt32) → List GpsEvent
  | [] => []
  | P :: Ps => .send :: P.map .pulse ++ cycleEvents Ps

/-- the next tick begins a cycle -/
def Ready (s : GpsDev) : Prop := s.reg = 1 ∧ getSendDirftFlag s.pps ≠ 0

theorem cycleEvents_append (Ps Qs : List (List UInt32)) :
    cycleEvents (Ps ++ Qs) = cycleEvents Ps ++ cycleEvents Qs := by
  induction Ps with
  | nil => rfl
  | cons P Ps ih =>
    show .send :: P.map .pulse ++ cycleEvents (Ps ++ Qs) = _
    rw [ih, ← List.append_assoc]
    rfl

theorem cycleEvents_snoc (Ps : List (List UInt32)) (P : List UInt32) :
    cycleEvents (Ps ++ [P]) = cycleEvents Ps ++ .send :: P.map .pulse := by
  rw [cycleEvents_append]
  exact congrArg (cycleEvents Ps ++ ·) (List.append_nil _)

theorem pulses_cycleEvents (Ps : List (List UInt32)) : pulses (cycleEvents Ps) = Ps.flatten := by
  induction Ps with
  | nil => rfl
  | cons P Ps ih =>
    show pulses (P.map .pulse ++ cycleEvents Ps) = P ++ Ps.flatten
    rw [pulses_append, pulses_map, ih]

theorem run_pulses (s : GpsDev) (P : List UInt32) :
    (run gpsStep s (P.map .pulse)).reg = s.reg ∧
    (getSendDirftFlag s.pps ≠ 0 → getSendDirftFlag (run gpsStep s (P.map .pulse)).pps ≠ 0) := by
  induction P generalizing s with
  | nil => exact ⟨rfl, id⟩
  | cons t P ih =>
    have h1 : (1 : UInt8) ≠ 0 := by decide
    exact ⟨(ih (gpsStep s (.pulse t))).1, fun _ => (ih (gpsStep s (.pulse t))).2 h1⟩

theorem sent_pulses (s : GpsDev) (P : List UInt32) :
    emitted gpsStep gpsMsg s (P.map .pulse) = [] := by
  induction P generalizing s with
  | nil => rfl
  | cons t P ih =>
    rw [List.map_cons, emitted_cons_none rfl]
    exact ih _

theorem pollDirft_flag {s : GpsDev} (h : getSendDirftFlag s.pps ≠ 0) : pollDirft s = sendDirft s :=
  if_pos h

/-- a cycle of which at most three ticks have passed -/
theorem cycle_run {A : List GpsEvent} (hA : Ready (gpsRun A)) (Ps : List (List UInt32))
    (h : Ps.length ≤ 3) : (gpsRun (A ++ cycleEvents Ps)).reg = UInt8.ofNat (Ps.length + 1) ∧
      getSendDirftFlag (gpsRun (A ++ cycleEvents Ps)).pps ≠ 0 := by
  induction Ps using List.reverseRecOn with
  | nil =>
    rw [show cycleEvents [] = [] from rfl, List.append_nil]
    exact hA
  | append_singleton Ps P ih =>
    rw [List.length_append, List.length_singleton] at h
    obtain ⟨hreg, hflag⟩ := ih (by omega)
    have hsend := sendDirft_next (by omega) hreg
    rw [cycleEvents_snoc, ← List.append_assoc, gpsRun_append, run_cons, List.length_append,
      List.length_singleton]
    obtain ⟨hr, hf⟩ := run_pulses (gpsStep (gpsRun (A ++ cycleEvents Ps)) .send) P
    have hstep : gpsStep (gpsRun (A ++ cycleEvents Ps)) .send =
        { gpsRun (A ++ cycleEvents Ps) with reg := UInt8.ofNat (Ps.length + 2) } :=
      (congrArg Prod.fst (pollDirft_flag hflag)).trans hsend
    rw [hstep] at hr hf ⊢
    exact ⟨hr, hf hflag⟩

/-- the messages of a cycle whose ticks fall between the pulses `ps` and `Ps` -/
def cycleFrames (ps : List UInt32) (Ps : List (List UInt32)) : List Request :=
  (List.range Ps.length).map fun k =>
    dirftFrame k (beByte (drift (ps ++ (Ps.take k).flatten)) k)

theorem cycleFrames_snoc (ps : List UInt32) (Ps : List (List UInt32)) (P : List UInt32) :
    cycleFrames ps (Ps ++ [P]) = cycleFrames ps Ps ++
      [dirftFrame Ps.length (beByte (drift (ps ++ Ps.flatten)) Ps.length)] := by
  unfold cycleFrames
  rw [List.length_append, List.length_singleton, List.range_succ, List.map_append,
    List.map_singleton, List.take_append_of_le_length (Nat.le_refl _), List.take_length]
  congr 1
  apply List.map_congr_left
  intro k hk
  rw [List.take_append_of_le_length (List.mem_range.1 hk).le]

/-- tick `k` sends byte `k` of the drift that is in force at tick `k` -/
theorem sent_cycle {A : List GpsEvent} (hA : Ready (gpsRun A)) (Ps : List (List UInt32))
    (h : Ps.length ≤ 4) :
    gpsSent (A ++ cycleEvents Ps) = gpsSent A ++ cycleFrames (pulses A) Ps := by
  induction Ps using List.reverseRecOn with
  | nil => simp [cycleEvents, cycleFrames]
  | append_singleton Ps P ih =>
    rw [List.length_append, List.length_singleton] at h
    obtain ⟨hreg, hflag⟩ := cycle_run hA Ps (by omega)
    have hmsg : gpsMsg (gpsRun (A ++ cycleEvents Ps)) .send =
        some (dirftFrame Ps.length (beByte (drift (pulses A ++ Ps.flatten)) Ps.length)) := by
      show (pollDirft _).2 = _
      rw [pollDirft_flag hflag, sendDirft_at (by omega) hreg,
        dirftNum_run (pulses_of_flag hflag) (by omega), pulses_append, pulses_cycleEvents]
    rw [cycleEvents_snoc, ← List.append_assoc, cycleFrames_snoc, ← List.append_assoc,
      ← ih (by omega)]
    rw [gpsSent_append, emitted_cons_some hmsg, sent_pulses]

/-- a sender in the middle of a cycle has begun it -/
theorem cycle_of_reg (as : List GpsEvent) : (gpsRun as).reg = 1 ∨
    ∃ A Ps, as = A ++ cycleEvents Ps ∧ Ready (gpsRun A) ∧ 0 < Ps.length ∧ Ps.length ≤ 3 := by
  induction as using List.reverseRecOn with
  | nil => exact Or.inl rfl
  | append_singleton as a ih =>
    rw [gpsRun_snoc]
    cases a with
    | pulse t =>
      rcases ih with ih | ⟨A, Ps, rfl, hA, h0, h3⟩
      · exact Or.inl ih
      · obtain ⟨Qs, P, rfl⟩ := (List.eq_nil_or_concat' Ps).resolve_left (List.length_pos_iff.1 h0)
        refine Or.inr ⟨A, Qs ++ [P ++ [t]], ?_, hA, by simp, by simpa using h3⟩
        rw [cycleEvents_snoc, cycleEvents_snoc, List.map_append]
        simp
    | send =>
      show (pollDirft (gpsRun as)).1.reg = 1 ∨ _
      rcases ih with ih | ⟨A, Ps, rfl, hA, h0, h3⟩
      · by_cases hf : getSendDirftFlag (gpsRun as).pps ≠ 0
        · exact Or.inr ⟨as, [[]], rfl, ⟨ih, hf⟩, Nat.one_pos, by decide⟩
        · unfold pollDirft
          rw [if_neg hf]
          exact Or.inl ih
      · obtain ⟨hreg, hflag⟩ := cycle_run hA Ps h3
        by_cases h : Ps.length = 3
        · -- the fourth tick closes the cycle
          rw [h] at hreg
          rw [pollDirft_flag hflag, sendDirft_last hreg]
          exact Or.inl rfl
        · refine Or.inr ⟨A, Ps ++ [[]], ?_, hA, by simp, by simp; omega⟩
          rw [cycleEvents_snoc, ← List.append_assoc]
          rfl

/-- a whole cycle: three stretches of pulses between its four ticks -/
theorem sent_whole_cycle {A : List GpsEvent} (hA : Ready (gpsRun A)) {Ps : List (List UInt32)}
    (h : Ps.length = 3) :
    gpsSent (A ++ cycleEvents Ps ++ [.send]) = gpsSent A ++
      (List.range 4).map fun k =>
        dirftFrame k (beByte (drift (pulses A ++ (Ps.take k).flatten)) k) := by
  have hsend : cycleEvents Ps ++ [.send] = cycleEvents (Ps ++ [[]]) := by
    rw [cycleEvents_snoc]
    rfl
  rw [List.append_assoc, hsend, sent_cycle hA _ (by simp [h]), cycleFrames_snoc, h]
  unfold cycleFrames
  rw [h, show List.range 4 = List.range 3 ++ [3] from rfl, List.map_append, List.map_singleton,
    List.take_of_length_le h.le]

/-- the message to the last register closes a cycle -/
theorem reg_of_last_msg {s : GpsDev} {a : GpsEvent} {d : UInt8}
    (h : gpsMsg s a = some (.sendGpsDirft 0x0c d)) : a = .send ∧ s.reg = 4 := by
  cases a with
  | pulse t => exact absurd h (Option.some_ne_none _).symm
  | send =>
    refine ⟨rfl, ?_⟩
    change (pollDirft s).2 = _ at h
    unfold pollDirft sendDirft at h
    repeat' split at h
    all_goals simp_all

theorem cycle_of_sent {as : List GpsEvent} {l : List Request} {a b c d : UInt8}
    (h : gpsSent as = l ++ [.sendGpsDirft 0x09 a, .sendGpsDirft 0x0a b, .sendGpsDirft 0x0b c,
      .sendGpsDirft 0x0c d]) :
    ∃ A Ps, Ps.length = 3 ∧ A ++ cycleEvents Ps ++ [.send] <+: as ∧ Ready (gpsRun A) ∧
      [a, b, c, d] = (List.range 4).map fun k =>
        beByte (drift (pulses A ++ (Ps.take k).flatten)) k := by
  have h' : gpsSent as = (l ++ [.sendGpsDirft 0x09 a, .sendGpsDirft 0x0a b, .sendGpsDirft 0x0b c]) ++
      [.sendGpsDirft 0x0c d] := by
    rw [h, List.append_assoc]
    rfl
  obtain ⟨B, e, hpre, hB, he⟩ := emitted_concat h'
  obtain ⟨rfl, hreg⟩ := reg_of_last_msg he
  change (gpsRun B).reg = 4 at hreg
  rcases cycle_of_reg B with h1 | ⟨A, Ps, rfl, hA, h0, h3⟩
  · exact absurd (h1.symm.trans hreg) (by decide)
  · have hlen : Ps.length = 3 := by
      have := (cycle_run hA Ps h3).1.symm.trans hreg
      generalize Ps.length = n at *
      interval_cases n <;> first | rfl | exact absurd this (by decide)
    refine ⟨A, Ps, hlen, hpre, hA, ?_⟩
    have hs := sent_whole_cycle hA hlen
    have hs' : gpsSent (A ++ cycleEvents Ps ++ [.send]) = l ++ [.sendGpsDirft 0x09 a,
        .sendGpsDirft 0x0a b, .sendGpsDirft 0x0b c, .sendGpsDirft 0x0c d] := by
      rw [← h]
      exact (emitted_snoc_some he).trans ((congrArg (· ++ _) hB).trans h'.symm)
    have hframes := (List.append_inj' (hs'.symm.trans hs) rfl).2
    simpa [List.range_succ, dirftFrame] using hframes

/-! ## one drift a cycle -/

/-- whenever a cycle is complete, its four bytes are those of a drift that one of the pulses so far
has computed -/
def OneDriftPerCycle (as : List GpsEvent) : Prop :=
  ∀ as', as' <+: as → ∀ l a b c d,
    gpsSent as' = l ++ [.sendGpsDirft 0x09 a, .sendGpsDirft 0x0a b, .sendGpsDirft 0x0b c,
      .sendGpsDirft 0x0c d] →
    ∃ ts, ts ≠ [] ∧ ts <+: pulses as' ∧ [a, b, c, d] = (List.range 4).map (beByte (drift ts))

/-- in every cycle, some pulse so far has left a drift that agrees, at each of the four ticks, in the
byte of the tick with the drift of the pulses before the tick -/
def CyclesAgree (as : List GpsEvent) : Prop :=
  ∀ A Ps, Ps.length = 3 → A ++ cycleEvents Ps ++ [.send] <+: as → Ready (gpsRun A) →
    ∃ ts, ts ≠ [] ∧ ts <+: pulses A ++ Ps.flatten ∧
      ∀ k < 4, beByte (drift ts) k = beByte (drift (pulses A ++ (Ps.take k).flatten)) k

/-- a pulse in the middle of a cycle is thrown away, or keeps the mean -/
def Calm (s : GpsDev) : GpsEvent → Prop
  | .pulse t => s.reg = 1 ∨ inWindow s.pps t = false ∨ nextMean s.pps t = s.pps.clkDirftCurrent
  | .send => True

theorem map_range_eq {f g : Nat → UInt8} {n : Nat} :
    (List.range n).map f = (List.range n).map g ↔ ∀ k < n, f k = g k := by
  rw [List.map_inj_left]
  exact forall_congr' fun k => by rw [List.mem_range]

theorem pulses_mono {as bs : List GpsEvent} (h : as <+: bs) : pulses as <+: pulses bs := by
  obtain ⟨cs, rfl⟩ := h
  rw [pulses_append]
  exact List.prefix_append _ _

theorem oneDriftPerCycle_iff (as : List GpsEvent) : OneDriftPerCycle as ↔ CyclesAgree as := by
  have hpulses : ∀ A Ps, pulses (A ++ cycleEvents Ps ++ [.send]) = pulses A ++ Ps.flatten := by
    intro A Ps
    rw [pulses_append, pulses_append, pulses_cycleEvents]
    exact List.append_nil _
  constructor
  · intro h A Ps hlen hpre hA
    obtain ⟨ts, hne, hts, he⟩ := h _ hpre _ _ _ _ _ (sent_whole_cycle hA hlen)
    rw [hpulses] at hts
    have he' : (List.range 4).map (fun k => beByte (drift (pulses A ++ (Ps.take k).flatten)) k) =
        (List.range 4).map (beByte (drift ts)) := he
    exact ⟨ts, hne, hts, fun k hk => (map_range_eq.1 he' k hk).symm⟩
  · intro h as' hpre l a b c d hsent
    obtain ⟨A, Ps, hlen, hpre', hA, he⟩ := cycle_of_sent hsent
    obtain ⟨ts, hne, hts, hk⟩ := h A Ps hlen (hpre'.trans hpre) hA
    refine ⟨ts, hne, ?_, he.trans (map_range_eq.2 fun k hlt => (hk k hlt).symm)⟩
    rw [← hpulses] at hts
    exact hts.trans (pulses_mono hpre')

/-! ## pulses that keep the mean -/

theorem gpsPpsInterrupt_mean (s : GpsPps) (t : UInt32) :
    (gpsPpsInterrupt s t).clkDirftCurrent =
      if inWindow s t then nextMean s t else s.clkDirftCurrent := by
  have hacc : ∀ r : GpsPps, (cutCnt (offerDrift (countPulse r))).clkDirftCurrent =
      r.clkDirftCurrent := by
    intro r
    unfold cutCnt offerDrift countPulse
    repeat' split
    all_goals rfl
  show (judgePulse s t).clkDirftCurrent = _
  cases hw : inWindow s t with
  | true =>
    rw [judgePulse_in hw]
    exact hacc (recordPulse s t)
  | false =>
    rw [judgePulse_out hw]
    rfl

theorem calm_pulses {s : GpsDev} {P : List UInt32} (hreg : s.reg ≠ 1)
    (h : Along gpsStep Calm s (P.map .pulse)) :
    (run gpsStep s (P.map .pulse)).pps.clkDirftCurrent = s.pps.clkDirftCurrent := by
  induction P generalizing s with
  | nil => rfl
  | cons t P ih =>
    obtain ⟨hcalm, h⟩ := h
    refine (ih (s := gpsStep s (.pulse t)) hreg h).trans ?_
    show (gpsPpsInterrupt s.pps t).clkDirftCurrent = _
    rw [gpsPpsInterrupt_mean]
    rcases hcalm with h1 | hout | hkeep
    · exact absurd h1 hreg
    · rw [hout]
      rfl
    · rw [hkeep, ite_self]

theorem calm_cycle {A : List GpsEvent} (hA : Ready (gpsRun A)) (Ps : List (List UInt32))
    (hlen : Ps.length ≤ 3) (h : Along gpsStep Calm (gpsRun A) (cycleEvents Ps)) :
    drift (pulses A ++ Ps.flatten) = drift (pulses A) := by
  induction Ps using List.reverseRecOn with
  | nil => rw [List.flatten_nil, List.append_nil]
  | append_singleton Ps P ih =>
    rw [List.length_append, List.length_singleton] at hlen
    rw [cycleEvents_snoc, Along_append, ← gpsRun_append] at h
    obtain ⟨hreg, hflag⟩ := cycle_run hA Ps (by omega)
    have hstep : gpsStep (gpsRun (A ++ cycleEvents Ps)) .send =
        { gpsRun (A ++ cycleEvents Ps) with reg := UInt8.ofNat (Ps.length + 2) } :=
      (congrArg Prod.fst (pollDirft_flag hflag)).trans (sendDirft_next (by omega) hreg)
    have hne : (UInt8.ofNat (Ps.length + 2)) ≠ 1 := by
      intro he
      have := congrArg UInt8.toNat he
      rw [UInt8.toNat_ofNat'] at this
      change (Ps.length + 2) % 256 = 1 at this
      omega
    have hcalm := h.2.2
    rw [hstep] at hcalm
    have hmean := calm_pulses hne hcalm
    rw [← hstep, ← run_cons, ← gpsRun_append, mean_run, List.append_assoc, ← cycleEvents_snoc,
      pulses_append, pulses_cycleEvents] at hmean
    refine hmean.trans ?_
    rw [hstep]
    show (gpsRun (A ++ cycleEvents Ps)).pps.clkDirftCurrent = _
    rw [mean_run, pulses_append, pulses_cycleEvents]
    exact ih (by omega) h.1

/-- where no pulse moves the mean in the middle of a cycle, the cycles agree -/
theorem calm_agrees {as : List GpsEvent} (h : Along gpsStep Calm gpsInit as) : CyclesAgree as := by
  intro A Ps hlen hpre hA
  obtain ⟨rest, rfl⟩ := hpre
  rw [List.append_assoc, List.append_assoc, Along_append, Along_append] at h
  have hcycle : Along gpsStep Calm (gpsRun A) (cycleEvents Ps) := h.2.1
  refine ⟨pulses A, pulses_of_flag hA.2, List.prefix_append _ _, fun k hk => ?_⟩
  rw [← List.take_append_drop k Ps, cycleEvents_append, Along_append] at hcycle
  rw [calm_cycle hA (Ps.take k) (by simp; omega) hcycle.1]

/-- the second pulse falls between the second and the third tick and moves the mean -/
theorem drift_torn : ¬ OneDriftPerCycle
    [.pulse 12500000, .send, .send, .pulse 27500000, .send, .send] := by
  intro h
  obtain ⟨ts, hne, hts, he⟩ := h _ List.prefix_rfl [] 0x00 0xbe 0xce 0xf0 rfl
  have hno : ∀ ts ∈ [(12500000 : UInt32), 27500000].inits,
      ts ≠ [] → [0x00, 0xbe, 0xce, 0xf0] ≠ (List.range 4).map (beByte (drift ts)) := by
    decide +kernel
  exact hno ts ((List.mem_inits _ _).2 hts) hne he

/-- the four bytes of every cycle are one drift, iff in every cycle some pulse so far agrees with
all four ticks; which it does when no pulse moves the mean in the middle of a cycle -/
theorem oneDrift_iff (as : List GpsEvent) :
    (OneDriftPerCycle as ↔ CyclesAgree as) ∧
    (Along gpsStep Calm gpsInit as → OneDriftPerCycle as) :=
  ⟨oneDriftPerCycle_iff as, fun h => (oneDriftPerCycle_iff as).2 (calm_agrees h)⟩

end MenuFirmware
