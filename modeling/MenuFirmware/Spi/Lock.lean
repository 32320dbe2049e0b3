import MenuFirmware.Lib.Run
import MenuFirmware.Spi.Machine

/-!
# The lock of the SPI link

A request waits until the lock is free, takes it and starts two transfers; only the completion
interrupt of the second gives it back.  `Phase` says how far the current request is, `Wf` that
the steps it has left are in order.

* `Plain`, `Phase.next`  the steps that leave the lock alone, the phase after a step;
* `start_begun`          every request is well-formed;
* `exec_cases`           what one step of the main loop can do;
* `spiInv_step`          phases and lock go together along every run, whatever the HAL returns;
* `lockOk_iff`           the lock is held only for an accepted transfer iff the HAL accepts the
                         second transfer of every request.
-/

set_option linter.unusedSectionVars false
set_option linter.unusedVariables false

namespace MenuFirmware
open Runs

/-! ## phases -/

inductive Phase where
  | free
  /-- the lock has been seen free -/
  | passed
  | owned
  | started

/-- the steps that neither look at the lock nor start a transfer -/
def Plain : Micro → Prop
  | .wait | .takeLock | .transmit _ | .transmitReceive => False
  | _ => True

def Phase.next : Phase → Micro → Option Phase
  | .free, .wait | .passed, .wait => some .passed
  | .passed, .takeLock => some .owned
  | .owned, .transmit _ => some .started
  | .started, .transmitReceive => some .free
  | _, .wait | _, .takeLock | _, .transmit _ | _, .transmitReceive => none
  | .free, _ => some .free
  | .passed, _ => some .passed
  | _, _ => none

/-- `Write_Data` after a step -/
def stored (w : Frame) : Micro → Frame
  | .storeCmd v => { w with cmd := v }
  | .storeAddr v => { w with addr := v }
  | .storeData v => { w with data := v }
  | _ => w

/-- a frame from a buffer of the caller is the one in `Write_Data` -/
def Fits (w : Frame) : Micro → Prop
  | .transmit (some f) => f = w
  | _ => True

/-- the steps `l` are in order for the phase `p` and the buffer `w` -/
def Wf : Phase → Frame → List Micro → Prop
  | p, _, [] => p = .free
  | p, w, m :: l => ∃ q, p.next m = some q ∧ Fits w m ∧ Wf q (stored w m) l

theorem next_plain {m : Micro} (h : Plain m) : Phase.next .free m = some .free := by
  cases m <;> first | rfl | exact h.elim

/-- what a phase allows -/
theorem next_cases {p q : Phase} {m : Micro} (h : p.next m = some q) :
    (Plain m ∧ q = p ∧ (p = .free ∨ p = .passed)) ∨
    (m = .wait ∧ q = .passed ∧ (p = .free ∨ p = .passed)) ∨
    (m = .takeLock ∧ p = .passed ∧ q = .owned) ∨
    ((∃ src, m = .transmit src) ∧ p = .owned ∧ q = .started) ∨
    (m = .transmitReceive ∧ p = .started ∧ q = .free) := by
  cases p <;> cases m <;> simp_all [Phase.next, Plain]

/-! ## every request is well-formed -/

theorem Wf_append {p : Phase} {w : Frame} {l l' : List Micro} (h : Wf p w l)
    (h' : ∀ w', Wf .free w' l') : Wf p w (l ++ l') := by
  induction l generalizing p w with
  | nil =>
    have hp : p = .free := h
    rw [hp]
    exact h' w
  | cons m l ih =>
    obtain ⟨q, hq, hf, hw⟩ := h
    exact ⟨q, hq, hf, ih hw⟩

theorem Wf_plain {m : Micro} {w : Frame} {l : List Micro} (hm : Plain m)
    (h : ∀ w', Wf .free w' l) : Wf .free w (m :: l) := by
  refine ⟨.free, next_plain hm, ?_, h _⟩
  cases m <;> first | exact trivial | exact hm.elim

theorem Wf_transfer (w : Frame) (src : Option Frame) (h : ∀ f, src = some f → f = w) :
    Wf .passed w (transfer src) := by
  refine ⟨.owned, rfl, trivial, .started, rfl, ?_, .free, rfl, trivial, rfl⟩
  cases src with
  | none => exact trivial
  | some f => exact h f rfl

theorem Wf_testSendToFpga (w : Frame) : Wf .free w testSendToFpga :=
  ⟨.free, rfl, trivial, .passed, rfl, trivial, Wf_transfer w none nofun⟩

theorem Wf_sendToFpga (w f : Frame) : Wf .free w (sendToFpga f) :=
  ⟨.free, rfl, trivial, .free, rfl, trivial, .free, rfl, trivial, .free, rfl, trivial,
    .passed, rfl, trivial, Wf_transfer f (some f) fun _ h => (Option.some.inj h).symm⟩

theorem Wf_getReg (w : Frame) (addr : UInt8) : Wf .free w (getReg addr) :=
  ⟨.passed, rfl, trivial, .passed, rfl, trivial, .passed, rfl, trivial, .passed, rfl, trivial,
    .passed, rfl, trivial, .passed, rfl, trivial,
    Wf_transfer ⟨readFlag, addr, 0x00⟩ (some _) fun _ h => (Option.some.inj h).symm⟩

theorem Wf_retrySpi4 (w : Frame) : Wf .free w retrySpi4 :=
  ⟨.free, rfl, trivial, .passed, rfl, trivial, .passed, rfl, trivial, .passed, rfl, trivial,
    Wf_transfer w none nofun⟩

theorem Wf_fill (w f : Frame) (l : List Micro) (h : ∀ w', Wf .free w' l) :
    Wf .free w (fill f ++ l) := by
  show Wf .free w (.storeCmd f.cmd :: .storeAddr f.addr :: .storeData f.data :: l)
  refine Wf_plain (show Plain (.storeCmd f.cmd) from trivial) fun _ => ?_
  refine Wf_plain (show Plain (.storeAddr f.addr) from trivial) fun _ => ?_
  exact Wf_plain (show Plain (.storeData f.data) from trivial) h

theorem Wf_sendSelectFirst (w : Frame) (addr ch : UInt8) :
    Wf .free w (sendSelectFirst addr ch) :=
  Wf_fill w _ _ Wf_testSendToFpga

theorem Wf_sendWaitFirst (w : Frame) (addr ch : UInt8) : Wf .free w (sendWaitFirst addr ch) :=
  Wf_fill w _ _ fun w' =>
    ⟨.passed, rfl, trivial, .passed, rfl, trivial, Wf_transfer w' none nofun⟩

theorem Wf_regSend (w : Frame) (v : UInt8 × UInt8) : Wf .free w (regSend v) := by
  unfold regSend
  split_ifs
  · exact Wf_sendWaitFirst _ _ _
  · exact Wf_sendSelectFirst _ _ _
  · exact Wf_sendSelectFirst _ _ _
  · exact Wf_sendSelectFirst _ _ _
  · exact Wf_sendSelectFirst _ _ _
  · exact Wf_sendWaitFirst _ _ _
  · exact Wf_sendWaitFirst _ _ _

theorem Wf_regSends (w : Frame) (ws : List (UInt8 × UInt8)) :
    Wf .free w (ws.flatMap regSend) := by
  induction ws generalizing w with
  | nil => rfl
  | cons v ws ih =>
    rw [List.flatMap_cons]
    exact Wf_append (Wf_regSend w v) ih

theorem Wf_replaySteps (w : Frame) (v : ReplayVars) (c : Config) :
    Wf .free w (replaySteps v c) := by
  apply Wf_fill
  intro w'
  have hend : ∀ w', Wf .free w' [Micro.replayEnd] := fun w' => Wf_plain trivial fun _ => rfl
  by_cases ha : v.addr ≤ 0xB8
  · rw [if_pos ha]
    by_cases ht : 500 ≤ v.timeout
    · rw [if_pos ht]
      apply Wf_append _ hend
      by_cases h80 : v.addr ≤ 0x80
      · rw [if_pos h80]
        exact Wf_regSends w' _
      · rw [if_neg h80]
        exact Wf_testSendToFpga w'
    · rw [if_neg ht]
      exact Wf_plain trivial fun _ => rfl
  · rw [if_neg ha]
    rfl

theorem Wf_copyBytes (w : Frame) (i : Nat) (bytes : List UInt8) (l : List Micro)
    (h : ∀ w', Wf .free w' l) : Wf .free w (copyBytes i bytes ++ l) := by
  induction bytes generalizing w i with
  | nil => exact h w
  | cons b bs ih =>
    rw [copyBytes, List.append_assoc]
    match i with
    | 0 => exact Wf_plain trivial fun w' => ih w' _
    | 1 => exact Wf_plain trivial fun w' => ih w' _
    | 2 => exact Wf_plain trivial fun w' => ih w' _
    | i + 3 => exact ih w _

/-! ## what one event can do -/

/-- the parts of the state that the lock argument is about do not change when a request begins -/
structure Begun (s t : Spi) : Prop where
  writeData : t.writeData = s.writeData
  lock : t.lock = s.lock
  busy : t.busy = s.busy
  flying : t.flying = s.flying
  failed : t.failed = s.failed
  retryFlag : t.retryFlag = s.retryFlag
  wf : Wf .free t.writeData t.fg

theorem Begun_fg (s : Spi) (fg : List Micro) (h : Wf .free s.writeData fg) :
    Begun s { s with fg := fg } :=
  ⟨rfl, rfl, rfl, rfl, rfl, rfl, h⟩

theorem pollintSpiTransmit_begun (s : Spi) (bytes : List UInt8) (h : s.fg = []) :
    Begun s (pollintSpiTransmit s bytes) := by
  unfold pollintSpiTransmit
  by_cases hb : bytes.length ≠ 0
  · rw [if_pos hb]
    refine ⟨rfl, rfl, rfl, rfl, rfl, rfl, Wf_copyBytes _ _ _ _ fun w' => ?_⟩
    by_cases ht : (transLoop bytes.length s.transCount).2 = true
    · rw [if_pos ht]
      exact Wf_testSendToFpga w'
    · rw [if_neg ht]
      rfl
  · rw [if_neg hb]
    by_cases hf : s.retryFlag = true
    · rw [if_pos hf]
      refine ⟨rfl, rfl, rfl, rfl, rfl, rfl, ?_⟩
      show Wf .free s.writeData (if s.retryTimes = 0 then retrySpi4 else [])
      by_cases ht : s.retryTimes = 0
      · rw [if_pos ht]
        exact Wf_retrySpi4 _
      · rw [if_neg ht]
        rfl
    · rw [if_neg hf]
      refine ⟨rfl, rfl, rfl, rfl, rfl, rfl, ?_⟩
      rw [h]
      rfl

/-- **Every request** leaves the link as it is when it begins, with its steps in order. -/
theorem start_begun (s : Spi) (q : Request) (h : s.fg = []) : Begun s (s.start q) := by
  cases q with
  | getReg addr _ => exact Begun_fg s _ (Wf_getReg _ _)
  | sendToFpga f => exact Begun_fg s _ (Wf_sendToFpga _ _)
  | testSendToFpga => exact Begun_fg s _ (Wf_testSendToFpga _)
  | retrySpi4 => exact Begun_fg s _ (Wf_retrySpi4 _)
  | sendSrcMode ch => exact Begun_fg s _ (Wf_sendSelectFirst _ _ _)
  | sendClockSyncMode ch => exact Begun_fg s _ (Wf_sendSelectFirst _ _ _)
  | sendSyncTypeMode ch => exact Begun_fg s _ (Wf_sendSelectFirst _ _ _)
  | sendSyncFrameMode ch => exact Begun_fg s _ (Wf_sendSelectFirst _ _ _)
  | sendFpgaRestart ch => exact Begun_fg s _ (Wf_sendWaitFirst _ _ _)
  | sendTestPattern ch => exact Begun_fg s _ (Wf_sendWaitFirst _ _ _)
  | sendGpsSecNum sec => exact Begun_fg s _ (Wf_sendWaitFirst _ _ _)
  | sendGpsSecPulse pulse => exact Begun_fg s _ (Wf_sendWaitFirst _ _ _)
  | sendGpsDirft addr data => exact Begun_fg s _ (Wf_sendWaitFirst _ _ _)
  | sendFormat05 ch => exact Begun_fg s _ (Wf_sendWaitFirst _ _ _)
  | sendFormat11 ch => exact Begun_fg s _ (Wf_sendWaitFirst _ _ _)
  | setFpgaRegConfig sectorAddr => exact Begun_fg s _ (Wf_regSends _ _)
  | powerOnReadRegOnce => exact ⟨rfl, rfl, rfl, rfl, rfl, rfl, Wf_replaySteps _ _ _⟩
  | poll bytes => exact pollintSpiTransmit_begun s bytes h

/-- what one step of the main loop leaves alone, and what it stores -/
structure Stepped (s t : Spi) (m : Micro) (rest : List Micro) : Prop where
  fg : t.fg = rest
  writeData : t.writeData = stored s.writeData m
  failed : t.failed = s.failed
  retryFlag : t.retryFlag = true → s.retryFlag = true

/-- no step counts: only polls do -/
theorem exec_counts (s : Spi) (m : Micro) (rest : List Micro) (r : HalStatus) :
    (exec s m rest r).transCount = s.transCount ∧ (exec s m rest r).retryTimes = s.retryTimes := by
  cases m with
  | wait =>
    unfold exec
    by_cases h : s.lock = true
    · simp only [if_pos h, and_self]
    · simp only [if_neg h, and_self]
  | transmit src =>
    unfold exec
    by_cases hr : r = .ok
    · simp only [if_pos hr, and_self]
    · simp only [if_neg hr, and_self]
  | _ => exact ⟨rfl, rfl⟩

/-- **One step of the main loop**: it spins on the lock, or goes on by one step -/
theorem exec_cases (s : Spi) (m : Micro) (rest : List Micro) (r : HalStatus) :
    (m = .wait ∧ s.lock = true ∧ exec s m rest r = s) ∨
    (m = .wait ∧ s.lock = false ∧ exec s m rest r = { s with fg := rest }) ∨
    (m ≠ .wait ∧ Stepped s (exec s m rest r) m rest) := by
  by_cases hm : m = .wait
  · subst hm
    cases hl : s.lock with
    | true =>
      left
      refine ⟨rfl, rfl, ?_⟩
      show (if s.lock then s else { s with fg := rest }) = s
      rw [hl, if_pos rfl]
    | false =>
      right
      left
      refine ⟨rfl, rfl, ?_⟩
      show (if s.lock then s else { s with fg := rest }) = _
      rw [hl, if_neg Bool.false_ne_true]
  · right
    right
    refine ⟨hm, ?_⟩
    cases m with
    | wait => exact absurd rfl hm
    | transmit src =>
      unfold exec
      by_cases hr : r = .ok
      · simp only [if_pos hr]
        exact ⟨rfl, rfl, rfl, id⟩
      · simp only [if_neg hr]
        exact ⟨rfl, rfl, rfl, id⟩
    | clearRetry => exact ⟨rfl, rfl, rfl, nofun⟩
    | storeCmd v => exact ⟨rfl, rfl, rfl, id⟩
    | storeAddr v => exact ⟨rfl, rfl, rfl, id⟩
    | storeData v => exact ⟨rfl, rfl, rfl, id⟩
    | nss level => exact ⟨rfl, rfl, rfl, id⟩
    | takeLock => exact ⟨rfl, rfl, rfl, id⟩
    | transmitReceive => exact ⟨rfl, rfl, rfl, id⟩
    | setStatus status => exact ⟨rfl, rfl, rfl, id⟩
    | replayEnd => exact ⟨rfl, rfl, rfl, id⟩

theorem exec_plain (s : Spi) {m : Micro} (rest : List Micro) (r : HalStatus) (h : Plain m) :
    (exec s m rest r).lock = s.lock ∧ (exec s m rest r).busy = s.busy ∧
      (exec s m rest r).flying = s.flying := by
  cases m <;> first | exact ⟨rfl, rfl, rfl⟩ | exact h.elim

theorem exec_transmit (s : Spi) (src : Option Frame) (rest : List Micro) (r : HalStatus) :
    (exec s (.transmit src) rest r).lock = s.lock ∧
      (exec s (.transmit src) rest r).busy = s.busy ∧
      (exec s (.transmit src) rest r).flying = if r = .ok then some (src.getD s.writeData) else none := by
  unfold exec
  by_cases hr : r = .ok
  · simp only [if_pos hr, and_self]
  · simp only [if_neg hr, and_self]

theorem storeReg_frame (s : Spi) (addr data : UInt8) :
    ∃ regs dev, Ticked s.dev dev [] ∧ s.storeReg addr data = { s with regs := regs, dev := dev } := by
  unfold Spi.storeReg
  by_cases h : addr ∈ getterAddrs
  · rw [if_pos h]
    exact ⟨_, s.dev, Ticked_refl _, rfl⟩
  · rw [if_neg h]
    cases fwIndex addr with
    | none => exact ⟨s.regs, s.dev, Ticked_refl _, rfl⟩
    | some i =>
      exact ⟨s.regs, { s.dev with fwRegNum := Function.update s.dev.fwRegNum i data },
        ⟨rfl, rfl, rfl, rfl⟩, rfl⟩

theorem accept_frame (s : Spi) (rx : Frame) :
    ∃ regs dev out, Ticked s.dev dev [] ∧ s.accept rx =
      { s with regs := regs, dev := dev, ethOut := out, retryFlag := false, failed := none } := by
  unfold Spi.accept
  by_cases hff : rx.addr = 0xff
  · simp only [if_pos hff]
    have ht := Ticked_setStatus s.dev 0
    by_cases hc : rx.cmd = readFlag
    · simp only [if_pos hc]
      obtain ⟨regs, dev, hd, h⟩ :=
        storeReg_frame { s with dev := setStatus s.dev 0 } rx.addr rx.data
      rw [h]
      exact ⟨regs, dev, _, ht.trans hd, rfl⟩
    · simp only [if_neg hc]
      exact ⟨s.regs, _, _, ht, rfl⟩
  · simp only [if_neg hff]
    by_cases hc : rx.cmd = readFlag
    · simp only [if_pos hc]
      obtain ⟨regs, dev, hd, h⟩ := storeReg_frame s rx.addr rx.data
      rw [h]
      exact ⟨regs, dev, _, hd, rfl⟩
    · simp only [if_neg hc]
      exact ⟨s.regs, s.dev, _, Ticked_refl _, rfl⟩

/-- **A completion** releases the lock; the answer is taken or the retry flag set. -/
theorem txRxCplt_cases (s : Spi) (rx : Frame) :
    (s.writeData.addr = rx.addr ∧ ∃ regs dev out, Ticked s.dev dev [] ∧ txRxCplt s rx =
      { s with
        nss := true, readData := rx, regs := regs, dev := dev, ethOut := out
        retryFlag := false, failed := none, lock := false, busy := false }) ∨
    (s.writeData.addr ≠ rx.addr ∧ txRxCplt s rx =
      { s with
        nss := true, readData := rx
        retryFlag := true, failed := s.flying, lock := false, busy := false }) := by
  unfold txRxCplt
  by_cases h : s.writeData.addr = rx.addr
  · left
    refine ⟨h, ?_⟩
    obtain ⟨regs, dev, out, hd, e⟩ := accept_frame { s with nss := true, readData := rx } rx
    refine ⟨regs, dev, out, hd, ?_⟩
    simp only [if_pos h]
    rw [e]
  · right
    refine ⟨h, ?_⟩
    simp only [if_neg h]
    rfl

theorem exec_wait_free (s : Spi) (rest : List Micro) (r : HalStatus) (h : s.lock = false) :
    exec s .wait rest r = { s with fg := rest } := by
  show (if s.lock then s else { s with fg := rest }) = _
  rw [h, if_neg Bool.false_ne_true]

/-- what an event without effect on the transfers leaves as it is -/
structure Idle (s t : Spi) : Prop where
  fg : t.fg = s.fg
  writeData : t.writeData = s.writeData
  lock : t.lock = s.lock
  busy : t.busy = s.busy
  flying : t.flying = s.flying
  failed : t.failed = s.failed
  retryFlag : t.retryFlag = s.retryFlag

/-- **One event**: nothing, the beginning of a request, one of its steps, or a completion -/
theorem spiStep_cases (s : Spi) (e : SpiEvent) :
    Idle s (spiStep s e) ∨
    (s.fg = [] ∧ Begun s (spiStep s e)) ∨
    (∃ r m rest, e = .step r ∧ s.fg = m :: rest ∧ (m = .wait → s.lock = false) ∧
      spiStep s e = exec s m rest r ∧ Stepped s (exec s m rest r) m rest) ∨
    (∃ rx, e = .irq rx ∧ s.busy = true ∧ spiStep s e = txRxCplt s rx) := by
  have hidle : Idle s s := ⟨rfl, rfl, rfl, rfl, rfl, rfl, rfl⟩
  cases e with
  | call q =>
    cases hfg : s.fg with
    | nil =>
      rw [spiStep_call_nil q hfg]
      exact Or.inr (Or.inl ⟨rfl, start_begun s q hfg⟩)
    | cons m rest =>
      rw [spiStep_call_cons q hfg]
      exact Or.inl hidle
  | step r =>
    cases hfg : s.fg with
    | nil =>
      rw [spiStep_step_nil r hfg]
      exact Or.inl hidle
    | cons m rest =>
      have he := spiStep_step_cons r hfg
      rcases exec_cases s m rest r with ⟨_, _, hs⟩ | ⟨hm, hl, hs⟩ | ⟨hm, hst⟩
      · left
        rw [he, hs]
        exact hidle
      · refine Or.inr (Or.inr (Or.inl ⟨r, m, rest, rfl, rfl, fun _ => hl, he, ?_⟩))
        rw [hs, hm]
        exact ⟨rfl, rfl, rfl, id⟩
      · exact Or.inr (Or.inr (Or.inl ⟨r, m, rest, rfl, rfl, fun h => absurd h hm, he, hst⟩))
  | irq rx =>
    by_cases hb : s.busy = true
    · exact Or.inr (Or.inr (Or.inr ⟨rx, rfl, hb, spiStep_irq rx hb⟩))
    · rw [spiStep_irq_idle rx hb]
      exact Or.inl hidle
  | link up => exact Or.inl ⟨rfl, rfl, rfl, rfl, rfl, rfl, rfl⟩

/-! ## phases and lock -/

/-- what a phase says about the lock and the outstanding transfer -/
def PhaseOk (s : Spi) : Phase → Prop
  | .free => s.busy = true → s.lock = true
  | .passed => s.lock = false ∧ s.busy = false
  | .owned | .started => s.lock = true ∧ s.busy = false

/-- the request is in the phase `p` -/
def InPhase (s : Spi) (p : Phase) : Prop := Wf p s.writeData s.fg ∧ PhaseOk s p

def SpiInv (s : Spi) : Prop := ∃ p, InPhase s p

theorem inPhase_init (d : Dev) (link : Bool) : InPhase (spiInit d link) .free := ⟨rfl, nofun⟩

/-- an interrupt comes only in the free phase -/
theorem PhaseOk.of_busy {s : Spi} {p : Phase} (h : PhaseOk s p) (hb : s.busy = true) :
    p = .free := by
  cases p with
  | free => rfl
  | passed => exact absurd (h.2.symm.trans hb) Bool.false_ne_true
  | owned => exact absurd (h.2.symm.trans hb) Bool.false_ne_true
  | started => exact absurd (h.2.symm.trans hb) Bool.false_ne_true

theorem PhaseOk.congr {s t : Spi} {p : Phase} (h : PhaseOk s p) (hl : t.lock = s.lock)
    (hb : t.busy = s.busy) : PhaseOk t p := by
  cases p <;> simpa only [PhaseOk, hl, hb] using h

theorem InPhase.idle {s t : Spi} {p : Phase} (h : InPhase s p) (hi : Idle s t) : InPhase t p := by
  refine ⟨?_, h.2.congr hi.lock hi.busy⟩
  rw [hi.fg, hi.writeData]
  exact h.1

theorem InPhase.of_nil {s : Spi} {p : Phase} (h : InPhase s p) (hfg : s.fg = []) : p = .free := by
  have hw := h.1
  rw [hfg] at hw
  exact hw

theorem InPhase.begun {s t : Spi} {p : Phase} (h : InPhase s p) (hfg : s.fg = [])
    (hb : Begun s t) : InPhase t .free := by
  have hp := h.2
  rw [h.of_nil hfg] at hp
  exact ⟨hb.wf, hp.congr hb.lock hb.busy⟩

/-- phases and lock after one step of the main loop -/
theorem InPhase.exec {s : Spi} {p : Phase} {m : Micro} {rest : List Micro} (h : InPhase s p)
    (hfg : s.fg = m :: rest) (hw : m = .wait → s.lock = false) (r : HalStatus)
    (hst : Stepped s (exec s m rest r) m rest) :
    ∃ q, p.next m = some q ∧ Fits s.writeData m ∧ InPhase (exec s m rest r) q := by
  obtain ⟨hwf, hp⟩ := h
  rw [hfg] at hwf
  obtain ⟨q, hn, hf, hrest⟩ := hwf
  refine ⟨q, hn, hf, ?_, ?_⟩
  · rw [hst.fg, hst.writeData]
    exact hrest
  rcases next_cases hn with ⟨hm, rfl, -⟩ | ⟨rfl, rfl, hfree⟩ | ⟨rfl, rfl, rfl⟩ | ⟨⟨src, rfl⟩, rfl, rfl⟩ |
    ⟨rfl, rfl, rfl⟩
  · obtain ⟨hl, hb, -⟩ := exec_plain s rest r hm
    exact hp.congr hl hb
  · have hl := hw rfl
    have hb : s.busy = false := by
      rcases hfree with rfl | rfl
      · by_contra hb
        exact absurd (hl.symm.trans (hp (eq_true_of_ne_false hb))) Bool.false_ne_true
      · exact hp.2
    rw [exec_wait_free s rest r hl]
    exact ⟨hl, hb⟩
  · exact ⟨rfl, hp.2⟩
  · obtain ⟨hl, hb, -⟩ := exec_transmit s src rest r
    exact ⟨hl.trans hp.1, hb.trans hp.2⟩
  · exact fun _ => hp.1

theorem InPhase.irq {s : Spi} {p : Phase} (h : InPhase s p) (hb : s.busy = true) (rx : Frame) :
    InPhase (txRxCplt s rx) .free := by
  have hwf := h.1
  rw [h.2.of_busy hb] at hwf
  rcases txRxCplt_cases s rx with ⟨_, regs, dev, out, -, he⟩ | ⟨_, he⟩
  · rw [he]
    exact ⟨hwf, nofun⟩
  · rw [he]
    exact ⟨hwf, nofun⟩

/-- **One event** keeps phases and lock together, whatever the HAL returns. -/
theorem spiInv_step (s : Spi) (e : SpiEvent) (h : SpiInv s) : SpiInv (spiStep s e) := by
  obtain ⟨p, hp⟩ := h
  rcases spiStep_cases s e with hi | ⟨hfg, hb⟩ | ⟨r, m, rest, rfl, hfg, hw, he, hst⟩ | ⟨rx, rfl, hb, he⟩
  · exact ⟨p, hp.idle hi⟩
  · exact ⟨.free, hp.begun hfg hb⟩
  · obtain ⟨q, _, _, hq⟩ := hp.exec hfg hw r hst
    rw [he]
    exact ⟨q, hq⟩
  · rw [he]
    exact ⟨.free, hp.irq hb rx⟩

/-! ## the lock along a run -/

/-- the current request is about to start a transfer -/
def Starting (s : Spi) : Prop :=
  (∃ src rest, s.fg = .transmit src :: rest) ∨ ∃ rest, s.fg = .transmitReceive :: rest

/-- the lock is held only while a transfer accepted by the HAL is outstanding, or by a request that
is just starting its transfers -/
def Held (s : Spi) : Prop := s.lock = true → s.busy = true ∨ Starting s

structure LockOk (s : Spi) : Prop where
  held : Held s
  /-- a request that spins on the lock will be released by a completion -/
  wait : ∀ rest, s.fg = .wait :: rest → s.lock = true → s.busy = true

theorem LockOk_iff_held (s : Spi) : LockOk s ↔ Held s := by
  refine ⟨LockOk.held, fun h => ⟨h, fun rest hfg hl => ?_⟩⟩
  rcases h hl with hb | ⟨_, _, hs⟩ | ⟨_, hs⟩
  · exact hb
  · rw [hfg] at hs
    exact absurd hs nofun
  · rw [hfg] at hs
    exact absurd hs nofun

/-- the HAL accepts the second transfer of the request -/
def Accepted (s : Spi) : SpiEvent → Prop
  | .step r => (∃ rest, s.fg = .transmitReceive :: rest) → r = .ok
  | _ => True

/-- in the free phase the lock is held only for an outstanding transfer -/
def FreeLock (s : Spi) (p : Phase) : Prop := p = .free → s.lock = true → s.busy = true

theorem InPhase.not_starting {s : Spi} (h : InPhase s .free) : ¬ Starting s := by
  rintro (⟨src, rest, hfg⟩ | ⟨rest, hfg⟩)
  · have hw := h.1
    rw [hfg] at hw
    obtain ⟨q, hn, -⟩ := hw
    exact absurd hn nofun
  · have hw := h.1
    rw [hfg] at hw
    obtain ⟨q, hn, -⟩ := hw
    exact absurd hn nofun

theorem InPhase.starting {s : Spi} {p : Phase} (h : InPhase s p) (hp : p = .owned ∨ p = .started) :
    Starting s := by
  obtain ⟨hw, -⟩ := h
  cases hfg : s.fg with
  | nil =>
    rw [hfg] at hw
    have hf : p = .free := hw
    rcases hp with rfl | rfl
    · exact absurd hf nofun
    · exact absurd hf nofun
  | cons m rest =>
    rw [hfg] at hw
    obtain ⟨q, hn, -⟩ := hw
    rcases next_cases hn with ⟨-, -, hf⟩ | ⟨-, -, hf⟩ | ⟨-, hf, -⟩ | ⟨⟨src, rfl⟩, -⟩ | ⟨rfl, -⟩
    · rcases hp with rfl | rfl <;> exact absurd hf (by simp)
    · rcases hp with rfl | rfl <;> exact absurd hf (by simp)
    · rcases hp with rfl | rfl <;> exact absurd hf (by simp)
    · exact Or.inl ⟨src, rest, hfg⟩
    · exact Or.inr ⟨rest, hfg⟩

theorem InPhase.lockOk_phase {s : Spi} {p : Phase} (h : InPhase s p) : LockOk s ↔ FreeLock s p := by
  rw [LockOk_iff_held]
  cases p with
  | free =>
    have hn := h.not_starting
    constructor
    · exact fun hl _ hlock => (hl hlock).resolve_right hn
    · exact fun hf hlock => Or.inl (hf rfl hlock)
  | passed => exact iff_of_true (fun hl => absurd (h.2.1.symm.trans hl) Bool.false_ne_true) nofun
  | owned => exact iff_of_true (fun _ => Or.inr (h.starting (Or.inl rfl))) nofun
  | started => exact iff_of_true (fun _ => Or.inr (h.starting (Or.inr rfl))) nofun

theorem lockOk_step_good {s : Spi} {e : SpiEvent} (h : SpiInv s) (hl : LockOk s)
    (hg : Accepted s e) : LockOk (spiStep s e) := by
  obtain ⟨p, hp⟩ := h
  have hf := hp.lockOk_phase.1 hl
  rcases spiStep_cases s e with hi | ⟨hfg, hb⟩ | ⟨r, m, rest, rfl, hfg, hw, he, hst⟩ | ⟨rx, rfl, hb, he⟩
  · refine (hp.idle hi).lockOk_phase.2 fun hfree hlock => ?_
    exact hi.busy.trans (hf hfree (hi.lock.symm.trans hlock))
  · refine (hp.begun hfg hb).lockOk_phase.2 fun _ hlock => ?_
    exact hb.busy.trans (hf (hp.of_nil hfg) (hb.lock.symm.trans hlock))
  · obtain ⟨q, hn, _, hq⟩ := hp.exec hfg hw r hst
    rw [he]
    refine hq.lockOk_phase.2 fun hfree hlock => ?_
    subst hfree
    rcases next_cases hn with ⟨hm, rfl, -⟩ | ⟨-, hq', -⟩ | ⟨-, -, hq'⟩ | ⟨-, -, hq'⟩ | ⟨rfl, -, -⟩
    · obtain ⟨hlk, hbz, -⟩ := exec_plain s rest r hm
      exact hbz.trans (hf rfl (hlk.symm.trans hlock))
    · exact absurd hq' nofun
    · exact absurd hq' nofun
    · exact absurd hq' nofun
    · have hr : r = .ok := hg ⟨rest, hfg⟩
      show (s.busy || decide (r = .ok)) = true
      rw [hr]
      exact Bool.or_true _
  · rw [he]
    refine (hp.irq hb rx).lockOk_phase.2 fun _ hlock => ?_
    rcases txRxCplt_cases s rx with ⟨_, regs, dev, out, -, e⟩ | ⟨_, e⟩
    · rw [e] at hlock
      exact absurd hlock Bool.false_ne_true
    · rw [e] at hlock
      exact absurd hlock Bool.false_ne_true

/-- a refused second transfer leaves the lock to nobody -/
theorem lockOk_step_bad {s : Spi} {e : SpiEvent} (h : SpiInv s) (hg : ¬ Accepted s e) :
    ¬ LockOk (spiStep s e) := by
  obtain ⟨p, hp⟩ := h
  cases e with
  | step r =>
    have hex : ∃ rest, s.fg = .transmitReceive :: rest := by
      by_contra hn
      exact hg fun h => absurd h hn
    obtain ⟨rest, hfg⟩ := hex
    have hr : r ≠ .ok := fun hr => hg fun _ => hr
    have he := spiStep_step_cons r hfg
    obtain ⟨q, hn, _, hq⟩ := hp.exec hfg nofun r ⟨rfl, rfl, rfl, id⟩
    rcases next_cases hn with ⟨hm, -, -⟩ | ⟨hm, -, -⟩ | ⟨hm, -, -⟩ | ⟨⟨src, hm⟩, -, -⟩ | ⟨-, rfl, rfl⟩
    · exact hm.elim
    · exact absurd hm nofun
    · exact absurd hm nofun
    · exact absurd hm nofun
    · rw [he, hq.lockOk_phase]
      intro hf
      have hb : (s.busy || decide (r = .ok)) = true := hf rfl hp.2.1
      rw [hp.2.2, decide_eq_false hr] at hb
      exact Bool.false_ne_true hb
  | call q => exact absurd trivial hg
  | irq rx => exact absurd trivial hg
  | link up => exact absurd trivial hg

/-- **The lock.**  In every state of a run it is held only for an outstanding transfer iff the HAL
accepts the second transfer of every request. -/
theorem lockOk_iff (d : Dev) (link : Bool) (es : List SpiEvent) :
    Always spiStep LockOk (spiInit d link) es ↔ Along spiStep Accepted (spiInit d link) es :=
  Always_iff_Along (I := fun s => SpiInv s ∧ LockOk s) (fun _ h => h.2)
    (fun s e h hg => ⟨spiInv_step s e h.1, lockOk_step_good h.1 h.2 hg⟩)
    (fun s e h hg => lockOk_step_bad h.1 hg) ⟨⟨.free, inPhase_init d link⟩, (LockOk_iff_held _).2 nofun⟩

/-- `Get_Jit_Reg_1`, the HAL being busy for its second transfer: the lock stays taken -/
def refusedRead : List SpiEvent :=
  .call (.getReg 0x80 jitReg1_mem) :: (List.replicate 8 (.step .ok) ++ [.step .busy])

theorem refused_keeps_lock :
    (run spiStep (spiInit blankDev true) refusedRead).lock = true ∧
    (run spiStep (spiInit blankDev true) refusedRead).busy = false ∧
    (run spiStep (spiInit blankDev true) refusedRead).fg = [] ∧
    ¬ Always spiStep LockOk (spiInit blankDev true) refusedRead := by
  have hl : (run spiStep (spiInit blankDev true) refusedRead).lock = true := rfl
  have hb : (run spiStep (spiInit blankDev true) refusedRead).busy = false := rfl
  have hfg : (run spiStep (spiInit blankDev true) refusedRead).fg = [] := rfl
  refine ⟨hl, hb, hfg, fun h => ?_⟩
  rcases h.last.held hl with hb' | ⟨_, _, hs⟩ | ⟨_, hs⟩
  · exact absurd (hb.symm.trans hb') Bool.false_ne_true
  · exact absurd (hfg.symm.trans hs) (List.cons_ne_nil _ _).symm
  · exact absurd (hfg.symm.trans hs) (List.cons_ne_nil _ _).symm

end MenuFirmware
