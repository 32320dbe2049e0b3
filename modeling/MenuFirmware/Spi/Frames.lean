import MenuFirmware.Spi.Lock

/-!
# Answers and the frames they belong to

The completion interrupt compares the answer with the address in `Write_Data`, which is also the
buffer that the next request is written to.  The FPGA echoes the address of the frame it received.

* `AnsweredRight`    an answer is taken, and stored under the register it belongs to;
* `AnswersOk`        it would be, whenever the completion came, and a retry sends what failed;
* `Echoes`           the FPGA answers the frame it received;
* `KeepsAddr`        `Write_Data[1]` is not overwritten while a transfer is outstanding;
* `answersOk_iff`    a run answers right in all its states iff each of its steps meets `KeepsAddr`.
-/

set_option linter.unusedSectionVars false
set_option linter.unusedVariables false

namespace MenuFirmware
open Runs

/-! ## what is to hold -/

/-- a register whose value the firmware keeps -/
def IsKept (addr : UInt8) : Prop := addr ∈ getterAddrs ∨ ∃ i, fwIndex addr = some i

/-- the answer `rx` to the frame `f` is taken and stored in its place -/
structure AnsweredRight (s : Spi) (f rx : Frame) : Prop where
  taken : (txRxCplt s rx).retryFlag = false
  stored : rx.cmd = readFlag → IsKept f.addr → (txRxCplt s rx).value f.addr = rx.data
  others : ∀ a, a ≠ f.addr → (txRxCplt s rx).value a = s.value a
  forwarded : s.ethLink = true → (txRxCplt s rx).ethOut = rx :: s.ethOut

structure AnswersOk (s : Spi) : Prop where
  /-- an answer to the frame in flight, should it come now -/
  answers : s.busy = true → ∀ f, s.flying = some f → ∀ rx, rx.addr = f.addr → AnsweredRight s f rx
  /-- a retry, should it come now -/
  retries : s.retryFlag = true → ∀ f, s.failed = some f → s.writeData = f

/-- the FPGA echoes the address of the frame it received -/
def Echoes (s : Spi) : SpiEvent → Prop
  | .irq rx => s.busy = true → ∀ f, s.flying = some f → rx.addr = f.addr
  | _ => True

/-- a step does not put another address into `Write_Data` while a transfer is outstanding -/
def KeepsAddr (s : Spi) : SpiEvent → Prop
  | .step _ => s.busy = true → ∀ f, s.flying = some f → ∀ v rest, s.fg = .storeAddr v :: rest →
      v = f.addr
  | _ => True

/-! ## storing an answer -/

theorem getterAddrs_not_fw : ∀ a ∈ getterAddrs, fwIndex a = none := by decide +kernel

theorem fwIndex_inj {a b : UInt8} {i : Fin 5} (ha : fwIndex a = some i) (hb : fwIndex b = some i) :
    a = b := by
  have h1 := List.find?_some ha
  have h2 := List.find?_some hb
  exact (beq_iff_eq.1 h1).symm.trans (beq_iff_eq.1 h2)

theorem value_of_fw {s : Spi} {a : UInt8} {i : Fin 5} (h : fwIndex a = some i) :
    s.value a = s.dev.fwRegNum i := by
  unfold Spi.value
  rw [h]

theorem value_of_not_fw {s : Spi} {a : UInt8} (h : fwIndex a = none) : s.value a = s.regs a := by
  unfold Spi.value
  rw [h]

theorem storeReg_value (s : Spi) (addr data : UInt8) (h : IsKept addr) :
    (s.storeReg addr data).value addr = data := by
  unfold Spi.storeReg
  by_cases hg : addr ∈ getterAddrs
  · rw [if_pos hg, value_of_not_fw (getterAddrs_not_fw addr hg)]
    exact Function.update_self ..
  · obtain ⟨i, hi⟩ := h.resolve_left hg
    rw [if_neg hg, hi, value_of_fw hi]
    exact Function.update_self ..

theorem storeReg_value_of_ne (s : Spi) (addr data : UInt8) {a : UInt8} (h : a ≠ addr) :
    (s.storeReg addr data).value a = s.value a := by
  unfold Spi.storeReg
  by_cases hg : addr ∈ getterAddrs
  · rw [if_pos hg]
    cases ha : fwIndex a with
    | some i => rw [value_of_fw ha, value_of_fw ha]
    | none =>
      rw [value_of_not_fw ha, value_of_not_fw ha]
      exact Function.update_of_ne h ..
  · rw [if_neg hg]
    cases hi : fwIndex addr with
    | none => rfl
    | some i =>
      cases ha : fwIndex a with
      | none => rw [value_of_not_fw ha, value_of_not_fw ha]
      | some j =>
        rw [value_of_fw ha, value_of_fw ha]
        have hij : j ≠ i := fun e => h (fwIndex_inj (e ▸ ha) hi)
        exact Function.update_of_ne hij ..

theorem setStatus_fwRegNum (d : Dev) (status : UInt8) :
    (setStatus d status).fwRegNum = d.fwRegNum := by
  unfold setStatus
  by_cases h0 : status = 0
  · rw [if_pos h0]
  · by_cases h1 : status = 1
    · rw [if_neg h0, if_pos h1]
    · by_cases h2 : status = 2
      · rw [if_neg h0, if_neg h1, if_pos h2]
      · rw [if_neg h0, if_neg h1, if_neg h2]

theorem value_congr {s t : Spi} (hr : t.regs = s.regs) (hf : t.dev.fwRegNum = s.dev.fwRegNum)
    (a : UInt8) : t.value a = s.value a := by
  unfold Spi.value
  rw [hr, hf]

/-- an accepted answer is stored as if the status byte did not matter -/
theorem txRxCplt_value (s : Spi) (rx : Frame) (h : s.writeData.addr = rx.addr) :
    ∃ t : Spi, (∀ a, t.value a = s.value a) ∧
      ∀ a, (txRxCplt s rx).value a =
        (if rx.cmd = readFlag then t.storeReg rx.addr rx.data else t).value a := by
  unfold txRxCplt
  simp only [if_pos h]
  by_cases hff : rx.addr = 0xff
  · refine ⟨{ s with nss := true, readData := rx, dev := setStatus s.dev 0 }, fun a => ?_,
      fun a => ?_⟩
    · exact value_congr rfl (setStatus_fwRegNum s.dev 0) a
    · unfold Spi.accept
      simp only [if_pos hff]
      rfl
  · refine ⟨{ s with nss := true, readData := rx }, fun a => value_congr rfl rfl a, fun a => ?_⟩
    unfold Spi.accept
    simp only [if_neg hff]
    rfl

theorem txRxCplt_forward (s : Spi) (rx : Frame) (h : s.writeData.addr = rx.addr)
    (hl : s.ethLink = true) : (txRxCplt s rx).ethOut = rx :: s.ethOut := by
  unfold txRxCplt Spi.accept
  simp only [if_pos h]
  by_cases hc : rx.cmd = readFlag
  · simp only [if_pos hc]
    by_cases hff : rx.addr = 0xff
    · obtain ⟨regs, dev, -, e⟩ := storeReg_frame
        { s with nss := true, readData := rx, dev := setStatus s.dev 0 } rx.addr rx.data
      simp only [if_pos hff]
      rw [e]
      exact if_pos hl
    · obtain ⟨regs, dev, -, e⟩ := storeReg_frame
        { s with nss := true, readData := rx } rx.addr rx.data
      simp only [if_neg hff]
      rw [e]
      exact if_pos hl
  · simp only [if_neg hc]
    by_cases hff : rx.addr = 0xff
    · simp only [if_pos hff]
      exact if_pos hl
    · simp only [if_neg hff]
      exact if_pos hl

/-- an answer to the frame whose address is in `Write_Data` is taken and stored in its place -/
theorem answeredRight_of_addr {s : Spi} {f rx : Frame} (hw : s.writeData.addr = f.addr)
    (hrx : rx.addr = f.addr) : AnsweredRight s f rx := by
  have h : s.writeData.addr = rx.addr := hw.trans hrx.symm
  obtain ⟨t, ht, hv⟩ := txRxCplt_value s rx h
  refine ⟨?_, ?_, ?_, txRxCplt_forward s rx h⟩
  · rcases txRxCplt_cases s rx with ⟨_, regs, dev, out, -, e⟩ | ⟨hne, _⟩
    · rw [e]
    · exact absurd h hne
  · intro hc hk
    rw [hv, if_pos hc, ← hrx]
    exact storeReg_value t rx.addr rx.data (hrx.symm ▸ hk)
  · intro a ha
    rw [hv]
    by_cases hc : rx.cmd = readFlag
    · rw [if_pos hc, storeReg_value_of_ne t _ _ (hrx.symm ▸ ha), ht]
    · rw [if_neg hc, ht]

/-- with another address in `Write_Data` the answer is discarded -/
theorem addr_of_answersOk {s : Spi} (h : AnswersOk s) (hb : s.busy = true) {f : Frame}
    (hf : s.flying = some f) : s.writeData.addr = f.addr := by
  have ha := (h.answers hb f hf ⟨readFlag, f.addr, 0⟩ rfl).taken
  rcases txRxCplt_cases s ⟨readFlag, f.addr, 0⟩ with ⟨e, _⟩ | ⟨_, e⟩
  · exact e
  · rw [e] at ha
    exact absurd ha nofun

/-! ## the address along a run -/

/-- `Write_Data` has the address of the frame in flight; nothing has failed -/
structure AddrInv (s : Spi) (p : Phase) : Prop where
  flying : s.busy = true → ∀ f, s.flying = some f → s.writeData.addr = f.addr
  started : p = .started → ∀ f, s.flying = some f → s.writeData.addr = f.addr
  failed : s.failed = none

theorem stored_addr (w : Frame) {m : Micro} (h : ∀ v, m ≠ .storeAddr v) :
    (stored w m).addr = w.addr := by
  cases m <;> first | rfl | exact absurd rfl (h _)

theorem addrInv_exec {s : Spi} {p q : Phase} {m : Micro} {rest : List Micro} (h : AddrInv s p)
    (hp : InPhase s p) (hfg : s.fg = m :: rest) (hw : m = .wait → s.lock = false) (r : HalStatus)
    (hst : Stepped s (exec s m rest r) m rest) (hn : p.next m = some q) (hfit : Fits s.writeData m)
    (hq : InPhase (exec s m rest r) q) (hg : KeepsAddr s (.step r)) :
    AddrInv (exec s m rest r) q := by
  have hfail : (exec s m rest r).failed = none := hst.failed.trans h.failed
  rcases next_cases hn with ⟨hm, rfl, hfree⟩ | ⟨rfl, rfl, -⟩ | ⟨rfl, rfl, rfl⟩ | ⟨⟨src, rfl⟩, rfl, rfl⟩ |
    ⟨rfl, rfl, rfl⟩
  · obtain ⟨_, hb, hfl⟩ := exec_plain s rest r hm
    refine ⟨fun hbusy f hf => ?_, fun hs => ?_, hfail⟩
    · rw [hb] at hbusy
      rw [hfl] at hf
      rw [hst.writeData]
      by_cases hv : ∃ v, m = .storeAddr v
      · obtain ⟨v, rfl⟩ := hv
        exact hg hbusy f hf v rest hfg
      · rw [stored_addr _ fun v e => hv ⟨v, e⟩]
        exact h.flying hbusy f hf
    · rcases hfree with e | e <;> exact absurd (hs.symm.trans e) nofun
  · rw [exec_wait_free s rest r (hw rfl)] at hfail ⊢
    exact ⟨h.flying, nofun, hfail⟩
  · refine ⟨fun hbusy => ?_, nofun, hfail⟩
    exact absurd (hq.2.2.symm.trans hbusy) Bool.false_ne_true
  · refine ⟨fun hbusy => ?_, fun _ f hf => ?_, hfail⟩
    · exact absurd (hq.2.2.symm.trans hbusy) Bool.false_ne_true
    · rw [(exec_transmit s src rest r).2.2] at hf
      rw [hst.writeData]
      show s.writeData.addr = f.addr
      by_cases hr : r = .ok
      · rw [if_pos hr] at hf
        have hsrc : src.getD s.writeData = s.writeData := by
          cases src with
          | none => rfl
          | some g => exact hfit
        rw [← Option.some.inj hf, hsrc]
      · rw [if_neg hr] at hf
        exact absurd hf nofun
  · refine ⟨fun _ f hf => ?_, nofun, hfail⟩
    exact h.started rfl f hf

theorem addrInv_step {s : Spi} {e : SpiEvent} (h : ∃ p, InPhase s p ∧ AddrInv s p)
    (hecho : Echoes s e) (hg : KeepsAddr s e) :
    ∃ p, InPhase (spiStep s e) p ∧ AddrInv (spiStep s e) p := by
  obtain ⟨p, hp, h⟩ := h
  rcases spiStep_cases s e with hi | ⟨hfg, hb⟩ | ⟨r, m, rest, rfl, hfg, hw, he, hst⟩ | ⟨rx, rfl, hb, he⟩
  · refine ⟨p, hp.idle hi, ?_, ?_, hi.failed.trans h.failed⟩
    · rw [hi.busy, hi.flying, hi.writeData]
      exact h.flying
    · rw [hi.flying, hi.writeData]
      exact h.started
  · refine ⟨.free, hp.begun hfg hb, ?_, nofun, hb.failed.trans h.failed⟩
    rw [hb.busy, hb.flying, hb.writeData]
    exact h.flying
  · obtain ⟨q, hn, hfit, hq⟩ := hp.exec hfg hw r hst
    rw [he]
    exact ⟨q, hq, addrInv_exec h hp hfg hw r hst hn hfit hq hg⟩
  · rw [he]
    refine ⟨.free, hp.irq hb rx, ?_⟩
    rcases txRxCplt_cases s rx with ⟨_, regs, dev, out, -, e⟩ | ⟨hne, e⟩
    · rw [e]
      exact ⟨nofun, nofun, rfl⟩
    · rw [e]
      refine ⟨nofun, nofun, ?_⟩
      show s.flying = none
      -- an echoed address is the one in `Write_Data`, so nothing was in flight
      cases hf : s.flying with
      | none => rfl
      | some f => exact absurd ((h.flying hb f hf).trans (hecho hb f hf).symm) hne

theorem answersOk_of_addrInv {s : Spi} {p : Phase} (h : AddrInv s p) : AnswersOk s := by
  refine ⟨fun hb f hf rx hrx => answeredRight_of_addr (h.flying hb f hf) hrx, fun _ f hf => ?_⟩
  rw [h.failed] at hf
  exact absurd hf nofun

theorem answersOk_step_bad {s : Spi} {e : SpiEvent} (hg : ¬ KeepsAddr s e) :
    ¬ AnswersOk (spiStep s e) := by
  cases e with
  | step r =>
    intro h
    apply hg
    intro hb f hf v rest hfg
    rw [spiStep_step_cons r hfg] at h
    exact addr_of_answersOk h hb hf
  | call q => exact absurd trivial hg
  | irq rx => exact absurd trivial hg
  | link up => exact absurd trivial hg

/-- **The answers.**  Where the FPGA echoes the frames it received, every answer of a run would be
taken and stored in its place, whenever it comes, iff `Write_Data[1]` is never overwritten with
another address while a transfer is outstanding. -/
theorem answersOk_iff (d : Dev) (link : Bool) (es : List SpiEvent)
    (h : Along spiStep Echoes (spiInit d link) es) :
    Always spiStep AnswersOk (spiInit d link) es ↔ Along spiStep KeepsAddr (spiInit d link) es :=
  Always_iff_Along_of (I := fun s => ∃ p, InPhase s p ∧ AddrInv s p)
    (fun _ ⟨_, _, h⟩ => answersOk_of_addrInv h) (fun s e hi ha hg => addrInv_step hi ha hg)
    (fun s e _ _ hg => answersOk_step_bad hg)
    ⟨.free, inPhase_init d link, nofun, nofun, rfl⟩ h

/-- `Get_Jit_Reg_1` from start to end, answered by the FPGA -/
def readRun : List SpiEvent :=
  .call (.getReg 0x80 jitReg1_mem) :: (List.replicate 9 (.step .ok) ++ [.irq ⟨0x00, 0x80, 0x07⟩])

theorem readRun_echoes : Along spiStep Echoes (spiInit blankDev true) readRun := by
  have hflying : (run spiStep (spiInit blankDev true) (readRun.take 10)).flying
      = some ⟨0x00, 0x80, 0x00⟩ := rfl
  refine ⟨trivial, trivial, trivial, trivial, trivial, trivial, trivial, trivial, trivial, trivial,
    fun _ f hf => ?_, trivial⟩
  have e := Option.some.inj (hflying.symm.trans hf)
  rw [← e]

theorem answersOk_iff_read :
    Always spiStep AnswersOk (spiInit blankDev true) readRun ↔
      Along spiStep KeepsAddr (spiInit blankDev true) readRun :=
  answersOk_iff blankDev true readRun readRun_echoes

/-- the same read, but a tick of the replay has begun when the answer comes -/
def tickRun : List SpiEvent :=
  .call (.getReg 0x80 jitReg1_mem) :: (List.replicate 9 (.step .ok) ++
    [.call .powerOnReadRegOnce, .step .ok, .step .ok, .irq ⟨0x00, 0x80, 0x07⟩])

/-- the right answer is discarded, and a retry would read register `0x00` instead -/
theorem tick_discards_answer :
    Along spiStep Echoes (spiInit blankDev true) tickRun ∧
    (run spiStep (spiInit blankDev true) tickRun).value 0x80 = 0x00 ∧
    (run spiStep (spiInit blankDev true) tickRun).retryFlag = true ∧
    (run spiStep (spiInit blankDev true) tickRun).failed = some ⟨0x00, 0x80, 0x00⟩ ∧
    (run spiStep (spiInit blankDev true) tickRun).writeData = ⟨0x00, 0x00, 0x00⟩ ∧
    ¬ Always spiStep AnswersOk (spiInit blankDev true) tickRun := by
  have hretry : (run spiStep (spiInit blankDev true) tickRun).retryFlag = true := rfl
  have hfailed : (run spiStep (spiInit blankDev true) tickRun).failed
      = some ⟨0x00, 0x80, 0x00⟩ := rfl
  have hbuf : (run spiStep (spiInit blankDev true) tickRun).writeData
      = ⟨0x00, 0x00, 0x00⟩ := rfl
  have hflying : (run spiStep (spiInit blankDev true) (tickRun.take 13)).flying
      = some ⟨0x00, 0x80, 0x00⟩ := rfl
  refine ⟨?_, rfl, hretry, hfailed, hbuf, fun h => ?_⟩
  · refine ⟨trivial, trivial, trivial, trivial, trivial, trivial, trivial, trivial, trivial, trivial,
      trivial, trivial, trivial, fun _ f hf => ?_, trivial⟩
    have e := Option.some.inj (hflying.symm.trans hf)
    rw [← e]
  · have h2 := h.last.retries hretry _ hfailed
    rw [hbuf] at h2
    exact absurd h2 (by decide)

end MenuFirmware
