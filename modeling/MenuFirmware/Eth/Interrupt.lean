import MenuFirmware.Eth.Accept
import MenuFirmware.Eth.Fetch

/-!
# The receive interrupt and the frame it looks at

`eth_irq_input` reads the command through `heth.RxFrameInfos.buffer`.  That is set where a frame is
fetched, which the main loop does a while after the interrupt.

* `irqBuffer`        the buffer that the interrupt reads;
* `LastRead`         where the frame that was fetched last stood, and that it still does;
* `IrqInv`           kept by every step, beside `RxInv`;
* `irq_command_late`  the interrupt acts on the frame that was fetched last, not on the one that has
                     come in.
-/

set_option linter.unusedSectionVars false

namespace MenuFirmware
open DescRing Memory Runs

section
variable {s : EthRx} {rel k : Nat} {junk : List (MacFrame × Nat)} {pending : List MacFrame}

/-! ## what the receive interrupt looks at -/

/-- `heth.RxFrameInfos.buffer` -/
def irqBuffer (s : EthRx) : Nat → UInt8 := (s.desc s.infoBuffer).buffer

/-- the descriptors of the frame `g`, `back` of them given back, are the ones before `rel`; the first
one keeps its buffer until the MAC has come round -/
structure LastRead (s : EthRx) (rel k back : Nat) (g : MacFrame) : Prop where
  lt : s.infoBuffer < ethRxBufNb
  behind : (s.infoBuffer + back) % ethRxBufNb = rel
  nonzero : 0 < k + back
  keeps : k + back ≤ ethRxBufNb → Stores (s.desc s.infoBuffer) (g, 0)

/-- the frame that was fetched last -/
def lastFetched (s : EthRx) : Option MacFrame := (s.taken.take s.received.length).getLast?

/-- while the scan has not found the next frame -/
def IrqAt (s : EthRx) (rel k junk : Nat) : RxPhase → Prop
  | .idle => ∀ g, lastFetched s = some g → LastRead s rel k g.segs g
  | .scan _ _ => ∀ g, lastFetched s = some g → LastRead s rel k g.segs g
  | .copying _ => True
  | .releasing i _ => ∀ g, lastFetched s = some g → LastRead s rel k i g ∧ i + junk = g.segs

/-- both invariants -/
def IrqInv (s : EthRx) (rel k : Nat) (junk : List (MacFrame × Nat)) (pending : List MacFrame) :
    Prop := RxInv s rel k junk pending ∧ IrqAt s rel k junk.length s.phase

/-- the CPU goes on, what was read last is the same -/
theorem IrqAt.congr {s' : EthRx} {n : Nat} {ph : RxPhase} (h : IrqAt s rel k n ph)
    (hdesc : s'.desc = s.desc) (hbuf : s'.infoBuffer = s.infoBuffer)
    (hlast : lastFetched s' = lastFetched s) : IrqAt s' rel k n ph := by
  have hread : ∀ {back : Nat} {g : MacFrame}, LastRead s rel k back g → LastRead s' rel k back g := by
    intro back g hr
    refine ⟨hbuf ▸ hr.lt, hbuf ▸ hr.behind, hr.nonzero, fun hle => ?_⟩
    rw [hdesc, hbuf]
    exact hr.keeps hle
  cases ph with
  | idle => exact fun g hg => hread (h g (hlast ▸ hg))
  | scan counter pbufAlloc => exact fun g hg => hread (h g (hlast ▸ hg))
  | copying pbufAlloc => trivial
  | releasing i d => exact fun g hg => ⟨hread (h g (hlast ▸ hg)).1, (h g (hlast ▸ hg)).2⟩

theorem RxInv.lastFetched (h : RxInv s rel k junk pending) :
    ∃ done, s.taken = done ++ pending ∧ MenuFirmware.lastFetched s = done.getLast? := by
  obtain ⟨done, htaken, hall⟩ := h.frames
  refine ⟨done, htaken, ?_⟩
  unfold MenuFirmware.lastFetched
  rw [htaken, hall.length_eq, List.take_left]

/-- the MAC stores behind what was read last -/
theorem LastRead.stored {back i : Nat} {g g' : MacFrame} (h : LastRead s rel k back g)
    (hinv : RxInv s rel k junk pending) (hf : s.fifo = some (g', i))
    (hown : (s.desc s.mac).own = true) : LastRead (macStore s) rel (k + 1) back g := by
  rw [macStore_stores hf hown]
  refine ⟨h.lt, h.behind, Nat.lt_of_lt_of_le h.nonzero (by omega), fun hle => ?_⟩
  have hne : s.infoBuffer ≠ s.mac := by
    intro heq
    have hidx : (s.infoBuffer + (back + k)) % ethRxBufNb = (s.infoBuffer + 0) % ethRxBufNb := by
      rw [← Nat.add_assoc, Nat.add_mod, h.behind, Nat.add_zero, Nat.mod_eq_of_lt h.lt]
      conv_rhs => rw [heq, hinv.mac]
      rw [Nat.add_mod_mod]
    have hsome := h.nonzero
    have hzero := index_inj (by omega) (by omega) hidx
    omega
  show Stores (Function.update s.desc s.mac _ s.infoBuffer) _
  rw [Function.update_of_ne hne]
  exact h.keeps (by omega)

theorem IrqInv.stored {i : Nat} {g : MacFrame} (h : IrqInv s rel k junk pending)
    (hf : s.fifo = some (g, i)) (hown : (s.desc s.mac).own = true) :
    IrqInv (macStore s) rel (k + 1) junk pending := by
  refine ⟨h.1.stored hf hown, ?_⟩
  have hphase : (macStore s).phase = s.phase := by rw [macStore_stores hf hown]
  have hlast : MenuFirmware.lastFetched (macStore s) = MenuFirmware.lastFetched s := by
    rw [macStore_stores hf hown]
    rfl
  have hat := h.2
  rw [hphase]
  cases hph : s.phase with
  | idle =>
    rw [hph] at hat
    exact fun g' hg => (hat g' (hlast ▸ hg)).stored h.1 hf hown
  | scan counter pbufAlloc =>
    rw [hph] at hat
    exact fun g' hg => (hat g' (hlast ▸ hg)).stored h.1 hf hown
  | copying pbufAlloc => trivial
  | releasing j d =>
    rw [hph] at hat
    exact fun g' hg => ⟨(hat g' (hlast ▸ hg)).1.stored h.1 hf hown, (hat g' (hlast ▸ hg)).2⟩

theorem IrqInv.arrive (h : IrqInv s rel k junk pending) (g : MacFrame) :
    ∃ pending', IrqInv (macArrive s g) rel k junk pending' := by
  obtain ⟨pending', h'⟩ := h.1.arrive g
  refine ⟨pending', h', ?_⟩
  obtain ⟨done, htaken, hall⟩ := h.1.frames
  have hle : s.received.length ≤ s.taken.length := by
    rw [htaken, hall.length_eq, List.length_append]
    omega
  have hat := h.2
  unfold macArrive
  cases hf : s.fifo with
  | some x => exact hat
  | none =>
    refine hat.congr rfl rfl ?_
    show ((s.taken ++ [g]).take s.received.length).getLast? = _
    rw [List.take_append_of_le_length hle]
    rfl

theorem IrqInv.scan {counter : Nat} {pbufAlloc : PbufAlloc} (h : IrqInv s rel k junk pending)
    (hph : s.phase = .scan counter pbufAlloc) :
    IrqInv (scanDescStep s counter pbufAlloc) rel k junk pending := by
  refine ⟨h.1.scan hph, ?_⟩
  have hat := h.2
  rw [hph] at hat
  unfold scanDescStep
  simp only
  split_ifs <;> first | exact hat.congr rfl rfl rfl | trivial

theorem IrqInv.copy {pbufAlloc : PbufAlloc} {g : MacFrame} {rest : List MacFrame}
    (h : IrqInv s rel k junk (g :: rest)) (hph : s.phase = .copying pbufAlloc) :
    IrqInv (copyStep s pbufAlloc) rel k g.slots rest := by
  refine ⟨h.1.copy hph, ?_⟩
  have hat := h.1.phase
  rw [hph] at hat
  obtain ⟨rfl, -, hle, -, hbuf, ⟨g', rest', hp, hcount, -⟩, -⟩ := hat
  obtain ⟨rfl, rfl⟩ := List.cons.inj hp
  have hsegs := segs_bounds g
  obtain ⟨done, htaken, hall⟩ := h.1.frames
  have hlast : MenuFirmware.lastFetched (copyStep s pbufAlloc) = some g := by
    unfold MenuFirmware.lastFetched copyStep
    rw [List.length_append, List.length_singleton, htaken, hall.length_eq, List.take_append]
    simp
  intro g' hg
  obtain rfl : g = g' := Option.some.inj (hlast.symm.trans hg)
  refine ⟨⟨?_, ?_, by omega, fun _ => ?_⟩, by rw [slots_length, Nat.zero_add]⟩
  · show s.infoBuffer < _
    rw [hbuf]
    exact h.1.held.first_lt
  · show (s.infoBuffer + 0) % _ = _
    rw [hbuf, Nat.add_zero, Nat.mod_eq_of_lt h.1.held.first_lt]
  · have hst := h.1.stores 0 (by omega) (g, 0) (by
      rw [List.nil_append, List.flatMap_cons,
        List.getElem?_append_left (by rw [slots_length]; exact hsegs.1),
        List.getElem?_eq_getElem (by rw [slots_length]; exact hsegs.1), slots_getElem])
    rw [Nat.add_zero, Nat.mod_eq_of_lt h.1.held.first_lt] at hst
    show Stores (s.desc s.infoBuffer) _
    rw [hbuf]
    exact hst

theorem IrqInv.released {i d : Nat} (h : IrqInv s rel k [] pending)
    (hph : s.phase = .releasing i d) : IrqInv (releaseStep s i d) rel k [] pending := by
  obtain ⟨hidle, h'⟩ := h.1.released hph
  refine ⟨h', ?_⟩
  have hat := h.2
  rw [hph] at hat
  have hcount := h.1.phase
  rw [hph] at hcount
  obtain ⟨-, -, -, hcount⟩ := hcount
  rw [List.length_nil, Nat.add_zero] at hcount
  rw [hidle]
  unfold releaseStep
  rw [if_neg (by omega)]
  intro g hg
  obtain ⟨hread, hall⟩ := hat g hg
  rw [List.length_nil, Nat.add_zero] at hall
  rw [← hall]
  exact ⟨hread.lt, hread.behind, hread.nonzero, hread.keeps⟩

theorem IrqInv.release {i d : Nat} {x : MacFrame × Nat} (h : IrqInv s rel k (x :: junk) pending)
    (hph : s.phase = .releasing i d) :
    IrqInv (releaseStep s i d) ((rel + 1) % ethRxBufNb) (k - 1) junk pending := by
  obtain ⟨hphase, h'⟩ := h.1.release hph
  refine ⟨h', ?_⟩
  have hat := h.2
  rw [hph] at hat
  have hcount := h.1.phase
  rw [hph] at hcount
  obtain ⟨-, hle, -, hcount⟩ := hcount
  rw [List.length_cons] at hcount hle
  rw [hphase]
  unfold releaseStep
  rw [if_pos (by omega)]
  intro g hg
  obtain ⟨hread, hall⟩ := hat g hg
  rw [List.length_cons] at hall
  refine ⟨⟨hread.lt, ?_, by omega, fun hroom => ?_⟩, by omega⟩
  · show (s.infoBuffer + (i + 1)) % _ = _
    rw [← Nat.add_assoc, Nat.add_mod, hread.behind]
    rfl
  · have hst := hread.keeps (by omega)
    show Stores (Function.update s.desc d _ s.infoBuffer) _
    by_cases hd : s.infoBuffer = d
    · rw [← hd, Function.update_self]
      exact ⟨hst.first, hst.last, hst.length, hst.bytes⟩
    · rw [Function.update_of_ne hd]
      exact hst

def IrqReach (s : EthRx) : Prop := ∃ rel k junk pending, IrqInv s rel k junk pending

theorem ethRxStep_irq {e : EthRxEvent} (h : IrqReach s) (he : e.Lawful) :
    IrqReach (ethRxStep s e) := by
  obtain ⟨rel, k, junk, pending, h⟩ := h
  cases e with
  | poll pbufAlloc =>
    unfold ethRxStep
    cases hph : s.phase with
    | idle =>
      have hat := h.2
      rw [hph] at hat
      exact ⟨rel, k, junk, pending, h.1.poll hph he, fun g hg =>
        ⟨(hat g hg).lt, (hat g hg).behind, (hat g hg).nonzero, (hat g hg).keeps⟩⟩
    | _ => exact ⟨rel, k, junk, pending, h⟩
  | cpu =>
    show IrqReach (rxCpuStep s)
    cases hph : s.phase with
    | idle =>
      rw [rxCpuStep_idle hph]
      exact ⟨rel, k, junk, pending, h⟩
    | scan counter pbufAlloc =>
      rw [rxCpuStep_scan hph]
      exact ⟨rel, k, junk, pending, h.scan hph⟩
    | copying pbufAlloc =>
      rw [rxCpuStep_copying hph]
      have hat := h.1.phase
      rw [hph] at hat
      obtain ⟨-, -, -, -, -, ⟨g, rest, rfl, -⟩, -⟩ := hat
      exact ⟨rel, k, g.slots, rest, h.copy hph⟩
    | releasing i d =>
      rw [rxCpuStep_releasing hph]
      cases junk with
      | nil => exact ⟨rel, k, [], pending, h.released hph⟩
      | cons x junk => exact ⟨_, _, junk, pending, h.release hph⟩
  | arrive g =>
    obtain ⟨pending', h'⟩ := h.arrive g
    exact ⟨rel, k, junk, pending', h'⟩
  | store =>
    show IrqReach (macStore s)
    by_cases hwait : ∀ g i, s.fifo = some (g, i) → (s.desc s.mac).own = false
    · rw [macStore_waits s hwait]
      exact ⟨rel, k, junk, pending, h⟩
    · simp only [not_forall] at hwait
      obtain ⟨g, i, hf, hown⟩ := hwait
      exact ⟨rel, k + 1, junk, pending, h.stored hf (by simpa using hown)⟩

/-- how many descriptors wait for the main loop -/
def waitingDescs (s : EthRx) : Nat := (List.range ethRxBufNb).countP fun d => !(s.desc d).own

theorem ethIrqInput_congr {a b : Nat → UInt8} (h : ∀ i < 45, a i = b i) (t : EthState) :
    ethIrqInput t a = ethIrqInput t b := by
  have hport : portAccepted a = portAccepted b := by
    unfold portAccepted
    rw [h 36 (by decide), h 37 (by decide)]
  have hcommand : commandOf a = commandOf b := by
    unfold commandOf
    rw [h 42 (by decide), h 43 (by decide), h 44 (by decide), h 34 (by decide), h 35 (by decide)]
  unfold ethIrqInput
  rw [hport, hcommand]

/-- **The command comes late.**  At a receive interrupt that falls outside `low_level_input`,
`eth_irq_input` does what the frame asks for that the main loop has fetched last, whatever frame has
come in, as long as the MAC has not come round to its buffer. -/
theorem irq_command_late (buffers : Nat → Nat → UInt8) (es : List EthRxEvent)
    (hes : ∀ e ∈ es, e.Lawful) (g : MacFrame)
    (hlast : lastFetched (run ethRxStep (ethRxInit buffers) es) = some g)
    (hidle : (run ethRxStep (ethRxInit buffers) es).phase = .idle)
    (hroom : waitingDescs (run ethRxStep (ethRxInit buffers) es) + g.segs ≤ ethRxBufNb)
    (hlen : 45 ≤ g.data.length) (old : Nat → UInt8) (t : EthState) :
    ethIrqInput t (irqBuffer (run ethRxStep (ethRxInit buffers) es)) =
      ethIrqInput t (rxBuffer g.data old) := by
  obtain ⟨rel, k, junk, pending, h, hat⟩ : IrqReach (run ethRxStep (ethRxInit buffers) es) :=
    run_invariant_mem (fun _ e he h => ethRxStep_irq h (hes e he))
      ⟨0, 0, [], [], ethRxInit_inv buffers, fun g hg => by cases hg⟩
  rw [hidle] at hat
  have hcount : waitingDescs (run ethRxStep (ethRxInit buffers) es) = k := h.held.countP
  have hst := (hat g hlast).keeps (by omega)
  apply ethIrqInput_congr
  intro i hi
  have hbytes := bytes_length g
  have hlt : i < (segAt ethRxBufSize g.bytes 0).bytes.length := by
    rw [segAt_length]
    unfold ethRxBufSize
    omega
  have hget : (segAt ethRxBufSize g.bytes 0).bytes[i] = g.data[i] := by
    simp only [segAt, MacFrame.bytes, Nat.mul_zero, List.drop_zero, List.getElem_take]
    exact List.getElem_append_left (by omega)
  unfold irqBuffer
  rw [hst.bytes i hlt, hget]
  exact (List.getD_eq_getElem _ _ (by omega)).symm

end

theorem irq_command_late_zero :
    ethIrqInput (ethInit blankDev) (irqBuffer (run ethRxStep (ethRxInit fun _ _ => 0) lateRun)) =
      ethIrqInput (ethInit blankDev) (rxBuffer commandFrame.data fun _ => 0) :=
  irq_command_late _ _ lateRun_lawful commandFrame (by rfl) (by rfl) (by decide) (by decide) _ _

end MenuFirmware
