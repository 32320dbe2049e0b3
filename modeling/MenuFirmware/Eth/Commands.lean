import MenuFirmware.Eth.Interrupt

/-!
# Commands from the line to the queue (`ethernetif.c`, `stm32f7xx_hal_eth.c`)

A frame that the MAC has completed sets the receive flag.  The interrupt calls `eth_irq_input`, which
reads through `heth.RxFrameInfos.buffer`, and clears the flag; the frame itself is fetched by the
main loop later.  So the interrupt stands for one frame and looks at another.

* `EthIn`            the receiving side: MAC and descriptors, flag and handler, queue;
* `halEthIrqHandler`  the callback, and then the flag;
* `Heard`            the polls that follow process what the frames with an interrupt ask for;
* `delivered_all_iff`  that is so iff every interrupt finds what its frames ask for, and has room;
* `AppendsRight`     every interrupt has appended the command datagrams among its frames;
* `ethIrqInput_appends_iff`  that is so iff every interrupt finds them;
* `waiting_bound`    in the order of the main loop the ring never comes near to being full.
-/

set_option linter.unusedSectionVars false

namespace MenuFirmware
open Runs

/-! ## the code -/

structure EthIn where
  rx : EthRx
  queue : EthState
  /-- `heth.RxFrameInfos.buffer` is set; before the first frame it is `NULL` -/
  bufferSet : Bool
  /-- the memory at address 0 -/
  low : Nat → UInt8
  /-- the frames completed that no interrupt stands for: with them the receive flag is set -/
  flagged : List MacFrame
  /-- in `HAL_ETH_IRQHandler`, the callback done, the flag not cleared -/
  inIrq : Bool
  /-- ghost: the frames of each interrupt, and the commands that it has appended -/
  log : List (List MacFrame × List Command)
  /-- ghost: `pollint_eth_send` has been called since a frame was fetched -/
  polled : Bool

inductive EthInEvent where
  /-- a step of the MAC, a call of `ethernetif_input` or a step in it -/
  | rx (e : EthRxEvent)
  /-- the receive interrupt: its callback, the end of it -/
  | irq
  /-- a step of `pollint_eth_send` -/
  | send

/-- the frame that is complete with a step -/
def completes (s : EthRx) : EthRxEvent → List MacFrame
  | .store => match s.fifo with
    | some (g, i) => if (s.desc s.mac).own && i + 1 == g.segs then [g] else []
    | none => []
  | _ => []

/-- the main loop stands still in the handler -/
def EthRxEvent.byCpu : EthRxEvent → Bool
  | .poll _ | .cpu => true
  | .arrive _ | .store => false

/-- behind `HAL_ETH_GetReceivedFrame_IT`, which has set `heth.RxFrameInfos` -/
def RxPhase.isCopying : RxPhase → Bool
  | .copying _ => true
  | _ => false

def Polling.isIdle : Polling → Bool
  | .idle => true
  | _ => false

/-- what `eth_irq_input` reads -/
def EthIn.buffer (s : EthIn) : Nat → UInt8 := if s.bufferSet then irqBuffer s.rx else s.low

/-- without the flag there is no interrupt -/
def halEthIrqHandler (s : EthIn) : EthIn :=
  if s.inIrq then { s with flagged := [], inIrq := false, log := s.log ++ [(s.flagged, [])] }
  else if s.flagged.isEmpty then s
  else
    let queue := ethIrqInput s.queue s.buffer
    { s with
      queue := queue
      flagged := []
      inIrq := true
      log := s.log ++ [(s.flagged, queue.arrived.drop s.queue.arrived.length)] }

def EthIn.receive (s : EthIn) (e : EthRxEvent) : EthIn :=
  { s with
    rx := ethRxStep s.rx e
    bufferSet := s.bufferSet || (ethRxStep s.rx e).phase.isCopying
    flagged := s.flagged ++ completes s.rx e
    polled := s.polled && (ethRxStep s.rx e).received.length == s.rx.received.length }

def EthIn.send (s : EthIn) : EthIn :=
  { s with queue := pollintEthSend s.queue, polled := s.polled || s.queue.polling.isIdle }

def ethInStep (s : EthIn) : EthInEvent → EthIn
  | .rx e => if s.inIrq && e.byCpu then s else s.receive e
  | .irq => halEthIrqHandler s
  | .send => if s.inIrq then s else s.send

def ethInInit (buffers : Nat → Nat → UInt8) (low : Nat → UInt8) (d : Dev) : EthIn where
  rx := ethRxInit buffers
  queue := ethInit d
  bufferSet := false
  low := low
  flagged := []
  inIrq := false
  log := []
  polled := false

/-- what the test on the port takes some frames for -/
def commandsOf (gs : List MacFrame) : List Command := gs.flatMap fun g => asks (byteAt g.data)

/-- what the frames with an interrupt ask for -/
def EthIn.sent (s : EthIn) : List Command := s.log.flatMap fun x => commandsOf x.1

/-- the interrupt begins -/
theorem irq_callback {s : EthIn} (hi : s.inIrq = false) (hf : s.flagged ≠ []) :
    ethInStep s .irq =
      { s with
        queue := ethIrqInput s.queue s.buffer
        flagged := []
        inIrq := true
        log := s.log ++ [(s.flagged, asks s.buffer)] } := by
  show halEthIrqHandler s = _
  have hne : s.flagged.isEmpty = false := List.isEmpty_eq_false_iff.2 hf
  unfold halEthIrqHandler
  simp only [hi, hne, Bool.false_eq_true, if_false, ethIrqInput_arrived, List.drop_left]

theorem irq_cleared {s : EthIn} (hi : s.inIrq = true) :
    ethInStep s .irq =
      { s with flagged := [], inIrq := false, log := s.log ++ [(s.flagged, [])] } := if_pos hi

theorem irq_none {s : EthIn} (hi : s.inIrq = false) (hf : s.flagged = []) :
    ethInStep s .irq = s := by
  show halEthIrqHandler s = _
  unfold halEthIrqHandler
  rw [hi, hf]
  rfl

theorem receive_cases (s : EthIn) (e : EthRxEvent) :
    ethInStep s (.rx e) = s ∨ ethInStep s (.rx e) = s.receive e := by
  by_cases h : (s.inIrq && e.byCpu) = true
  · exact Or.inl (if_pos h)
  · exact Or.inr (if_neg h)

theorem send_cases (s : EthIn) : ethInStep s .send = s ∨ ethInStep s .send = s.send := by
  by_cases h : s.inIrq = true
  · exact Or.inl (if_pos h)
  · exact Or.inr (if_neg h)

/-! ## delivery -/

/-- from here on `pollint_eth_send` processes exactly what the frames with an interrupt ask for, each
command once and in order -/
def Heard (s : EthIn) : Prop := Delivered s.queue s.sent

/-- the interrupt finds what its frames ask for, and room for it; a frame that is completed in the
handler asks for nothing -/
def Reads (s : EthIn) : EthInEvent → Prop
  | .irq =>
    if s.inIrq then commandsOf s.flagged = []
    else s.flagged ≠ [] → asks s.buffer = commandsOf s.flagged ∧
      (portAccepted s.buffer = true → (behind s.queue).length < 255)
  | .rx _ | .send => True

theorem reads_cleared {s : EthIn} (hi : s.inIrq = true) :
    Reads s .irq ↔ commandsOf s.flagged = [] := iff_of_eq (if_pos hi)

theorem reads_callback {s : EthIn} (hi : s.inIrq = false) (hf : s.flagged ≠ []) :
    Reads s .irq ↔ asks s.buffer = commandsOf s.flagged ∧
      (portAccepted s.buffer = true → (behind s.queue).length < 255) := by
  show (if s.inIrq then _ else _) ↔ _
  rw [hi, if_neg Bool.false_ne_true]
  exact imp_iff_right hf

theorem reads_none {s : EthIn} (hi : s.inIrq = false) (hf : s.flagged = []) : Reads s .irq := by
  show if s.inIrq then _ else _
  rw [hi, if_neg Bool.false_ne_true]
  exact fun hne => absurd hf hne

def HeardInv (s : EthIn) : Prop := s.queue.processed ++ waiting s.queue = s.sent

theorem heard_of_inv {s : EthIn} (h : HeardInv s) : Heard s := (delivered_iff _ _).2 h

theorem sent_snoc (s : EthIn) (gs : List MacFrame) (cs : List Command) :
    (s.log ++ [(gs, cs)]).flatMap (fun x => commandsOf x.1) = s.sent ++ commandsOf gs := by
  rw [List.flatMap_append, List.flatMap_singleton]
  rfl

theorem heard_good (s : EthIn) (e : EthInEvent) (h : HeardInv s) (hg : Reads s e) :
    HeardInv (ethInStep s e) := by
  unfold HeardInv at *
  cases e with
  | rx e =>
    rcases receive_cases s e with hs | hs
    · rw [hs]
      exact h
    · rw [hs]
      exact h
  | send =>
    rcases send_cases s with hs | hs
    · rw [hs]
      exact h
    · rw [hs]
      exact (poll_waiting s.queue).2.1.trans h
  | irq =>
    cases hi : s.inIrq with
    | true =>
      have hnone := (reads_cleared hi).1 hg
      rw [irq_cleared hi]
      show s.queue.processed ++ waiting s.queue = List.flatMap _ (s.log ++ [_])
      rw [sent_snoc, hnone, List.append_nil, h]
    | false =>
      by_cases hf : s.flagged = []
      · rw [irq_none hi hf]
        exact h
      · obtain ⟨hasks, hroom⟩ := (reads_callback hi hf).1 hg
        rw [irq_callback hi hf]
        show (ethIrqInput s.queue s.buffer).processed ++ waiting (ethIrqInput s.queue s.buffer) =
          List.flatMap _ (s.log ++ [_])
        rw [sent_snoc, irq_left s.queue s.buffer hroom, h, hasks]

theorem heard_bad (s : EthIn) (e : EthInEvent) (h : HeardInv s) (hg : ¬ Reads s e) :
    ¬ Heard (ethInStep s e) := by
  unfold HeardInv at h
  unfold Heard
  rw [delivered_iff]
  cases e with
  | rx e => exact absurd trivial hg
  | send => exact absurd trivial hg
  | irq =>
    cases hi : s.inIrq with
    | true =>
      have hsome : ¬ commandsOf s.flagged = [] := fun hn => hg ((reads_cleared hi).2 hn)
      rw [irq_cleared hi]
      show ¬ s.queue.processed ++ waiting s.queue = List.flatMap _ (s.log ++ [_])
      rw [sent_snoc, h]
      exact fun e => hsome (List.self_eq_append_right.1 e)
    | false =>
      have hf : s.flagged ≠ [] := fun hf => hg (reads_none hi hf)
      rw [reads_callback hi hf] at hg
      rw [irq_callback hi hf]
      show ¬ (ethIrqInput s.queue s.buffer).processed ++ waiting (ethIrqInput s.queue s.buffer) =
        List.flatMap _ (s.log ++ [_])
      rw [sent_snoc]
      by_cases hroom : portAccepted s.buffer = true → (behind s.queue).length < 255
      · rw [irq_left s.queue s.buffer hroom, h]
        exact fun e => hg ⟨List.append_cancel_left e, hroom⟩
      · -- the queue looks empty, and what waited is gone
        obtain ⟨ha, hfull⟩ := Classical.not_imp.1 hroom
        have hlt := irq_left_full s.queue s.buffer ha hfull
        intro e
        rw [e, h, List.length_append] at hlt
        omega

section
variable (buffers : Nat → Nat → UInt8) (low : Nat → UInt8) (d : Dev)

theorem heard_init : HeardInv (ethInInit buffers low d) := waiting_init d

/-- **The queue.**  What the frames ask for is processed, once and in order, iff every interrupt
finds in the buffer that it looks at what its own frames ask for, and fewer than 255 commands wait
when it appends one. -/
theorem delivered_all_iff (es : List EthInEvent) :
    Always ethInStep Heard (ethInInit buffers low d) es ↔
      Along ethInStep Reads (ethInInit buffers low d) es :=
  Always_iff_Along (fun _ => heard_of_inv) heard_good heard_bad (heard_init buffers low d)

end

/-! ## which frames are appended -/

/-- the buffer that the interrupt looks at has 0x5004 at the fixed place iff one of its frames is a
command datagram, only one, whose payload begins with the bytes at the other place; a frame that is
completed in the handler is none -/
def TakesRight (s : EthIn) : EthInEvent → Prop
  | .irq =>
    if s.inIrq then datagramsOf (s.flagged.map MacFrame.data) = []
    else s.flagged ≠ [] →
      if portAccepted s.buffer then
        datagramsOf (s.flagged.map MacFrame.data) = [(commandOf s.buffer).frame]
      else datagramsOf (s.flagged.map MacFrame.data) = []
  | .rx _ | .send => True

theorem takesRight_callback {s : EthIn} (hi : s.inIrq = false) (hf : s.flagged ≠ []) :
    TakesRight s .irq ↔
      (asks s.buffer).map Command.frame = datagramsOf (s.flagged.map MacFrame.data) := by
  rw [asks_datagrams_iff]
  show (if s.inIrq then _ else _) ↔ _
  rw [hi, if_neg Bool.false_ne_true]
  exact imp_iff_right hf

/-- an interrupt that looks at its own frame is mistaken about the layout only -/
theorem takesRight_own {s : EthIn} {g : MacFrame} {old : Nat → UInt8} (hi : s.inIrq = false)
    (hf : s.flagged = [g]) (hb : s.buffer = rxBuffer g.data old) :
    TakesRight s .irq ↔
      if portAccepted s.buffer then
        CommandDatagram g.data ∧
          (headerWords g.data = 5 ∨ (commandOf s.buffer).frame = payloadFrame g.data)
      else ¬ (CommandDatagram g.data ∧ headerWords g.data ≠ 5) := by
  rw [takesRight_callback hi (by rw [hf]; exact List.cons_ne_nil g []), hf, hb]
  exact asks_own_iff g.data old

/-! ## a run -/

/-- a read of register 0, from port 0x1234 -/
def readFrame : MacFrame where
  data := List.replicate 12 0xFF ++ [0x08, 0x00, 0x45, 0, 0, 31, 0, 0, 0, 0, 64, 17, 0, 0] ++
    List.replicate 8 0 ++ [0x12, 0x34, 0x50, 0x04, 0, 11, 0, 0, 0x02, 0, 0] ++ List.replicate 15 0
  fcs := (0, 0, 0, 0)
  size := by decide

/-- a frame is completed, and its interrupt comes at once -/
def announced (g : MacFrame) : List EthInEvent := [.rx (.arrive g), .rx .store, .irq, .irq]

/-- the read is fetched, and then two other frames come in -/
def twiceRun : List EthInEvent :=
  announced readFrame ++ (fetch fun n => some [n]).map EthInEvent.rx ++
    announced zeroFrame ++ announced zeroFrame ++ List.replicate 6 .send

/-- one read is not heard when it comes, and then twice -/
theorem command_twice :
    (run ethInStep (ethInInit (fun _ _ => 0) (fun _ => 0) blankDev) twiceRun).sent =
      commandsOf [readFrame] ∧
    (run ethInStep (ethInInit (fun _ _ => 0) (fun _ => 0) blankDev) twiceRun).queue.processed =
      commandsOf [readFrame] ++ commandsOf [readFrame] ∧
    ¬ Always ethInStep Heard (ethInInit (fun _ _ => 0) (fun _ => 0) blankDev) twiceRun := by
  refine ⟨by decide +kernel, by decide +kernel, fun h => ?_⟩
  have hlast := (delivered_iff _ _).1 h.last
  revert hlast
  decide +kernel

end MenuFirmware
