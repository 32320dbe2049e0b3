import MenuFirmware.Lib.Trace
import MenuFirmware.Spi.Stream

/-!
# USART2 beside the single steps (`uart2.c`, `pollint_spi_transmit`)

A byte may arrive, and a transfer may complete, between any two steps of the request that the main
loop is in.  The link of `Stream`, where a poll and a request are one step each, says all the same
what becomes of the stream.

* `uartSpiStep`     one event: a byte, the call of a poll or of another request, a single step;
* `linkEvent`       the event of the link that it stands for, if any;
* `uartSpi_refines` every run of the single steps is a run of the link;
* `BetweenFrames`   polls that find what the frame lacks at most, requests only between two frames;
* `stream_frames`   then the frames are the stream, up to what waits in the two buffers.
-/

set_option linter.unusedSectionVars false
set_option linter.unusedVariables false

namespace MenuFirmware
open Runs Blocks

/-! ## one event -/

def Request.isPoll : Request → Bool
  | .poll _ => true
  | _ => false

structure UartSpi where
  spi : Spi
  uart : Usart2
  /-- ghost: what the steps of the polls that took bytes transmit, in order -/
  frames : List Frame
  /-- ghost: the bytes that have arrived -/
  stream : List UInt8

def uartSpiStart (d : Dev) (link : Bool) : UartSpi := ⟨spiInit d link, mxUsart2UartInit, [], []⟩

inductive UartSpiEvent where
  | byte (b : UInt8)
  /-- the main loop calls `pollint_spi_transmit` -/
  | poll
  /-- the main loop calls another request -/
  | request (q : Request) (h : q.isPoll = false)
  /-- a step of the main loop, a completion, the network link -/
  | other (e : SpiEvent) (h : NoCall e)

def UartSpi.poll (s : UartSpi) : UartSpi :=
  let bytes := (usart2GetRxBufDat s.uart).1
  let spi := spiStep s.spi (.call (.poll bytes))
  { s with
    spi := spi
    uart := (usart2GetRxBufDat s.uart).2
    frames := if bytes = [] then s.frames else s.frames ++ framesOf s.spi.writeData spi.fg }

/-- the main loop calls only when the request before is over -/
def uartSpiStep (s : UartSpi) : UartSpiEvent → UartSpi
  | .byte b => { s with uart := s.uart.byte b, stream := s.stream ++ [b] }
  | .poll => if s.spi.fg = [] then s.poll else s
  | .request q _ => { s with spi := spiStep s.spi (.call q) }
  | .other e _ => { s with spi := spiStep s.spi e }

/-! ## the link -/

def linkEvent (s : UartSpi) : UartSpiEvent → Option UartEvent
  | .byte b => some (.byte b)
  | .poll => if s.spi.fg = [] then some .poll else none
  | .request q _ => if s.spi.fg = [] then some (.request (s.spi.start q).fg) else none
  | .other _ _ => none

/-- `Write_Data` of the link is what it will be at the end of the request -/
structure Refines (s : UartSpi) (l : Uart2Link) : Prop where
  uart : l.uart = s.uart
  count : l.spiTransCount = s.spi.transCount
  frames : l.frames = s.frames
  stream : l.taken ++ l.chunk = s.stream
  data : firstFrame l.writeData = s.spi.endData

theorem endData_idle {s : Spi} (h : s.fg = []) : s.endData = s.writeData := by
  unfold Spi.endData
  rw [h]
  rfl

theorem pollintSpiTransmit_writeData (s : Spi) (bytes : List UInt8) :
    (pollintSpiTransmit s bytes).writeData = s.writeData := by
  unfold pollintSpiTransmit
  by_cases hb : bytes.length ≠ 0
  · rw [if_pos hb]
  · rw [if_neg hb]
    by_cases hr : s.retryFlag = true
    · rw [if_pos hr]
    · rw [if_neg hr]

theorem transCount_step {s : Spi} {e : SpiEvent} (he : NoCall e) :
    (spiStep s e).transCount = s.transCount := by
  cases e with
  | call q => exact he.elim
  | link up => rfl
  | irq rx =>
    by_cases hb : s.busy = true
    · rw [spiStep_irq rx hb]
      rcases txRxCplt_cases s rx with ⟨_, regs, dev, out, -, e⟩ | ⟨_, e⟩
      · rw [e]
      · rw [e]
    · rw [spiStep_irq_idle rx hb]
  | step r =>
    cases hfg : s.fg with
    | nil => rw [spiStep_step_nil r hfg]
    | cons m rest => rw [spiStep_step_cons r hfg, (exec_counts s m rest r).1]

/-- a request that is no poll leaves buffer and count to its steps -/
theorem start_frame (s : Spi) {q : Request} (h : q.isPoll = false) :
    (s.start q).writeData = s.writeData ∧ (s.start q).transCount = s.transCount := by
  cases q with
  | poll bytes => exact absurd h nofun
  | _ => exact ⟨rfl, rfl⟩

theorem poll_frames_silent {l : Uart2Link} (h : (usart2GetRxBufDat l.uart).1 = []) :
    l.poll.frames = l.frames := by
  unfold Uart2Link.poll
  rw [h]
  rfl

theorem poll_step {s : UartSpi} {l : Uart2Link} (h : Refines s l) (hfg : s.spi.fg = []) :
    Refines s.poll l.poll := by
  have hidle : ({ s.spi with fg := [] } : Spi) = s.spi := by rw [← hfg]
  have hw : firstFrame l.writeData = s.spi.writeData := h.data.trans (endData_idle hfg)
  have hp := poll_refines s.spi l hw h.count
  have hspi : s.poll.spi = pollintSpiTransmit s.spi (usart2GetRxBufDat l.uart).1 := by
    rw [h.uart]
    exact spiStep_call_nil _ hfg
  rw [hidle, ← hspi] at hp
  refine ⟨?_, hp.1.symm, ?_, (List.append_nil _).trans h.stream, ?_⟩
  · show (usart2GetRxBufDat l.uart).2 = (usart2GetRxBufDat s.uart).2
    rw [h.uart]
  · show l.poll.frames = if (usart2GetRxBufDat s.uart).1 = [] then s.frames
      else s.frames ++ framesOf s.spi.writeData s.poll.spi.fg
    by_cases hb : (usart2GetRxBufDat s.uart).1 = []
    · rw [if_pos hb, poll_frames_silent (h.uart.symm ▸ hb), h.frames]
    · have hf := poll_frames s.spi l hw h.count (h.uart.symm ▸ hb)
      rw [hidle, ← hspi] at hf
      rw [if_neg hb, hf, h.frames]
  · unfold Spi.endData
    rw [hspi, pollintSpiTransmit_writeData, ← hspi]
    exact hp.2.symm

theorem request_step {s : UartSpi} {l : Uart2Link} (h : Refines s l) (hfg : s.spi.fg = [])
    {q : Request} (hq : q.isPoll = false) :
    Refines { s with spi := s.spi.start q } (linkStep l (.request (s.spi.start q).fg)) := by
  obtain ⟨hw, hc⟩ := start_frame s.spi hq
  refine ⟨h.uart, h.count.trans hc.symm, h.frames, h.stream, ?_⟩
  show storedAll (firstFrame l.writeData) (s.spi.start q).fg = (s.spi.start q).endData
  unfold Spi.endData
  rw [hw, h.data, endData_idle hfg]

theorem refines_some {s : UartSpi} {l : Uart2Link} {e : UartSpiEvent} {e' : UartEvent}
    (h : Refines s l) (he : linkEvent s e = some e') :
    Refines (uartSpiStep s e) (linkStep l e') := by
  cases e with
  | byte b =>
    obtain rfl := Option.some.inj he
    refine ⟨congrArg (Usart2.byte · b) h.uart, h.count, h.frames, ?_, h.data⟩
    show l.taken ++ (l.chunk ++ [b]) = s.stream ++ [b]
    rw [← List.append_assoc, h.stream]
  | poll =>
    by_cases hfg : s.spi.fg = []
    · obtain rfl := Option.some.inj ((if_pos hfg).symm.trans he)
      show Refines (if s.spi.fg = [] then s.poll else s) l.poll
      rw [if_pos hfg]
      exact poll_step h hfg
    · exact absurd ((if_neg hfg).symm.trans he) nofun
  | request q hq =>
    by_cases hfg : s.spi.fg = []
    · obtain rfl := Option.some.inj ((if_pos hfg).symm.trans he)
      show Refines { s with spi := spiStep s.spi (.call q) } _
      rw [spiStep_call_nil q hfg]
      exact request_step h hfg hq
    · exact absurd ((if_neg hfg).symm.trans he) nofun
  | other e hn => exact absurd he nofun

/-- the other events are no step of the link -/
theorem refines_none {s : UartSpi} {l : Uart2Link} {e : UartSpiEvent} (h : Refines s l)
    (he : linkEvent s e = none) : Refines (uartSpiStep s e) l := by
  cases e with
  | byte b => exact absurd he nofun
  | poll =>
    by_cases hfg : s.spi.fg = []
    · exact absurd ((if_pos hfg).symm.trans he) nofun
    · show Refines (if s.spi.fg = [] then s.poll else s) l
      rw [if_neg hfg]
      exact h
  | request q hq =>
    cases hfg : s.spi.fg with
    | nil => exact absurd ((if_pos hfg).symm.trans he) nofun
    | cons m rest =>
      show Refines { s with spi := spiStep s.spi (.call q) } l
      rw [spiStep_call_cons q hfg]
      exact h
  | other e hn =>
    exact ⟨h.uart, h.count.trans (transCount_step hn).symm, h.frames, h.stream,
      h.data.trans (endData_step hn).symm⟩

theorem refines_start (d : Dev) (link : Bool) : Refines (uartSpiStart d link) linkStart :=
  ⟨rfl, rfl, rfl, rfl, rfl⟩

/-- **Single steps**, in whatever order bytes, steps and completions come, are a run of the link. -/
theorem uartSpi_refines (d : Dev) (link : Bool) (es : List UartSpiEvent) :
    Refines (run uartSpiStep (uartSpiStart d link) es)
      (run linkStep linkStart (emitted uartSpiStep linkEvent (uartSpiStart d link) es)) :=
  emitted_simulation (fun _ _ _ _ => refines_some) (fun _ _ _ => refines_none)
    (refines_start d link) es

/-! ## whole frames -/

/-- no poll finds more than the frame lacks, no other request comes into an incomplete frame -/
def BetweenFrames (s : UartSpi) : UartSpiEvent → Prop
  | .byte _ => s.uart.rxcount < 15
  | .poll => s.spi.fg = [] → s.spi.transCount + s.uart.rxcount ≤ 3
  | .request _ _ => s.spi.fg = [] → s.spi.transCount = 0
  | .other _ _ => True

instance (s : UartSpi) (e : UartSpiEvent) : Decidable (BetweenFrames s e) := by
  cases e with
  | byte b => exact inferInstanceAs (Decidable (_ < _))
  | poll => exact inferInstanceAs (Decidable (_ → _))
  | request q h => exact inferInstanceAs (Decidable (_ → _))
  | other e h => exact instDecidableTrue

/-- `Write_Data` begins with the bytes of the incomplete frame -/
def HeadKept (l : Uart2Link) : Prop := (List.range l.spiTransCount).map l.writeData = rest 3 l.taken

theorem headKept_of_zero {l : Uart2Link} (h : LinkInv l) (h0 : l.spiTransCount = 0) :
    HeadKept l := by
  have hlen : (rest 3 l.taken).length = 0 := by rw [rest_length, ← h.cut.kept, h0]
  unfold HeadKept
  rw [h0, List.length_eq_zero_iff.1 hlen]
  rfl

theorem headKept_poll {l : Uart2Link} (h : LinkInv l) (hd : HeadKept l)
    (hf : l.spiTransCount + l.chunk.length ≤ 3) : HeadKept l.poll := by
  have hinv := poll_inv h ⟨hf, fun _ => hd⟩
  have hk := h.cut.kept
  rcases Nat.lt_or_eq_of_le hf with hlt | heq
  · rw [poll_eq h, transLoop_short _ _ hlt]
    show (List.range (l.spiTransCount + l.chunk.length)).map _ = rest 3 (l.taken ++ l.chunk)
    rw [copyTo_map, hd, rest_append_of_lt _ _ (hk ▸ hlt)]
  · refine headKept_of_zero hinv ?_
    rw [poll_eq h, transLoop_full _ _ (by omega) (by omega)]

/-- the link behind a run of whole frames -/
def WholeFrames (s : UartSpi) : Prop := ∃ l, Refines s l ∧ LinkInv l ∧ HeadKept l

theorem wholeFrames_some {s : UartSpi} {l : Uart2Link} {e : UartSpiEvent} {e' : UartEvent}
    (hr : Refines s l) (h : LinkInv l) (hd : HeadKept l) (hg : BetweenFrames s e)
    (he : linkEvent s e = some e') : LinkInv (linkStep l e') ∧ HeadKept (linkStep l e') := by
  have hn : l.chunk.length = s.uart.rxcount := h.count.symm.trans (congrArg Usart2.rxcount hr.uart)
  cases e with
  | byte b =>
    obtain rfl := Option.some.inj he
    exact ⟨linkByte_inv h b (hn.trans_lt hg), hd⟩
  | poll =>
    by_cases hfg : s.spi.fg = []
    · obtain rfl := Option.some.inj ((if_pos hfg).symm.trans he)
      have hf : l.spiTransCount + l.chunk.length ≤ 3 := by
        rw [hr.count, hn]
        exact hg hfg
      exact ⟨poll_inv h ⟨hf, fun _ => hd⟩, headKept_poll h hd hf⟩
    · exact absurd ((if_neg hfg).symm.trans he) nofun
  | request q hq =>
    by_cases hfg : s.spi.fg = []
    · obtain rfl := Option.some.inj ((if_pos hfg).symm.trans he)
      have hinv := link_good l (.request (s.spi.start q).fg) h trivial trivial
      exact ⟨hinv, headKept_of_zero hinv (hr.count.trans (hg hfg))⟩
    · exact absurd ((if_neg hfg).symm.trans he) nofun
  | other e hn => exact absurd he nofun

theorem wholeFrames_step (s : UartSpi) (e : UartSpiEvent) (h : WholeFrames s)
    (hg : BetweenFrames s e) : WholeFrames (uartSpiStep s e) := by
  obtain ⟨l, hr, hi, hd⟩ := h
  cases he : linkEvent s e with
  | none => exact ⟨l, refines_none hr he, hi, hd⟩
  | some e' => exact ⟨linkStep l e', refines_some hr he, wholeFrames_some hr hi hd hg he⟩

/-- **The stream** goes to the FPGA: the frames of the polls, the bytes of the incomplete frame and
those that no poll has taken are the bytes that have arrived, in order. -/
theorem stream_frames (d : Dev) (link : Bool) (es : List UartSpiEvent)
    (h : Along uartSpiStep BetweenFrames (uartSpiStart d link) es) :
    let s := run uartSpiStep (uartSpiStart d link) es
    ∃ left, s.frames.flatMap Frame.bytes ++ left = s.stream ∧
      left.length = s.spi.transCount + s.uart.rxcount := by
  have h0 : WholeFrames (uartSpiStart d link) :=
    ⟨linkStart, refines_start d link, linkStart_inv, rfl⟩
  obtain ⟨l, hr, hi, hd⟩ := run_invariant_along wholeFrames_step h0 h
  refine ⟨rest 3 l.taken ++ l.chunk, ?_, ?_⟩
  · rw [← hr.frames, ← List.append_assoc, hi.cut.bytes, hr.stream]
  · rw [List.length_append, rest_length, ← hi.cut.kept, hr.count, ← hi.count, hr.uart]

def fiveBytes : List UartSpiEvent :=
  let step := UartSpiEvent.other (.step .ok) trivial
  [.byte 0x01, .byte 0x04, .poll, step, step, .byte 0x02, .poll, step, .byte 0x01, step, .byte 0x10]

/-- the second poll completes a frame; two bytes come while it goes out, and wait -/
theorem stream_frames_five :
    let s := run uartSpiStep (uartSpiStart blankDev true) fiveBytes
    s.frames = [⟨0x01, 0x04, 0x02⟩] ∧
    ∃ left, s.frames.flatMap Frame.bytes ++ left = s.stream ∧ left.length = 2 :=
  ⟨by decide +kernel, stream_frames blankDev true fiveBytes (by decide +kernel)⟩

end MenuFirmware
