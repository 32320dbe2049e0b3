import MenuFirmware.Lib.Blocks
import MenuFirmware.Serial.Receive
import MenuFirmware.Spi.Serve

/-!
# The stream from USART2 (`uart2.c`)

The bytes that arrive on USART2 are to go to the FPGA in frames of three.  A poll takes what has
come since the last one straight into `Write_Data`, behind the bytes of an incomplete frame, and
hands the frame over when the third byte is there.

* `usart2RxDeal`, `usart2GetRxBufDat`  reception; `Uart2Link.poll`: one `pollint_spi_transmit`;
* `poll_refines`, `poll_frames`, `endData_step`  polls and other requests against the machine of
                       single steps;
* `CutRight`           the frames are the stream cut into triples, no byte is lost or out of place;
* `KeepsCut`           a poll finds at most the bytes that complete the frame, and the first bytes of
                       the frame as it left them;
* `cut_iff`            the stream is always cut right iff every poll is like that.
-/

set_option linter.unusedSectionVars false
set_option linter.unusedVariables false

namespace MenuFirmware
open Runs Blocks

/-! ## the code -/

def usart2RxBufNumber : Nat := 16

structure Usart2 where
  rxcount : Nat
  /-- never set: nothing calls `USART2_RxReaddy` -/
  busy : Bool
  rxBuf : Nat → UInt8
  /-- where the HAL stores the next byte, `none` when no reception is armed -/
  armed : Option Nat

def mxUsart2UartInit : Usart2 := ⟨0, false, fun _ => 0, some 0⟩

def usart2RxDeal (u : Usart2) : Usart2 :=
  if u.busy = false then
    let rxcount := rbufNextPt u.rxcount 1 usart2RxBufNumber
    { u with rxcount := rxcount, armed := some rxcount }
  else u

/-- a byte on the line: the HAL stores it, disarms itself and calls back -/
def Usart2.byte (u : Usart2) (b : UInt8) : Usart2 :=
  match u.armed with
  | some a => usart2RxDeal { u with rxBuf := Function.update u.rxBuf a b, armed := none }
  | none => u

/-- the state is forced to ready, so that arming succeeds -/
def usart2GetRxBufDat (u : Usart2) : List UInt8 × Usart2 :=
  ((List.range u.rxcount).map u.rxBuf, { u with rxcount := 0, armed := some 0, busy := false })

/-- the length of `Write_Data` -/
def writeDataNumber : Nat := 16

/-- `memcpy` to `&Write_Data[i]` -/
def copyTo (w : Nat → UInt8) (i : Nat) : List UInt8 → Nat → UInt8
  | [] => w
  | b :: bs => copyTo (Function.update w i b) (i + 1) bs

/-- what `Test_Send_To_Fpga` sends -/
def firstFrame (w : Nat → UInt8) : Frame := ⟨w 0, w 1, w 2⟩

structure Uart2Link where
  uart : Usart2
  /-- `Write_Data`, and the memory behind it -/
  writeData : Nat → UInt8
  spiTransCount : Nat
  /-- the frames handed to `Test_Send_To_Fpga`, in order -/
  frames : List Frame
  /-- ghost: a byte has been written behind `Write_Data` -/
  outside : Bool
  /-- ghost: the stream up to the last poll, and since then -/
  taken : List UInt8
  chunk : List UInt8

def linkStart : Uart2Link where
  uart := mxUsart2UartInit
  writeData i := [0x00, 0x5a, 0x5a].getD i 0
  spiTransCount := 0
  frames := []
  outside := false
  taken := []
  chunk := []

/-- without bytes nothing changes here: a retry sends `Write_Data` and leaves it as it is -/
def Uart2Link.poll (s : Uart2Link) : Uart2Link :=
  let bytes := (usart2GetRxBufDat s.uart).1
  let w := copyTo s.writeData s.spiTransCount bytes
  let t := transLoop bytes.length s.spiTransCount
  { uart := (usart2GetRxBufDat s.uart).2
    writeData := w
    spiTransCount := t.1
    frames := if t.2 then s.frames ++ [firstFrame w] else s.frames
    outside := s.outside || decide (writeDataNumber < s.spiTransCount + bytes.length)
    taken := s.taken ++ s.chunk
    chunk := [] }

/-- the first three bytes after the steps of another request -/
def storeSteps (w : Nat → UInt8) (steps : List Micro) : Nat → UInt8 :=
  let f := storedAll (firstFrame w) steps
  Function.update (Function.update (Function.update w 0 f.cmd) 1 f.addr) 2 f.data

inductive UartEvent where
  | byte (b : UInt8)
  /-- `pollint_spi_transmit` -/
  | poll
  /-- another caller's request, from its first step to its last -/
  | request (steps : List Micro)

def linkStep (s : Uart2Link) : UartEvent → Uart2Link
  | .byte b => { s with uart := s.uart.byte b, chunk := s.chunk ++ [b] }
  | .poll => s.poll
  | .request steps => { s with writeData := storeSteps s.writeData steps }

/-- at most 15 bytes come between two polls -/
def ShortChunks (s : Uart2Link) : UartEvent → Prop
  | .byte _ => s.chunk.length < 15
  | .poll | .request _ => True

instance (s : Uart2Link) (e : UartEvent) : Decidable (ShortChunks s e) := by
  cases e with
  | byte b => exact inferInstanceAs (Decidable (_ < _))
  | poll => exact instDecidableTrue
  | request steps => exact instDecidableTrue

/-! ## what is to hold -/

def frameOf (l : List UInt8) : Frame := ⟨l.getD 0 0, l.getD 1 0, l.getD 2 0⟩

/-- the frames are the stream cut into triples, and what is over is counted -/
structure CutRight (s : Uart2Link) : Prop where
  frames : s.frames = (blocks 3 s.taken).map frameOf
  kept : s.spiTransCount = s.taken.length % 3
  inside : s.outside = false

/-- the chunk fits into the frame, and the frame that it completes begins with the bytes before -/
structure PollFits (s : Uart2Link) : Prop where
  fits : s.spiTransCount + s.chunk.length ≤ 3
  held : s.spiTransCount + s.chunk.length = 3 →
    (List.range s.spiTransCount).map s.writeData = rest 3 s.taken

def KeepsCut (s : Uart2Link) : UartEvent → Prop
  | .poll => PollFits s
  | .byte _ | .request _ => True

/-! ## against the machine of single steps -/

theorem copyTo_map (w : Nat → UInt8) (i : Nat) (bs : List UInt8) :
    (List.range (i + bs.length)).map (copyTo w i bs) = (List.range i).map w ++ bs := by
  induction bs generalizing w i with
  | nil => exact (List.append_nil _).symm
  | cons b bs ih =>
    have h := ih (Function.update w i b) (i + 1)
    have hbefore : (List.range i).map (Function.update w i b) = (List.range i).map w := by
      apply List.map_congr_left
      intro j hj
      exact Function.update_of_ne (Nat.ne_of_lt (List.mem_range.1 hj)) ..
    rw [List.range_succ, List.map_append, List.map_singleton, Function.update_self, hbefore,
      List.append_assoc, List.singleton_append] at h
    rw [List.length_cons, ← h, Nat.add_right_comm, Nat.add_assoc]
    rfl

theorem storeAt_copy (w : Nat → UInt8) (i : Nat) (b : UInt8) :
    storedAll (firstFrame w) (storeAt i b) = firstFrame (Function.update w i b) := by
  match i with
  | 0 => rfl
  | 1 => rfl
  | 2 => rfl
  | n + 3 =>
    have h : ∀ j, j < 3 → Function.update w (n + 3) b j = w j := by
      intro j hj
      exact Function.update_of_ne (by omega) ..
    unfold firstFrame
    rw [h 0 (by omega), h 1 (by omega), h 2 (by omega)]
    rfl

theorem storedAll_append (f : Frame) (l l' : List Micro) :
    storedAll f (l ++ l') = storedAll (storedAll f l) l' := List.foldl_append

theorem copyBytes_copy (w : Nat → UInt8) (i : Nat) (bs : List UInt8) :
    storedAll (firstFrame w) (copyBytes i bs) = firstFrame (copyTo w i bs) := by
  induction bs generalizing w i with
  | nil => rfl
  | cons b bs ih =>
    rw [copyBytes, storedAll_append, storeAt_copy, ih]
    rfl

theorem framesOf_storeAt (w : Frame) (i : Nat) (b : UInt8) : framesOf w (storeAt i b) = [] := by
  match i with
  | 0 => rfl
  | 1 => rfl
  | 2 => rfl
  | n + 3 => rfl

theorem framesOf_copyBytes (w : Frame) (i : Nat) (bs : List UInt8) :
    framesOf w (copyBytes i bs) = [] := by
  induction bs generalizing w i with
  | nil => rfl
  | cons b bs ih => rw [copyBytes, framesOf_append, framesOf_storeAt, ih, List.nil_append]

/-- **A poll** of the single-step machine leaves the counter and the buffer of the link. -/
theorem poll_refines (s : Spi) (l : Uart2Link) (hw : firstFrame l.writeData = s.writeData)
    (hc : l.spiTransCount = s.transCount) :
    (pollintSpiTransmit { s with fg := [] } (usart2GetRxBufDat l.uart).1).transCount
        = l.poll.spiTransCount ∧
      storedAll s.writeData (pollintSpiTransmit { s with fg := [] } (usart2GetRxBufDat l.uart).1).fg
        = firstFrame l.poll.writeData := by
  unfold Uart2Link.poll
  generalize (usart2GetRxBufDat l.uart).1 = bytes
  simp only [← hw, hc]
  unfold pollintSpiTransmit
  by_cases hb : bytes.length ≠ 0
  · simp only [if_pos hb]
    refine ⟨trivial, ?_⟩
    rw [storedAll_append, copyBytes_copy]
    by_cases ht : (transLoop bytes.length s.transCount).2
    · rw [if_pos ht]
      rfl
    · rw [if_neg ht]
      rfl
  · obtain rfl : bytes = [] := List.length_eq_zero_iff.1 (not_not.1 hb)
    rw [if_neg hb]
    by_cases hr : s.retryFlag = true
    · rw [if_pos hr]
      refine ⟨rfl, ?_⟩
      by_cases ht : s.retryTimes = 0
      · show storedAll _ (if s.retryTimes = 0 then retrySpi4 else []) = _
        rw [if_pos ht]
        rfl
      · show storedAll _ (if s.retryTimes = 0 then retrySpi4 else []) = _
        rw [if_neg ht]
        rfl
    · rw [if_neg hr]
      exact ⟨rfl, rfl⟩

/-- the buffer at the end of the current request -/
def Spi.endData (s : Spi) : Frame := storedAll s.writeData s.fg

theorem endData_exec (s : Spi) (m : Micro) (rest : List Micro) (r : HalStatus)
    (hfg : s.fg = m :: rest) : (exec s m rest r).endData = s.endData := by
  unfold Spi.endData
  rcases exec_cases s m rest r with ⟨_, _, hs⟩ | ⟨rfl, _, hs⟩ | ⟨_, hst⟩
  · rw [hs]
  · rw [hs, hfg]
    rfl
  · rw [hst.fg, hst.writeData, hfg]
    rfl

/-- a completion leaves `Write_Data` as it is -/
theorem endData_irq (s : Spi) (rx : Frame) : (txRxCplt s rx).endData = s.endData := by
  rcases txRxCplt_cases s rx with ⟨_, regs, dev, out, -, he⟩ | ⟨_, he⟩
  · rw [he]
    rfl
  · rw [he]
    rfl

/-- the events while a request is served -/
def NoCall : SpiEvent → Prop
  | .call _ => False
  | _ => True

theorem endData_step {s : Spi} {e : SpiEvent} (he : NoCall e) :
    (spiStep s e).endData = s.endData := by
  cases e with
  | call q => exact he.elim
  | link up => rfl
  | irq rx =>
    by_cases hb : s.busy = true
    · rw [spiStep_irq rx hb, endData_irq]
    · rw [spiStep_irq_idle rx hb]
  | step r =>
    cases hfg : s.fg with
    | nil => rw [spiStep_step_nil _ hfg]
    | cons m rest => rw [spiStep_step_cons _ hfg, endData_exec s m rest r hfg]

/-- a poll that took bytes sends what the link hands over -/
theorem poll_frames (s : Spi) (l : Uart2Link) (hw : firstFrame l.writeData = s.writeData)
    (hc : l.spiTransCount = s.transCount) (hb : (usart2GetRxBufDat l.uart).1 ≠ []) :
    l.poll.frames = l.frames ++ framesOf s.writeData
      (pollintSpiTransmit { s with fg := [] } (usart2GetRxBufDat l.uart).1).fg := by
  unfold Uart2Link.poll
  generalize (usart2GetRxBufDat l.uart).1 = bytes at hb
  simp only [← hw, hc]
  unfold pollintSpiTransmit
  rw [if_pos (List.length_eq_zero_iff.not.2 hb)]
  simp only
  rw [framesOf_append, framesOf_copyBytes, copyBytes_copy]
  by_cases ht : (transLoop bytes.length s.transCount).2
  · rw [if_pos ht, if_pos ht]
    rfl
  · rw [if_neg ht, if_neg ht]
    exact (List.append_nil _).symm

/-! ## the frames -/

theorem transLoop_short (len count : Nat) (h : count + len < 3) :
    transLoop len count = (count + len, false) := by
  induction len generalizing count with
  | zero => rfl
  | succ len ih =>
    have hne : count + 1 ≠ 3 := by omega
    rw [transLoop, if_neg hne, ih (count + 1) (by omega), Nat.add_right_comm, Nat.add_assoc]

/-- the loop ends with the third byte, whatever is left -/
theorem transLoop_full (len count : Nat) (hc : count < 3) (h : 3 ≤ count + len) :
    transLoop len count = (0, true) := by
  induction len generalizing count with
  | zero => omega
  | succ len ih =>
    rw [transLoop]
    by_cases he : count + 1 = 3
    · rw [if_pos he]
    · rw [if_neg he, ih (count + 1) (by omega) (by omega)]

def Frame.bytes (f : Frame) : List UInt8 := [f.cmd, f.addr, f.data]

theorem bytes_frameOf {l : List UInt8} (h : l.length = 3) : (frameOf l).bytes = l := by
  obtain ⟨a, b, c, rfl⟩ := List.length_eq_three.1 h
  rfl

theorem frameOf_inj {l m : List UInt8} (hl : l.length = 3) (hm : m.length = 3)
    (h : frameOf l = frameOf m) : l = m := by
  rw [← bytes_frameOf hl, h, bytes_frameOf hm]

/-- no byte is lost: the frames and the rest are the stream -/
theorem CutRight.bytes {s : Uart2Link} (h : CutRight s) :
    s.frames.flatMap Frame.bytes ++ rest 3 s.taken = s.taken := by
  have hall : (blocks 3 s.taken).flatMap (fun l => (frameOf l).bytes) = (blocks 3 s.taken).flatten := by
    rw [List.flatMap_def, List.map_congr_left fun l hl => bytes_frameOf (length_of_mem_blocks hl),
      List.map_id']
  rw [h.frames, List.flatMap_map, hall, blocks_flatten_rest]

structure LinkInv (s : Uart2Link) : Prop where
  count : s.uart.rxcount = s.chunk.length
  armed : s.uart.armed = some s.chunk.length
  busy : s.uart.busy = false
  buf : (List.range s.chunk.length).map s.uart.rxBuf = s.chunk
  cut : CutRight s

theorem linkStart_inv : LinkInv linkStart :=
  ⟨rfl, rfl, rfl, rfl, rfl, rfl, rfl⟩

theorem linkByte_inv {s : Uart2Link} (h : LinkInv s) (b : UInt8) (hs : s.chunk.length < 15) :
    LinkInv (linkStep s (.byte b)) := by
  have hnext : rbufNextPt s.uart.rxcount 1 usart2RxBufNumber = s.chunk.length + 1 := by
    rw [h.count, show usart2RxBufNumber = 2 ^ 4 from rfl, rbufNextPt_two_pow]
    omega
  have hbyte : s.uart.byte b =
      { s.uart with
        rxcount := s.chunk.length + 1
        armed := some (s.chunk.length + 1)
        rxBuf := Function.update s.uart.rxBuf s.chunk.length b } := by
    unfold Usart2.byte
    rw [h.armed]
    show usart2RxDeal _ = _
    unfold usart2RxDeal
    rw [if_pos h.busy]
    simp only [hnext]
  have hlen : (s.chunk ++ [b]).length = s.chunk.length + 1 := List.length_append
  have hmap := copyTo_map s.uart.rxBuf s.chunk.length [b]
  show LinkInv { s with uart := s.uart.byte b, chunk := s.chunk ++ [b] }
  rw [hbyte]
  refine ⟨hlen.symm, congrArg some hlen.symm, h.busy, ?_, h.cut.frames, h.cut.kept, h.cut.inside⟩
  rw [h.buf] at hmap
  rw [hlen]
  exact hmap

/-- what a poll does, in the terms of the stream -/
theorem poll_eq {s : Uart2Link} (h : LinkInv s) :
    s.poll =
      { uart := { s.uart with rxcount := 0, armed := some 0, busy := false }
        writeData := copyTo s.writeData s.spiTransCount s.chunk
        spiTransCount := (transLoop s.chunk.length s.spiTransCount).1
        frames := if (transLoop s.chunk.length s.spiTransCount).2
          then s.frames ++ [firstFrame (copyTo s.writeData s.spiTransCount s.chunk)] else s.frames
        outside := s.outside || decide (writeDataNumber < s.spiTransCount + s.chunk.length)
        taken := s.taken ++ s.chunk
        chunk := [] } := by
  have hbytes : (usart2GetRxBufDat s.uart).1 = s.chunk := by
    unfold usart2GetRxBufDat
    rw [h.count]
    exact h.buf
  unfold Uart2Link.poll
  rw [hbytes]
  rfl

/-- the frame that a poll completes -/
theorem poll_frame (s : Uart2Link) (h : s.spiTransCount + s.chunk.length = 3) :
    firstFrame (copyTo s.writeData s.spiTransCount s.chunk) =
      frameOf ((List.range s.spiTransCount).map s.writeData ++ s.chunk) := by
  rw [← copyTo_map, h]
  rfl

theorem poll_cut {s : Uart2Link} (h : LinkInv s) (hf : PollFits s) : CutRight s.poll := by
  have hk := h.cut.kept
  have hr : s.spiTransCount = (rest 3 s.taken).length := by rw [rest_length, hk]
  have hle := hf.fits
  have hin : (s.outside || decide (writeDataNumber < s.spiTransCount + s.chunk.length)) = false := by
    rw [h.cut.inside, Bool.false_or, decide_eq_false_iff_not]
    unfold writeDataNumber
    omega
  have hlen : (s.taken ++ s.chunk).length = s.taken.length + s.chunk.length := List.length_append
  rw [poll_eq h]
  rcases Nat.lt_or_eq_of_le hle with hlt | heq
  · rw [transLoop_short _ _ hlt]
    refine ⟨?_, ?_, hin⟩
    · show s.frames = (blocks 3 (s.taken ++ s.chunk)).map frameOf
      rw [blocks_append_of_lt _ _ (hk ▸ hlt), h.cut.frames]
    · show s.spiTransCount + s.chunk.length = (s.taken ++ s.chunk).length % 3
      omega
  · rw [transLoop_full _ _ (by omega) (by omega)]
    refine ⟨?_, ?_, hin⟩
    · show s.frames ++ [firstFrame _] = (blocks 3 (s.taken ++ s.chunk)).map frameOf
      rw [poll_frame s heq, hf.held heq, blocks_append_of_eq _ _ (by decide) (hk ▸ heq),
        List.map_append, h.cut.frames]
      rfl
    · show 0 = (s.taken ++ s.chunk).length % 3
      omega

theorem poll_not_cut {s : Uart2Link} (h : LinkInv s) (hf : ¬ PollFits s) : ¬ CutRight s.poll := by
  have hk := h.cut.kept
  have hlen : (s.taken ++ s.chunk).length = s.taken.length + s.chunk.length := List.length_append
  have hfull : 3 ≤ s.spiTransCount + s.chunk.length := by
    refine Nat.le_of_not_lt fun hlt => hf ⟨by omega, fun heq => ?_⟩
    omega
  intro hcut
  rw [poll_eq h, transLoop_full _ _ (by omega) hfull] at hcut
  have hfr : s.frames ++ [firstFrame (copyTo s.writeData s.spiTransCount s.chunk)] =
      (blocks 3 (s.taken ++ s.chunk)).map frameOf := hcut.frames
  have hkept : 0 = (s.taken ++ s.chunk).length % 3 := hcut.kept
  have hcount := congrArg List.length hfr
  rw [List.length_append, List.length_map, blocks_length, h.cut.frames, List.length_map,
    blocks_length, List.length_singleton] at hcount
  -- one frame more: the chunk just completes it
  have heq : s.spiTransCount + s.chunk.length = 3 := by omega
  rw [h.cut.frames, blocks_append_of_eq _ _ (by decide) (hk ▸ heq), List.map_append,
    poll_frame s heq] at hfr
  have hlast := List.singleton_inj.1 (List.append_cancel_left hfr)
  refine hf ⟨by omega, fun _ => List.append_cancel_right (frameOf_inj ?_ ?_ hlast)⟩
  · rw [List.length_append, List.length_map, List.length_range, heq]
  · rw [List.length_append, rest_length, ← hk, heq]

theorem poll_inv {s : Uart2Link} (h : LinkInv s) (hf : PollFits s) : LinkInv s.poll := by
  have hcut := poll_cut h hf
  rw [poll_eq h] at hcut ⊢
  exact ⟨rfl, rfl, rfl, rfl, hcut⟩

theorem link_good (s : Uart2Link) (e : UartEvent) (h : LinkInv s) (hs : ShortChunks s e)
    (hg : KeepsCut s e) : LinkInv (linkStep s e) := by
  cases e with
  | byte b => exact linkByte_inv h b hs
  | poll => exact poll_inv h hg
  | request steps =>
    exact ⟨h.count, h.armed, h.busy, h.buf, h.cut.frames, h.cut.kept, h.cut.inside⟩

theorem link_bad (s : Uart2Link) (e : UartEvent) (h : LinkInv s) (hs : ShortChunks s e)
    (hg : ¬ KeepsCut s e) : ¬ CutRight (linkStep s e) := by
  cases e with
  | poll => exact poll_not_cut h hg
  | byte b => exact absurd trivial hg
  | request steps => exact absurd trivial hg

/-- **The stream is cut right** at every moment iff no poll finds more bytes than the frame lacks,
and the bytes before are still there when a poll completes a frame. -/
theorem cut_iff (es : List UartEvent) (h : Along linkStep ShortChunks linkStart es) :
    Always linkStep CutRight linkStart es ↔ Along linkStep KeepsCut linkStart es :=
  Always_iff_Along_of (fun _ hi => hi.cut) link_good link_bad linkStart_inv h

theorem cut_two_polls :
    let es : List UartEvent := [.byte 0x01, .byte 0x04, .poll, .byte 0x02, .poll]
    Always linkStep CutRight linkStart es ∧ (run linkStep linkStart es).frames = [⟨0x01, 0x04, 0x02⟩] :=
  ⟨(cut_iff _ (by decide)).2 (by
    refine ⟨trivial, trivial, ⟨by decide, by decide⟩, trivial, ⟨by decide, by decide⟩, trivial⟩), by decide⟩

def sixBytes : List UartEvent :=
  [1, 2, 3, 4].map UartEvent.byte ++ [.poll] ++ [5, 6].map UartEvent.byte ++ [.poll]

/-- A fourth byte in a chunk is lost; the read of a register between two polls puts its own bytes
into the frame; fifteen bytes behind two run out of the buffer. -/
theorem chunking_matters :
    Along linkStep ShortChunks linkStart sixBytes ∧
    (run linkStep linkStart sixBytes).frames = [⟨1, 2, 3⟩] ∧
    ¬ Always linkStep CutRight linkStart sixBytes ∧
    (run linkStep linkStart [.byte 1, .byte 2, .poll, .request (getReg 0x80), .byte 3, .poll]).frames
      = [⟨0x00, 0x80, 3⟩] ∧
    (run linkStep linkStart
        ([1, 2].map UartEvent.byte ++ [.poll] ++ (List.replicate 15 (.byte 0)) ++ [.poll])).outside
      = true := by
  refine ⟨by decide, by decide, fun h => ?_, by decide, by decide⟩
  have hframes := h.last.frames
  revert hframes
  decide

end MenuFirmware
