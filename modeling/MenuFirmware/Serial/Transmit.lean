import MenuFirmware.Lib.RingBuf
import MenuFirmware.Lib.Sender
import MenuFirmware.Serial.Receive

/-!
# Transmission on USART3 (`uart3.c`)

A ring of 512 slots between the callers of `USART3_Putchar` and the UART.  The HAL is given the
address of one slot and reads it while it transmits; by then the read index is already past it.

* `usart3Putchar`, `halUartTxCpltCallback`  the two ends of the ring;
* `UsartTx.Represents`   the ring and the slot in transmission as a `Sender`;
* `represents_putchar`, `represents_txCplt`  each event keeps it;
* `usart3_transmit`      over every run what is handed to the UART, and what leaves it, is what was
                         put, in order; it transmits while bytes wait.
-/

set_option linter.unusedSectionVars false
set_option linter.unusedVariables false

namespace MenuFirmware
open Runs

/-! ## the code -/

def usart3TxBufNumber : Nat := 0x200

/-- `usart3.tx`, `usart3_tx_buf` and the transmitter of `huart3` -/
structure UsartTx where
  ring : RingBuf UInt8 usart3TxBufNumber
  haveData : Bool
  /-- the slot that `pTxBuffPtr` points to, `none` when `gState` is ready -/
  txSlot : Option Nat
  /-- ghost: the bytes given to `HAL_UART_Transmit_IT`, and those that have left the UART -/
  handed : List UInt8
  line : List UInt8

/-- `HAL_UART_Transmit_IT` of the slot at the read index -/
def halUartTransmitIT (u : UsartTx) : UsartTx :=
  match u.txSlot with
  | none =>
    { u with txSlot := some u.ring.read, handed := u.handed ++ [u.ring.slots u.ring.read] }
  -- `HAL_BUSY`, which no caller looks at
  | some _ => u

/-- hands the next byte over and moves the read index on -/
def transmitNext (u : UsartTx) : UsartTx :=
  { halUartTransmitIT u with ring := u.ring.pop }

/-- the call does not return while the ring is full -/
def putcharReturns (u : UsartTx) : Bool :=
  rbufNextPt u.ring.write 1 usart3TxBufNumber != u.ring.read

/-- the byte is in the ring -/
def txStore (u : UsartTx) (ch : UInt8) : UsartTx := { u with ring := u.ring.push ch }

def usart3Putchar (u : UsartTx) (ch : UInt8) : UsartTx :=
  if putcharReturns u then
    if u.haveData = false then transmitNext { txStore u ch with haveData := true }
    else txStore u ch
  else u

def halUartTxCpltCallback (u : UsartTx) : UsartTx :=
  if u.ring.write = u.ring.read then { u with haveData := false } else transmitNext u

/-- `UART_EndTransmit_IT`: the byte has been read from its slot and has left -/
def uartEndTransmitIT (u : UsartTx) : UsartTx :=
  halUartTxCpltCallback
    { u with txSlot := none, line := u.line ++ (u.txSlot.map u.ring.slots).toList }

inductive TxEvent where
  | putchar (ch : UInt8)
  | txCplt

def txStep (u : UsartTx) : TxEvent → UsartTx
  | .putchar ch => usart3Putchar u ch
  | .txCplt => uartEndTransmitIT u

def txInit : UsartTx where
  ring := ⟨fun _ => 0, 0, 0, by decide, by decide⟩
  haveData := false
  txSlot := none
  handed := []
  line := []

/-- the bytes that the events put: a call that waits for a free slot puts nothing -/
def putByte (u : UsartTx) : TxEvent → Option UInt8
  | .putchar ch => if putcharReturns u then some ch else none
  | .txCplt => none

/-! ## the ring -/

/-- a call returns iff a slot stays free behind the byte -/
theorem putcharReturns_iff (u : UsartTx) :
    putcharReturns u = true ↔ u.ring.count + 1 < usart3TxBufNumber := by
  have hn : rbufNextPt u.ring.write 1 usart3TxBufNumber = (u.ring.push 0).write :=
    rbufNextPt_two_pow u.ring.write 1 9
  have hc : (u.ring.push 0).count = 0 ↔ u.ring.read = (u.ring.push 0).write :=
    RingBuf.count_eq_zero _
  have hlt := u.ring.count_lt
  unfold putcharReturns
  rw [hn, bne_iff_ne, ne_comm, Ne, ← hc, RingBuf.count_push]
  by_cases h : u.ring.count + 1 = usart3TxBufNumber
  · rw [h, Nat.mod_self]
    omega
  · rw [Nat.mod_eq_of_lt (by omega)]
    omega

/-- the slot before the read index, which the byte in transmission is read from -/
def behindRead (r : RingBuf UInt8 usart3TxBufNumber) (i : Nat) : Prop :=
  i < usart3TxBufNumber ∧ (i + 1) % usart3TxBufNumber = r.read

theorem behindRead_pop (r : RingBuf UInt8 usart3TxBufNumber) : behindRead r.pop r.read :=
  ⟨r.read_lt, rfl⟩

/-- it is not written while a slot stays free -/
theorem slots_push_behindRead {r : RingBuf UInt8 usart3TxBufNumber} {i : Nat} (ch : UInt8)
    (hi : behindRead r i) (h : r.count + 1 < usart3TxBufNumber) :
    (r.push ch).slots i = r.slots i := by
  have hne : i ≠ r.write := by
    rintro rfl
    have hc : (r.push ch).count = 0 := (RingBuf.count_eq_zero _).2 hi.2.symm
    rw [RingBuf.count_push, Nat.mod_eq_of_lt h] at hc
    omega
  exact Function.update_of_ne hne ..

/-! ## the queue that it implements -/

/-- one slot of the ring always stays free -/
abbrev TxQueue := Sender UInt8 511

/-- the ring holds what waits; the slot in transmission holds what is on the line; the UART is at
work iff `HaveData` is set -/
structure UsartTx.Represents (u : UsartTx) (q : TxQueue) : Prop where
  waiting : u.ring.contents = q.waiting
  sending : u.txSlot.map u.ring.slots = q.sending
  behind : ∀ i, u.txSlot = some i → behindRead u.ring i
  haveData : u.haveData = q.sending.isSome
  line : u.line = q.sent
  handed : u.handed = q.sent ++ q.sending.toList

theorem UsartTx.represents_init : txInit.Represents Sender.empty where
  waiting := rfl
  sending := rfl
  behind i h := by cases h
  haveData := rfl
  line := rfl
  handed := rfl

section
variable {u : UsartTx} {q : TxQueue}

theorem UsartTx.Represents.count (h : u.Represents q) : u.ring.count = q.waiting.length := by
  rw [← h.waiting, RingBuf.contents_length]

theorem UsartTx.Represents.returns_iff (h : u.Represents q) :
    putcharReturns u = true ↔ q.waiting.length < 511 := by
  rw [putcharReturns_iff, h.count]
  exact Nat.succ_lt_succ_iff

theorem UsartTx.Represents.txSlot_eq_none (h : u.Represents q) : u.txSlot = none ↔ q.sending = none := by
  rw [← h.sending, Option.map_eq_none_iff]

/-- a call that finds the UART idle -/
theorem UsartTx.represents_putchar_idle (h : u.Represents q) (hq : q.waiting.length < 511)
    (hs : q.sending = none) (ch : UInt8) :
    (transmitNext { txStore u ch with haveData := true }).Represents (q.put ch) := by
  obtain ⟨hw, hn, hd⟩ := Sender.put_free hq hs ch
  have hslot : u.txSlot = none := h.txSlot_eq_none.2 hs
  have hemp : u.ring.contents = [] := by rw [h.waiting, q.busy_of_waiting hs]
  have hrw : u.ring.read = u.ring.write := (RingBuf.contents_eq_nil _).1 hemp
  have hread : (u.ring.push ch).slots u.ring.read = ch := by
    rw [hrw]
    exact Function.update_self ..
  have hcons : (u.ring.push ch).contents = [ch] := by
    rw [RingBuf.contents_push _ _ ((putcharReturns_iff u).1 (h.returns_iff.2 hq)), hemp,
      List.nil_append]
  have hne : (u.ring.push ch).read ≠ (u.ring.push ch).write := by
    intro e
    rw [(RingBuf.contents_eq_nil _).2 e] at hcons
    cases hcons
  have hpop := RingBuf.contents_pop (u.ring.push ch) hne
  rw [hcons] at hpop
  have hslot' : (halUartTransmitIT { txStore u ch with haveData := true }) =
      { u with
        ring := u.ring.push ch, haveData := true, txSlot := some u.ring.read,
        handed := u.handed ++ [(u.ring.push ch).slots u.ring.read] } := by
    unfold halUartTransmitIT txStore
    rw [hslot]
    rfl
  unfold transmitNext
  rw [hslot']
  refine ⟨?_, ?_, ?_, ?_, ?_, ?_⟩
  · rw [hw]
    exact (List.cons.inj hpop).2.symm
  · rw [hn]
    exact congrArg some hread
  · rintro i ⟨⟩
    exact behindRead_pop (u.ring.push ch)
  · rw [hn]
    rfl
  · rw [hd]
    exact h.line
  · rw [hd, hn, Option.toList_some]
    show u.handed ++ [(u.ring.push ch).slots u.ring.read] = _
    rw [h.handed, hs, Option.toList_none, List.append_nil, hread]

/-- a call that finds it at work -/
theorem UsartTx.represents_putchar_busy (h : u.Represents q) (hq : q.waiting.length < 511) {y : UInt8}
    (hs : q.sending = some y) (ch : UInt8) : (txStore u ch).Represents (q.put ch) := by
  obtain ⟨hw, hn, hd⟩ := Sender.put_busy hq hs ch
  have hroom := (putcharReturns_iff u).1 (h.returns_iff.2 hq)
  refine ⟨?_, ?_, ?_, ?_, ?_, ?_⟩
  · rw [hw, ← h.waiting]
    exact RingBuf.contents_push _ _ hroom
  · rw [hn, ← hs, ← h.sending]
    show u.txSlot.map (u.ring.push ch).slots = _
    cases e : u.txSlot with
    | none => rfl
    | some i => exact congrArg some (slots_push_behindRead ch (h.behind i e) hroom)
  · exact h.behind
  · rw [hn, ← hs]
    exact h.haveData
  · rw [hd]
    exact h.line
  · rw [hd, hn, ← hs]
    exact h.handed

theorem UsartTx.represents_putchar (h : u.Represents q) (ch : UInt8) :
    (usart3Putchar u ch).Represents (q.put ch) := by
  unfold usart3Putchar
  by_cases hq : q.waiting.length < 511
  · rw [if_pos (h.returns_iff.2 hq), h.haveData]
    cases hs : q.sending with
    | none => exact UsartTx.represents_putchar_idle h hq hs ch
    | some y => exact UsartTx.represents_putchar_busy h hq hs ch
  · rw [if_neg (fun e => hq (h.returns_iff.1 e)), Sender.put_full hq]
    exact h

theorem UsartTx.represents_txCplt (h : u.Represents q) : (uartEndTransmitIT u).Represents q.done := by
  have hsent : u.line ++ (u.txSlot.map u.ring.slots).toList = q.done.sent := by
    rw [h.line, h.sending]
    rfl
  unfold uartEndTransmitIT halUartTxCpltCallback
  by_cases hrw : u.ring.write = u.ring.read
  · have hw : q.waiting = [] := by
      rw [← h.waiting]
      exact (RingBuf.contents_eq_nil _).2 hrw.symm
    have hnone : q.done.sending = none := by
      show q.waiting.head? = none
      rw [hw]
      rfl
    rw [if_pos hrw]
    refine ⟨?_, hnone.symm, ?_, ?_, hsent, ?_⟩
    · show u.ring.contents = q.waiting.tail
      rw [h.waiting, hw]
      rfl
    · rintro i ⟨⟩
    · rw [hnone]
      rfl
    · rw [hnone, Option.toList_none, List.append_nil]
      exact h.handed
  · have hpop := RingBuf.contents_pop u.ring (Ne.symm hrw)
    rw [h.waiting] at hpop
    have hnext : q.done.sending = some (u.ring.slots u.ring.read) := by
      show q.waiting.head? = _
      rw [hpop]
      rfl
    rw [if_neg hrw]
    refine ⟨?_, hnext.symm, ?_, ?_, hsent, ?_⟩
    · show u.ring.pop.contents = q.waiting.tail
      rw [hpop]
      rfl
    · rintro i ⟨⟩
      exact behindRead_pop u.ring
    · rw [hnext]
      show u.haveData = true
      rw [h.haveData]
      cases hs : q.sending with
      | none =>
        rw [q.busy_of_waiting hs] at hpop
        cases hpop
      | some y => rfl
    · rw [hnext]
      show u.handed ++ [u.ring.slots u.ring.read] = q.sent ++ q.sending.toList ++ _
      rw [h.handed]
      rfl

end

/-! ## every run -/

def TxEvent.op : TxEvent → SenderOp UInt8
  | .putchar ch => .put ch
  | .txCplt => .done

/-- the queue takes the same events -/
def queueTxStep (q : TxQueue) (e : TxEvent) : TxQueue := q.step e.op

theorem UsartTx.represents_step (u : UsartTx) (q : TxQueue) (e : TxEvent) (h : u.Represents q) :
    (txStep u e).Represents (queueTxStep q e) := by
  cases e with
  | putchar ch => exact UsartTx.represents_putchar h ch
  | txCplt => exact UsartTx.represents_txCplt h

theorem queueTx_run (q : TxQueue) (es : List TxEvent) :
    run queueTxStep q es = run Sender.step q (es.map TxEvent.op) := by
  induction es generalizing q with
  | nil => rfl
  | cons e es ih => exact ih _

theorem UsartTx.represents_run (es : List TxEvent) :
    (run txStep txInit es).Represents (run queueTxStep Sender.empty es) :=
  run_simulation UsartTx.represents_step UsartTx.represents_init es

/-- the ring takes a byte iff the queue does -/
theorem putByte_eq_takes {u : UsartTx} {q : TxQueue} (h : u.Represents q) (e : TxEvent) :
    putByte u e = q.takes e.op := by
  cases e with
  | putchar ch =>
    show (if putcharReturns u then some ch else none)
      = if q.waiting.length < 511 then some ch else none
    by_cases hq : q.waiting.length < 511
    · rw [if_pos (h.returns_iff.2 hq), if_pos hq]
    · rw [if_neg (fun e => hq (h.returns_iff.1 e)), if_neg hq]
  | txCplt => rfl

theorem putBytes_eq (es : List TxEvent) :
    emitted txStep putByte txInit es = (run queueTxStep Sender.empty es).all := by
  have hout : outputs txStep putByte txInit es =
      outputs Sender.step Sender.takes (Sender.empty : TxQueue) (es.map TxEvent.op) := by
    have h : ∀ (u : UsartTx) (q : TxQueue), u.Represents q →
        outputs txStep putByte u es = outputs Sender.step Sender.takes q (es.map TxEvent.op) := by
      induction es with
      | nil => exact fun _ _ _ => rfl
      | cons e es ih =>
        intro u q huq
        rw [List.map_cons, outputs_cons, outputs_cons, putByte_eq_takes huq e,
          ih _ _ (UsartTx.represents_step u q e huq)]
        rfl
    exact h txInit Sender.empty UsartTx.represents_init
  rw [queueTx_run, Sender.conservation]
  unfold emitted
  rw [hout]

/-- **Transmission is a queue.**  Whatever the order of the calls and the completions: the bytes
handed to the UART are, in order, those put, up to the bytes that still wait; those that have left
it are the ones handed over, up to the byte in transmission; while bytes wait it transmits; and
without `HaveData` the ring is empty.  Once it has completed often enough, all bytes put have
left. -/
theorem usart3_transmit (es : List TxEvent) :
    let u := run txStep txInit es
    u.handed ++ u.ring.contents = emitted txStep putByte txInit es ∧
    u.line ++ (u.txSlot.map u.ring.slots).toList = u.handed ∧
    (u.ring.contents ≠ [] → u.txSlot ≠ none) ∧
    (u.haveData = false → u.ring.read = u.ring.write) ∧
    ∃ n, ∀ m, n ≤ m →
      (run txStep u (List.replicate m .txCplt)).line = emitted txStep putByte txInit es := by
  intro u
  have h : u.Represents (run queueTxStep Sender.empty es) := UsartTx.represents_run es
  have hidle : u.txSlot = none → u.ring.contents = [] := by
    intro e
    rw [h.waiting, Sender.busy_of_waiting _ (h.txSlot_eq_none.1 e)]
  refine ⟨?_, ?_, ?_, ?_, (run queueTxStep Sender.empty es).left, ?_⟩
  · rw [putBytes_eq, h.handed, h.waiting]
    rfl
  · rw [h.line, h.sending, h.handed]
  · exact fun hne e => hne (hidle e)
  · intro e
    have hs := h.haveData.symm.trans e
    rw [Option.isSome_eq_false_iff, Option.isNone_iff_eq_none] at hs
    exact (RingBuf.contents_eq_nil _).1 (hidle (h.txSlot_eq_none.2 hs))
  · intro m hm
    have hend := run_simulation UsartTx.represents_step h (List.replicate m .txCplt)
    rw [hend.line, queueTx_run, List.map_replicate, putBytes_eq]
    exact Sender.drained _ hm

end MenuFirmware
