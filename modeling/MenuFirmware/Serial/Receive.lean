import MenuFirmware.Lib.Run
import Mathlib.Algebra.Group.Nat.Defs
import Mathlib.Data.List.GetD
import Mathlib.Logic.Function.Basic

/-!
# Reception on USART3 (`uart3.c`)

The HAL receives one byte at a time and stores it where it was told when the reception was armed.
The callback arms the next reception BEFORE it moves the write index on, and taking a message out
puts the index back to the start without arming anew.

* `Usart3`               index, timeout, buffer, and where the next byte goes;
* `halUartRxCpltCallback`, `usart3RxReaddy`, `usart3GetRxBufDat`  a byte, a tick, a message;
* `Line`                 the receiver with the messages sent and the messages received;
* `storedAt`             which byte of the messages so far the buffer holds at an index;
* `Intact`               a message that comes out as it was sent;
* `received_iff`         all messages of a run come out as sent iff each of them is `Intact`.
-/

set_option linter.unusedSectionVars false
set_option linter.unusedVariables false

namespace MenuFirmware
open Runs

/-! ## the receiver -/

/-- `RBUF_NEXT_PT`, for a size that is a power of two -/
def rbufNextPt (dat offset size : Nat) : Nat := (dat + offset) &&& (size - 1)

theorem rbufNextPt_two_pow (dat offset k : Nat) :
    rbufNextPt dat offset (2 ^ k) = (dat + offset) % 2 ^ k := Nat.and_two_pow_sub_one_eq_mod ..

def usart3RxBufNumber : Nat := 0x200
def rxTimeout : Nat := 10

structure Usart3 where
  rxcount : Nat
  timeout : Nat
  busy : Bool
  rxBuf : Nat → UInt8
  /-- where the HAL stores the next byte, `none` when no reception is armed -/
  armed : Option Nat

def mxUsart3UartInit : Usart3 where
  rxcount := rbufNextPt 0 1 usart3RxBufNumber
  timeout := 0
  busy := false
  rxBuf _ := 0
  armed := some 0

def halUartRxCpltCallback (u : Usart3) : Usart3 :=
  if u.busy = false then
    { u with
      timeout := 0
      armed := some u.rxcount
      rxcount := rbufNextPt u.rxcount 1 usart3RxBufNumber }
  else u

/-- a byte on the line: the HAL stores it, disarms itself and calls back -/
def Usart3.byte (u : Usart3) (b : UInt8) : Usart3 :=
  match u.armed with
  | some a => halUartRxCpltCallback { u with rxBuf := Function.update u.rxBuf a b, armed := none }
  | none => u

def usart3RxReaddy (u : Usart3) : Usart3 :=
  if u.busy = false then
    if u.rxcount ≠ 0 then
      { u with
        timeout := (u.timeout + 1) % 0x100
        busy := decide (rxTimeout < (u.timeout + 1) % 0x100) }
    else u
  else u

def usart3GetRxBufDat (u : Usart3) : List UInt8 × Usart3 :=
  ((List.range u.rxcount).map u.rxBuf, { u with rxcount := 0, timeout := 0, busy := false })

/-- the message that `USART3_CheckSerial` works on, `none` when it finds none -/
def usart3CheckSerial (u : Usart3) : Option (List UInt8) × Usart3 :=
  if u.busy then (some (usart3GetRxBufDat u).1, (usart3GetRxBufDat u).2) else (none, u)

/-! ## the line -/

inductive LineEvent where
  | byte (b : UInt8)
  /-- a millisecond: `USART3_RxReaddy` -/
  | tick
  | check

/-- the receiver, and what has been sent to it and taken out of it, the latest message first -/
structure Line where
  usart : Usart3
  received : List (List UInt8)
  /-- ghost: the ticks since the last byte -/
  idle : Nat
  /-- ghost: the bytes of the last message -/
  cur : List UInt8
  /-- ghost: the messages before it -/
  sent : List (List UInt8)

/-- a byte after a gap begins a new message -/
def lineStep (s : Line) : LineEvent → Line
  | .byte b =>
    { s with
      usart := s.usart.byte b
      idle := 0
      cur := if rxTimeout < s.idle then [b] else s.cur ++ [b]
      sent := if rxTimeout < s.idle then s.cur :: s.sent else s.sent }
  | .tick => { s with usart := usart3RxReaddy s.usart, idle := s.idle + 1 }
  | .check =>
    { s with
      usart := (usart3CheckSerial s.usart).2
      received := (usart3CheckSerial s.usart).1.toList ++ s.received }

theorem lineStep_new (s : Line) (b : UInt8) (h : rxTimeout < s.idle) :
    lineStep s (.byte b)
      = { s with usart := s.usart.byte b, idle := 0, cur := [b], sent := s.cur :: s.sent } := by
  simp only [lineStep, if_pos h]
theorem lineStep_next (s : Line) (b : UInt8) (h : ¬ rxTimeout < s.idle) :
    lineStep s (.byte b) = { s with usart := s.usart.byte b, idle := 0, cur := s.cur ++ [b] } := by
  simp only [lineStep, if_neg h]

/-- after the init the receiver is as if a message of one byte had just come -/
def lineStart : Line := ⟨mxUsart3UartInit, [], 0, [0], []⟩

/-- messages of up to 500 bytes, gaps in between and before the first, no byte while busy -/
def OnTime (s : Line) : LineEvent → Prop
  | .byte _ => s.usart.busy = false ∧ (s.idle ≤ rxTimeout → s.sent ≠ [] ∧ s.cur.length < 500)
  | _ => True

instance (s : Line) : (e : LineEvent) → Decidable (OnTime s e)
  | .byte _ => inferInstanceAs (Decidable (_ ∧ _))
  | .tick | .check => instDecidableTrue

/-- the last message is over and has been taken out -/
def Over (s : Line) : Prop := s.usart.busy = false ∧ rxTimeout < s.idle

instance (s : Line) : Decidable (Over s) := instDecidableAnd

/-- the messages have been received as sent, each once, up to the one that is still under way -/
def Received (s : Line) : Prop := s.received = if Over s then s.cur :: s.sent else s.sent

/-! ## what the buffer holds -/

/-- the length of the last message -/
def prevLen : List (List UInt8) → Nat
  | [] => 1
  | m :: _ => m.length

/-- the byte at the index `p` after the messages `ms`, the latest first: the first byte of a message
goes where the message before it has ended, the others one to the left of their place -/
def storedAt : List (List UInt8) → Nat → UInt8
  | [], _ => 0
  | m :: ms, p =>
    if p + 1 < m.length then m.getD (p + 1) 0
    else if p + 1 = prevLen ms then m.getD 0 0
    else storedAt ms p

/-- a message `m` that comes out as sent after the messages `ms`: one byte over and over, which the
last place of the message holds already, unless the first byte goes there -/
def Intact (ms : List (List UInt8)) (m : List UInt8) : Prop :=
  ∃ b, m = List.replicate m.length b ∧
    (m.length = prevLen ms ∨ storedAt ms (m.length - 1) = b)

theorem storedAt_cons (m : List UInt8) (ms : List (List UInt8)) (p : Nat) :
    storedAt (m :: ms) p = if p + 1 < m.length then m.getD (p + 1) 0
      else if p + 1 = prevLen ms then m.getD 0 0 else storedAt ms p := rfl

/-- the first byte of a message -/
theorem storedAt_first (b : UInt8) (ms : List (List UInt8)) (h : 0 < prevLen ms) :
    Function.update (storedAt ms) (prevLen ms - 1) b = storedAt ([b] :: ms) := by
  funext p
  have hlen : ¬ p + 1 < [b].length := by
    rw [List.length_singleton]
    omega
  rw [storedAt_cons, if_neg hlen]
  by_cases e : p + 1 = prevLen ms
  · have e' : p = prevLen ms - 1 := by omega
    rw [if_pos e, e', Function.update_self]
    rfl
  · have e' : p ≠ prevLen ms - 1 := by omega
    rw [if_neg e, Function.update_of_ne e']

/-- another byte of it -/
theorem storedAt_next (m : List UInt8) (b : UInt8) (ms : List (List UInt8)) (h : 0 < m.length) :
    Function.update (storedAt (m :: ms)) (m.length - 1) b = storedAt ((m ++ [b]) :: ms) := by
  funext p
  have hfirst : (m ++ [b]).getD 0 0 = m.getD 0 0 := List.getD_append _ _ _ _ h
  rw [storedAt_cons, List.length_append, List.length_singleton, hfirst]
  by_cases e : p = m.length - 1
  · have hlt : p + 1 < m.length + 1 := by omega
    have hlen : p + 1 = m.length := by omega
    rw [if_pos hlt, e, Function.update_self, ← e, hlen, List.getD_append_right _ _ _ _ (Nat.le_refl _),
      Nat.sub_self]
    rfl
  · rw [Function.update_of_ne e, storedAt_cons]
    by_cases hlt : p + 1 < m.length
    · have hlt' : p + 1 < m.length + 1 := by omega
      rw [if_pos hlt, if_pos hlt', List.getD_append _ _ _ _ hlt]
    · have hlt' : ¬ p + 1 < m.length + 1 := by omega
      rw [if_neg hlt, if_neg hlt']

theorem map_range_eq_iff (f : Nat → UInt8) (m : List UInt8) :
    (List.range m.length).map f = m ↔ ∀ i < m.length, f i = m.getD i 0 := by
  constructor
  · intro h i hi
    have hi' : i < ((List.range m.length).map f).length := by
      rw [List.length_map, List.length_range]
      exact hi
    have hg : ((List.range m.length).map f).getD i 0 = f i := by
      rw [List.getD_eq_getElem _ _ hi', List.getElem_map, List.getElem_range]
    rw [h] at hg
    exact hg.symm
  · intro h
    apply List.ext_getElem
    · rw [List.length_map, List.length_range]
    · intro i h1 h2
      rw [List.getElem_map, List.getElem_range, h i h2, List.getD_eq_getElem _ _ h2]

/-- neighbours are equal: one byte over and over -/
theorem eq_replicate (m : List UInt8) (h : ∀ i, i + 1 < m.length → m.getD (i + 1) 0 = m.getD i 0) :
    m = List.replicate m.length (m.getD 0 0) := by
  have hall : ∀ i < m.length, m.getD i 0 = m.getD 0 0 := by
    intro i
    induction i with
    | zero => exact fun _ => rfl
    | succ i ih => exact fun hi => (h i hi).trans (ih (by omega))
  apply List.ext_getElem
  · rw [List.length_replicate]
  · intro i h1 h2
    rw [List.getElem_replicate, ← hall i h1, List.getD_eq_getElem _ _ h1]

/-- **What comes out**: the buffer holds the message as sent iff it is `Intact`. -/
theorem read_eq_iff (m : List UInt8) (ms : List (List UInt8)) (h : 0 < m.length) :
    (List.range m.length).map (storedAt (m :: ms)) = m ↔ Intact ms m := by
  rw [map_range_eq_iff]
  have hlast : ¬ m.length - 1 + 1 < m.length := by omega
  have hlast' : m.length - 1 + 1 = m.length := by omega
  constructor
  · intro hr
    have hrep := eq_replicate m fun i hi => by
      have hi' := hr i (by omega)
      rw [storedAt_cons, if_pos hi] at hi'
      exact hi'
    refine ⟨m.getD 0 0, hrep, ?_⟩
    have hl := hr (m.length - 1) (by omega)
    rw [storedAt_cons, if_neg hlast, hlast'] at hl
    by_cases e : m.length = prevLen ms
    · exact Or.inl e
    · rw [if_neg e, hrep, List.length_replicate, List.getD_replicate _ (by omega)] at hl
      exact Or.inr hl
  · rintro ⟨b, hm, hb⟩ i hi
    have hget : ∀ j < m.length, m.getD j 0 = b := by
      intro j hj
      rw [hm, List.getD_replicate _ hj]
    rw [storedAt_cons, hget i hi, hget 0 h]
    by_cases hi' : i + 1 < m.length
    · rw [if_pos hi', hget _ hi']
    · have e : i = m.length - 1 := by omega
      rw [if_neg hi']
      by_cases hp : i + 1 = prevLen ms
      · rw [if_pos hp]
      · rw [if_neg hp, e]
        exact hb.resolve_left (by omega)

/-! ## along a run -/

/-- how far the last message is: under way, over but still in the buffer, or taken out -/
inductive Stage (s : Line) : Prop where
  | underWay (busy : s.usart.busy = false) (timeout : s.usart.timeout = s.idle)
      (idle : s.idle ≤ rxTimeout) (rxcount : s.usart.rxcount = s.cur.length)
      (received : s.received = s.sent)
  | waiting (busy : s.usart.busy = true) (idle : rxTimeout < s.idle)
      (rxcount : s.usart.rxcount = s.cur.length) (received : s.received = s.sent)
  | taken (busy : s.usart.busy = false) (idle : rxTimeout < s.idle) (rxcount : s.usart.rxcount = 0)
      (received : s.received = s.cur :: s.sent)

/-- the next byte goes one to the left of the write index -/
structure LineInv (s : Line) : Prop where
  buf : s.usart.rxBuf = storedAt (s.cur :: s.sent)
  armed : s.usart.armed = some (s.cur.length - 1)
  pos : 0 < s.cur.length
  le : s.cur.length ≤ 500
  stage : Stage s

theorem received_of_inv {s : Line} (h : LineInv s) : Received s := by
  unfold Received
  cases h.stage with
  | underWay busy timeout idle rxcount received =>
    rw [received, if_neg fun ho : Over s => absurd ho.2 (Nat.not_lt.2 idle)]
  | waiting busy idle rxcount received =>
    rw [received, if_neg fun ho : Over s => absurd (busy.symm.trans ho.1) nofun]
  | taken busy idle rxcount received =>
    have ho : Over s := ⟨busy, idle⟩
    rw [received, if_pos ho]

/-- a byte that is received -/
theorem byte_armed (u : Usart3) (b : UInt8) (a : Nat) (ha : u.armed = some a)
    (hb : u.busy = false) : u.byte b = { u with
      timeout := 0
      armed := some u.rxcount
      rxcount := rbufNextPt u.rxcount 1 usart3RxBufNumber
      rxBuf := Function.update u.rxBuf a b } := by
  unfold Usart3.byte
  rw [ha]
  exact if_pos hb

theorem rbufNextPt_succ {n : Nat} (h : n < 500) : rbufNextPt n 1 usart3RxBufNumber = n + 1 := by
  have h2 : usart3RxBufNumber = 2 ^ 9 := rfl
  rw [h2, rbufNextPt_two_pow, Nat.mod_eq_of_lt (by omega)]

theorem byte_inv {s : Line} (b : UInt8) (h : LineInv s) (he : OnTime s (.byte b)) :
    LineInv (lineStep s (.byte b)) := by
  obtain ⟨hbusy, hlen⟩ := he
  have hu := byte_armed s.usart b _ h.armed hbusy
  by_cases hi : rxTimeout < s.idle
  · -- a new message; the one before it has been taken out
    have hcount : s.usart.rxcount = 0 := by
      cases h.stage with
      | underWay busy timeout idle rxcount received => omega
      | waiting busy idle rxcount received => exact absurd (busy.symm.trans hbusy) nofun
      | taken busy idle rxcount received => exact rxcount
    have hrec : s.received = s.cur :: s.sent := by
      have hr := received_of_inv h
      have ho : Over s := ⟨hbusy, hi⟩
      unfold Received at hr
      rw [if_pos ho] at hr
      exact hr
    rw [lineStep_new s b hi, hu, hcount]
    refine ⟨?_, rfl, Nat.one_pos, (by decide : 1 ≤ 500), ?_⟩
    · show Function.update s.usart.rxBuf _ b = _
      rw [h.buf]
      exact storedAt_first b (s.cur :: s.sent) h.pos
    · exact .underWay hbusy rfl (Nat.zero_le _) rfl hrec
  · -- another byte of the message that is under way
    have hi' : s.idle ≤ rxTimeout := Nat.not_lt.1 hi
    obtain ⟨-, h500⟩ := hlen hi'
    obtain ⟨hcount, hrec⟩ : s.usart.rxcount = s.cur.length ∧ s.received = s.sent := by
      cases h.stage with
      | underWay busy timeout idle rxcount received => exact ⟨rxcount, received⟩
      | waiting busy idle rxcount received => omega
      | taken busy idle rxcount received => omega
    have happ : (s.cur ++ [b]).length = s.cur.length + 1 := List.length_append
    rw [lineStep_next s b hi, hu, hcount, rbufNextPt_succ h500]
    refine ⟨?_, ?_, ?_, ?_, ?_⟩
    · show Function.update s.usart.rxBuf _ b = _
      rw [h.buf]
      exact storedAt_next s.cur b s.sent h.pos
    · show some s.cur.length = some ((s.cur ++ [b]).length - 1)
      rw [happ]
      rfl
    · show 0 < (s.cur ++ [b]).length
      omega
    · show (s.cur ++ [b]).length ≤ 500
      omega
    · exact .underWay hbusy rfl (Nat.zero_le _) happ.symm hrec

theorem tick_inv {s : Line} (h : LineInv s) : LineInv (lineStep s .tick) := by
  obtain ⟨hbuf, harmed, hpos, hle, hst⟩ := h
  have hn : s.cur.length ≠ 0 := Nat.pos_iff_ne_zero.1 hpos
  show LineInv { s with usart := usart3RxReaddy s.usart, idle := s.idle + 1 }
  unfold usart3RxReaddy
  cases hst with
  | underWay busy timeout idle rxcount received =>
    have hc : s.usart.rxcount ≠ 0 := by rw [rxcount]; exact hn
    have hmod : (s.usart.timeout + 1) % 0x100 = s.idle + 1 := by
      unfold rxTimeout at idle
      rw [timeout, Nat.mod_eq_of_lt (by omega)]
    rw [if_pos busy, if_pos hc, hmod]
    refine ⟨hbuf, harmed, hpos, hle, ?_⟩
    by_cases hi : rxTimeout < s.idle + 1
    · exact .waiting (decide_eq_true hi) hi rxcount received
    · exact .underWay (decide_eq_false hi) rfl (Nat.not_lt.1 hi) rxcount received
  | waiting busy idle rxcount received =>
    have hb : ¬ s.usart.busy = false := fun e => absurd (busy.symm.trans e) nofun
    rw [if_neg hb]
    exact ⟨hbuf, harmed, hpos, hle, .waiting busy (Nat.lt_succ_of_lt idle) rxcount received⟩
  | taken busy idle rxcount received =>
    have hc : ¬ s.usart.rxcount ≠ 0 := not_not.2 rxcount
    rw [if_pos busy, if_neg hc]
    exact ⟨hbuf, harmed, hpos, hle, .taken busy (Nat.lt_succ_of_lt idle) rxcount received⟩

/-- the last message is taken out: the buffer, as far as the message goes -/
theorem check_busy {s : Line} (h : LineInv s) (hb : s.usart.busy = true) :
    lineStep s .check = { s with
      usart := { s.usart with rxcount := 0, timeout := 0, busy := false }
      received := (List.range s.cur.length).map (storedAt (s.cur :: s.sent)) :: s.sent } ∧
    rxTimeout < s.idle := by
  obtain ⟨hcount, hrec, hidle⟩ :
      s.usart.rxcount = s.cur.length ∧ s.received = s.sent ∧ rxTimeout < s.idle := by
    cases h.stage with
    | underWay busy timeout idle rxcount received => exact absurd (busy.symm.trans hb) nofun
    | waiting busy idle rxcount received => exact ⟨rxcount, received, idle⟩
    | taken busy idle rxcount received => exact absurd (busy.symm.trans hb) nofun
  refine ⟨?_, hidle⟩
  unfold lineStep usart3CheckSerial usart3GetRxBufDat
  simp only [if_pos hb, hcount, hrec, h.buf]
  rfl

theorem check_idle (s : Line) (hb : ¬ s.usart.busy = true) : lineStep s .check = s := by
  unfold lineStep usart3CheckSerial
  simp only [if_neg hb]
  rfl

/-- a message is `Intact` when it is taken out -/
def TakenIntact (s : Line) : LineEvent → Prop
  | .check => s.usart.busy = true → Intact s.sent s.cur
  | _ => True

theorem line_good (s : Line) (e : LineEvent) (h : LineInv s) (he : OnTime s e)
    (hg : TakenIntact s e) : LineInv (lineStep s e) := by
  cases e with
  | byte b => exact byte_inv b h he
  | tick => exact tick_inv h
  | check =>
    by_cases hb : s.usart.busy = true
    · obtain ⟨hs, hidle⟩ := check_busy h hb
      rw [hs, (read_eq_iff s.cur s.sent h.pos).2 (hg hb)]
      exact ⟨h.buf, h.armed, h.pos, h.le, .taken rfl hidle rfl rfl⟩
    · rw [check_idle s hb]
      exact h

theorem line_bad (s : Line) (e : LineEvent) (h : LineInv s) (he : OnTime s e)
    (hg : ¬ TakenIntact s e) : ¬ Received (lineStep s e) := by
  cases e with
  | byte b => exact absurd trivial hg
  | tick => exact absurd trivial hg
  | check =>
    have hb : s.usart.busy = true := by
      by_contra hb
      exact hg fun hb' => absurd hb' hb
    obtain ⟨hs, hidle⟩ := check_busy h hb
    intro hr
    rw [hs] at hr
    have ho : Over { s with
      usart := { s.usart with rxcount := 0, timeout := 0, busy := false }
      received := (List.range s.cur.length).map (storedAt (s.cur :: s.sent)) :: s.sent } :=
      ⟨rfl, hidle⟩
    unfold Received at hr
    rw [if_pos ho] at hr
    exact hg fun _ => (read_eq_iff s.cur s.sent h.pos).1 (List.cons.inj hr).1

theorem lineStart_inv : LineInv lineStart := by
  refine ⟨?_, rfl, Nat.one_pos, (by decide : 1 ≤ 500), ?_⟩
  · funext p
    show 0 = storedAt [[0]] p
    rw [storedAt_cons]
    by_cases e : p + 1 = prevLen []
    · rw [if_neg (by rw [List.length_singleton]; omega), if_pos e]
      rfl
    · rw [if_neg (by rw [List.length_singleton]; omega), if_neg e]
      rfl
  · exact .underWay rfl rfl (Nat.zero_le _) rfl rfl

/-- **Reception.**  Whatever the messages, all of them are received as sent, each once, iff each of
them is `Intact` after those before it. -/
theorem received_iff (es : List LineEvent) (h : Along lineStep OnTime lineStart es) :
    Always lineStep Received lineStart es ↔ Along lineStep TakenIntact lineStart es :=
  Always_iff_Along_of (fun _ h => received_of_inv h) line_good line_bad lineStart_inv h

/-- a gap ends a message, and the message is taken out -/
def gap : List LineEvent := List.replicate 11 .tick ++ [.check]

theorem received_iff_one_byte :
    Always lineStep Received lineStart (gap ++ .byte 0x61 :: gap) ↔
      Along lineStep TakenIntact lineStart (gap ++ .byte 0x61 :: gap) :=
  received_iff (gap ++ .byte 0x61 :: gap) (by decide)

/-- of the message `01 02` the first byte is lost, and a byte from before comes behind the second -/
theorem two_bytes_garbled :
    Along lineStep OnTime lineStart (gap ++ .byte 0x01 :: .byte 0x02 :: gap) ∧
    (run lineStep lineStart (gap ++ .byte 0x01 :: .byte 0x02 :: gap)).received
      = [[0x02, 0x00], [0x00]] ∧
    ¬ Always lineStep Received lineStart (gap ++ .byte 0x01 :: .byte 0x02 :: gap) := by
  have hrec : (run lineStep lineStart (gap ++ .byte 0x01 :: .byte 0x02 :: gap)).received
      = [[0x02, 0x00], [0x00]] := by decide
  refine ⟨by decide, hrec, fun h => ?_⟩
  have hlast := h.last
  unfold Received at hlast
  rw [hrec] at hlast
  exact absurd hlast (by decide)

end MenuFirmware
