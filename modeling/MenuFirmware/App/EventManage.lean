import MenuFirmware.Lib.Fifo
import MenuFirmware.Lib.RingBuf

/-!
# The event manager (`eventManage.c`)

A ring of 32 events with a read position and a count.  An event carries a ghost tag, which says
which push it came from and which the code neither reads nor writes.

* `eventRdWri`              the one function behind `ReadEvent`, `WriteEvent` and `ClearAllEvent`;
* `EventManager.Represents` the circular segment from the read position on is the queue;
* `represents_write`, `represents_read`, `represents_clear`  each command keeps it;
* `event_manager_fifo`      REFINEMENT: over every run the manager answers what a queue of capacity
                            32 answers, drops a push iff 32 events are pending, and what was
                            accepted since the last clear is what was read, then what is pending.
-/

namespace MenuFirmware
open Runs

section
variable {τ : Type}

/-! ## the code -/

def EVENTBUFLEN : Nat := 32

def READ_EVENT : UInt8 := 0
def WRITE_EVENT : UInt8 := 1
def CLEAR_EVENT : UInt8 := 0xff

def evRst : UInt8 := 0x20
def evKeyUP : UInt8 := 0xb0
def evKeyDown : UInt8 := 0xb1
def evKeyCancal : UInt8 := 0xb2
def evKeyConfirm : UInt8 := 0xb3
def evNON : UInt8 := 0xff

/-- `STR_EVENT` -/
structure StrEvent (τ : Type) where
  evt : UInt8
  par : UInt8
  /-- ghost: the push that the event came from -/
  tag : Option τ
  deriving DecidableEq

/-- the event that an empty manager reads -/
def StrEvent.none : StrEvent τ := ⟨evNON, 0xff, Option.none⟩

structure EventManager (τ : Type) where
  eventcount : UInt8
  eventrdpos : UInt8
  eventbuffer : Nat → UInt8
  parabuffer : Nat → UInt8
  /-- ghost: the tags, slot by slot -/
  tagbuffer : Nat → Option τ

/-- static data is zero before the first call -/
def EventManager.init : EventManager τ where
  eventcount := 0
  eventrdpos := 0
  eventbuffer := fun _ => 0
  parabuffer := fun _ => 0
  tagbuffer := fun _ => Option.none

/-- what `*evt` points to afterwards is the second component -/
def eventRdWri (m : EventManager τ) (cmd : UInt8) (evt : StrEvent τ) :
    EventManager τ × StrEvent τ :=
  if cmd = READ_EVENT then
    if m.eventcount ≠ 0 then
      let rdpos := m.eventrdpos.toNat
      ({ m with
          eventrdpos := UInt8.ofNat ((rdpos + 1) % EVENTBUFLEN)
          eventcount := m.eventcount - 1 },
        ⟨m.eventbuffer rdpos, m.parabuffer rdpos, m.tagbuffer rdpos⟩)
    else (m, StrEvent.none)
  else if cmd = WRITE_EVENT then
    if m.eventcount.toNat < EVENTBUFLEN then
      let wripos := (m.eventrdpos.toNat + m.eventcount.toNat) % EVENTBUFLEN
      ({ m with
          eventbuffer := Function.update m.eventbuffer wripos evt.evt
          parabuffer := Function.update m.parabuffer wripos evt.par
          tagbuffer := Function.update m.tagbuffer wripos evt.tag
          eventcount := m.eventcount + 1 }, evt)
    else (m, evt)
  else ({ m with eventcount := 0, eventrdpos := 0 }, evt)

def clearAllEvent (m : EventManager τ) : EventManager τ :=
  (eventRdWri m CLEAR_EVENT StrEvent.none).1

def readEvent (m : EventManager τ) : EventManager τ × StrEvent τ :=
  eventRdWri m READ_EVENT StrEvent.none

def writeEvent (m : EventManager τ) (evt : StrEvent τ) : EventManager τ :=
  (eventRdWri m WRITE_EVENT evt).1

def pushEvtEvtPar (m : EventManager τ) (event para : UInt8) (tag : τ) : EventManager τ :=
  writeEvent m ⟨event, para, some tag⟩

def pushEvtOnlyEvt (m : EventManager τ) (event : UInt8) (tag : τ) : EventManager τ :=
  pushEvtEvtPar m event 0xff tag

/-- the calls of the manager's interface -/
inductive EventCall (τ : Type) where
  | pushEvtEvtPar (event para : UInt8) (tag : τ)
  | pushEvtOnlyEvt (event : UInt8) (tag : τ)
  | readEvent
  | clearAllEvent

def eventStep (m : EventManager τ) : EventCall τ → EventManager τ
  | .pushEvtEvtPar event para tag => pushEvtEvtPar m event para tag
  | .pushEvtOnlyEvt event tag => pushEvtOnlyEvt m event tag
  | .readEvent => (readEvent m).1
  | .clearAllEvent => clearAllEvent m

/-- what the call gives back -/
def eventAnswer (m : EventManager τ) : EventCall τ → Option (StrEvent τ)
  | .pushEvtEvtPar _ _ _ => Option.none
  | .pushEvtOnlyEvt _ _ => Option.none
  | .readEvent => some (readEvent m).2
  | .clearAllEvent => Option.none

/-! ## the queue it stands for -/

abbrev EventQueue (τ : Type) := Fifo (StrEvent τ) EVENTBUFLEN

/-- the call, as what it asks of a queue -/
def EventCall.op : EventCall τ → FifoOp (StrEvent τ)
  | .pushEvtEvtPar event para tag => .push ⟨event, para, some tag⟩
  | .pushEvtOnlyEvt event tag => .push ⟨event, 0xff, some tag⟩
  | .readEvent => .pop
  | .clearAllEvent => .clear

def queueStep (q : EventQueue τ) (c : EventCall τ) : EventQueue τ := q.step c.op

/-- a read gives the oldest pending event, or `evNON`, 0xff -/
def queueAnswer (q : EventQueue τ) (c : EventCall τ) : Option (StrEvent τ) :=
  match c with
  | .readEvent => some ((q.read c.op).getD StrEvent.none)
  | _ => Option.none

/-! ## refinement -/

/-- the event in a slot -/
def EventManager.slot (m : EventManager τ) (i : Nat) : StrEvent τ :=
  ⟨m.eventbuffer i, m.parabuffer i, m.tagbuffer i⟩

/-- the segment of the ring from the read position on is the queue `q` -/
structure EventManager.Represents (m : EventManager τ) (q : EventQueue τ) : Prop where
  rdpos_lt : m.eventrdpos.toNat < EVENTBUFLEN
  count_le : m.eventcount.toNat ≤ EVENTBUFLEN
  items : q.items =
    RingBuf.segment m.slot EVENTBUFLEN m.eventrdpos.toNat m.eventcount.toNat

theorem represents_init : (EventManager.init : EventManager τ).Represents Fifo.empty :=
  ⟨show 0 < 32 by decide, show 0 ≤ 32 by decide, rfl⟩

theorem EventManager.Represents.length {m : EventManager τ} {q : EventQueue τ}
    (h : m.Represents q) : q.items.length = m.eventcount.toNat := by
  rw [h.items, RingBuf.segment_length]

theorem writeEvent_room {m : EventManager τ} (e : StrEvent τ)
    (h : m.eventcount.toNat < EVENTBUFLEN) :
    (writeEvent m e).eventcount.toNat = m.eventcount.toNat + 1 ∧
      (writeEvent m e).eventrdpos = m.eventrdpos ∧
      (writeEvent m e).slot = Function.update m.slot
        ((m.eventrdpos.toNat + m.eventcount.toNat) % EVENTBUFLEN) e := by
  have hw : writeEvent m e =
      { m with
        eventbuffer := Function.update m.eventbuffer
          ((m.eventrdpos.toNat + m.eventcount.toNat) % EVENTBUFLEN) e.evt
        parabuffer := Function.update m.parabuffer
          ((m.eventrdpos.toNat + m.eventcount.toNat) % EVENTBUFLEN) e.par
        tagbuffer := Function.update m.tagbuffer
          ((m.eventrdpos.toNat + m.eventcount.toNat) % EVENTBUFLEN) e.tag
        eventcount := m.eventcount + 1 } := by
    unfold writeEvent eventRdWri
    rw [if_neg (by decide), if_pos rfl, if_pos h]
  rw [hw]
  refine ⟨?_, rfl, ?_⟩
  · have h32 : m.eventcount.toNat < 32 := h
    show (m.eventcount + 1).toNat = _
    rw [UInt8.toNat_add]
    exact Nat.mod_eq_of_lt (by show m.eventcount.toNat + 1 < 256; omega)
  · funext i
    by_cases hi : i = (m.eventrdpos.toNat + m.eventcount.toNat) % EVENTBUFLEN
    · subst hi
      simp only [EventManager.slot, Function.update_self]
    · simp only [EventManager.slot, Function.update_of_ne hi]

theorem writeEvent_full {m : EventManager τ} (e : StrEvent τ)
    (h : m.eventcount.toNat = EVENTBUFLEN) : writeEvent m e = m := by
  unfold writeEvent eventRdWri
  rw [if_neg (by decide), if_pos rfl, if_neg (by omega)]

theorem represents_write {m : EventManager τ} {q : EventQueue τ} (h : m.Represents q)
    (e : StrEvent τ) : (writeEvent m e).Represents (q.push e) := by
  by_cases hc : m.eventcount.toNat < EVENTBUFLEN
  · obtain ⟨hcount, hpos, hslot⟩ := writeEvent_room e hc
    refine ⟨?_, ?_, ?_⟩
    · rw [hpos]
      exact h.rdpos_lt
    · rw [hcount]
      exact hc
    · rw [Fifo.items_push_of_lt (by rw [h.length]; exact hc), hslot, hcount, hpos,
        RingBuf.segment_push m.slot m.eventrdpos.toNat e hc, h.items]
  · have hfull : m.eventcount.toNat = EVENTBUFLEN := Nat.le_antisymm h.count_le (Nat.not_lt.1 hc)
    rw [writeEvent_full e hfull, Fifo.push_of_full (by rw [h.length, hfull])]
    exact h

theorem readEvent_empty {m : EventManager τ} (h : m.eventcount = 0) :
    readEvent m = (m, StrEvent.none) := by
  unfold readEvent eventRdWri
  rw [if_pos rfl, if_neg (by rw [h]; decide)]

theorem readEvent_some {m : EventManager τ} (h : m.eventcount ≠ 0) :
    readEvent m = ({ m with
      eventrdpos := UInt8.ofNat ((m.eventrdpos.toNat + 1) % EVENTBUFLEN)
      eventcount := m.eventcount - 1 }, m.slot m.eventrdpos.toNat) := by
  unfold readEvent eventRdWri
  rw [if_pos rfl, if_pos h]
  rfl

theorem represents_read {m : EventManager τ} {q : EventQueue τ} (h : m.Represents q) :
    (readEvent m).1.Represents q.pop ∧
      (readEvent m).2 = q.items.head?.getD StrEvent.none := by
  by_cases hc : m.eventcount = 0
  · have hq : q.items = [] := by
      rw [h.items, hc]
      rfl
    have hp : q.pop = q := Fifo.ext_items (by rw [Fifo.items_pop, hq]; rfl)
    rw [readEvent_empty hc, hp, hq]
    exact ⟨h, rfl⟩
  · have hpos : 0 < m.eventcount.toNat := by
      refine Nat.pos_of_ne_zero fun h0 => hc ?_
      exact UInt8.toNat_inj.1 h0
    have h32 : m.eventrdpos.toNat < 32 := h.rdpos_lt
    have hle : m.eventcount.toNat ≤ 32 := h.count_le
    have hcount : (m.eventcount - 1).toNat + 1 = m.eventcount.toNat := by
      have h1 : (1 : UInt8) ≤ m.eventcount := by
        rw [UInt8.le_iff_toNat_le]
        exact hpos
      rw [UInt8.toNat_sub_of_le _ _ h1]
      exact Nat.sub_add_cancel hpos
    have hrd : (UInt8.ofNat ((m.eventrdpos.toNat + 1) % EVENTBUFLEN)).toNat =
        (m.eventrdpos.toNat + 1) % EVENTBUFLEN := by
      have hlt : (m.eventrdpos.toNat + 1) % EVENTBUFLEN < 32 := Nat.mod_lt _ (by decide)
      rw [UInt8.toNat_ofNat']
      exact Nat.mod_eq_of_lt (by show _ < 256; omega)
    have hitems := h.items
    rw [← hcount, RingBuf.segment_pop, Nat.mod_eq_of_lt h.rdpos_lt] at hitems
    rw [readEvent_some hc]
    refine ⟨⟨?_, ?_, ?_⟩, ?_⟩
    · show (UInt8.ofNat ((m.eventrdpos.toNat + 1) % EVENTBUFLEN)).toNat < EVENTBUFLEN
      rw [hrd]
      exact Nat.mod_lt _ (by decide)
    · show (m.eventcount - 1).toNat ≤ 32
      omega
    · show q.items.tail = RingBuf.segment m.slot EVENTBUFLEN
        (UInt8.ofNat ((m.eventrdpos.toNat + 1) % EVENTBUFLEN)).toNat (m.eventcount - 1).toNat
      rw [hitems, hrd]
      rfl
    · rw [hitems]
      rfl

theorem represents_clear {m : EventManager τ} {q : EventQueue τ} (_ : m.Represents q) :
    (clearAllEvent m).Represents Fifo.empty := by
  unfold clearAllEvent eventRdWri
  rw [if_neg (by decide), if_neg (by decide)]
  exact ⟨show 0 < 32 by decide, show 0 ≤ 32 by decide, rfl⟩

theorem represents_step (m : EventManager τ) (q : EventQueue τ) (c : EventCall τ)
    (h : m.Represents q) : (eventStep m c).Represents (queueStep q c) := by
  cases c with
  | pushEvtEvtPar event para tag => exact represents_write h ⟨event, para, some tag⟩
  | pushEvtOnlyEvt event tag => exact represents_write h ⟨event, 0xff, some tag⟩
  | readEvent => exact (represents_read h).1
  | clearAllEvent => exact represents_clear h

theorem represents_answer (m : EventManager τ) (q : EventQueue τ) (c : EventCall τ)
    (h : m.Represents q) : eventAnswer m c = queueAnswer q c := by
  cases c with
  | readEvent => exact congrArg some (represents_read h).2
  | pushEvtEvtPar event para tag => rfl
  | pushEvtOnlyEvt event tag => rfl
  | clearAllEvent => rfl

theorem represents_run (cs : List (EventCall τ)) :
    (run eventStep EventManager.init cs).Represents (run queueStep Fifo.empty cs) :=
  run_simulation represents_step represents_init cs

theorem writeEvent_dropped_iff {m : EventManager τ} {q : EventQueue τ} (h : m.Represents q)
    (e : StrEvent τ) : writeEvent m e = m ↔ q.items.length = EVENTBUFLEN := by
  rw [h.length]
  constructor
  · intro he
    by_contra hn
    have hc := (writeEvent_room e (Nat.lt_of_le_of_ne h.count_le hn)).1
    rw [he] at hc
    omega
  · exact fun hfull => writeEvent_full e hfull

theorem run_queueStep (q : EventQueue τ) (cs : List (EventCall τ)) :
    run queueStep q cs = run Fifo.step q (cs.map EventCall.op) := by
  induction cs generalizing q with
  | nil => rfl
  | cons c cs ih => exact ih _

/-- **Refinement.**  For every sequence of calls: the manager answers as the queue of capacity 32
does; a push right after it is dropped exactly when 32 events are pending; and the events accepted
since the last clear are those read since then, in the same order, followed by the pending ones. -/
theorem event_manager_fifo (cs : List (EventCall τ)) :
    outputs eventStep eventAnswer EventManager.init cs =
        outputs queueStep queueAnswer Fifo.empty cs ∧
      (∀ e, writeEvent (run eventStep EventManager.init cs) e = run eventStep EventManager.init cs ↔
        (run queueStep Fifo.empty cs).items.length = EVENTBUFLEN) ∧
      Fifo.accepted (Fifo.empty : EventQueue τ) [] (cs.map EventCall.op) =
        Fifo.delivered (Fifo.empty : EventQueue τ) [] (cs.map EventCall.op) ++
          (run queueStep Fifo.empty cs).items := by
  refine ⟨?_, fun e => writeEvent_dropped_iff (represents_run cs) e, ?_⟩
  · exact outputs_simulation represents_step represents_answer represents_init cs
  · rw [run_queueStep]
    exact Fifo.conservation (cs.map EventCall.op)

end

end MenuFirmware
