import MenuFirmware.Lib.RingBuf
import MenuFirmware.Config.Network
import MenuFirmware.Serial.Receive
import MenuFirmware.Spi.Machine

/-!
# The command queue (`ethernetif.c`)

The receive interrupt puts the command that it finds in the buffer it looks at into a ring of 256
slots, and keeps the source port found there; the main loop takes the commands out one by one and
answers to that port.  An interrupt may fall between any two steps of `pollint_eth_send`.

* `ethIrqInput`, `pollintEthSend`  the interrupt, one step of the main loop;
* `Delivered`        the polls that follow process exactly certain commands, in order;
* `waiting`          the commands that will still be processed; `delivered_iff`;
* `irq_left`         an interrupt adds what the buffer asks for, while fewer than 255 commands wait;
* `RepliesRight`     every reply has gone to the sender of its command;
* `repliesRight_iff` that is so iff whenever a command is answered, the last datagram that an
                     interrupt has found is from the same port.
-/

set_option linter.unusedSectionVars false
set_option linter.unusedVariables false

namespace MenuFirmware
open Runs

/-! ## the code -/

abbrev Port := UInt8 × UInt8

/-- a slot of `Eth_Buf` -/
structure Command where
  frame : Frame
  /-- ghost: the source port of the datagram that the command came with -/
  port : Port
  deriving DecidableEq

structure Reply where
  bytes : List UInt8
  dstpot : Port
  /-- ghost: the command that is answered -/
  command : Command

/-- where the main loop is in `pollint_eth_send` -/
inductive Polling where
  | idle
  /-- `Eth_Buf_Read != Eth_Buf_Write` -/
  | found
  /-- before the read index moves on -/
  | handled

structure EthState where
  ring : RingBuf Command 256
  /-- `dstpot_1`, `dstpot_2` -/
  dstpot : Port
  dev : Dev
  /-- the frames given to `Send_To_Fpga`, the last one first -/
  toFpga : List Frame
  /-- what `Eth_Send_api` has sent, the last one first -/
  replies : List Reply
  polling : Polling
  /-- ghost: the commands that the interrupt has appended, and those processed -/
  arrived : List Command
  processed : List Command

/-- UDP port 0x5004 -/
def portAccepted (buffer : Nat → UInt8) : Bool := buffer 36 == 0x50 && buffer 37 == 0x04

def commandOf (buffer : Nat → UInt8) : Command :=
  ⟨⟨buffer 42, buffer 43, buffer 44⟩, (buffer 34, buffer 35)⟩

/-- what the interrupt finds in a buffer -/
def asks (buffer : Nat → UInt8) : List Command :=
  if portAccepted buffer then [commandOf buffer] else []

def ethIrqInput (s : EthState) (buffer : Nat → UInt8) : EthState :=
  if portAccepted buffer then
    { s with
      ring := s.ring.push (commandOf buffer)
      dstpot := (commandOf buffer).port
      arrived := s.arrived ++ [commandOf buffer] }
  else s

/-- what is done with the command `c` -/
def handle (s : EthState) (c : Command) : EthState :=
  if c.frame.cmd = 0x02 ∨ c.frame.cmd = 0x03 then
    let r := sendUserData s.dev c.frame.cmd c.frame.addr c.frame.data
    { s with dev := r.2, replies := ⟨r.1, s.dstpot, c⟩ :: s.replies }
  else if c.frame.cmd = 0x00 ∨ c.frame.cmd = 0x01 then
    { s with toFpga := c.frame :: s.toFpga }
  else s

/-- the command that is taken next -/
def EthState.head (s : EthState) : Command := s.ring.slots s.ring.read

def pollintEthSend (s : EthState) : EthState :=
  match s.polling with
  | .idle => if s.ring.read ≠ s.ring.write then { s with polling := .found } else s
  | .found =>
    { handle s s.head with polling := .handled, processed := s.processed ++ [s.head] }
  | .handled => { s with ring := s.ring.pop, polling := .idle }

inductive EthEvent where
  /-- a receive interrupt; `heth.RxFrameInfos.buffer` points to `buffer`, whichever frame is there -/
  | irq (buffer : Nat → UInt8)
  /-- the main loop goes on by one step -/
  | poll

def ethStep (s : EthState) : EthEvent → EthState
  | .irq buffer => ethIrqInput s buffer
  | .poll => pollintEthSend s

def ethInit (d : Dev) : EthState where
  ring := ⟨fun _ => ⟨⟨0, 0, 0⟩, (0, 0)⟩, 0, 0, by decide, by decide⟩
  dstpot := (0, 0)
  dev := d
  toFpga := []
  replies := []
  polling := .idle
  arrived := []
  processed := []

/-- the indices move on by `RBUF_NEXT_PT` -/
theorem ring_next (r : RingBuf Command 256) (c : Command) :
    (r.push c).write = rbufNextPt r.write 1 256 ∧ r.pop.read = rbufNextPt r.read 1 256 :=
  ⟨(rbufNextPt_two_pow r.write 1 8).symm, (rbufNextPt_two_pow r.read 1 8).symm⟩

/-! ## delivery -/

/-- from some poll on the commands processed are exactly `cs`, in order -/
def Delivered (s : EthState) (cs : List Command) : Prop :=
  ∃ n, ∀ m, n ≤ m → (run ethStep s (List.replicate m .poll)).processed = cs

/-- the commands behind the one that is being processed -/
def behind (s : EthState) : List Command :=
  match s.polling with
  | .idle => s.ring.contents
  | .found | .handled => s.ring.pop.contents

/-- the commands that will still be processed -/
def waiting (s : EthState) : List Command :=
  match s.polling with
  | .idle | .handled => behind s
  | .found => s.head :: behind s

/-- the polls until the queue is empty -/
def pollsLeft (s : EthState) : Nat :=
  match s.polling with
  | .idle => 3 * (behind s).length
  | .found => 3 * (behind s).length + 2
  | .handled => 3 * (behind s).length + 1

theorem behind_idle {s : EthState} (h : s.polling = .idle) : behind s = s.ring.contents := by
  rw [behind, h]

theorem behind_busy {s : EthState} (h : s.polling ≠ .idle) : behind s = s.ring.pop.contents := by
  unfold behind
  cases hp : s.polling with
  | idle => exact absurd hp h
  | found => rfl
  | handled => rfl

theorem waiting_found {s : EthState} (h : s.polling = .found) :
    waiting s = s.head :: behind s := by
  rw [waiting, h]

theorem waiting_of_ne {s : EthState} (h : s.polling ≠ .found) : waiting s = behind s := by
  unfold waiting
  cases hp : s.polling with
  | idle => rfl
  | found => exact absurd hp h
  | handled => rfl

theorem pollsLeft_idle {s : EthState} (h : s.polling = .idle) :
    pollsLeft s = 3 * (behind s).length := by
  rw [pollsLeft, h]

theorem pollsLeft_found {s : EthState} (h : s.polling = .found) :
    pollsLeft s = 3 * (behind s).length + 2 := by
  rw [pollsLeft, h]

theorem pollsLeft_handled {s : EthState} (h : s.polling = .handled) :
    pollsLeft s = 3 * (behind s).length + 1 := by
  rw [pollsLeft, h]

theorem handle_ring (s : EthState) (c : Command) :
    (handle s c).ring = s.ring ∧ (handle s c).arrived = s.arrived ∧
      (handle s c).dstpot = s.dstpot := by
  unfold handle
  by_cases h1 : c.frame.cmd = 0x02 ∨ c.frame.cmd = 0x03
  · simp only [if_pos h1, and_self]
  · by_cases h2 : c.frame.cmd = 0x00 ∨ c.frame.cmd = 0x01
    · simp only [if_neg h1, if_pos h2, and_self]
    · simp only [if_neg h1, if_neg h2, and_self]

theorem poll_idle_some {s : EthState} (hp : s.polling = .idle) (h : s.ring.read ≠ s.ring.write) :
    ethStep s .poll = { s with polling := .found } := by
  show pollintEthSend s = _
  rw [pollintEthSend, hp]
  exact if_pos h

theorem poll_idle_none {s : EthState} (hp : s.polling = .idle) (h : s.ring.read = s.ring.write) :
    ethStep s .poll = s := by
  show pollintEthSend s = _
  rw [pollintEthSend, hp]
  exact if_neg (not_not.2 h)

theorem poll_found {s : EthState} (hp : s.polling = .found) :
    ethStep s .poll =
      { handle s s.head with polling := .handled, processed := s.processed ++ [s.head] } := by
  show pollintEthSend s = _
  rw [pollintEthSend, hp]

theorem poll_handled {s : EthState} (hp : s.polling = .handled) :
    ethStep s .poll = { s with ring := s.ring.pop, polling := .idle } := by
  show pollintEthSend s = _
  rw [pollintEthSend, hp]

/-- **One poll** takes the first command that waits, or nothing. -/
theorem poll_waiting (s : EthState) :
    (ethStep s .poll).arrived = s.arrived ∧
    (ethStep s .poll).processed ++ waiting (ethStep s .poll) = s.processed ++ waiting s ∧
    pollsLeft (ethStep s .poll) = pollsLeft s - 1 := by
  cases hp : s.polling with
  | idle =>
    have hne : s.polling ≠ .found := by rw [hp]; exact Polling.noConfusion
    by_cases h : s.ring.read = s.ring.write
    · have hnil := s.ring.contents_eq_nil.2 h
      rw [poll_idle_none hp h, pollsLeft_idle hp, behind_idle hp, hnil]
      exact ⟨rfl, rfl, rfl⟩
    · have hc : behind s = s.head :: s.ring.pop.contents :=
        (behind_idle hp).trans (s.ring.contents_pop h)
      rw [poll_idle_some hp h, pollsLeft_idle hp, waiting_of_ne hne, hc, pollsLeft_found rfl]
      exact ⟨rfl, rfl, rfl⟩
  | found =>
    obtain ⟨hring, harr, -⟩ := handle_ring s s.head
    have hb : behind s = s.ring.pop.contents := behind_busy (by rw [hp]; exact Polling.noConfusion)
    rw [poll_found hp, pollsLeft_found hp, waiting_found hp, pollsLeft_handled rfl,
      waiting_of_ne (by exact Polling.noConfusion), behind_busy (by exact Polling.noConfusion), hb]
    show (handle s s.head).arrived = _ ∧
      (s.processed ++ [s.head]) ++ (handle s s.head).ring.pop.contents = _ ∧
      3 * (handle s s.head).ring.pop.contents.length + 1 = _
    rw [hring, harr, List.append_assoc]
    exact ⟨rfl, rfl, rfl⟩
  | handled =>
    have hne : s.polling ≠ .found := by rw [hp]; exact Polling.noConfusion
    have hb : behind s = s.ring.pop.contents := behind_busy (by rw [hp]; exact Polling.noConfusion)
    rw [poll_handled hp, pollsLeft_handled hp, waiting_of_ne hne, hb, pollsLeft_idle rfl]
    exact ⟨rfl, rfl, rfl⟩

theorem polls_waiting (n : Nat) (s : EthState) :
    (run ethStep s (List.replicate n .poll)).processed ++
        waiting (run ethStep s (List.replicate n .poll)) = s.processed ++ waiting s ∧
      pollsLeft (run ethStep s (List.replicate n .poll)) = pollsLeft s - n := by
  induction n generalizing s with
  | zero => exact ⟨rfl, rfl⟩
  | succ n ih =>
    obtain ⟨-, hw, hl⟩ := poll_waiting s
    obtain ⟨ihw, ihl⟩ := ih (ethStep s .poll)
    rw [List.replicate_succ, run_cons]
    refine ⟨ihw.trans hw, ?_⟩
    rw [ihl, hl]
    omega

theorem waiting_of_pollsLeft {s : EthState} (h : pollsLeft s = 0) : waiting s = [] := by
  cases hp : s.polling with
  | idle =>
    rw [pollsLeft_idle hp] at h
    rw [waiting_of_ne (by rw [hp]; exact Polling.noConfusion)]
    exact List.length_eq_zero_iff.1 (by omega)
  | found =>
    rw [pollsLeft_found hp] at h
    exact absurd h (Nat.succ_ne_zero _)
  | handled =>
    rw [pollsLeft_handled hp] at h
    exact absurd h (Nat.succ_ne_zero _)

/-- what the polls to come will have processed in the end -/
theorem polls_processed (s : EthState) (m : Nat) (h : pollsLeft s ≤ m) :
    (run ethStep s (List.replicate m .poll)).processed = s.processed ++ waiting s := by
  obtain ⟨hw, hl⟩ := polls_waiting m s
  rw [waiting_of_pollsLeft (hl.trans (by omega)), List.append_nil] at hw
  exact hw

theorem delivered_iff (s : EthState) (cs : List Command) :
    Delivered s cs ↔ s.processed ++ waiting s = cs := by
  constructor
  · rintro ⟨n, h⟩
    have hm := h (max n (pollsLeft s)) (Nat.le_max_left ..)
    rw [polls_processed s _ (Nat.le_max_right ..)] at hm
    exact hm
  · intro h
    exact ⟨pollsLeft s, fun m hm => (polls_processed s m hm).trans h⟩

/-! ## the room in the ring -/

theorem behind_lt (s : EthState) : (behind s).length < 256 := by
  by_cases hp : s.polling = .idle
  · rw [behind_idle hp, RingBuf.contents_length]
    exact s.ring.count_lt
  · rw [behind_busy hp, RingBuf.contents_length]
    exact s.ring.pop.count_lt

theorem irq_accepted (s : EthState) {buffer : Nat → UInt8} (ha : portAccepted buffer = true) :
    ethStep s (.irq buffer) =
      { s with
        ring := s.ring.push (commandOf buffer)
        dstpot := (commandOf buffer).port
        arrived := s.arrived ++ [commandOf buffer] } := if_pos ha

theorem irq_fields (s : EthState) {buffer : Nat → UInt8} (ha : portAccepted buffer = true) :
    (ethStep s (.irq buffer)).ring = s.ring.push (commandOf buffer) ∧
    (ethStep s (.irq buffer)).polling = s.polling ∧
    (ethStep s (.irq buffer)).processed = s.processed ∧
    (ethStep s (.irq buffer)).arrived = s.arrived ++ [commandOf buffer] := by
  rw [irq_accepted s ha]
  exact ⟨rfl, rfl, rfl, rfl⟩

theorem irq_refused (s : EthState) {buffer : Nat → UInt8} (ha : portAccepted buffer ≠ true) :
    ethStep s (.irq buffer) = s := if_neg ha

/-- a command that finds room -/
theorem irq_room (s : EthState) (buffer : Nat → UInt8) (ha : portAccepted buffer = true)
    (h : (behind s).length < 255) :
    waiting (ethStep s (.irq buffer)) = waiting s ++ [commandOf buffer] := by
  obtain ⟨hring, hpoll, -, -⟩ := irq_fields s ha
  by_cases hp : s.polling = .idle
  · have hp' := hpoll.trans hp
    have hne : s.polling ≠ .found := by rw [hp]; exact Polling.noConfusion
    rw [behind_idle hp, RingBuf.contents_length] at h
    rw [waiting_of_ne (hpoll ▸ hne), waiting_of_ne hne, behind_idle hp', behind_idle hp, hring]
    exact s.ring.contents_push _ (by omega)
  · have hp' : (ethStep s (.irq buffer)).polling ≠ .idle := hpoll ▸ hp
    rw [behind_busy hp, RingBuf.contents_length] at h
    have hpush := s.ring.pop.contents_push (commandOf buffer) (by omega)
    by_cases hf : s.polling = .found
    · have hslot := s.ring.slot_push (commandOf buffer) (by omega)
      have hhead : (ethStep s (.irq buffer)).head = s.head := by
        rw [EthState.head, hring]
        exact hslot
      rw [waiting_found (hpoll.trans hf), waiting_found hf, behind_busy hp', behind_busy hp, hring,
        RingBuf.push_pop, hpush, hhead]
      rfl
    · rw [waiting_of_ne (hpoll ▸ hf), waiting_of_ne hf, behind_busy hp', behind_busy hp, hring,
        RingBuf.push_pop, hpush]

/-- a command that finds none empties the ring -/
theorem irq_full (s : EthState) (buffer : Nat → UInt8) (ha : portAccepted buffer = true)
    (h : ¬ (behind s).length < 255) : behind (ethStep s (.irq buffer)) = [] := by
  obtain ⟨hring, hpoll, -, -⟩ := irq_fields s ha
  have hlt := behind_lt s
  by_cases hp : s.polling = .idle
  · rw [behind_idle hp, RingBuf.contents_length] at h hlt
    rw [behind_idle (hpoll.trans hp), hring]
    exact s.ring.contents_push_full _ (by omega)
  · rw [behind_busy hp, RingBuf.contents_length] at h hlt
    rw [behind_busy (hpoll ▸ hp), hring, RingBuf.push_pop]
    exact s.ring.pop.contents_push_full _ (by omega)

theorem waiting_length (s : EthState) :
    (behind s).length ≤ (waiting s).length ∧ (waiting s).length ≤ (behind s).length + 1 := by
  by_cases hf : s.polling = .found
  · rw [waiting_found hf, List.length_cons]
    omega
  · rw [waiting_of_ne hf]
    omega

/-- **One interrupt** adds what it finds, in its place, while the ring has room. -/
theorem irq_left (s : EthState) (buffer : Nat → UInt8)
    (h : portAccepted buffer = true → (behind s).length < 255) :
    (ethIrqInput s buffer).processed ++ waiting (ethIrqInput s buffer) =
      s.processed ++ waiting s ++ asks buffer := by
  unfold asks
  by_cases ha : portAccepted buffer = true
  · obtain ⟨-, -, hp, -⟩ := irq_fields s ha
    have hw := irq_room s buffer ha (h ha)
    change (ethIrqInput s buffer).processed = _ at hp
    change waiting (ethIrqInput s buffer) = _ at hw
    rw [if_pos ha, hp, hw, List.append_assoc]
  · have hr : ethIrqInput s buffer = s := irq_refused s ha
    rw [if_neg ha, hr, List.append_nil]

/-- the command that finds no room takes the others with it -/
theorem irq_left_full (s : EthState) (buffer : Nat → UInt8) (ha : portAccepted buffer = true)
    (h : ¬ (behind s).length < 255) :
    ((ethIrqInput s buffer).processed ++ waiting (ethIrqInput s buffer)).length <
      (s.processed ++ waiting s).length := by
  have hlt := (waiting_length (ethIrqInput s buffer)).2
  have hfull : behind (ethIrqInput s buffer) = [] := irq_full s buffer ha h
  rw [hfull, List.length_nil] at hlt
  have hge := (waiting_length s).1
  obtain ⟨-, -, hp, -⟩ := irq_fields s ha
  change (ethIrqInput s buffer).processed = _ at hp
  rw [hp, List.length_append, List.length_append]
  omega

theorem ethIrqInput_arrived (s : EthState) (buffer : Nat → UInt8) :
    (ethIrqInput s buffer).arrived = s.arrived ++ asks buffer := by
  unfold ethIrqInput asks
  by_cases ha : portAccepted buffer = true
  · rw [if_pos ha, if_pos ha]
  · rw [if_neg ha, if_neg ha, List.append_nil]

theorem waiting_init (d : Dev) : (ethInit d).processed ++ waiting (ethInit d) = [] := by
  have h : (ethInit d).ring.contents = [] := (RingBuf.contents_eq_nil _).2 rfl
  rw [waiting_of_ne (by exact Polling.noConfusion), behind_idle rfl, h]
  rfl

/-! ## the port of a reply -/

def Command.Answered (c : Command) : Prop := c.frame.cmd = 0x02 ∨ c.frame.cmd = 0x03

instance (c : Command) : Decidable c.Answered := inferInstanceAs (Decidable (_ ∨ _))

def RepliesRight (s : EthState) : Prop := ∀ r ∈ s.replies, r.dstpot = r.command.port

/-- the source port of the last datagram that an interrupt has found -/
def lastPort (arrived : List Command) : Port := (arrived.getLast?.map Command.port).getD (0, 0)

/-- the command that is answered came from the port of the last datagram found -/
def Current (s : EthState) : EthEvent → Prop
  | .irq _ => True
  | .poll => s.polling = .found → s.head.Answered → lastPort s.arrived = s.head.port

structure PortInv (s : EthState) : Prop where
  dstpot : s.dstpot = lastPort s.arrived
  right : RepliesRight s

theorem handle_answered (s : EthState) (c : Command) (h : c.Answered) :
    (handle s c).replies =
      ⟨(sendUserData s.dev c.frame.cmd c.frame.addr c.frame.data).1, s.dstpot, c⟩ :: s.replies :=
  congrArg EthState.replies (if_pos h)

theorem handle_unanswered (s : EthState) (c : Command) (h : ¬ c.Answered) :
    (handle s c).replies = s.replies := by
  have hh : handle s c =
      if c.frame.cmd = 0x00 ∨ c.frame.cmd = 0x01 then { s with toFpga := c.frame :: s.toFpga }
      else s := if_neg h
  rw [hh]
  by_cases h2 : c.frame.cmd = 0x00 ∨ c.frame.cmd = 0x01
  · rw [if_pos h2]
  · rw [if_neg h2]

/-- what one step does to the replies -/
theorem ethStep_replies (s : EthState) (e : EthEvent) :
    (ethStep s e).replies = s.replies ∨
    (e = .poll ∧ s.polling = .found ∧ s.head.Answered ∧
      ∃ bytes, (ethStep s e).replies = ⟨bytes, s.dstpot, s.head⟩ :: s.replies) := by
  cases e with
  | irq buffer =>
    left
    by_cases ha : portAccepted buffer = true
    · rw [irq_accepted s ha]
    · rw [irq_refused s ha]
  | poll =>
    cases hp : s.polling with
    | idle =>
      left
      by_cases h : s.ring.read = s.ring.write
      · rw [poll_idle_none hp h]
      · rw [poll_idle_some hp h]
    | found =>
      rw [poll_found hp]
      by_cases h : s.head.Answered
      · exact .inr ⟨rfl, rfl, h, _, handle_answered s s.head h⟩
      · exact .inl (handle_unanswered s s.head h)
    | handled =>
      left
      rw [poll_handled hp]

/-- `dstpot` follows the datagrams -/
theorem ethStep_dstpot (s : EthState) (e : EthEvent) (h : s.dstpot = lastPort s.arrived) :
    (ethStep s e).dstpot = lastPort (ethStep s e).arrived := by
  cases e with
  | irq buffer =>
    by_cases ha : portAccepted buffer = true
    · rw [irq_accepted s ha]
      show (commandOf buffer).port = lastPort (s.arrived ++ [commandOf buffer])
      rw [lastPort, List.getLast?_concat]
      rfl
    · rw [irq_refused s ha]
      exact h
  | poll =>
    cases hp : s.polling with
    | idle =>
      by_cases hr : s.ring.read = s.ring.write
      · rw [poll_idle_none hp hr]
        exact h
      · rw [poll_idle_some hp hr]
        exact h
    | found =>
      obtain ⟨-, harr, hdst⟩ := handle_ring s s.head
      rw [poll_found hp]
      show (handle s s.head).dstpot = lastPort (handle s s.head).arrived
      rw [hdst, harr]
      exact h
    | handled =>
      rw [poll_handled hp]
      exact h

theorem portInv_good (s : EthState) (e : EthEvent) (h : PortInv s) (hg : Current s e) :
    PortInv (ethStep s e) := by
  refine ⟨ethStep_dstpot s e h.dstpot, ?_⟩
  rcases ethStep_replies s e with hr | ⟨rfl, hf, ha, bytes, hr⟩
  · unfold RepliesRight
    rw [hr]
    exact h.right
  · intro r hmem
    rw [hr] at hmem
    rcases List.mem_cons.1 hmem with rfl | hold
    · exact h.dstpot.trans (hg hf ha)
    · exact h.right r hold

theorem portInv_bad (s : EthState) (e : EthEvent) (h : PortInv s) (hg : ¬ Current s e) :
    ¬ RepliesRight (ethStep s e) := by
  cases e with
  | irq buffer => exact absurd trivial hg
  | poll =>
    obtain ⟨hf, hg⟩ := Classical.not_imp.1 hg
    obtain ⟨ha, hne⟩ := Classical.not_imp.1 hg
    intro hright
    have hmem : (⟨(sendUserData s.dev s.head.frame.cmd s.head.frame.addr s.head.frame.data).1,
        s.dstpot, s.head⟩ : Reply) ∈ (ethStep s .poll).replies := by
      rw [poll_found hf]
      show _ ∈ (handle s s.head).replies
      rw [handle_answered s s.head ha]
      exact List.mem_cons_self
    exact hne (h.dstpot.symm.trans (hright _ hmem))

/-- **The replies.**  Every reply goes back to the port of its command iff no command is answered
after an interrupt found a datagram from another port last. -/
theorem repliesRight_iff (d : Dev) (es : List EthEvent) :
    Always ethStep RepliesRight (ethInit d) es ↔ Along ethStep Current (ethInit d) es :=
  Always_iff_Along (fun _ hi => hi.right) portInv_good portInv_bad
    ⟨rfl, fun _ hr => absurd hr List.not_mem_nil⟩

/-- a read of register 0 from a port -/
def readDatagram (port : Port) : Nat → UInt8
  | 34 => port.1
  | 35 => port.2
  | 36 => 0x50
  | 37 => 0x04
  | 42 => 0x02
  | _ => 0

/-- two interrupts find the reads of two senders before the main loop polls: the second gets the
first answer -/
theorem second_port_answered :
    ¬ Always ethStep RepliesRight (ethInit blankDev)
      [.irq (readDatagram (0x12, 0x34)), .irq (readDatagram (0x56, 0x78)), .poll, .poll] := by
  intro h
  exact absurd (h.last _ List.mem_cons_self) (by decide)

end MenuFirmware
