import MenuFirmware.Eth.Commands

/-!
# The queue in the order of the main loop (`pollint.c`)

`pollint` calls `pollint_eth_send` before anything else, and `ethernetif_input` at most once behind
it.  A call of `ethernetif_input` gives back the descriptors of one frame, so that between two
commands that are processed no more frames come in than the four descriptors hold.

* `InOrder`            no frame is fetched twice without a call of `pollint_eth_send` between;
* `unfetched`          the frames stored and not fetched are no more than the descriptors;
* `BoundInv`           the commands that wait are few more than these frames;
* `waiting_bound`      so at most seven wait, and an interrupt always finds room.
-/

set_option linter.unusedSectionVars false

namespace MenuFirmware
open Runs

/-! ## what is stored and not fetched -/

def EthRx.storing (s : EthRx) : Nat := s.fifo.elim 0 fun _ => 1

/-- the frames stored and not fetched -/
theorem unfetched {s : EthRx} (h : RxReach s) :
    s.received.length + s.storing ≤ s.taken.length ∧
      s.taken.length ≤ s.received.length + s.storing + ethRxBufNb := by
  obtain ⟨rel, k, junk, pending, h⟩ := h
  obtain ⟨done, htaken, hall⟩ := h.frames
  have hlen := hall.length_eq
  have hk := h.held.count_le
  have hfifo := h.fifo
  unfold EthRx.storing
  rw [htaken, List.length_append, ← hlen]
  cases hf : s.fifo with
  | none =>
    have hp := pending_le h hf
    show _ + 0 ≤ _ ∧ _ ≤ _ + 0 + _
    omega
  | some x =>
    rw [hf] at hfifo
    obtain ⟨⟨front, rfl⟩, hi, hexp⟩ := hfifo
    have hfront := length_le_slots front
    rw [List.flatMap_append, List.flatMap_singleton, List.length_append, List.length_append,
      slots_length] at hexp
    rw [List.length_append, List.length_singleton]
    show _ + 1 ≤ _ ∧ _ ≤ _ + 1 + _
    omega

/-- a call of `ethernetif_input` that has not copied its frame yet -/
def RxPhase.isFetching : RxPhase → Bool
  | .scan _ _ | .copying _ => true
  | .idle | .releasing _ _ => false

/-- the CPU fetches at most one frame in a step, and is then done with it -/
theorem rxCpuStep_counts (s : EthRx) :
    (rxCpuStep s).taken = s.taken ∧ (rxCpuStep s).fifo = s.fifo ∧
      (((rxCpuStep s).received = s.received ∧
          ((rxCpuStep s).phase.isFetching = true → s.phase.isFetching = true)) ∨
        (s.phase.isFetching = true ∧ (rxCpuStep s).phase.isFetching = false ∧
          (rxCpuStep s).received.length = s.received.length + 1)) := by
  cases hph : s.phase with
  | idle =>
    rw [rxCpuStep_idle hph, hph]
    exact ⟨rfl, rfl, Or.inl ⟨rfl, id⟩⟩
  | scan counter pbufAlloc =>
    obtain ⟨hf, ht⟩ := scanDescStep_frame s counter pbufAlloc
    rw [rxCpuStep_scan hph]
    refine ⟨ht, hf, Or.inl ⟨?_, fun _ => rfl⟩⟩
    unfold scanDescStep
    simp only
    split_ifs <;> rfl
  | copying pbufAlloc =>
    rw [rxCpuStep_copying hph]
    exact ⟨rfl, rfl, Or.inr ⟨rfl, rfl, List.length_append⟩⟩
  | releasing i d =>
    rw [rxCpuStep_releasing hph]
    unfold releaseStep
    by_cases hi : i < s.segCount
    · rw [if_pos hi]
      exact ⟨rfl, rfl, Or.inl ⟨rfl, id⟩⟩
    · rw [if_neg hi]
      exact ⟨rfl, rfl, Or.inl ⟨rfl, id⟩⟩

/-! ## the order -/

/-- `ethernetif_input` is called when `pollint_eth_send` has been since the last frame was fetched -/
def InOrder (s : EthIn) : EthInEvent → Prop
  | .rx (.poll pbufAlloc) => s.polled = true ∧ (EthRxEvent.poll pbufAlloc).Lawful
  | .rx _ | .irq | .send => True

def EthIn.flag (s : EthIn) : Nat := if s.flagged = [] then 0 else 1

def EthIn.owed (s : EthIn) : Nat := if s.polled then 0 else 1

structure BoundInv (s : EthIn) : Prop where
  rx : RxReach s.rx
  polled : s.rx.phase.isFetching = true → s.polled = true
  bound : (behind s.queue).length + s.flag + (s.rx.received.length + s.rx.storing) ≤
    s.rx.taken.length + 2 + s.owed

theorem flag_le (s : EthIn) : s.flag ≤ 1 := by
  unfold EthIn.flag
  split_ifs <;> decide

/-- more frames with the flag -/
theorem flag_append (s : EthIn) (gs : List MacFrame) :
    (if s.flagged ++ gs = [] then 0 else 1) ≤ s.flag + gs.length := by
  unfold EthIn.flag
  cases gs with
  | nil =>
    rw [List.append_nil]
    exact Nat.le_refl _
  | cons g gs =>
    rw [if_neg (List.append_ne_nil_of_right_ne_nil _ (List.cons_ne_nil g gs)), List.length_cons]
    omega

/-- a step of the reception that fetches nothing -/
theorem BoundInv.kept {s : EthIn} {e : EthRxEvent} (h : BoundInv s) (hl : e.Lawful)
    (hrec : (ethRxStep s.rx e).received = s.rx.received)
    (hph : (ethRxStep s.rx e).phase.isFetching = true → s.polled = true)
    (hcount : (ethRxStep s.rx e).storing + (completes s.rx e).length + s.rx.taken.length ≤
      s.rx.storing + (ethRxStep s.rx e).taken.length) : BoundInv (ethInStep s (.rx e)) := by
  rcases receive_cases s e with hs | hs
  · rw [hs]
    exact h
  · rw [hs]
    have hpolled : (s.polled && (ethRxStep s.rx e).received.length == s.rx.received.length)
        = s.polled := by rw [hrec, beq_self_eq_true, Bool.and_true]
    refine ⟨ethRxStep_inv h.rx hl, fun hf => hpolled.trans (hph hf), ?_⟩
    have hflag := flag_append s (completes s.rx e)
    have hbound := h.bound
    show (behind s.queue).length + (if s.flagged ++ completes s.rx e = [] then 0 else 1) +
        ((ethRxStep s.rx e).received.length + (ethRxStep s.rx e).storing) ≤
      (ethRxStep s.rx e).taken.length + 2 + (if (s.polled && _) = true then 0 else 1)
    rw [hpolled, hrec]
    unfold EthIn.owed at hbound
    omega

/-- the step that fetches a frame uses the call of `pollint_eth_send` up -/
theorem BoundInv.fetched {s : EthIn} (h : BoundInv s) (hph : s.rx.phase.isFetching = true)
    (hph' : (rxCpuStep s.rx).phase.isFetching = false)
    (hrec : (rxCpuStep s.rx).received.length = s.rx.received.length + 1)
    (htaken : (rxCpuStep s.rx).taken = s.rx.taken) (hfifo : (rxCpuStep s.rx).fifo = s.rx.fifo) :
    BoundInv (ethInStep s (.rx .cpu)) := by
  rcases receive_cases s .cpu with hs | hs
  · rw [hs]
    exact h
  · rw [hs]
    refine ⟨ethRxStep_inv (e := .cpu) h.rx trivial, fun hf => absurd (hph'.symm.trans hf) nofun, ?_⟩
    have hbound := h.bound
    have howed : s.owed = 0 := if_pos (h.polled hph)
    have hne : ¬ (rxCpuStep s.rx).received.length = s.rx.received.length := by omega
    show (behind s.queue).length + (if s.flagged ++ [] = [] then 0 else 1) +
        ((rxCpuStep s.rx).received.length + (rxCpuStep s.rx).storing) ≤
      (rxCpuStep s.rx).taken.length + 2 +
        (if (s.polled && (rxCpuStep s.rx).received.length == s.rx.received.length) = true then 0
          else 1)
    rw [beq_false_of_ne hne, Bool.and_false, if_neg Bool.false_ne_true, List.append_nil, hrec, htaken]
    unfold EthRx.storing EthIn.flag at *
    rw [hfifo]
    omega

theorem macArrive_counts (s : EthRx) (g : MacFrame) :
    (macArrive s g).received = s.received ∧ (macArrive s g).phase = s.phase ∧
      (macArrive s g).storing + s.taken.length = s.storing + (macArrive s g).taken.length := by
  unfold macArrive EthRx.storing
  cases hf : s.fifo with
  | none =>
    refine ⟨rfl, rfl, ?_⟩
    show 1 + _ = 0 + (s.taken ++ [g]).length
    rw [List.length_append, List.length_singleton]
    omega
  | some x =>
    refine ⟨rfl, rfl, ?_⟩
    show Option.elim s.fifo 0 _ + _ = _
    rw [hf]

theorem macStore_counts (s : EthRx) :
    (macStore s).received = s.received ∧ (macStore s).phase = s.phase ∧
      (macStore s).taken = s.taken ∧
      (macStore s).storing + (completes s .store).length = s.storing := by
  unfold macStore completes EthRx.storing
  cases hf : s.fifo with
  | none => exact ⟨rfl, rfl, rfl, by rw [hf]; rfl⟩
  | some x =>
    obtain ⟨g, i⟩ := x
    cases hown : (s.desc s.mac).own with
    | false => exact ⟨rfl, rfl, rfl, by simp [hf]⟩
    | true =>
      refine ⟨rfl, rfl, rfl, ?_⟩
      by_cases hlast : i + 1 = g.segs
      · simp [hlast]
      · simp [hlast]

theorem boundInv_rx {s : EthIn} {e : EthRxEvent} (h : BoundInv s) (hg : InOrder s (.rx e)) :
    BoundInv (ethInStep s (.rx e)) := by
  cases e with
  | poll pbufAlloc =>
    refine h.kept hg.2 ?_ (fun _ => hg.1) ?_
    · unfold ethRxStep
      cases s.rx.phase <;> rfl
    · unfold ethRxStep
      cases s.rx.phase <;> exact Nat.le_refl _
  | cpu =>
    obtain ⟨ht, hf, ⟨hr, hp⟩ | ⟨hp, hp', hr⟩⟩ := rxCpuStep_counts s.rx
    · refine h.kept trivial hr (fun hph => h.polled (hp hph)) ?_
      show (rxCpuStep s.rx).storing + 0 + _ ≤ _ + (rxCpuStep s.rx).taken.length
      unfold EthRx.storing
      rw [ht, hf]
      exact Nat.le_refl _
    · exact h.fetched hp hp' hr ht hf
  | arrive g =>
    obtain ⟨hr, hp, hc⟩ := macArrive_counts s.rx g
    exact h.kept trivial hr (fun hph => h.polled (hp ▸ hph)) (Nat.le_of_eq hc)
  | store =>
    obtain ⟨hr, hp, ht, hc⟩ := macStore_counts s.rx
    refine h.kept trivial hr (fun hph => h.polled (hp ▸ hph)) ?_
    show (macStore s.rx).storing + _ + _ ≤ _ + (macStore s.rx).taken.length
    rw [ht, hc]

/-! ## the interrupt and the queue -/

theorem behind_push (s : EthState) (buffer : Nat → UInt8) :
    (behind (ethIrqInput s buffer)).length ≤ (behind s).length + 1 := by
  unfold ethIrqInput
  by_cases ha : portAccepted buffer = true
  · rw [if_pos ha]
    by_cases hp : s.polling = .idle
    · rw [behind_idle hp, behind_idle (by exact hp), RingBuf.contents_length, RingBuf.contents_length,
        RingBuf.count_push]
      exact Nat.mod_le _ _
    · rw [behind_busy hp, behind_busy (by exact hp), RingBuf.push_pop, RingBuf.contents_length,
        RingBuf.contents_length, RingBuf.count_push]
      exact Nat.mod_le _ _
  · rw [if_neg ha]
    exact Nat.le_succ _

/-- a call of `pollint_eth_send` takes a command, if there is one -/
theorem behind_poll (s : EthState) :
    (behind (ethStep s .poll)).length ≤ (behind s).length ∧
      (s.polling = .idle → (behind (ethStep s .poll)).length = (behind s).length - 1) := by
  cases hp : s.polling with
  | idle =>
    by_cases h : s.ring.read = s.ring.write
    · have hnil : behind s = [] := (behind_idle hp).trans (s.ring.contents_eq_nil.2 h)
      rw [poll_idle_none hp h, hnil]
      exact ⟨Nat.le_refl _, fun _ => rfl⟩
    · have hc : behind s = s.head :: s.ring.pop.contents :=
        (behind_idle hp).trans (s.ring.contents_pop h)
      have hnext : behind (ethStep s .poll) = s.ring.pop.contents := by
        rw [poll_idle_some hp h]
        rfl
      rw [hnext, hc, List.length_cons]
      exact ⟨Nat.le_succ _, fun _ => rfl⟩
  | found =>
    have hb := behind_busy (s := s) (by rw [hp]; exact Polling.noConfusion)
    have hnext : behind (ethStep s .poll) = s.ring.pop.contents := by
      rw [poll_found hp, behind_busy (by exact Polling.noConfusion)]
      exact congrArg (fun r => RingBuf.contents (RingBuf.pop r)) (handle_ring s s.head).1
    rw [hnext, hb]
    exact ⟨Nat.le_refl _, nofun⟩
  | handled =>
    have hb := behind_busy (s := s) (by rw [hp]; exact Polling.noConfusion)
    have hnext : behind (ethStep s .poll) = s.ring.pop.contents := by
      rw [poll_handled hp]
      rfl
    rw [hnext, hb]
    exact ⟨Nat.le_refl _, nofun⟩

theorem boundInv_irq {s : EthIn} (h : BoundInv s) : BoundInv (ethInStep s .irq) := by
  have hbound := h.bound
  cases hi : s.inIrq with
  | true =>
    rw [irq_cleared hi]
    refine ⟨h.rx, h.polled, ?_⟩
    show (behind s.queue).length + 0 + (s.rx.received.length + s.rx.storing) ≤
      s.rx.taken.length + 2 + s.owed
    omega
  | false =>
    by_cases hf : s.flagged = []
    · rw [irq_none hi hf]
      exact h
    · have hflag : s.flag = 1 := if_neg hf
      have hpush := behind_push s.queue s.buffer
      rw [irq_callback hi hf]
      refine ⟨h.rx, h.polled, ?_⟩
      show (behind (ethIrqInput s.queue s.buffer)).length + 0 +
        (s.rx.received.length + s.rx.storing) ≤ s.rx.taken.length + 2 + s.owed
      omega

theorem boundInv_send {s : EthIn} (h : BoundInv s) : BoundInv (ethInStep s .send) := by
  have hbound := h.bound
  have hflag := flag_le s
  have hstored := (unfetched h.rx).1
  rcases send_cases s with hs | hs
  · rw [hs]
    exact h
  · rw [hs]
    obtain ⟨hle, hidle⟩ := behind_poll s.queue
    refine ⟨h.rx, fun hf => ?_, ?_⟩
    · show (s.polled || _) = true
      rw [h.polled hf, Bool.true_or]
    · show (behind (ethStep s.queue .poll)).length + s.flag +
          (s.rx.received.length + s.rx.storing) ≤
        s.rx.taken.length + 2 + (if (s.polled || s.queue.polling.isIdle) = true then 0 else 1)
      unfold EthIn.owed at hbound
      cases hp : s.queue.polling with
      | idle =>
        have hone := hidle hp
        rw [show (s.polled || Polling.isIdle .idle) = true from Bool.or_true _, if_pos rfl]
        split_ifs at hbound <;> omega
      | found =>
        rw [show (s.polled || Polling.isIdle .found) = s.polled from Bool.or_false _]
        omega
      | handled =>
        rw [show (s.polled || Polling.isIdle .handled) = s.polled from Bool.or_false _]
        omega

/-! ## the bound -/

theorem boundInv_step (s : EthIn) (e : EthInEvent) (h : BoundInv s) (hg : InOrder s e) :
    BoundInv (ethInStep s e) := by
  cases e with
  | rx e => exact boundInv_rx h hg
  | irq => exact boundInv_irq h
  | send => exact boundInv_send h

theorem BoundInv.waiting_le {s : EthIn} (h : BoundInv s) : (behind s.queue).length ≤ 7 := by
  have hbound := h.bound
  have hstored := (unfetched h.rx).2
  have howed : s.owed ≤ 1 := by
    unfold EthIn.owed
    split_ifs <;> decide
  unfold ethRxBufNb at hstored
  omega

theorem boundInv_init (buffers : Nat → Nat → UInt8) (low : Nat → UInt8) (d : Dev) :
    BoundInv (ethInInit buffers low d) where
  rx := ⟨0, 0, [], [], ethRxInit_inv buffers⟩
  polled := nofun
  bound := by
    have hnil : behind (ethInit d) = [] := List.append_eq_nil_iff.1 (waiting_init d) |>.2
    show (behind (ethInit d)).length + 0 + (0 + 0) ≤ 0 + 2 + 1
    rw [hnil]
    decide

/-- **The ring is never full.**  In the order of the main loop at most seven commands wait, behind
the one that is being processed. -/
theorem waiting_bound (buffers : Nat → Nat → UInt8) (low : Nat → UInt8) (d : Dev)
    (es : List EthInEvent) (h : Along ethInStep InOrder (ethInInit buffers low d) es) :
    (behind (run ethInStep (ethInInit buffers low d) es).queue).length ≤ 7 :=
  (run_invariant_along boundInv_step (boundInv_init buffers low d) h).waiting_le

/-- a frame comes in, the queue is polled, and the frame is fetched -/
theorem waiting_bound_fetch :
    (behind (run ethInStep (ethInInit (fun _ _ => 0) (fun _ => 0) blankDev)
      (announced readFrame ++ .send :: (fetch fun n => some [n]).map EthInEvent.rx)).queue).length ≤
      7 := by
  refine waiting_bound _ _ _ _ ⟨trivial, trivial, trivial, trivial, trivial, ⟨rfl, ?_⟩, ?_⟩
  · intro n lens h
    obtain rfl := Option.some.inj h
    exact List.sum_singleton
  · exact ⟨trivial, trivial, trivial, trivial, trivial, trivial, trivial, trivial, trivial, trivial,
      trivial⟩

end MenuFirmware
