import MenuFirmware.Eth.Steps

/-!
# Frames on the wire

Every step of the CPU and of the DMA keeps `TxInv`, in whatever order they come.  So does the
datagram of the interrupt, unless it falls into a call of `low_level_output` and finds a buffer.

* `TxInv.cpu`, `TxQuiet.output`, `TxInv.tsOutput`, `TxInv.tsRefused`   the steps;
* `TxInv.refused`       a frame is refused only where the free buffers cannot take it;
* `ethTx_wire`          over every run the wire carries the accepted frames, whole, in order, each
                        once;
* `ethTx_interrupted`   what goes out instead where the interrupt falls between copying and giving.
-/

set_option linter.unusedSectionVars false

namespace MenuFirmware
open DescRing Memory Runs

section
variable {s : EthTx} {k j off : Nat}

/-! ## every run -/

/-- the next step in the loop over the pbufs -/
theorem TxInv.pbufs {d off len : Nat} {chain : List (List UInt8)} (h : TxInv s k)
    (hph : s.phase = .pbufs d off len chain) : TxInv (cpuStep s) k := by
  have hquiet := h.quiet (by rw [hph]; rfl)
  have hat := h.phase
  rw [hph] at hat
  obtain ⟨hfit, j, copied, hd, hsplit, hlen, hc⟩ := hat
  unfold cpuStep
  rw [hph]
  cases chain with
  | nil =>
    rw [List.flatten_nil, List.append_nil] at hsplit
    subst hsplit
    rw [hlen]
    exact hquiet.transmit hc
  | cons q qs =>
    by_cases hown : s.owned d = true
    · simp only [hown, if_true]
      exact hquiet.answer (Or.inl rfl)
    · have hfree : s.owned d = false := Bool.eq_false_iff.2 hown
      -- the check says that the descriptor is not held
      have hlt : k + j < ethTxBufNb := by
        rcases hc.free with hlt | hnil
        · exact hlt
        · have hzero : j = 0 := by
            have hcl := hc.length
            rw [hnil, List.length_nil] at hcl
            unfold ethTxBufSize at hcl
            omega
          subst hzero
          rw [hd, ← h.ring.at_txDesc, h.ring.cpu] at hfree
          exact h.ring.held.lt_of_free hfree
      simp only [hfree, Bool.false_eq_true, if_false]
      exact hquiet.goOn rfl ⟨hfit, j, copied, hd, hsplit, hlen, hc, hlt⟩

/-- the next step in the loop over the buffers -/
theorem TxInv.copying {d off len : Nat} {left : List UInt8} {chain : List (List UInt8)}
    (h : TxInv s k) (hph : s.phase = .copying d off len left chain) : TxInv (cpuStep s) k := by
  have hquiet := h.quiet (by rw [hph]; rfl)
  have hat := h.phase
  rw [hph] at hat
  obtain ⟨hfit, j, copied, hd, hsplit, hlen, hc, hlt⟩ := hat
  have hcl := hc.length
  have hoff := hc.off_le
  have hframe := congrArg List.length hsplit
  rw [List.length_append, List.length_append] at hframe
  unfold cpuStep
  rw [hph]
  subst hd
  by_cases hbig : left.length + off > ethTxBufSize
  · -- the buffer is filled up
    have htake : (left.take (ethTxBufSize - off)).length = ethTxBufSize - off := by
      rw [List.length_take]
      omega
    have hfull := hc.store (left.take (ethTxBufSize - off)) hlt (by omega)
    rw [htake, show off + (ethTxBufSize - off) = ethTxBufSize by omega] at hfull
    have hstored := hquiet.store hlt off (left.take (ethTxBufSize - off))
    simp only [hbig, if_true, nextDesc_add]
    by_cases hown : (s.store ((s.txDesc + j) % ethTxBufNb) off
        (left.take (ethTxBufSize - off))).owned ((s.txDesc + (j + 1)) % ethTxBufNb) = true
    · simp only [hown, if_true]
      exact hstored.answer (Or.inl rfl)
    · have hfree := Bool.eq_false_iff.2 hown
      -- the ring has room for the frame, so it has not come round
      have hnext : k + (j + 1) < ethTxBufNb := by
        by_contra hge
        have hround : k + (j + 1) = ethTxBufNb := by omega
        cases k with
        | zero =>
          unfold ringCapacity at hfit
          rw [← hround, Nat.zero_add, Nat.mul_succ] at hfit
          omega
        | succ k =>
          rw [owned_store, h.ring.index, hround, Nat.add_mod_right,
            Nat.mod_eq_of_lt h.ring.held.first_lt, h.ring.held.front] at hfree
          exact Bool.false_ne_true hfree.symm
      simp only [hfree, Bool.false_eq_true, if_false]
      refine hstored.goOn rfl ⟨hfit, j + 1, copied ++ left.take (ethTxBufSize - off), rfl, ?_, ?_,
        hfull.next hnext, hnext⟩
      · rw [List.append_assoc, ← List.append_assoc (left.take _), List.take_append_drop]
        exact hsplit
      · rw [List.length_append, htake, hlen]
  · simp only [hbig, if_false]
    refine (hquiet.store hlt off left).goOn rfl ⟨hfit, j, copied ++ left, rfl, ?_, ?_,
      hc.store left hlt (by omega)⟩
    · rw [List.append_assoc]
      exact hsplit
    · rw [List.length_append, hlen]

theorem TxInv.cpu (h : TxInv s k) : ∃ k', TxInv (cpuStep s) k' := by
  cases hph : s.phase with
  | idle =>
    have hsame : cpuStep s = s := by
      unfold cpuStep
      rw [hph]
    rw [hsame]
    exact ⟨k, h⟩
  | pbufs d off len chain => exact ⟨k, h.pbufs hph⟩
  | copying d off len left chain => exact ⟨k, h.copying hph⟩
  | giving i bufcount len =>
    refine ⟨k + 1, ?_⟩
    have hgive := h.give hph
    unfold cpuStep
    rw [hph]
    exact hgive

theorem TxQuiet.called (h : TxQuiet s k) (frame : List UInt8) :
    TxQuiet { s with frame := frame } k := ⟨⟨h.ring.held, h.ring.cpu⟩, h.line, h.answered⟩

theorem TxQuiet.idle (h : TxQuiet s k) : TxQuiet { s with phase := .idle } k :=
  ⟨⟨h.ring.held, h.ring.cpu⟩, h.line, h.answered⟩

theorem TxQuiet.output (h : TxQuiet s k) {chain : List (List UInt8)}
    (hfit : chain.flatten.length ≤ ringCapacity) : TxInv (lowLevelOutput s chain) k :=
  @TxQuiet.goOn _ k (.pbufs s.txDesc 0 0 chain) (h.called chain.flatten) rfl
    ⟨hfit, 0, [], h.ring.at_txDesc, rfl, rfl, copiedTo_nil _ k⟩

theorem udpTsFrame_length (payload : Nat → UInt8) {totLen len : UInt16} (h : len ≤ totLen)
    (dat : Nat → UInt8) (pos : Nat) :
    (udpTsFrame payload totLen len dat pos).length = totLen.toNat := by
  have hle : len.toNat ≤ totLen.toNat := h
  unfold udpTsFrame ringBytes
  rw [List.length_append, slice_length, List.length_map, List.length_range]
  omega

theorem bufCount_one {len : Nat} (h : len ≤ ethRxBufSize) : bufCount len = 1 := by
  unfold bufCount
  exact if_neg (Nat.not_lt.2 h)

theorem udpTsCall_refused {locked : Bool} {totLen : Nat}
    (h : ethRxBufSize < totLen ∨ s.owned s.txDesc = true) :
    udpTsCall s locked totLen = s.answer .use := by
  unfold udpTsCall
  rcases h with hbig | hown
  · exact if_pos hbig
  · rw [hown, if_pos rfl, ite_self]

/-- a datagram that finds a buffer: it is copied there, and given to the DMA -/
theorem udpTsCall_sent (hfree : s.owned s.txDesc = false) {totLen : Nat} (hpos : 0 < totLen)
    (hle : totLen ≤ ethRxBufSize) :
    udpTsCall s false totLen =
      (give { s.store s.txDesc 0 s.frame with
        phase := .giving 0 1 totLen
        accepted := s.accepted ++ [s.frame] } 0 1 totLen).answer .ok := by
  have hsent := transmitFrame_free (s := s.store s.txDesc 0 s.frame) hpos (by
    rw [owned_store]
    exact hfree)
  rw [bufCount_one hle] at hsent
  unfold udpTsCall
  rw [if_neg (Nat.not_lt.2 hle), hfree]
  simp only [Bool.false_eq_true, if_false, hsent, if_true, bufCount_one hle]
  rfl

/-- the call is answered, and what it sends is one more segment in flight -/
theorem TxQuiet.tsSent (h : TxQuiet s k) (hfree : s.owned s.txDesc = false) {totLen : Nat}
    (hlen : s.frame.length = totLen) (hpos : 0 < totLen) (hle : totLen ≤ ethRxBufSize) :
    TxInv (udpTsCall s false totLen) (k + 1) := by
  have hlt : k + 0 < ethTxBufNb := by
    rw [h.ring.cpu] at hfree
    exact h.ring.held.lt_of_free hfree
  have hroom : 0 + s.frame.length ≤ ethTxBufSize := by
    rw [hlen, Nat.zero_add]
    exact hle
  have hcopied := (copiedTo_nil s k).store s.frame hlt hroom
  have hstored := h.store hlt 0 s.frame
  rw [← h.ring.at_txDesc] at hcopied hstored
  have hsent := hstored.transmit hcopied
  rw [show (s.store s.txDesc 0 s.frame).frame.length = totLen from hlen,
    transmitFrame_free hpos (hstored.ring.txDesc_free hlt), if_pos rfl, bufCount_one hle] at hsent
  rw [udpTsCall_sent hfree hpos hle]
  exact @TxInv.give _ (k + 0) 0 1 totLen hsent rfl

/-- the call returns, with one more segment in flight if it sends -/
theorem TxQuiet.tsCall (h : TxQuiet s k) {totLen : Nat} (hlen : s.frame.length = totLen) :
    ∃ k', TxInv (udpTsCall s false totLen) k' ∧ (udpTsCall s false totLen).phase = .idle := by
  by_cases hbig : totLen > ethRxBufSize
  · rw [udpTsCall_refused (Or.inl hbig)]
    exact ⟨k, h.answer (Or.inl rfl), rfl⟩
  · cases hown : s.owned s.txDesc with
    | true =>
      rw [udpTsCall_refused (Or.inr hown)]
      exact ⟨k, h.answer (Or.inl rfl), rfl⟩
    | false =>
      cases totLen with
      | zero =>
        have hnil := List.eq_nil_of_length_eq_zero hlen
        have hlt : k + 0 < ethTxBufNb := by
          rw [h.ring.cpu] at hown
          exact h.ring.held.lt_of_free hown
        have hstored := h.store hlt 0 s.frame
        rw [← h.ring.at_txDesc] at hstored
        unfold udpTsCall
        rw [if_neg hbig, hown]
        exact ⟨k, hstored.answer (Or.inr hnil), rfl⟩
      | succ n =>
        have hle := Nat.not_lt.1 hbig
        refine ⟨k + 1, h.tsSent hown hlen (Nat.succ_pos n) hle, ?_⟩
        rw [udpTsCall_sent hown (Nat.succ_pos n) hle]
        rfl

/-- a datagram that is answered while no frame is under way -/
theorem TxInv.tsOutput (h : TxInv s k) (hph : s.phase = .idle) {totLen len : UInt16}
    (hle : len ≤ totLen) (payload dat : Nat → UInt8) (pos : Nat) :
    ∃ k', TxInv (udpTsOutput s payload totLen len dat pos) k' := by
  have hquiet := h.quiet (by rw [hph]; rfl)
  have hcalled := (hquiet.called (udpTsFrame payload totLen len dat pos)).idle
  obtain ⟨k', hk', hidle⟩ := hcalled.tsCall (udpTsFrame_length payload hle dat pos)
  have hquiet' := hk'.quiet (by rw [hidle]; rfl)
  refine ⟨k', ?_⟩
  unfold udpTsOutput
  rw [hph]
  exact (hquiet'.called s.frame).goOn rfl trivial

/-- a datagram that does not find a buffer leaves the call under way alone -/
theorem udpTsOutput_refused {totLen len : UInt16}
    (hfull : ethRxBufSize < totLen.toNat ∨ s.owned s.txDesc = true) (payload dat : Nat → UInt8)
    (pos : Nat) :
    udpTsOutput s payload totLen len dat pos =
      { s with answers := s.answers ++ [(udpTsFrame payload totLen len dat pos, .use)] } := by
  unfold udpTsOutput
  rw [udpTsCall_refused (s :=
    { s with phase := .idle, frame := udpTsFrame payload totLen len dat pos }) hfull]
  rfl

theorem TxInv.tsRefused (h : TxInv s k) {totLen len : UInt16}
    (hfull : ethRxBufSize < totLen.toNat ∨ s.owned s.txDesc = true) (payload dat : Nat → UInt8)
    (pos : Nat) : TxInv (udpTsOutput s payload totLen len dat pos) k := by
  have hok : okFrames (s.answers ++ [(udpTsFrame payload totLen len dat pos, .use)]) =
      okFrames s.answers := by
    simp [okFrames]
  rw [udpTsOutput_refused hfull]
  refine ⟨⟨h.ring.held, h.ring.cpu⟩, h.phase.taken (fun _ => rfl) rfl rfl (Nat.le_refl k),
    h.line, ?_⟩
  show s.accepted = okFrames (s.answers ++ [_]) ++ underGive s.frame s.phase
  rw [hok]
  exact h.answered

/-- what the callers keep to: a frame that the buffers can take; header and data within `tot_len`,
and the interrupt does not fall into a call unless it finds no buffer -/
def Undisturbed (s : EthTx) : EthTxEvent → Prop
  | .output chain => chain.flatten.length ≤ ringCapacity
  | .tsOutput _ totLen len _ _ => len ≤ totLen ∧
      (s.phase = .idle ∨ ethRxBufSize < totLen.toNat ∨ s.owned s.txDesc = true)
  | .cpu => True
  | .dma => True

theorem ethTxStep_inv (e : EthTxEvent) (h : ∃ k, TxInv s k) (he : Undisturbed s e) :
    ∃ k, TxInv (ethTxStep s e) k := by
  obtain ⟨k, h⟩ := h
  cases e with
  | output chain =>
    unfold ethTxStep
    cases hph : s.phase with
    | idle => exact ⟨k, (h.quiet (by rw [hph]; rfl)).output he⟩
    | _ => exact ⟨k, h⟩
  | tsOutput payload totLen len dat pos =>
    obtain ⟨hle, hidle | hfull⟩ := he
    · exact h.tsOutput hidle hle payload dat pos
    · exact ⟨k, h.tsRefused hfull payload dat pos⟩
  | cpu => exact h.cpu
  | dma => exact ⟨k - 1, h.dma⟩

theorem ethTxInit_inv (buffers : Nat → Nat → UInt8) : TxInv (ethTxInit buffers) 0 where
  ring := ⟨⟨show 0 < ethTxBufNb by decide, Nat.zero_le _, fun _ _ => rfl⟩, rfl⟩
  phase := trivial
  line := rfl
  answered := rfl

theorem ethTx_inv (buffers : Nat → Nat → UInt8) {es : List EthTxEvent}
    (hes : Along ethTxStep Undisturbed (ethTxInit buffers) es) :
    ∃ k, TxInv (run ethTxStep (ethTxInit buffers) es) k :=
  run_invariant_along (P := fun s => ∃ k, TxInv s k) (fun _ e h he => ethTxStep_inv e h he)
    ⟨0, ethTxInit_inv buffers⟩ hes

/-- the messages that are complete only get more -/
theorem collect_grows (gs : List (Seg UInt8)) (c : Collected UInt8) :
    c.messages <+: (gs.foldl collect c).messages := by
  induction gs generalizing c with
  | nil => exact List.prefix_refl _
  | cons g gs ih =>
    refine List.IsPrefix.trans ?_ (ih (collect c g))
    unfold collect
    by_cases h : g.last = true
    · simp [h]
    · simp [h]

/-- how many descriptors the DMA holds -/
def dmaCount (s : EthTx) : Nat := (List.range ethTxBufNb).countP s.owned

theorem TxInv.dmaCount (h : TxInv s k) : dmaCount s = k := h.ring.held.countP

theorem answer_ne {e e' : TxAnswer} {frame : List UInt8}
    (h : (s.answer e).answers = s.answers ++ [(frame, e')]) : e = e' := by
  have hlast := List.append_cancel_left h
  exact congrArg Prod.snd (List.cons.inj hlast).1

theorem append_ne {α : Type} (l : List α) (x : α) : l ≠ l ++ [x] := by
  intro h
  have hlen := congrArg List.length h
  simp at hlen

/-- a frame is refused only where the free buffers cannot take it -/
theorem TxInv.refused (h : TxInv s k) {frame : List UInt8}
    (hans : (cpuStep s).answers = s.answers ++ [(frame, .use)]) :
    ethTxBufNb < k + bufCount s.frame.length := by
  have hat := h.phase
  unfold cpuStep at hans
  cases hph : s.phase with
  | idle =>
    rw [hph] at hans
    exact absurd hans (append_ne _ _)
  | pbufs d off len chain =>
    rw [hph] at hans hat
    obtain ⟨-, j, copied, hd, -, -, hc⟩ := hat
    cases chain with
    | nil =>
      by_cases hsent : (transmitFrame s len).1 = true
      · simp only [hsent, if_true] at hans
        have hsame : (transmitFrame s len).2.answers = s.answers := by
          unfold transmitFrame
          split_ifs <;> rfl
        rw [hsame] at hans
        exact absurd hans (append_ne _ _)
      · simp only [hsent, Bool.false_eq_true, if_false] at hans
        exact absurd (answer_ne hans) (by decide)
    | cons q qs =>
      by_cases hown : s.owned d = true
      · -- the first check of the call: all are held
        rw [hd] at hown
        have hge := h.ring.wrapped hown
        have hzero : j = 0 := by
          rcases hc.free with hlt | hnil
          · omega
          · have hcl := hc.length
            rw [hnil, List.length_nil] at hcl
            unfold ethTxBufSize at hcl
            omega
        have hpos : 0 < bufCount s.frame.length := by
          unfold bufCount ethTxBufSize
          split_ifs <;> omega
        omega
      · simp only [hown, Bool.false_eq_true, if_false] at hans
        exact absurd hans (append_ne _ _)
  | copying d off len left chain =>
    rw [hph] at hans hat
    obtain ⟨-, j, copied, hd, hsplit, -, hc, -⟩ := hat
    have hcl := hc.length
    have hframe := congrArg List.length hsplit
    rw [List.length_append, List.length_append] at hframe
    by_cases hbig : left.length + off > ethTxBufSize
    · simp only [hbig, if_true] at hans
      by_cases hown : (s.store d off (left.take (ethTxBufSize - off))).owned (nextDesc d) = true
      · rw [owned_store, hd, nextDesc_add] at hown
        have hge := h.ring.wrapped hown
        have hmore : j + 1 < bufCount s.frame.length := by
          have hpos : 0 < s.frame.length := by omega
          have hbounds := segCount_bounds (n := ethTxBufSize) (by decide) hpos
          rw [bufCount_eq hpos]
          by_contra hle
          have hmul := Nat.mul_le_mul_left ethTxBufSize
            (show segCount ethTxBufSize s.frame.length ≤ j + 1 by omega)
          rw [Nat.mul_succ] at hmul
          omega
        omega
      · simp only [hown, Bool.false_eq_true, if_false] at hans
        exact absurd hans (append_ne _ _)
    · simp only [hbig, if_false] at hans
      exact absurd hans (append_ne _ _)
  | giving i bufcount len =>
    rw [hph] at hans
    by_cases hmore : i + 1 < bufcount
    · simp only [hmore, if_true] at hans
      exact absurd hans (append_ne _ _)
    · simp only [hmore, if_false] at hans
      exact absurd (answer_ne hans) (by decide)

/-- **The wire.**  Along every run it carries whole frames, in order, each once: those of the calls
that returned `ERR_OK` and the one that is being given to the DMA.  When the CPU is done and the DMA
has gone round they are all there.  A call is refused only when the buffers that the DMA does not
hold cannot take its frame. -/
theorem ethTx_wire (buffers : Nat → Nat → UInt8) (es : List EthTxEvent)
    (hes : Along ethTxStep Undisturbed (ethTxInit buffers) es) :
    (run ethTxStep (ethTxInit buffers) es).line.messages <+:
        okFrames (run ethTxStep (ethTxInit buffers) es).answers ++
          underGive (run ethTxStep (ethTxInit buffers) es).frame
            (run ethTxStep (ethTxInit buffers) es).phase ∧
      ((run ethTxStep (ethTxInit buffers) es).phase = .idle →
        (run ethTxStep (ethTxInit buffers) (es ++ List.replicate ethTxBufNb .dma)).line =
          ⟨okFrames (run ethTxStep (ethTxInit buffers) es).answers, []⟩) ∧
      (∀ frame, (run ethTxStep (ethTxInit buffers) (es ++ [.cpu])).answers =
          (run ethTxStep (ethTxInit buffers) es).answers ++ [(frame, .use)] →
        ethTxBufNb < dmaCount (run ethTxStep (ethTxInit buffers) es) +
          bufCount (run ethTxStep (ethTxInit buffers) es).frame.length) := by
  obtain ⟨k, h⟩ := ethTx_inv buffers hes
  refine ⟨?_, fun hph => ?_, fun frame hans => ?_⟩
  · have hgrows := collect_grows
      (inFlight (run ethTxStep (ethTxInit buffers) es) k ++
        toGive (run ethTxStep (ethTxInit buffers) es).frame
          (run ethTxStep (ethTxInit buffers) es).phase)
      (run ethTxStep (ethTxInit buffers) es).line
    rw [h.line] at hgrows
    rw [← h.answered]
    exact hgrows
  · have hquiet := h.quiet (by rw [hph]; rfl)
    rw [run_append, h.ring.drained ethTxBufNb h.ring.held.count_le, hquiet.line, hquiet.answered]
  · rw [run_append] at hans
    rw [h.dmaCount]
    exact h.refused hans

/-- a frame of two pbufs, and the DMA -/
theorem ethTx_wire_two :
    (run ethTxStep (ethTxInit fun _ _ => 0)
      ([.output [[1, 2], [3]], .cpu, .cpu, .cpu, .cpu, .cpu, .cpu] ++
        List.replicate ethTxBufNb .dma)).line = ⟨[[1, 2, 3]], []⟩ := by
  have hfits : Along ethTxStep Undisturbed (ethTxInit fun _ _ => 0)
      [.output [[1, 2], [3]], .cpu, .cpu, .cpu, .cpu, .cpu, .cpu] := by
    refine ⟨?_, trivial, trivial, trivial, trivial, trivial, trivial, trivial⟩
    simp [Undisturbed, ringCapacity, ethTxBufSize, ethTxBufNb]
  have hrun := (ethTx_wire (fun _ _ => 0) _ hfits).2.1 rfl
  exact hrun.trans rfl

/-! ## the interrupt between copying and giving -/

/-- the datagram is in flight; the call under way is where it was, one descriptor behind -/
theorem TxInv.tsAccepted (h : TxInv s k) (hph : s.phase.isGiving = false)
    (hfree : s.owned s.txDesc = false) {totLen len : UInt16} (hle : len ≤ totLen)
    (hpos : 0 < totLen.toNat) (hbig : totLen.toNat ≤ ethRxBufSize) (payload dat : Nat → UInt8)
    (pos : Nat) :
    TxRing (udpTsOutput s payload totLen len dat pos) (k + 1) ∧
      (inFlight (udpTsOutput s payload totLen len dat pos) (k + 1)).foldl collect
          (udpTsOutput s payload totLen len dat pos).line =
        ⟨okFrames s.answers ++ [udpTsFrame payload totLen len dat pos], []⟩ ∧
      (udpTsOutput s payload totLen len dat pos).txDesc = nextDesc s.txDesc ∧
      (udpTsOutput s payload totLen len dat pos).answers =
        s.answers ++ [(udpTsFrame payload totLen len dat pos, .ok)] ∧
      ∀ d, d ≠ s.txDesc →
        ((udpTsOutput s payload totLen len dat pos).desc d).buffer = (s.desc d).buffer := by
  have hlen := udpTsFrame_length payload hle dat pos
  have hcalled := ((h.quiet hph).called (udpTsFrame payload totLen len dat pos)).idle
  have hsent := hcalled.tsSent hfree hlen hpos hbig
  have hcall := udpTsCall_sent (s :=
    { s with phase := .idle, frame := udpTsFrame payload totLen len dat pos }) hfree hpos hbig
  have hne : udpTsFrame payload totLen len dat pos ≠ [] := by
    intro hnil
    rw [hnil, List.length_nil] at hlen
    omega
  have hanswers : (udpTsOutput s payload totLen len dat pos).answers =
      s.answers ++ [(udpTsFrame payload totLen len dat pos, .ok)] := by
    unfold udpTsOutput
    rw [hph, hcall]
    rfl
  have hquiet := hsent.quiet (by rw [hcall]; rfl)
  refine ⟨?_, ?_, ?_, hanswers, ?_⟩
  · unfold udpTsOutput
    rw [hph]
    exact ⟨hquiet.ring.held, hquiet.ring.cpu⟩
  · have hok : okFrames (s.answers ++ [(udpTsFrame payload totLen len dat pos, .ok)]) =
        okFrames s.answers ++ [udpTsFrame payload totLen len dat pos] := by
      simp [okFrames, hne]
    have hline := hquiet.line
    rw [hquiet.answered] at hline
    rw [← hok, ← hanswers]
    unfold udpTsOutput
    rw [hph]
    exact hline
  · unfold udpTsOutput
    rw [hph, hcall]
    rfl
  · intro d hd
    unfold udpTsOutput
    rw [hph, hcall]
    show ((MenuFirmware.give _ 0 1 totLen.toNat).desc d).buffer = _
    rw [give_buffer]
    exact congrArg TxDesc.buffer (store_ne _ 0 _ hd)

end

end MenuFirmware
