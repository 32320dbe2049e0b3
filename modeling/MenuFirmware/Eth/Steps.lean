import MenuFirmware.Eth.Transmit

/-!
# The DMA and the calls keep the ring

What the DMA does to the descriptors that it holds, and what a call of the CPU leaves behind: a
frame that is refused, copied, or given segment by segment.

* `TxInv.dma`, `TxRing.drained`   the DMA, whenever it comes;
* `TxQuiet.answer`, `.store`, `.goOn`, `.transmit`   what the calls do before they give;
* `TxInv.give`                    one segment of the frame.
-/

set_option linter.unusedSectionVars false

namespace MenuFirmware
open DescRing Memory Runs

section
variable {s : EthTx} {k j off : Nat}

/-! ## the steps -/

/-- what holds of the buffers holds when the DMA has taken descriptors in the meantime -/
theorem AtPhase.taken {s' : EthTx} {k' : Nat} {ph : TxPhase} (h : AtPhase s k ph)
    (hbuf : ∀ d, (s'.desc d).buffer = (s.desc d).buffer) (htx : s'.txDesc = s.txDesc)
    (hframe : s'.frame = s.frame) (hk : k' ≤ k) : AtPhase s' k' ph := by
  have hcopied : ∀ {j off : Nat} {copied : List UInt8}, CopiedTo s k j off copied →
      CopiedTo s' k' j off copied := by
    intro j off copied hc
    refine ⟨hc.length, hc.off_le, hc.free.imp_left fun hlt => by omega, fun p hp => ?_⟩
    rw [hbuf, htx]
    exact hc.bytes p hp
  cases ph with
  | idle => trivial
  | pbufs d off len chain =>
    obtain ⟨hfit, j, copied, hd, hsplit, hlen, hc⟩ := h
    exact ⟨hframe ▸ hfit, j, copied, htx ▸ hd, hframe ▸ hsplit, hlen, hcopied hc⟩
  | copying d off len left chain =>
    obtain ⟨hfit, j, copied, hd, hsplit, hlen, hc, hlt⟩ := h
    exact ⟨hframe ▸ hfit, j, copied, htx ▸ hd, hframe ▸ hsplit, hlen, hcopied hc, by omega⟩
  | giving i bufcount len =>
    obtain ⟨hlen, hcount, hi, hroom, hholds⟩ := h
    refine ⟨hframe ▸ hlen, hcount, hi, by omega, fun m hm => ?_⟩
    rw [hbuf, htx, hframe]
    exact hholds m hm

theorem dmaStep_owned (h : s.owned s.dma = true) :
    dmaStep s =
      { s with
        line := collect s.line (s.desc s.dma).seg
        desc := Function.update s.desc s.dma { s.desc s.dma with own := false }
        dma := nextDesc s.dma } := by
  unfold dmaStep
  rw [if_pos h]

theorem dmaStep_buffer (s : EthTx) (d : Nat) : ((dmaStep s).desc d).buffer = (s.desc d).buffer := by
  unfold dmaStep
  split_ifs
  · by_cases hd : d = s.dma
    · subst hd
      simp
    · simp [hd]
  · rfl

/-- the first of the segments in flight is on the line now -/
theorem TxRing.dma (h : TxRing s (k + 1)) :
    TxRing (dmaStep s) k ∧
      (inFlight (dmaStep s) k).foldl collect (dmaStep s).line =
        (inFlight s (k + 1)).foldl collect s.line := by
  have hheld := h.held.take
  have hmod : s.dma % ethTxBufNb = s.dma := Nat.mod_eq_of_lt h.held.first_lt
  have howned : (fun d => (Function.update s.desc s.dma
      { s.desc s.dma with own := false } d).own) = Function.update s.owned s.dma false := by
    funext d
    by_cases hd : d = s.dma
    · subst hd
      simp
    · rw [Function.update_of_ne hd, Function.update_of_ne hd]
      rfl
  have hseg : (fun d => (Function.update s.desc s.dma { s.desc s.dma with own := false } d).seg) =
      fun d => (s.desc d).seg := by
    funext d
    by_cases hd : d = s.dma
    · subst hd
      simp [TxDesc.seg]
    · rw [Function.update_of_ne hd]
  rw [dmaStep_owned h.held.front]
  refine ⟨⟨?_, ?_⟩, ?_⟩
  · show Held ethTxBufNb (fun d => (Function.update s.desc s.dma
      { s.desc s.dma with own := false } d).own) (nextDesc s.dma) k
    rw [howned]
    exact hheld
  · show s.txDesc = (nextDesc s.dma + k) % ethTxBufNb
    rw [h.cpu]
    unfold nextDesc
    rw [Nat.mod_add_mod, Nat.add_assoc, Nat.add_comm 1 k]
  · unfold inFlight
    rw [RingBuf.segment_pop, List.foldl_cons, hmod]
    simp only [hseg]
    rfl

theorem TxRing.dma_none (h : TxRing s 0) : dmaStep s = s := by
  unfold dmaStep
  have hnone : s.owned s.dma = false := h.held.front_empty
  simp [hnone]

theorem dmaStep_frame (s : EthTx) :
    (dmaStep s).phase = s.phase ∧ (dmaStep s).txDesc = s.txDesc ∧ (dmaStep s).frame = s.frame ∧
      (dmaStep s).accepted = s.accepted ∧ (dmaStep s).answers = s.answers := by
  unfold dmaStep
  split_ifs <;> exact ⟨rfl, rfl, rfl, rfl, rfl⟩

theorem TxInv.dma (h : TxInv s k) : TxInv (dmaStep s) (k - 1) := by
  cases k with
  | zero =>
    rw [h.ring.dma_none]
    exact h
  | succ k =>
    obtain ⟨hring, hfold⟩ := h.ring.dma
    obtain ⟨hphase, htx, hframe, hacc, hans⟩ := dmaStep_frame s
    rw [Nat.add_sub_cancel]
    refine ⟨hring, ?_, ?_, ?_⟩
    · rw [hphase]
      exact h.phase.taken (dmaStep_buffer s) htx hframe (Nat.le_succ k)
    · have hline := h.line
      rw [List.foldl_append] at hline
      rw [hphase, hframe, hacc, List.foldl_append, hfold]
      exact hline
    · rw [hphase, hframe, hacc, hans]
      exact h.answered

/-- the DMA alone: what is in flight is on the line in the end -/
theorem TxRing.drained (n : Nat) {s : EthTx} {k : Nat} (h : TxRing s k) (hk : k ≤ n) :
    (run ethTxStep s (List.replicate n .dma)).line = (inFlight s k).foldl collect s.line := by
  induction n generalizing s k with
  | zero =>
    obtain rfl : k = 0 := by omega
    rfl
  | succ n ih =>
    rw [List.replicate_succ, run_cons]
    show (run ethTxStep (dmaStep s) _).line = _
    cases k with
    | zero =>
      rw [h.dma_none]
      exact ih h (Nat.zero_le n)
    | succ k =>
      rw [ih h.dma.1 (by omega), h.dma.2]

/-- a call that is refused, or has nothing to send, changes nothing -/
theorem TxQuiet.answer {e : TxAnswer} (h : TxQuiet s k) (he : e = .use ∨ s.frame = []) :
    TxInv (s.answer e) k where
  ring := ⟨h.ring.held, h.ring.cpu⟩
  phase := trivial
  line := by
    show (inFlight s k ++ []).foldl collect s.line = _
    rw [List.append_nil]
    exact h.line
  answered := by
    have hok : okFrames (s.answers ++ [(s.frame, e)]) = okFrames s.answers := by
      rcases he with rfl | he <;> simp [okFrames, *]
    show s.accepted = okFrames (s.answers ++ [(s.frame, e)]) ++ []
    rw [h.answered, hok, List.append_nil]

/-- a copy behind the held descriptors -/
theorem TxQuiet.store (h : TxQuiet s k) (hj : k + j < ethTxBufNb) (off : Nat) (src : List UInt8) :
    TxQuiet (s.store ((s.txDesc + j) % ethTxBufNb) off src) k where
  ring := h.ring.store _ off src
  line := by
    rw [inFlight_store h.ring hj]
    exact h.line
  answered := h.answered

/-- the CPU goes on -/
theorem TxQuiet.goOn {ph : TxPhase} (h : TxQuiet s k) (hph : ph.isGiving = false)
    (hat : AtPhase s k ph) : TxInv { s with phase := ph } k where
  ring := ⟨h.ring.held, h.ring.cpu⟩
  phase := hat.taken (fun _ => rfl) rfl rfl (Nat.le_refl k)
  line := by
    show (inFlight s k ++ toGive s.frame ph).foldl collect s.line = _
    rw [(quiet_phase hph).1, List.append_nil]
    exact h.line
  answered := by
    show s.accepted = okFrames s.answers ++ underGive s.frame ph
    rw [(quiet_phase hph).2, List.append_nil]
    exact h.answered

theorem transmitFrame_free {len : Nat} (hpos : 0 < len) (hfree : s.owned s.txDesc = false) :
    transmitFrame s len = (true,
      { s with
        phase := .giving 0 (bufCount len) len
        accepted := s.accepted ++ [s.frame] }) := by
  unfold transmitFrame
  rw [if_neg (Nat.ne_of_gt hpos), if_neg (by rw [hfree]; exact Bool.false_ne_true)]

theorem TxRing.txDesc_free (h : TxRing s k) (hlt : k < ethTxBufNb) :
    s.owned s.txDesc = false := by
  have hat := h.free (j := 0) hlt
  rwa [← h.at_txDesc] at hat

/-- a frame that is copied is given to the DMA; an empty one is not -/
theorem TxQuiet.transmit (h : TxQuiet s k) (hc : CopiedTo s k j off s.frame) :
    TxInv (if (transmitFrame s s.frame.length).1 then (transmitFrame s s.frame.length).2
      else s.answer .ok) k := by
  by_cases hne : s.frame = []
  · have hzero : (transmitFrame s s.frame.length).1 = false := by simp [transmitFrame, hne]
    rw [hzero, if_neg Bool.false_ne_true]
    exact h.answer (Or.inr hne)
  · have hpos : 0 < s.frame.length := List.length_pos_of_ne_nil hne
    have hlt : k + 0 < ethTxBufNb := by
      have hfree := hc.free.resolve_right hne
      omega
    rw [transmitFrame_free hpos (h.ring.txDesc_free hlt), if_pos rfl, bufCount_eq hpos]
    refine ⟨⟨h.ring.held, h.ring.cpu⟩, ⟨rfl, rfl, segCount_pos (by decide) hpos, ?_, hc.holds⟩, ?_, ?_⟩
    · rw [Nat.sub_zero]
      exact hc.room hne
    · show (inFlight s k ++ segmentsFrom ethTxBufSize s.frame 0).foldl collect s.line = _
      rw [List.foldl_append, h.line, collect_segments (by decide) hne]
    · show s.accepted ++ [s.frame] = okFrames s.answers ++ [s.frame]
      rw [h.answered]

/-- the size of a buffer fits the field of the descriptor -/
theorem size_mask {x : Nat} (h : x ≤ ethTxBufSize) : x &&& 0x1FFF = x := by
  have h' : x < 2 ^ 13 := Nat.lt_of_le_of_lt h (by decide)
  exact (Nat.and_two_pow_sub_one_eq_mod x 13).trans (Nat.mod_eq_of_lt h')

/-- one segment of the frame goes to the DMA -/
theorem give_seg {i bufcount len : Nat} (hlen : len = s.frame.length)
    (hcount : bufcount = segCount ethTxBufSize len) (hi : i < bufcount)
    (hholds : HoldsFrom s i bufcount) (ht : s.txDesc < ethTxBufNb) :
    ((give s i bufcount len).desc s.txDesc).seg = segAt ethTxBufSize s.frame i := by
  have hpos : 0 < len := by
    by_contra hzero
    have hcount0 : segCount ethTxBufSize 0 = 0 := by decide
    rw [show len = 0 by omega, hcount0] at hcount
    omega
  have hbounds := segCount_bounds (n := ethTxBufSize) (by decide) hpos
  rw [← hcount] at hbounds
  have hbytes := hholds 0 (by omega)
  rw [Nat.add_zero, Nat.add_zero, Nat.mod_eq_of_lt ht] at hbytes
  have hsize : (if i = bufcount - 1 then len - (bufcount - 1) * ethTxBufSize else ethTxBufSize) &&& 0x1FFF
      = (segAt ethTxBufSize s.frame i).bytes.length := by
    rw [segAt_length, ← hlen]
    have hlastSize : ethTxBufSize * bufcount = ethTxBufSize * (bufcount - 1) + ethTxBufSize := by
      rw [← Nat.mul_succ]
      congr 1
      omega
    by_cases hlast : i = bufcount - 1
    · have hle : len - (bufcount - 1) * ethTxBufSize ≤ ethTxBufSize := by
        rw [Nat.mul_comm]
        omega
      rw [if_pos hlast, size_mask hle, hlast, Nat.mul_comm]
      omega
    · rw [if_neg hlast, size_mask (Nat.le_refl _)]
      have hmul := Nat.mul_le_mul_left ethTxBufSize (show i + 1 ≤ bufcount - 1 by omega)
      rw [Nat.mul_succ] at hmul
      omega
  have hself : (give s i bufcount len).desc s.txDesc =
      { s.desc s.txDesc with
        firstSegment := i == 0
        lastSegment := i == bufcount - 1
        controlBufferSize := (segAt ethTxBufSize s.frame i).bytes.length
        own := true } := by
    unfold give
    simp only [Function.update_self, hsize]
  have hlast : (i == bufcount - 1) = (i + 1 == segCount ethTxBufSize s.frame.length) := by
    rw [← hlen, ← hcount, Bool.eq_iff_iff, beq_iff_eq, beq_iff_eq]
    omega
  rw [hself]
  show Seg.mk (i == 0) (i == bufcount - 1) (slice (s.desc s.txDesc).buffer 0 _) = _
  rw [hbytes, hlast]
  rfl

theorem give_ne (s : EthTx) (i bufcount len : Nat) {d : Nat} (h : d ≠ s.txDesc) :
    (give s i bufcount len).desc d = s.desc d := Function.update_of_ne h ..

theorem give_buffer (s : EthTx) (i bufcount len d : Nat) :
    ((give s i bufcount len).desc d).buffer = (s.desc d).buffer := by
  by_cases h : d = s.txDesc
  · subst h
    simp [give]
  · rw [give_ne s i bufcount len h]

theorem give_owned (s : EthTx) (i bufcount len : Nat) :
    (give s i bufcount len).owned = Function.update s.owned s.txDesc true := by
  funext d
  by_cases h : d = s.txDesc
  · subst h
    simp [give, EthTx.owned]
  · rw [Function.update_of_ne h]
    exact congrArg TxDesc.own (give_ne s i bufcount len h)

/-- what the DMA holds when it is given one more -/
theorem give_ring (h : TxRing s k) (hk : k < ethTxBufNb) (i bufcount len : Nat) :
    TxRing (give s i bufcount len) (k + 1) where
  held := by
    rw [give_owned]
    show Held ethTxBufNb _ s.dma (k + 1)
    rw [h.cpu]
    exact h.held.give hk
  cpu := by
    show nextDesc s.txDesc = _
    rw [h.cpu, nextDesc_add]
    rfl

theorem give_inFlight (h : TxRing s k) (hk : k < ethTxBufNb) {i bufcount len : Nat} {g : Seg UInt8}
    (hg : ((give s i bufcount len).desc s.txDesc).seg = g) :
    inFlight (give s i bufcount len) (k + 1) = inFlight s k ++ [g] := by
  have hslots : (fun d => ((give s i bufcount len).desc d).seg) =
      Function.update (fun d => (s.desc d).seg) ((s.dma + k) % ethTxBufNb) g := by
    rw [← h.cpu]
    funext d
    by_cases hd : d = s.txDesc
    · subst hd
      rw [Function.update_self, hg]
    · rw [Function.update_of_ne hd, give_ne s i bufcount len hd]
  unfold inFlight
  rw [hslots]
  exact RingBuf.segment_push _ s.dma g hk

theorem TxInv.give {i bufcount len : Nat} (h : TxInv s k) (hph : s.phase = .giving i bufcount len) :
    TxInv (if i + 1 < bufcount then
      { give s i bufcount len with phase := .giving (i + 1) bufcount len }
      else (give s i bufcount len).answer .ok) (k + 1) := by
  have hat := h.phase
  have hline := h.line
  have hans := h.answered
  rw [hph] at hat hline hans
  obtain ⟨hlen, hcount, hi, hroom, hholds⟩ := hat
  have hk : k < ethTxBufNb := by omega
  have hring := give_ring h.ring hk i bufcount len
  have hflight := give_inFlight h.ring hk
    (give_seg hlen hcount hi hholds h.ring.txDesc_lt)
  have hseg : segmentsFrom ethTxBufSize s.frame i =
      segAt ethTxBufSize s.frame i :: segmentsFrom ethTxBufSize s.frame (i + 1) :=
    segmentsFrom_succ _ _ (by rw [← hlen, ← hcount]; exact hi)
  have hline' : (inFlight (MenuFirmware.give s i bufcount len) (k + 1) ++
      segmentsFrom ethTxBufSize s.frame (i + 1)).foldl collect s.line = ⟨s.accepted, []⟩ := by
    rw [hflight, List.append_assoc, List.singleton_append, ← hseg]
    exact hline
  by_cases hmore : i + 1 < bufcount
  · rw [if_pos hmore]
    refine ⟨⟨hring.held, hring.cpu⟩, ⟨hlen, hcount, hmore, by omega, ?_⟩, hline', hans⟩
    intro m hm
    have hidx : (nextDesc s.txDesc + m) % ethTxBufNb = (s.txDesc + (m + 1)) % ethTxBufNb := by
      unfold nextDesc
      rw [Nat.mod_add_mod, Nat.add_assoc, Nat.add_comm 1 m]
    have hm' := hholds (m + 1) (by omega)
    show slice ((MenuFirmware.give s i bufcount len).desc
      ((nextDesc s.txDesc + m) % ethTxBufNb)).buffer 0 _ = _
    rw [give_buffer, hidx, show i + 1 + m = i + (m + 1) by omega]
    exact hm'
  · rw [if_neg hmore]
    refine ⟨⟨hring.held, hring.cpu⟩, trivial, ?_, ?_⟩
    · have hend : segmentsFrom ethTxBufSize s.frame (i + 1) = [] :=
        segmentsFrom_end _ _ (by rw [← hlen, ← hcount]; omega)
      rw [hend] at hline'
      exact hline'
    · have hne : s.frame ≠ [] := by
        intro hnil
        have hzero : segCount ethTxBufSize 0 = 0 := by decide
        rw [hlen, hnil, List.length_nil, hzero] at hcount
        omega
      show s.accepted = okFrames (s.answers ++ [(s.frame, .ok)]) ++ []
      rw [hans]
      simp [okFrames, underGive, hne]

end

end MenuFirmware
