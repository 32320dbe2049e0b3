import MenuFirmware.Lib.DescRing
import MenuFirmware.Lib.Memory
import MenuFirmware.Lib.Run

/-!
# Transmission of frames (`ethernetif.c`, `stm32f7xx_hal_eth.c`)

Four descriptors, each with a buffer, go round between the CPU and the DMA of the Ethernet MAC.
`low_level_output` copies the pbufs of a frame into the buffers, `HAL_ETH_TransmitFrame` gives them
to the DMA one by one.  The DMA may take a descriptor between any two of these steps, and the
interrupt of the SPI, which answers with a datagram, may fall there too.

* `EthTx`            descriptors, where the CPU is in its program, the DMA and what is on the wire;
* `cpuStep`          the next step of `low_level_output` or `HAL_ETH_TransmitFrame`;
* `udpTsOutput`      the way around the pbufs: header and data of one datagram;
* `CopiedTo`         how far a frame has been copied; `CopiedTo.store`, one more copy;
* `TxInv`            what is held, what has been copied, and what the DMA will make of it.
-/

set_option linter.unusedSectionVars false

namespace MenuFirmware
open DescRing Memory Runs

/-! ## the code -/

def ethTxBufNb : Nat := 4
def ethTxBufSize : Nat := 1524
def ethRxBufSize : Nat := 1524
def udpBufSize : Nat := 0x4000

/-- `ETH_DMADescTypeDef` of a transmit descriptor, with its buffer -/
structure TxDesc where
  own : Bool
  firstSegment : Bool
  lastSegment : Bool
  controlBufferSize : Nat
  buffer : Nat → UInt8

/-- what the DMA transmits for a descriptor -/
def TxDesc.seg (d : TxDesc) : Seg UInt8 :=
  ⟨d.firstSegment, d.lastSegment, slice d.buffer 0 d.controlBufferSize⟩

/-- `ERR_OK` and `ERR_USE`, and `HAL_BUSY` where the handle is locked -/
inductive TxAnswer where
  | ok
  | use
  | busy
  deriving DecidableEq

/-- where the CPU is, with the local variables that count -/
inductive TxPhase where
  | idle
  /-- at the head of the loop over the pbufs -/
  | pbufs (dmaTxDesc bufferoffset framelength : Nat) (chain : List (List UInt8))
  /-- in the loop over the buffers: the rest of the pbuf, and the pbufs behind it -/
  | copying (dmaTxDesc bufferoffset framelength : Nat) (left : List UInt8)
      (chain : List (List UInt8))
  /-- in the loop of `HAL_ETH_TransmitFrame` -/
  | giving (i bufcount framelength : Nat)

structure EthTx where
  desc : Nat → TxDesc
  /-- `heth.TxDesc` -/
  txDesc : Nat
  phase : TxPhase
  /-- the descriptor that the DMA comes to next -/
  dma : Nat
  line : Collected UInt8
  /-- ghost: the frame of the call under way -/
  frame : List UInt8
  /-- ghost: the frames that were given to the DMA -/
  accepted : List (List UInt8)
  /-- ghost: the calls that have returned, with their frames -/
  answers : List (List UInt8 × TxAnswer)

/-- `Buffer2NextDescAddr` -/
def nextDesc (d : Nat) : Nat := (d + 1) % ethTxBufNb

def EthTx.owned (s : EthTx) (d : Nat) : Bool := (s.desc d).own

/-- `memcpy` into the buffer of a descriptor -/
def EthTx.store (s : EthTx) (d off : Nat) (src : List UInt8) : EthTx :=
  { s with
    desc := Function.update s.desc d
      { s.desc d with buffer := memcpy (s.desc d).buffer off src } }

def EthTx.answer (s : EthTx) (e : TxAnswer) : EthTx :=
  { s with phase := .idle, answers := s.answers ++ [(s.frame, e)] }

/-- the buffers that a frame takes -/
def bufCount (frameLength : Nat) : Nat :=
  if frameLength > ethTxBufSize then
    frameLength / ethTxBufSize + (if frameLength % ethTxBufSize ≠ 0 then 1 else 0)
  else 1

/-- `HAL_ETH_TransmitFrame` up to its loop; whether it goes there -/
def transmitFrame (s : EthTx) (frameLength : Nat) : Bool × EthTx :=
  if frameLength = 0 then (false, s)
  else if s.owned s.txDesc then (false, s)
  else
    (true,
      { s with
        phase := .giving 0 (bufCount frameLength) frameLength
        accepted := s.accepted ++ [s.frame] })

/-- one descriptor is given to the DMA -/
def give (s : EthTx) (i bufcount framelength : Nat) : EthTx :=
  let size := if i = bufcount - 1 then framelength - (bufcount - 1) * ethTxBufSize
    else ethTxBufSize
  { s with
    desc := Function.update s.desc s.txDesc
      { s.desc s.txDesc with
        firstSegment := i == 0
        lastSegment := i == bufcount - 1
        controlBufferSize := size &&& 0x1FFF
        own := true }
    txDesc := nextDesc s.txDesc }

def cpuStep (s : EthTx) : EthTx :=
  match s.phase with
  | .idle => s
  | .pbufs _ _ len [] =>
    -- what `HAL_ETH_TransmitFrame` returns is not looked at
    if (transmitFrame s len).1 then (transmitFrame s len).2 else s.answer .ok
  | .pbufs d off len (q :: qs) =>
    if s.owned d then s.answer .use else { s with phase := .copying d off len q qs }
  | .copying d off len left qs =>
    if left.length + off > ethTxBufSize then
      let room := ethTxBufSize - off
      let stored := s.store d off (left.take room)
      if stored.owned (nextDesc d) then stored.answer .use
      else { stored with phase := .copying (nextDesc d) 0 (len + room) (left.drop room) qs }
    else
      { s.store d off left with
        phase := .pbufs d (off + left.length) (len + left.length) qs }
  | .giving i bufcount len =>
    if i + 1 < bufcount then { give s i bufcount len with phase := .giving (i + 1) bufcount len }
    else (give s i bufcount len).answer .ok

def lowLevelOutput (s : EthTx) (chain : List (List UInt8)) : EthTx :=
  { s with phase := .pbufs s.txDesc 0 0 chain, frame := chain.flatten }

/-- the ring `dat` from `pos` on -/
def ringBytes (dat : Nat → UInt8) (pos n : Nat) : List UInt8 :=
  (List.range n).map fun i => dat ((pos + i) % udpBufSize)

/-- `tot_len - len` bytes of the pbuf, and `len` bytes of the ring -/
def udpTsFrame (payload : Nat → UInt8) (totLen len : UInt16) (dat : Nat → UInt8) (pos : Nat) :
    List UInt8 :=
  slice payload 0 (totLen.toNat - len.toNat) ++ ringBytes dat pos len.toNat

/-- `HAL_ETH_TransmitFrame` holds the lock of the handle -/
def TxPhase.isGiving : TxPhase → Bool
  | .giving _ _ _ => true
  | _ => false

/-- the call, with nothing else under way: the frame is copied into one buffer -/
def udpTsCall (s : EthTx) (locked : Bool) (totLen : Nat) : EthTx :=
  if totLen > ethRxBufSize then s.answer .use
  else if s.owned s.txDesc then s.answer .use
  else
    let copied := s.store s.txDesc 0 s.frame
    if locked then copied.answer .busy
    else if (transmitFrame copied totLen).1 then
      (give (transmitFrame copied totLen).2 0 (bufCount totLen) totLen).answer .ok
    else copied.answer .ok

/-- for a pbuf whose `tot_len` is not below its `len`; as an interrupt it may fall into another call,
which goes on afterwards -/
def udpTsOutput (s : EthTx) (payload : Nat → UInt8) (totLen len : UInt16) (dat : Nat → UInt8)
    (pos : Nat) : EthTx :=
  { udpTsCall { s with phase := .idle, frame := udpTsFrame payload totLen len dat pos }
      s.phase.isGiving totLen.toNat with
    phase := s.phase
    frame := s.frame }

/-- the DMA transmits a descriptor and gives it back -/
def dmaStep (s : EthTx) : EthTx :=
  if s.owned s.dma then
    { s with
      line := collect s.line (s.desc s.dma).seg
      desc := Function.update s.desc s.dma { s.desc s.dma with own := false }
      dma := nextDesc s.dma }
  else s

inductive EthTxEvent where
  | output (chain : List (List UInt8))
  | tsOutput (payload : Nat → UInt8) (totLen len : UInt16) (dat : Nat → UInt8) (pos : Nat)
  /-- the CPU goes on in the call under way -/
  | cpu
  | dma

/-- a call of `low_level_output` begins when the one before it is over -/
def ethTxStep (s : EthTx) : EthTxEvent → EthTx
  | .output chain => match s.phase with
    | .idle => lowLevelOutput s chain
    | _ => s
  | .tsOutput payload totLen len dat pos => udpTsOutput s payload totLen len dat pos
  | .cpu => cpuStep s
  | .dma => dmaStep s

/-- `HAL_ETH_DMATxDescListInit`; the buffers hold anything -/
def ethTxInit (buffers : Nat → Nat → UInt8) : EthTx where
  desc i := ⟨false, false, false, 0, buffers i⟩
  txDesc := 0
  phase := .idle
  dma := 0
  line := ⟨[], []⟩
  frame := []
  accepted := []
  answers := []

/-! ## the ring -/

/-- the DMA holds `k` descriptors, the CPU is behind them -/
structure TxRing (s : EthTx) (k : Nat) : Prop where
  held : Held ethTxBufNb s.owned s.dma k
  cpu : s.txDesc = (s.dma + k) % ethTxBufNb

/-- what the DMA will transmit for the descriptors that it holds -/
def inFlight (s : EthTx) (k : Nat) : List (Seg UInt8) :=
  RingBuf.segment (fun d => (s.desc d).seg) ethTxBufNb s.dma k

theorem TxRing.index {s : EthTx} {k : Nat} (h : TxRing s k) (j : Nat) :
    (s.txDesc + j) % ethTxBufNb = (s.dma + (k + j)) % ethTxBufNb := by
  rw [h.cpu, Nat.mod_add_mod, Nat.add_assoc]

theorem TxRing.free {s : EthTx} {k j : Nat} (h : TxRing s k) (hj : k + j < ethTxBufNb) :
    s.owned ((s.txDesc + j) % ethTxBufNb) = false := by
  rw [h.index, ← Nat.add_assoc]
  exact h.held.free hj

theorem TxRing.wrapped {s : EthTx} {k j : Nat} (h : TxRing s k)
    (hown : s.owned ((s.txDesc + j) % ethTxBufNb) = true) : ethTxBufNb ≤ k + j := by
  by_contra hlt
  rw [h.free (by omega)] at hown
  exact Bool.false_ne_true hown

theorem TxRing.txDesc_lt {s : EthTx} {k : Nat} (h : TxRing s k) : s.txDesc < ethTxBufNb := by
  rw [h.cpu]
  exact Nat.mod_lt _ (by decide)

theorem TxRing.at_txDesc {s : EthTx} {k : Nat} (h : TxRing s k) :
    s.txDesc = (s.txDesc + 0) % ethTxBufNb := by
  rw [Nat.add_zero, Nat.mod_eq_of_lt h.txDesc_lt]

theorem nextDesc_add (d j : Nat) :
    nextDesc ((d + j) % ethTxBufNb) = (d + (j + 1)) % ethTxBufNb := by
  unfold nextDesc
  rw [Nat.mod_add_mod, Nat.add_assoc]

section
variable {s : EthTx} {k j off : Nat} {src : List UInt8}

theorem store_self (s : EthTx) (d off : Nat) (src : List UInt8) :
    ((s.store d off src).desc d).buffer = memcpy (s.desc d).buffer off src := by
  simp [EthTx.store]

theorem store_ne (s : EthTx) {d x : Nat} (off : Nat) (src : List UInt8) (h : x ≠ d) :
    (s.store d off src).desc x = s.desc x := Function.update_of_ne h ..

theorem owned_store (s : EthTx) (d off : Nat) (src : List UInt8) :
    (s.store d off src).owned = s.owned := by
  funext x
  unfold EthTx.owned EthTx.store
  by_cases h : x = d
  · subst h
    simp only [Function.update_self]
  · simp only [Function.update_of_ne h]

theorem TxRing.store (h : TxRing s k) (d off : Nat) (src : List UInt8) :
    TxRing (s.store d off src) k where
  held := by
    rw [owned_store]
    exact h.held
  cpu := h.cpu

/-- a copy into a buffer that the DMA does not hold -/
theorem inFlight_store (h : TxRing s k) (hj : k + j < ethTxBufNb) :
    inFlight (s.store ((s.txDesc + j) % ethTxBufNb) off src) k = inFlight s k := by
  apply segment_congr
  intro i hi
  have hne : (s.dma + i) % ethTxBufNb ≠ (s.txDesc + j) % ethTxBufNb := by
    rw [h.index]
    exact RingBuf.index_ne hj (by omega)
  exact congrArg TxDesc.seg (store_ne s off src hne)

/-! ## copying -/

/-- the bytes `copied` of a frame are in the buffers, the `j`th of them is filled up to `off` -/
structure CopiedTo (s : EthTx) (k j off : Nat) (copied : List UInt8) : Prop where
  length : copied.length = ethTxBufSize * j + off
  off_le : off ≤ ethTxBufSize
  free : k + j < ethTxBufNb ∨ copied = []
  bytes : ∀ p, ∀ h : p < copied.length,
    (s.desc ((s.txDesc + p / ethTxBufSize) % ethTxBufNb)).buffer (p % ethTxBufSize) = copied[p]

theorem copiedTo_nil (s : EthTx) (k : Nat) : CopiedTo s k 0 0 [] :=
  ⟨rfl, Nat.zero_le _, Or.inr rfl, fun _ h => absurd h (Nat.not_lt_zero _)⟩

theorem CopiedTo.store {copied : List UInt8} (h : CopiedTo s k j off copied) (src : List UInt8)
    (hj : k + j < ethTxBufNb) (hroom : off + src.length ≤ ethTxBufSize) :
    CopiedTo (s.store ((s.txDesc + j) % ethTxBufNb) off src) k j (off + src.length)
      (copied ++ src) where
  length := by rw [List.length_append, h.length, Nat.add_assoc]
  off_le := hroom
  free := Or.inl hj
  bytes := by
    have hlen := h.length
    intro p hp
    rw [List.length_append] at hp
    show ((s.store _ off src).desc ((s.txDesc + p / ethTxBufSize) % ethTxBufNb)).buffer _ = _
    by_cases hold : p < copied.length
    · rw [List.getElem_append_left hold, ← h.bytes p hold]
      by_cases hq : p / ethTxBufSize = j
      · -- in the same buffer, below the copy
        have hmod : p % ethTxBufSize < off := by
          have hdm := Nat.div_add_mod p ethTxBufSize
          rw [hq] at hdm
          omega
        rw [hq, store_self]
        exact memcpy_below _ _ hmod
      · have hle : p / ethTxBufSize ≤ j := by
          apply Nat.le_of_lt_succ
          rw [Nat.div_lt_iff_lt_mul (by decide), Nat.succ_mul, Nat.mul_comm]
          have := h.off_le
          omega
        have hne := RingBuf.index_ne (r := s.txDesc) (show j < ethTxBufNb by omega)
          (Nat.lt_of_le_of_ne hle hq)
        rw [store_ne s off src hne]
    · obtain ⟨r, rfl⟩ : ∃ r, p = copied.length + r := ⟨p - copied.length, by omega⟩
      have hplace := cell_place j (show off + r < ethTxBufSize by omega)
      have hp' : copied.length + r = ethTxBufSize * j + (off + r) := by omega
      rw [List.getElem_append_right (by omega)]
      simp only [hp', hplace.1, hplace.2]
      rw [store_self, memcpy_at _ (show r < src.length by omega) 0, List.getD_eq_getElem _ _ (by omega)]
      congr 1
      omega

/-- the buffer is full, the next one is free -/
theorem CopiedTo.next {copied : List UInt8} (h : CopiedTo s k j ethTxBufSize copied)
    (hj : k + (j + 1) < ethTxBufNb) : CopiedTo s k (j + 1) 0 copied where
  length := by rw [h.length, Nat.mul_succ, Nat.add_zero]
  off_le := Nat.zero_le _
  free := Or.inl hj
  bytes := h.bytes

end

/-! ## giving -/

/-- what `n` buffers can take -/
def ringCapacity : Nat := ethTxBufSize * ethTxBufNb

theorem bufCount_eq {len : Nat} (h : 0 < len) : bufCount len = segCount ethTxBufSize len := by
  unfold bufCount segCount ethTxBufSize
  split_ifs <;> omega

/-- the segments of the frame that the DMA has not been given yet -/
def toGive (frame : List UInt8) : TxPhase → List (Seg UInt8)
  | .giving i _ _ => segmentsFrom ethTxBufSize frame i
  | _ => []

/-- the buffers from `txDesc` on hold the frame from its `i`th segment on -/
def HoldsFrom (s : EthTx) (i bufcount : Nat) : Prop :=
  ∀ m, i + m < bufcount →
    slice (s.desc ((s.txDesc + m) % ethTxBufNb)).buffer 0
        (segAt ethTxBufSize s.frame (i + m)).bytes.length =
      (segAt ethTxBufSize s.frame (i + m)).bytes

section
variable {s : EthTx} {k j off : Nat}

/-- a frame that is copied stands there in segments -/
theorem CopiedTo.holds (h : CopiedTo s k j off s.frame) :
    HoldsFrom s 0 (segCount ethTxBufSize s.frame.length) := by
  intro m _
  rw [Nat.zero_add]
  have hlen := segAt_length ethTxBufSize s.frame m
  apply List.ext_getElem (slice_length _ _ _)
  intro r hr hr'
  rw [hlen] at hr'
  have hplace := cell_place m (show r < ethTxBufSize by omega)
  have hbyte := h.bytes (ethTxBufSize * m + r) (by omega)
  rw [hplace.1, hplace.2] at hbyte
  simp only [slice, List.getElem_map, List.getElem_range, Nat.zero_add, hbyte]
  simp [segAt]

theorem CopiedTo.room (h : CopiedTo s k j off s.frame) (hne : s.frame ≠ []) :
    k + segCount ethTxBufSize s.frame.length ≤ ethTxBufNb := by
  have hfree := h.free.resolve_right hne
  have hlen := h.length
  have hoff := h.off_le
  have hpos : 0 < s.frame.length := List.length_pos_of_ne_nil hne
  have hbounds := segCount_bounds (n := ethTxBufSize) (by decide) hpos
  have hle : segCount ethTxBufSize s.frame.length ≤ j + 1 := by
    by_contra hgt
    have hmul := Nat.mul_le_mul_left ethTxBufSize
      (show j + 1 ≤ segCount ethTxBufSize s.frame.length - 1 by omega)
    rw [Nat.mul_succ] at hmul
    omega
  omega

/-! ## the invariant -/

/-- what is so where the CPU is -/
def AtPhase (s : EthTx) (k : Nat) : TxPhase → Prop
  | .idle => True
  | .pbufs d off len chain => s.frame.length ≤ ringCapacity ∧ ∃ j copied,
      d = (s.txDesc + j) % ethTxBufNb ∧ copied ++ chain.flatten = s.frame ∧
        len = copied.length ∧ CopiedTo s k j off copied
  | .copying d off len left chain => s.frame.length ≤ ringCapacity ∧ ∃ j copied,
      d = (s.txDesc + j) % ethTxBufNb ∧ copied ++ (left ++ chain.flatten) = s.frame ∧
        len = copied.length ∧ CopiedTo s k j off copied ∧ k + j < ethTxBufNb
  | .giving i bufcount len =>
      len = s.frame.length ∧ bufcount = segCount ethTxBufSize len ∧ i < bufcount ∧
        k + (bufcount - i) ≤ ethTxBufNb ∧ HoldsFrom s i bufcount

/-- the frames of the calls that were answered `ERR_OK`; of an empty frame there is nothing to send -/
def okFrames (answers : List (List UInt8 × TxAnswer)) : List (List UInt8) :=
  (answers.filter fun a => a.2 = .ok ∧ a.1 ≠ []).map Prod.fst

/-- the frame that is being given to the DMA -/
def underGive (frame : List UInt8) : TxPhase → List (List UInt8)
  | .giving _ _ _ => [frame]
  | _ => []

structure TxInv (s : EthTx) (k : Nat) : Prop where
  ring : TxRing s k
  phase : AtPhase s k s.phase
  line : (inFlight s k ++ toGive s.frame s.phase).foldl collect s.line = ⟨s.accepted, []⟩
  answered : s.accepted = okFrames s.answers ++ underGive s.frame s.phase

/-- while no frame is being given to the DMA -/
structure TxQuiet (s : EthTx) (k : Nat) : Prop where
  ring : TxRing s k
  line : (inFlight s k).foldl collect s.line = ⟨s.accepted, []⟩
  answered : s.accepted = okFrames s.answers

theorem quiet_phase {frame : List UInt8} {ph : TxPhase} (h : ph.isGiving = false) :
    toGive frame ph = [] ∧ underGive frame ph = [] := by
  cases ph with
  | giving i bufcount len => exact absurd h (Bool.false_ne_true ∘ Eq.symm)
  | _ => exact ⟨rfl, rfl⟩

theorem TxInv.quiet (h : TxInv s k) (hph : s.phase.isGiving = false) : TxQuiet s k := by
  have hline := h.line
  have hans := h.answered
  rw [(quiet_phase hph).1, List.append_nil] at hline
  rw [(quiet_phase hph).2, List.append_nil] at hans
  exact ⟨h.ring, hline, hans⟩

end

end MenuFirmware
