import Mathlib.Data.List.SplitLengths
import MenuFirmware.Eth.Transmit

/-!
# Reception of frames (`ethernetif.c`, `stm32f7xx_hal_eth.c`)

The MAC stores a frame segment by segment in the buffers of four descriptors.  The main loop calls
`low_level_input`, which looks for the last segment of a frame, copies the frame into pbufs and
gives the descriptors back.  The MAC may store a segment between any two of these steps.

* `EthRx`            descriptors, `RxFrameInfos`, where the CPU is in its program, the MAC;
* `rxCpuStep`        the next step of `HAL_ETH_GetReceivedFrame_IT` or `low_level_input`;
* `macStore`         the MAC stores a segment, as soon as it has a descriptor;
* `RxInv`            what the descriptors hold, and how far the scan has come;
* `RxInv.arrive`, `RxInv.store`, `RxInv.scan`   the steps of the MAC and of the scan keep it.
-/

set_option linter.unusedSectionVars false

namespace MenuFirmware
open DescRing Memory Runs

/-! ## the code -/

def ethRxBufNb : Nat := 4

/-- `ETH_DMADescTypeDef` of a receive descriptor, with its buffer -/
structure RxDesc where
  own : Bool
  firstSegment : Bool
  lastSegment : Bool
  /-- valid in the last segment of a frame; it counts the check sequence -/
  frameLength : Nat
  buffer : Nat → UInt8

/-- a frame on the line, not longer than the buffers together -/
structure MacFrame where
  data : List UInt8
  /-- the check sequence, which the MAC stores too -/
  fcs : UInt8 × UInt8 × UInt8 × UInt8
  size : data.length + 4 ≤ ethRxBufNb * ethRxBufSize

def MacFrame.bytes (g : MacFrame) : List UInt8 :=
  g.data ++ [g.fcs.1, g.fcs.2.1, g.fcs.2.2.1, g.fcs.2.2.2]

/-- the descriptors that it takes -/
def MacFrame.segs (g : MacFrame) : Nat := segCount ethRxBufSize g.bytes.length

/-- the lengths of the pbufs for so many bytes, or `NULL` -/
abbrev PbufAlloc := Nat → Option (List Nat)

/-- where the CPU is -/
inductive RxPhase where
  | idle
  /-- in the loop of `HAL_ETH_GetReceivedFrame_IT` -/
  | scan (descriptorscancounter : Nat) (pbufAlloc : PbufAlloc)
  /-- back in `low_level_input`, with a frame -/
  | copying (pbufAlloc : PbufAlloc)
  /-- in the loop that sets the `OWN` bits -/
  | releasing (i dmarxdesc : Nat)

/-- what `low_level_input` returns: the pbufs that it got, and what it has copied into them -/
structure RxResult where
  lens : Option (List Nat)
  pbufs : Option (List (List UInt8))

structure EthRx where
  desc : Nat → RxDesc
  /-- `heth.RxDesc` -/
  rxDesc : Nat
  /-- `heth.RxFrameInfos`: `FSRxDesc`, `SegCount`, `length`, and the descriptor whose buffer `buffer`
  is; before the first frame it is none -/
  fsRxDesc : Nat
  segCount : Nat
  infoLength : Nat
  infoBuffer : Nat
  phase : RxPhase
  /-- the descriptor that the MAC comes to next -/
  mac : Nat
  /-- the frame that the MAC stores, and its next segment -/
  fifo : Option (MacFrame × Nat)
  /-- ghost: the frames that the MAC has taken from the line -/
  taken : List MacFrame
  received : List RxResult

def nextRx (d : Nat) : Nat := (d + 1) % ethRxBufNb

/-- the loop over the buffers: `n` bytes from `bufferoffset` on, and where it has come to -/
def readBytes (s : EthRx) (d off n : Nat) : List UInt8 × Nat × Nat :=
  if n + off > ethRxBufSize then
    let rest := readBytes s (nextRx d) 0 (n - (ethRxBufSize - off))
    (slice (s.desc d).buffer off (ethRxBufSize - off) ++ rest.1, rest.2)
  else (slice (s.desc d).buffer off n, d, off + n)
termination_by n + off
decreasing_by
  unfold ethRxBufSize at *
  omega

/-- the loop over the pbufs -/
def readChain (s : EthRx) (d off : Nat) : List Nat → List (List UInt8)
  | [] => []
  | n :: ns =>
    (readBytes s d off n).1 :: readChain s (readBytes s d off n).2.1 (readBytes s d off n).2.2 ns

/-- one turn of the loop of `HAL_ETH_GetReceivedFrame_IT` -/
def scanDescStep (s : EthRx) (counter : Nat) (pbufAlloc : PbufAlloc) : EthRx :=
  let d := s.desc s.rxDesc
  if d.own = false ∧ counter < ethRxBufNb then
    if d.firstSegment && !d.lastSegment then
      { s with
        fsRxDesc := s.rxDesc
        segCount := 1
        rxDesc := nextRx s.rxDesc
        phase := .scan (counter + 1) pbufAlloc }
    else if !d.firstSegment && !d.lastSegment then
      { s with
        segCount := s.segCount + 1
        rxDesc := nextRx s.rxDesc
        phase := .scan (counter + 1) pbufAlloc }
    else
      -- should be last segment
      let fs := if s.segCount + 1 = 1 then s.rxDesc else s.fsRxDesc
      { s with
        segCount := s.segCount + 1
        fsRxDesc := fs
        infoLength := d.frameLength - 4
        infoBuffer := fs
        rxDesc := nextRx s.rxDesc
        phase := .copying pbufAlloc }
  else { s with phase := .idle }

/-- the pbufs, with the frame in them; without pbufs the frame is dropped -/
def copyStep (s : EthRx) (pbufAlloc : PbufAlloc) : EthRx :=
  let len := s.infoLength % 65536
  let lens := if len > 0 then pbufAlloc len else none
  { s with
    received := s.received ++ [⟨lens, lens.map (readChain s s.infoBuffer 0)⟩]
    phase := .releasing 0 s.fsRxDesc }

def releaseStep (s : EthRx) (i d : Nat) : EthRx :=
  if i < s.segCount then
    { s with
      desc := Function.update s.desc d { s.desc d with own := true }
      phase := .releasing (i + 1) (nextRx d) }
  else { s with segCount := 0, phase := .idle }

def rxCpuStep (s : EthRx) : EthRx :=
  match s.phase with
  | .idle => s
  | .scan counter pbufAlloc => scanDescStep s counter pbufAlloc
  | .copying pbufAlloc => copyStep s pbufAlloc
  | .releasing i d => releaseStep s i d

/-- a frame that comes while another one waits for a descriptor is lost -/
def macArrive (s : EthRx) (g : MacFrame) : EthRx :=
  match s.fifo with
  | none => { s with fifo := some (g, 0), taken := s.taken ++ [g] }
  | some _ => s

/-- the descriptor with the segment `i` of `g` in it -/
def storedDesc (d : RxDesc) (g : MacFrame) (i : Nat) : RxDesc where
  own := false
  firstSegment := i == 0
  lastSegment := i + 1 == g.segs
  frameLength := if i + 1 = g.segs then g.bytes.length else d.frameLength
  buffer := memcpy d.buffer 0 (segAt ethRxBufSize g.bytes i).bytes

def macStore (s : EthRx) : EthRx :=
  match s.fifo with
  | none => s
  | some (g, i) =>
    if (s.desc s.mac).own then
      { s with
        desc := Function.update s.desc s.mac (storedDesc (s.desc s.mac) g i)
        mac := nextRx s.mac
        fifo := if i + 1 = g.segs then none else some (g, i + 1) }
    else s

inductive EthRxEvent where
  /-- `ethernetif_input` is called -/
  | poll (pbufAlloc : PbufAlloc)
  /-- the CPU goes on in the call under way -/
  | cpu
  | arrive (g : MacFrame)
  | store

def ethRxStep (s : EthRx) : EthRxEvent → EthRx
  | .poll pbufAlloc => match s.phase with
    | .idle => { s with phase := .scan 0 pbufAlloc }
    | _ => s
  | .cpu => rxCpuStep s
  | .arrive g => macArrive s g
  | .store => macStore s

/-- `HAL_ETH_DMARxDescListInit` -/
def ethRxInit (buffers : Nat → Nat → UInt8) : EthRx where
  desc i := ⟨true, false, false, 0, buffers i⟩
  rxDesc := 0
  fsRxDesc := 0
  segCount := 0
  infoLength := 0
  infoBuffer := 0
  phase := .idle
  mac := 0
  fifo := none
  taken := []
  received := []

/-! ## what the descriptors stand for -/

/-- a descriptor holds the `i`th segment of a frame -/
structure Stores (d : RxDesc) (x : MacFrame × Nat) : Prop where
  first : d.firstSegment = (x.2 == 0)
  last : d.lastSegment = (x.2 + 1 == x.1.segs)
  length : x.2 + 1 = x.1.segs → d.frameLength = x.1.bytes.length
  bytes : ∀ r, ∀ h : r < (segAt ethRxBufSize x.1.bytes x.2).bytes.length,
    d.buffer r = (segAt ethRxBufSize x.1.bytes x.2).bytes[r]

/-- the segments of a frame, one after the other -/
def MacFrame.slots (g : MacFrame) : List (MacFrame × Nat) := (List.range g.segs).map fun i => (g, i)

theorem slots_length (g : MacFrame) : g.slots.length = g.segs := by
  simp [MacFrame.slots]

theorem slots_getElem (g : MacFrame) {i : Nat} (h : i < g.slots.length) : g.slots[i] = (g, i) := by
  simp [MacFrame.slots]

theorem bytes_length (g : MacFrame) : g.bytes.length = g.data.length + 4 := by
  simp [MacFrame.bytes]

theorem segs_bounds (g : MacFrame) : 0 < g.segs ∧ g.segs ≤ ethRxBufNb ∧
    ethRxBufSize * (g.segs - 1) < g.bytes.length ∧ g.bytes.length ≤ ethRxBufSize * g.segs := by
  have hlen := bytes_length g
  have hsize := g.size
  have hpos : 0 < g.bytes.length := by omega
  have hbounds := segCount_bounds (n := ethRxBufSize) (by decide) hpos
  refine ⟨segCount_pos (by decide) hpos, ?_, hbounds⟩
  by_contra hgt
  have hmul := Nat.mul_le_mul_left ethRxBufSize (show ethRxBufNb ≤ g.segs - 1 by omega)
  rw [Nat.mul_comm] at hmul
  have hlt : ethRxBufSize * (g.segs - 1) < g.bytes.length := hbounds.1
  omega

theorem storedDesc_stores (d : RxDesc) (g : MacFrame) (i : Nat) :
    Stores (storedDesc d g i) (g, i) where
  first := rfl
  last := rfl
  length h := if_pos h
  bytes r h := by
    have hat := @memcpy_at _ d.buffer 0 r _ h 0
    rw [Nat.zero_add, List.getD_eq_getElem _ _ h] at hat
    exact hat

/-! ## the invariant -/

/-- how far the CPU has come: `junk` is still to be given back -/
def RxAt (s : EthRx) (rel k : Nat) (junk : List (MacFrame × Nat)) (pending : List MacFrame) :
    RxPhase → Prop
  | .idle => junk = [] ∧ s.rxDesc = (rel + s.segCount) % ethRxBufNb ∧ s.segCount ≤ k ∧
      (s.segCount = 0 ∨ ∃ g rest, pending = g :: rest ∧ s.segCount < g.segs ∧ s.fsRxDesc = rel)
  | .scan _ pbufAlloc => junk = [] ∧ s.rxDesc = (rel + s.segCount) % ethRxBufNb ∧ s.segCount ≤ k ∧
      (s.segCount = 0 ∨ ∃ g rest, pending = g :: rest ∧ s.segCount < g.segs ∧ s.fsRxDesc = rel) ∧
      ∀ n lens, pbufAlloc n = some lens → lens.sum = n
  | .copying pbufAlloc => junk = [] ∧ s.rxDesc = (rel + s.segCount) % ethRxBufNb ∧
      s.segCount ≤ k ∧ s.fsRxDesc = rel ∧ s.infoBuffer = rel ∧
      (∃ g rest, pending = g :: rest ∧ s.segCount = g.segs ∧ s.infoLength = g.data.length) ∧
      ∀ n lens, pbufAlloc n = some lens → lens.sum = n
  | .releasing i d => s.rxDesc = (rel + junk.length) % ethRxBufNb ∧ junk.length ≤ k ∧ d = rel ∧
      s.segCount = i + junk.length

/-- what is still to be stored -/
def FifoLeft (k : Nat) (expected : List (MacFrame × Nat)) (pending : List MacFrame) :
    Option (MacFrame × Nat) → Prop
  | none => expected.length = k
  | some (g, i) => (∃ front, pending = front ++ [g]) ∧ i < g.segs ∧
      expected.length = k + (g.segs - i)

/-- a call returned the frame in its pbufs, or had none -/
def RxResult.Of (r : RxResult) (g : MacFrame) : Prop :=
  r.pbufs = r.lens.map (fun lens => lens.splitLengths g.data) ∧
    ∀ lens, r.lens = some lens → lens.sum = g.data.length

structure RxInv (s : EthRx) (rel k : Nat) (junk : List (MacFrame × Nat))
    (pending : List MacFrame) : Prop where
  held : Held ethRxBufNb (fun d => !(s.desc d).own) rel k
  mac : s.mac = (rel + k) % ethRxBufNb
  stores : ∀ i < k, ∀ x, (junk ++ pending.flatMap MacFrame.slots)[i]? = some x →
    Stores (s.desc ((rel + i) % ethRxBufNb)) x
  fifo : FifoLeft k (junk ++ pending.flatMap MacFrame.slots) pending s.fifo
  phase : RxAt s rel k junk pending s.phase
  frames : ∃ done, s.taken = done ++ pending ∧ List.Forall₂ RxResult.Of s.received done

section
variable {s : EthRx} {rel k : Nat} {junk : List (MacFrame × Nat)} {pending : List MacFrame}

theorem RxInv.count_le (h : RxInv s rel k junk pending) :
    k ≤ (junk ++ pending.flatMap MacFrame.slots).length := by
  have hfifo := h.fifo
  cases hf : s.fifo with
  | none =>
    rw [hf] at hfifo
    exact Nat.le_of_eq hfifo.symm
  | some x =>
    rw [hf] at hfifo
    have hlen := hfifo.2.2
    omega

/-- where the CPU is does not depend on what the MAC does -/
theorem RxAt.mono {s' : EthRx} {k' : Nat} {more : List MacFrame} {ph : RxPhase}
    (h : RxAt s rel k junk pending ph) (hk : k ≤ k') (hrx : s'.rxDesc = s.rxDesc)
    (hseg : s'.segCount = s.segCount) (hfs : s'.fsRxDesc = s.fsRxDesc)
    (hlen : s'.infoLength = s.infoLength) (hbuf : s'.infoBuffer = s.infoBuffer) :
    RxAt s' rel k' junk (pending ++ more) ph := by
  cases ph with
  | idle =>
    obtain ⟨hjunk, hr, hle, hscan⟩ := h
    refine ⟨hjunk, by rw [hrx, hseg, hr], by omega, ?_⟩
    rw [hseg, hfs]
    exact hscan.imp_right fun ⟨g, rest, hp, hrest⟩ => ⟨g, rest ++ more, by rw [hp]; rfl, hrest⟩
  | scan counter pbufAlloc =>
    obtain ⟨hjunk, hr, hle, hscan, halloc⟩ := h
    refine ⟨hjunk, by rw [hrx, hseg, hr], by omega, ?_, halloc⟩
    rw [hseg, hfs]
    exact hscan.imp_right fun ⟨g, rest, hp, hrest⟩ => ⟨g, rest ++ more, by rw [hp]; rfl, hrest⟩
  | copying pbufAlloc =>
    obtain ⟨hjunk, hr, hle, hf, hb, ⟨g, rest, hp, hrest⟩, halloc⟩ := h
    refine ⟨hjunk, by rw [hrx, hseg, hr], by omega, hfs.trans hf, hbuf.trans hb,
      ⟨g, rest ++ more, by rw [hp]; rfl, ?_⟩, halloc⟩
    rw [hseg, hlen]
    exact hrest
  | releasing i d =>
    obtain ⟨hr, hle, hd, hcount⟩ := h
    exact ⟨hrx.trans hr, by omega, hd, hseg.trans hcount⟩

/-! ## the MAC -/

theorem RxInv.arrive (h : RxInv s rel k junk pending) (g : MacFrame) :
    ∃ pending', RxInv (macArrive s g) rel k junk pending' := by
  unfold macArrive
  cases hf : s.fifo with
  | some x => exact ⟨pending, h⟩
  | none =>
    have hfifo := h.fifo
    rw [hf] at hfifo
    have hlen : (junk ++ pending.flatMap MacFrame.slots).length = k := hfifo
    have hmore : junk ++ (pending ++ [g]).flatMap MacFrame.slots =
        (junk ++ pending.flatMap MacFrame.slots) ++ g.slots := by simp
    obtain ⟨done, htaken, hall⟩ := h.frames
    refine ⟨pending ++ [g], h.held, h.mac, ?_, ?_, h.phase.mono (Nat.le_refl k) rfl rfl rfl rfl rfl,
      done, ?_, hall⟩
    · intro i hi x hx
      rw [hmore, List.getElem?_append_left (by omega)] at hx
      exact h.stores i hi x hx
    · refine ⟨⟨pending, rfl⟩, (segs_bounds g).1, ?_⟩
      rw [hmore, List.length_append, hlen, slots_length, Nat.sub_zero]
    · show s.taken ++ [g] = _
      rw [htaken, List.append_assoc]

/-- the MAC waits, or has nothing to store -/
theorem macStore_waits (s : EthRx)
    (h : ∀ g i, s.fifo = some (g, i) → (s.desc s.mac).own = false) : macStore s = s := by
  unfold macStore
  cases hf : s.fifo with
  | none => rfl
  | some x => simp [h x.1 x.2 hf]

theorem macStore_stores {g : MacFrame} {i : Nat} (hf : s.fifo = some (g, i))
    (hown : (s.desc s.mac).own = true) :
    macStore s =
      { s with
        desc := Function.update s.desc s.mac (storedDesc (s.desc s.mac) g i)
        mac := nextRx s.mac
        fifo := if i + 1 = g.segs then none else some (g, i + 1) } := by
  unfold macStore
  simp [hf, hown]

theorem RxInv.room (h : RxInv s rel k junk pending) (hown : (s.desc s.mac).own = true) :
    k < ethRxBufNb := by
  apply h.held.lt_of_free
  rw [← h.mac]
  simp [hown]

theorem RxInv.stored {g : MacFrame} {i : Nat} (h : RxInv s rel k junk pending)
    (hf : s.fifo = some (g, i)) (hown : (s.desc s.mac).own = true) :
    RxInv (macStore s) rel (k + 1) junk pending := by
  rw [macStore_stores hf hown]
  have hk := h.room hown
  have hfifo := h.fifo
  rw [hf] at hfifo
  obtain ⟨⟨front, hfront⟩, hi, hlen⟩ := hfifo
  have hheld : (fun d => !(Function.update s.desc s.mac
      (storedDesc (s.desc s.mac) g i) d).own) =
      Function.update (fun d => !(s.desc d).own) ((rel + k) % ethRxBufNb) true := by
    rw [← h.mac]
    funext d
    by_cases hd : d = s.mac
    · subst hd
      simp [storedDesc]
    · simp [hd]
  -- the next of the expected segments
  have hnext : (junk ++ pending.flatMap MacFrame.slots)[k]? = some (g, i) := by
    have hsplit : junk ++ pending.flatMap MacFrame.slots =
        (junk ++ front.flatMap MacFrame.slots) ++ g.slots := by
      rw [hfront]
      simp
    have hlen' := congrArg List.length hsplit
    rw [hlen, List.length_append, slots_length] at hlen'
    rw [hsplit, List.getElem?_append_right (by omega),
      show k - (junk ++ front.flatMap MacFrame.slots).length = i by omega,
      List.getElem?_eq_getElem (by rw [slots_length]; exact hi), slots_getElem]
  obtain ⟨done, htaken, hall⟩ := h.frames
  refine ⟨?_, ?_, ?_, ?_, ?_, done, htaken, hall⟩
  · show Held ethRxBufNb (fun d => !(Function.update s.desc s.mac
      (storedDesc (s.desc s.mac) g i) d).own) rel (k + 1)
    rw [hheld]
    exact h.held.give hk
  · show nextRx s.mac = _
    unfold nextRx
    rw [h.mac, Nat.mod_add_mod, Nat.add_assoc]
  · intro j hj x hx
    show Stores (Function.update s.desc s.mac _ _) x
    rw [h.mac]
    by_cases hjk : j = k
    · subst hjk
      obtain rfl : (g, i) = x := Option.some.inj (hnext.symm.trans hx)
      rw [Function.update_self]
      exact storedDesc_stores _ g i
    · have hne := RingBuf.index_ne (r := rel) hk (show j < k by omega)
      rw [Function.update_of_ne hne]
      exact h.stores j (by omega) x hx
  · by_cases hlast : i + 1 = g.segs
    · simp only [hlast, if_true]
      show _ = k + 1
      omega
    · simp only [hlast, if_false]
      exact ⟨⟨front, hfront⟩, by omega, by omega⟩
  · rw [← List.append_nil pending]
    exact h.phase.mono (Nat.le_succ k) rfl rfl rfl rfl rfl

theorem RxInv.store (h : RxInv s rel k junk pending) :
    ∃ k', RxInv (macStore s) rel k' junk pending := by
  by_cases hwait : ∀ g i, s.fifo = some (g, i) → (s.desc s.mac).own = false
  · rw [macStore_waits s hwait]
    exact ⟨k, h⟩
  · simp only [not_forall] at hwait
    obtain ⟨g, i, hf, hown⟩ := hwait
    exact ⟨k + 1, h.stored hf (by simpa using hown)⟩

/-! ## the CPU -/

/-- the descriptor that the scan has come to -/
theorem scan_at (h : RxInv s rel k [] pending) {m : Nat} (hrx : s.rxDesc = (rel + m) % ethRxBufNb)
    (hle : m ≤ k) (hpart : m = 0 ∨ ∃ g rest, pending = g :: rest ∧ m < g.segs ∧ s.fsRxDesc = rel)
    (hown : (s.desc s.rxDesc).own = false) :
    ∃ g rest, pending = g :: rest ∧ m < g.segs ∧ m < k ∧ Stores (s.desc s.rxDesc) (g, m) := by
  have hpos : 0 < ethRxBufNb := by decide
  have hlt : m < k := by
    refine Nat.lt_of_le_of_ne hle fun hmk => ?_
    subst hmk
    have hfull : ¬ m < ethRxBufNb := by
      intro hm
      have hat := h.held.at_index m hm
      rw [← hrx, decide_eq_false (Nat.lt_irrefl m)] at hat
      simp [hown] at hat
    rcases hpart with hzero | ⟨g, rest, -, hm, -⟩
    · omega
    · have hbounds := (segs_bounds g).2.1
      omega
  have hcount := h.count_le
  obtain ⟨g, rest, hp, hm⟩ : ∃ g rest, pending = g :: rest ∧ m < g.segs := by
    rcases hpart with hzero | ⟨g, rest, hp, hm, -⟩
    · cases pending with
      | nil =>
        simp at hcount
        omega
      | cons g rest => exact ⟨g, rest, rfl, hzero ▸ (segs_bounds g).1⟩
    · exact ⟨g, rest, hp, hm⟩
  refine ⟨g, rest, hp, hm, hlt, ?_⟩
  rw [hrx]
  apply h.stores m hlt
  rw [hp, List.nil_append, List.flatMap_cons, List.getElem?_append_left (by rw [slots_length]; exact hm),
    List.getElem?_eq_getElem (by rw [slots_length]; exact hm), slots_getElem]

theorem nextRx_add (rel m : Nat) : nextRx ((rel + m) % ethRxBufNb) = (rel + (m + 1)) % ethRxBufNb := by
  unfold nextRx
  rw [Nat.mod_add_mod, Nat.add_assoc]

/-- the CPU goes on, the descriptors as they are -/
theorem RxInv.moved {s' : EthRx} {pending' : List MacFrame} {junk' : List (MacFrame × Nat)}
    (h : RxInv s rel k junk pending) (hdesc : s'.desc = s.desc) (hmac : s'.mac = s.mac)
    (hfifo : FifoLeft k (junk' ++ pending'.flatMap MacFrame.slots) pending' s'.fifo)
    (hsame : junk' ++ pending'.flatMap MacFrame.slots = junk ++ pending.flatMap MacFrame.slots)
    (hphase : RxAt s' rel k junk' pending' s'.phase)
    (hframes : ∃ done, s'.taken = done ++ pending' ∧ List.Forall₂ RxResult.Of s'.received done) :
    RxInv s' rel k junk' pending' where
  held := hdesc ▸ h.held
  mac := hmac.trans h.mac
  stores := by
    rw [hsame, hdesc]
    exact h.stores
  fifo := hfifo
  phase := hphase
  frames := hframes

theorem RxInv.scan {counter : Nat} {pbufAlloc : PbufAlloc} (h : RxInv s rel k junk pending)
    (hph : s.phase = .scan counter pbufAlloc) :
    RxInv (scanDescStep s counter pbufAlloc) rel k junk pending := by
  have hat := h.phase
  rw [hph] at hat
  obtain ⟨rfl, hrx, hle, hpart, halloc⟩ := hat
  unfold scanDescStep
  by_cases hgo : (s.desc s.rxDesc).own = false ∧ counter < ethRxBufNb
  · simp only [hgo, and_self, if_true]
    obtain ⟨g, rest, hp, hm, hlt, hst⟩ := scan_at h hrx hle hpart hgo.1
    have hlast := hst.last
    have hfirst := hst.first
    have hnext : nextRx s.rxDesc = (rel + (s.segCount + 1)) % ethRxBufNb := by
      rw [hrx, nextRx_add]
    have hzero : s.segCount = 0 → s.rxDesc = rel := by
      intro hz
      rw [hrx, hz, Nat.add_zero, Nat.mod_eq_of_lt h.held.first_lt]
    by_cases hend : s.segCount + 1 = g.segs
    · -- the last segment: the frame is complete
      have hl : (s.desc s.rxDesc).lastSegment = true := by
        rw [hlast]
        exact beq_iff_eq.2 hend
      have hfs : (if s.segCount + 1 = 1 then s.rxDesc else s.fsRxDesc) = rel := by
        by_cases hz : s.segCount = 0
        · rw [if_pos (by rw [hz]), hzero hz]
        · rw [if_neg (show ¬ s.segCount + 1 = 1 by omega)]
          rcases hpart with hz' | ⟨-, -, -, -, hf⟩
          · exact absurd hz' hz
          · exact hf
      simp only [hl, Bool.not_true, Bool.and_false, Bool.false_eq_true, if_false]
      refine h.moved rfl rfl h.fifo rfl ⟨rfl, hnext, hlt, hfs, hfs, ⟨g, rest, hp, hend, ?_⟩, halloc⟩
        h.frames
      show (s.desc s.rxDesc).frameLength - 4 = _
      rw [hst.length hend]
      show g.bytes.length - 4 = g.data.length
      rw [bytes_length, Nat.add_sub_cancel]
    · have hl : (s.desc s.rxDesc).lastSegment = false := by
        rw [hlast]
        exact beq_false_of_ne hend
      by_cases hz : s.segCount = 0
      · have hf : (s.desc s.rxDesc).firstSegment = true := by
          rw [hfirst]
          exact beq_iff_eq.2 hz
        rw [hz] at hnext hend hlt hm
        have hone : 1 < g.segs := by omega
        simp only [hl, hf, Bool.not_false, Bool.and_true, if_true]
        exact h.moved rfl rfl h.fifo rfl ⟨rfl, hnext, hlt,
          Or.inr ⟨g, rest, hp, hone, hzero hz⟩, halloc⟩ h.frames
      · have hf : (s.desc s.rxDesc).firstSegment = false := by
          rw [hfirst]
          exact beq_false_of_ne hz
        have hfs : s.fsRxDesc = rel := by
          rcases hpart with hz' | ⟨-, -, -, -, hf⟩
          · exact absurd hz' hz
          · exact hf
        have hmore : s.segCount + 1 < g.segs := by omega
        simp only [hl, hf, Bool.not_false, Bool.and_true, if_true, Bool.false_eq_true, if_false]
        exact h.moved rfl rfl h.fifo rfl ⟨rfl, hnext, hlt,
          Or.inr ⟨g, rest, hp, hmore, hfs⟩, halloc⟩ h.frames
  · simp only [hgo, if_false]
    exact h.moved rfl rfl h.fifo rfl ⟨rfl, hrx, hle, hpart⟩ h.frames

end

end MenuFirmware
