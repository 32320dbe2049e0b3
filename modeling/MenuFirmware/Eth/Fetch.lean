import MenuFirmware.Eth.Input

/-!
# Fetching received frames

What the main loop copies out of the buffers is the frame that the MAC has stored there, cut as the
pbufs are long.

* `readChain_flat`   the two loops of the copy;
* `RxInv.copy`, `RxInv.release`   the steps of `low_level_input` keep the invariant;
* `fetch_one`        a call of `ethernetif_input` fetches a frame that waits;
* `ethRx_frames`     over every run what goes to the stack is what was taken from the line, in order,
                     each frame once; what waits is fetched by the calls that follow.
-/

set_option linter.unusedSectionVars false

namespace MenuFirmware
open DescRing Memory Runs

section
variable {s : EthRx} {rel k : Nat} {junk : List (MacFrame × Nat)} {pending : List MacFrame}

/-! ## the copy -/

/-- the bytes of the frame, one behind the other in the buffers from `rel` on -/
def flatAt (s : EthRx) (rel p : Nat) : UInt8 :=
  (s.desc ((rel + p / ethRxBufSize) % ethRxBufNb)).buffer (p % ethRxBufSize)

theorem flatAt_place (s : EthRx) (rel j : Nat) {r : Nat} (hr : r < ethRxBufSize) :
    flatAt s rel (ethRxBufSize * j + r) = (s.desc ((rel + j) % ethRxBufNb)).buffer r := by
  unfold flatAt
  rw [(cell_place j hr).1, (cell_place j hr).2]

theorem slice_buffer (s : EthRx) (rel j off : Nat) {n : Nat} (h : off + n ≤ ethRxBufSize) :
    slice (s.desc ((rel + j) % ethRxBufNb)).buffer off n =
      slice (flatAt s rel) (ethRxBufSize * j + off) n := by
  apply List.map_congr_left
  intro i hi
  have hlt : i < n := List.mem_range.1 hi
  rw [Nat.add_assoc, flatAt_place s rel j (show off + i < ethRxBufSize by omega)]

theorem readBytes_flat (s : EthRx) (rel : Nat) (b : Nat) : ∀ j off n, n + off ≤ b →
    off ≤ ethRxBufSize → ∃ j' off', off' ≤ ethRxBufSize ∧
      ethRxBufSize * j' + off' = ethRxBufSize * j + off + n ∧
      readBytes s ((rel + j) % ethRxBufNb) off n =
        (slice (flatAt s rel) (ethRxBufSize * j + off) n, (rel + j') % ethRxBufNb, off') := by
  induction b with
  | zero =>
    intro j off n hb hoff
    obtain ⟨rfl, rfl⟩ : n = 0 ∧ off = 0 := by omega
    refine ⟨j, 0, Nat.zero_le _, rfl, ?_⟩
    rw [readBytes, if_neg (by decide)]
    rfl
  | succ b ih =>
    intro j off n hb hoff
    rw [readBytes]
    by_cases hbig : n + off > ethRxBufSize
    · rw [if_pos hbig, nextRx_add]
      have hsize : 0 < ethRxBufSize := by decide
      obtain ⟨j', off', hoff', hpos, hrest⟩ :=
        ih (j + 1) 0 (n - (ethRxBufSize - off)) (by omega) (Nat.zero_le _)
      refine ⟨j', off', hoff', ?_, ?_⟩
      · rw [hpos, Nat.mul_succ]
        omega
      · have hcut : n = (ethRxBufSize - off) + (n - (ethRxBufSize - off)) := by omega
        have hjoin : slice (flatAt s rel) (ethRxBufSize * j + off) n =
            slice (flatAt s rel) (ethRxBufSize * j + off) (ethRxBufSize - off) ++
              slice (flatAt s rel) (ethRxBufSize * (j + 1) + 0) (n - (ethRxBufSize - off)) := by
          conv_lhs => rw [hcut]
          rw [slice_add]
          congr 2
          rw [Nat.mul_succ]
          omega
        rw [hrest, hjoin, slice_buffer s rel j off (by omega)]
    · rw [if_neg hbig]
      refine ⟨j, off + n, by omega, by omega, ?_⟩
      rw [slice_buffer s rel j off (by omega)]

/-- the pbufs, in the lengths that they have -/
theorem readChain_flat (s : EthRx) (rel : Nat) (lens : List Nat) : ∀ j off, off ≤ ethRxBufSize →
    readChain s ((rel + j) % ethRxBufNb) off lens =
      lens.splitLengths (slice (flatAt s rel) (ethRxBufSize * j + off) lens.sum) := by
  induction lens with
  | nil => exact fun _ _ _ => rfl
  | cons n ns ih =>
    intro j off hoff
    obtain ⟨j', off', hoff', hpos, hread⟩ := readBytes_flat s rel (n + off) j off n (Nat.le_refl _) hoff
    have hlen := slice_length (flatAt s rel) (ethRxBufSize * j + off) n
    rw [readChain, hread, ih j' off' hoff', hpos, List.sum_cons, slice_add, List.splitLengths_cons,
      List.take_left' hlen, List.drop_left' hlen]

/-- a complete frame, read back -/
theorem slice_frame (h : RxInv s rel k junk pending) {g : MacFrame} {rest : List MacFrame}
    (hjunk : junk = []) (hp : pending = g :: rest) (hk : g.segs ≤ k) :
    slice (flatAt s rel) 0 g.data.length = g.data := by
  apply List.ext_getElem (slice_length _ _ _)
  intro p h1 h2
  have hlen := bytes_length g
  have hpos : 0 < ethRxBufSize := by decide
  have hbounds := segs_bounds g
  have hq : p / ethRxBufSize < g.segs := by
    rw [Nat.div_lt_iff_lt_mul hpos, Nat.mul_comm]
    omega
  have hst := h.stores (p / ethRxBufSize) (by omega) (g, p / ethRxBufSize) (by
    rw [hjunk, hp, List.nil_append, List.flatMap_cons,
      List.getElem?_append_left (by rw [slots_length]; exact hq),
      List.getElem?_eq_getElem (by rw [slots_length]; exact hq), slots_getElem])
  have hdm := Nat.div_add_mod p ethRxBufSize
  have hmod := Nat.mod_lt p hpos
  have hbyte := hst.bytes (p % ethRxBufSize) (by
    rw [segAt_length]
    show _ < min ethRxBufSize (g.bytes.length - ethRxBufSize * (p / ethRxBufSize))
    omega)
  have hget : (slice (flatAt s rel) 0 g.data.length)[p] = flatAt s rel p := by
    simp [slice]
  rw [hget]
  unfold flatAt
  rw [hbyte]
  have hcell : (segAt ethRxBufSize g.bytes (p / ethRxBufSize)).bytes[p % ethRxBufSize]? =
      g.bytes[p]? := by
    show ((g.bytes.drop _).take _)[_]? = _
    rw [List.getElem?_take_of_lt hmod, List.getElem?_drop, hdm]
  have hdata : g.bytes[p]? = some g.data[p] := by
    unfold MacFrame.bytes
    rw [List.getElem?_append_left h2, List.getElem?_eq_getElem h2]
  rw [hdata] at hcell
  exact (List.getElem?_eq_some_iff.1 hcell).2

theorem RxInv.copy {pbufAlloc : PbufAlloc} {g : MacFrame} {rest : List MacFrame}
    (h : RxInv s rel k junk (g :: rest)) (hph : s.phase = .copying pbufAlloc) :
    RxInv (copyStep s pbufAlloc) rel k g.slots rest := by
  have hat := h.phase
  rw [hph] at hat
  obtain ⟨hjunk, hrx, hle, hfs, hbuf, ⟨g', rest', hp, hcount, hlen⟩, halloc⟩ := hat
  obtain ⟨rfl, rfl⟩ := List.cons.inj hp
  have hframe := slice_frame h hjunk rfl (hcount ▸ hle)
  have hsize := g.size
  have hshort : g.data.length % 65536 = g.data.length := by
    apply Nat.mod_eq_of_lt
    unfold ethRxBufNb ethRxBufSize at hsize
    omega
  obtain ⟨done, htaken, hall⟩ := h.frames
  have hfifo := h.fifo
  subst hjunk
  have hsame : g.slots ++ rest.flatMap MacFrame.slots = [] ++ (g :: rest).flatMap MacFrame.slots := by
    simp
  refine h.moved rfl rfl ?_ hsame ⟨?_, ?_, hfs, ?_⟩ ⟨done ++ [g], ?_, ?_⟩
  · show FifoLeft k _ rest s.fifo
    rw [hsame]
    cases hf : s.fifo with
    | none =>
      rw [hf] at hfifo
      exact hfifo
    | some x =>
      obtain ⟨g', i⟩ := x
      rw [hf] at hfifo
      obtain ⟨⟨front, hfront⟩, hi, hexp⟩ := hfifo
      refine ⟨?_, hi, hexp⟩
      cases front with
      | nil =>
        -- the MAC cannot be at a frame that is complete
        obtain ⟨rfl, rfl⟩ := List.cons.inj hfront
        rw [List.nil_append, List.flatMap_singleton, slots_length] at hexp
        omega
      | cons g₀ front => exact ⟨front, (List.cons.inj hfront).2⟩
  · show s.rxDesc = _
    rw [hrx, hcount, slots_length]
  · rw [slots_length, ← hcount]
    exact hle
  · show s.segCount = 0 + g.slots.length
    rw [slots_length, hcount, Nat.zero_add]
  · show s.taken = _
    rw [htaken, List.append_assoc]
    rfl
  · refine List.rel_append hall (List.Forall₂.cons ⟨?_, ?_⟩ List.Forall₂.nil)
    · show Option.map (readChain s s.infoBuffer 0) _ = _
      rw [hlen, hshort]
      by_cases hpos : g.data.length > 0
      · rw [if_pos hpos]
        cases ha : pbufAlloc g.data.length with
        | none => rfl
        | some lens =>
          have hchain := readChain_flat s rel lens 0 0 (Nat.zero_le _)
          rw [Nat.add_zero, Nat.mod_eq_of_lt h.held.first_lt, halloc _ _ ha, Nat.mul_zero,
            Nat.add_zero, hframe] at hchain
          rw [hbuf, Option.map_some, Option.map_some, hchain]
      · rw [if_neg hpos]
        rfl
    · intro lens hlens
      show lens.sum = g.data.length
      have hl : (if s.infoLength % 65536 > 0 then pbufAlloc (s.infoLength % 65536) else none) =
        some lens := hlens
      rw [hlen, hshort] at hl
      by_cases hpos : g.data.length > 0
      · rw [if_pos hpos] at hl
        exact halloc _ _ hl
      · rw [if_neg hpos] at hl
        cases hl

/-- everything is given back -/
theorem RxInv.released {i d : Nat} (h : RxInv s rel k [] pending) (hph : s.phase = .releasing i d) :
    (releaseStep s i d).phase = .idle ∧ RxInv (releaseStep s i d) rel k [] pending := by
  have hat := h.phase
  rw [hph] at hat
  obtain ⟨hrx, -, -, hcount⟩ := hat
  rw [List.length_nil, Nat.add_zero] at hrx hcount
  unfold releaseStep
  rw [if_neg (by omega)]
  refine ⟨rfl, h.moved rfl rfl h.fifo rfl ⟨rfl, ?_, Nat.zero_le _, Or.inl rfl⟩ h.frames⟩
  rw [Nat.add_zero]
  exact hrx

theorem RxInv.release {i d : Nat} {x : MacFrame × Nat} (h : RxInv s rel k (x :: junk) pending)
    (hph : s.phase = .releasing i d) :
    (releaseStep s i d).phase = .releasing (i + 1) (nextRx d) ∧
      RxInv (releaseStep s i d) ((rel + 1) % ethRxBufNb) (k - 1) junk pending := by
  have hat := h.phase
  rw [hph] at hat
  obtain ⟨hrx, hle, hd, hcount⟩ := hat
  rw [List.length_cons] at hrx hle hcount
  unfold releaseStep
  rw [if_pos (by omega)]
  obtain ⟨k, rfl⟩ : ∃ k', k = k' + 1 := ⟨k - 1, by omega⟩
  rw [Nat.add_sub_cancel]
  subst hd
  have hheld : (fun y => !(Function.update s.desc d { s.desc d with own := true } y).own) =
      Function.update (fun y => !(s.desc y).own) d false := by
    funext y
    by_cases hy : y = d
    · subst hy
      simp
    · simp [hy]
  have hround : ∀ j, ((d + 1) % ethRxBufNb + j) % ethRxBufNb = (d + (j + 1)) % ethRxBufNb := by
    intro j
    rw [Nat.mod_add_mod, Nat.add_assoc, Nat.add_comm 1 j]
  refine ⟨rfl, ?_, ?_, ?_, ?_, ⟨?_, by omega, rfl, ?_⟩, h.frames⟩
  · show Held ethRxBufNb (fun y => !(Function.update s.desc d
      { s.desc d with own := true } y).own) _ k
    rw [hheld]
    exact h.held.take
  · show s.mac = _
    rw [h.mac, hround]
  · intro j hj y hy
    rw [hround]
    have hst := h.stores (j + 1) (by omega) y hy
    show Stores (Function.update s.desc d _ _) y
    by_cases he : (d + (j + 1)) % ethRxBufNb = d
    · rw [he] at hst ⊢
      rw [Function.update_self]
      exact ⟨hst.first, hst.last, hst.length, hst.bytes⟩
    · rw [Function.update_of_ne he]
      exact hst
  · show FifoLeft k _ pending s.fifo
    have hfifo := h.fifo
    cases hf : s.fifo with
    | none =>
      rw [hf] at hfifo
      exact Nat.succ.inj hfifo
    | some z =>
      obtain ⟨g, l⟩ := z
      rw [hf] at hfifo
      obtain ⟨hfront, hl, hexp⟩ := hfifo
      rw [List.cons_append, List.length_cons] at hexp
      exact ⟨hfront, hl, by omega⟩
  · show s.rxDesc = _
    rw [hrx, hround]
  · show s.segCount = i + 1 + junk.length
    omega

theorem rxCpuStep_scan {counter : Nat} {pbufAlloc : PbufAlloc}
    (h : s.phase = .scan counter pbufAlloc) : rxCpuStep s = scanDescStep s counter pbufAlloc := by
  unfold rxCpuStep
  rw [h]

theorem rxCpuStep_copying {pbufAlloc : PbufAlloc} (h : s.phase = .copying pbufAlloc) :
    rxCpuStep s = copyStep s pbufAlloc := by
  unfold rxCpuStep
  rw [h]

theorem rxCpuStep_releasing {i d : Nat} (h : s.phase = .releasing i d) :
    rxCpuStep s = releaseStep s i d := by
  unfold rxCpuStep
  rw [h]

theorem rxCpuStep_idle (h : s.phase = .idle) : rxCpuStep s = s := by
  unfold rxCpuStep
  rw [h]

theorem RxInv.cpu (h : RxInv s rel k junk pending) :
    ∃ rel' k' junk' pending', RxInv (rxCpuStep s) rel' k' junk' pending' := by
  cases hph : s.phase with
  | idle =>
    rw [rxCpuStep_idle hph]
    exact ⟨rel, k, junk, pending, h⟩
  | scan counter pbufAlloc =>
    rw [rxCpuStep_scan hph]
    exact ⟨rel, k, junk, pending, h.scan hph⟩
  | copying pbufAlloc =>
    rw [rxCpuStep_copying hph]
    have hat := h.phase
    rw [hph] at hat
    obtain ⟨-, -, -, -, -, ⟨g, rest, rfl, -⟩, -⟩ := hat
    exact ⟨rel, k, g.slots, rest, h.copy hph⟩
  | releasing i d =>
    rw [rxCpuStep_releasing hph]
    cases junk with
    | nil => exact ⟨rel, k, [], pending, (h.released hph).2⟩
    | cons x junk => exact ⟨_, _, junk, pending, (h.release hph).2⟩

/-! ## every run -/

/-- `pbuf_alloc` gives pbufs for as many bytes as it is asked for -/
def EthRxEvent.Lawful : EthRxEvent → Prop
  | .poll pbufAlloc => ∀ n lens, pbufAlloc n = some lens → lens.sum = n
  | .cpu => True
  | .arrive _ => True
  | .store => True

def RxReach (s : EthRx) : Prop := ∃ rel k junk pending, RxInv s rel k junk pending

theorem RxInv.poll {pbufAlloc : PbufAlloc} (h : RxInv s rel k junk pending) (hph : s.phase = .idle)
    (halloc : ∀ n lens, pbufAlloc n = some lens → lens.sum = n) :
    RxInv { s with phase := .scan 0 pbufAlloc } rel k junk pending := by
  have hat := h.phase
  rw [hph] at hat
  obtain ⟨hjunk, hrx, hle, hpart⟩ := hat
  exact h.moved rfl rfl h.fifo rfl ⟨hjunk, hrx, hle, hpart, halloc⟩ h.frames

theorem ethRxStep_inv {e : EthRxEvent} (h : RxReach s) (he : e.Lawful) :
    RxReach (ethRxStep s e) := by
  obtain ⟨rel, k, junk, pending, h⟩ := h
  cases e with
  | poll pbufAlloc =>
    unfold ethRxStep
    cases hph : s.phase with
    | idle => exact ⟨rel, k, junk, pending, h.poll hph he⟩
    | _ => exact ⟨rel, k, junk, pending, h⟩
  | cpu => exact h.cpu
  | arrive g =>
    obtain ⟨pending', h'⟩ := h.arrive g
    exact ⟨rel, k, junk, pending', h'⟩
  | store =>
    obtain ⟨k', h'⟩ := h.store
    exact ⟨rel, k', junk, pending, h'⟩

theorem ethRxInit_inv (buffers : Nat → Nat → UInt8) : RxInv (ethRxInit buffers) 0 0 [] [] where
  held := ⟨show 0 < ethRxBufNb by decide, Nat.zero_le _, fun _ _ => rfl⟩
  mac := rfl
  stores _ h := absurd h (Nat.not_lt_zero _)
  fifo := rfl
  phase := ⟨rfl, rfl, Nat.le_refl _, Or.inl rfl⟩
  frames := ⟨[], rfl, List.Forall₂.nil⟩

theorem ethRx_inv (buffers : Nat → Nat → UInt8) {es : List EthRxEvent} (hes : ∀ e ∈ es, e.Lawful) :
    RxReach (run ethRxStep (ethRxInit buffers) es) :=
  run_invariant_mem (fun _ e he h => ethRxStep_inv h (hes e he)) ⟨0, 0, [], [], ethRxInit_inv buffers⟩

/-! ## what waits is fetched -/

theorem run_cpu (n : Nat) (s : EthRx) :
    run ethRxStep s (List.replicate n .cpu) = rxCpuStep^[n] s := by
  induction n generalizing s with
  | zero => rfl
  | succ n ih =>
    rw [List.replicate_succ, run_cons, Function.iterate_succ_apply]
    exact ih (rxCpuStep s)

theorem cpu_idle (n : Nat) (h : s.phase = .idle) : rxCpuStep^[n] s = s := by
  induction n with
  | zero => rfl
  | succ n ih => rw [Function.iterate_succ_apply, rxCpuStep_idle h, ih]

/-- one turn of the scan, at a descriptor that the MAC has filled -/
theorem scanDescStep_go {counter : Nat} (pbufAlloc : PbufAlloc) {g : MacFrame}
    (hown : (s.desc s.rxDesc).own = false) (hc : counter < ethRxBufNb)
    (hst : Stores (s.desc s.rxDesc) (g, s.segCount)) :
    (s.segCount + 1 = g.segs → (scanDescStep s counter pbufAlloc).phase = .copying pbufAlloc) ∧
      (s.segCount + 1 ≠ g.segs →
        (scanDescStep s counter pbufAlloc).phase = .scan (counter + 1) pbufAlloc ∧
          (scanDescStep s counter pbufAlloc).segCount = s.segCount + 1) := by
  unfold scanDescStep
  rw [if_pos ⟨hown, hc⟩]
  constructor
  · intro hend
    have hl : (s.desc s.rxDesc).lastSegment = true := by
      rw [hst.last]
      exact beq_iff_eq.2 hend
    simp [hl]
  · intro hend
    have hl : (s.desc s.rxDesc).lastSegment = false := by
      rw [hst.last]
      exact beq_false_of_ne hend
    by_cases hz : s.segCount = 0
    · have hf : (s.desc s.rxDesc).firstSegment = true := by
        rw [hst.first]
        exact beq_iff_eq.2 hz
      simp [hl, hf, hz]
    · have hf : (s.desc s.rxDesc).firstSegment = false := by
        rw [hst.first]
        exact beq_false_of_ne hz
      simp [hl, hf]

/-- nothing of the MAC, nor what it has taken, changes -/
theorem scanDescStep_frame (s : EthRx) (counter : Nat) (pbufAlloc : PbufAlloc) :
    (scanDescStep s counter pbufAlloc).fifo = s.fifo ∧ (scanDescStep s counter pbufAlloc).taken = s.taken := by
  unfold scanDescStep
  simp only
  split_ifs <;> exact ⟨rfl, rfl⟩

/-- the descriptors of a complete frame are there -/
theorem scan_filled {g : MacFrame} {rest : List MacFrame} {counter : Nat} {pbufAlloc : PbufAlloc}
    (h : RxInv s rel k [] (g :: rest)) (hph : s.phase = .scan counter pbufAlloc)
    (hfifo : s.fifo = none) (hm : s.segCount < g.segs) :
    (s.desc s.rxDesc).own = false ∧ Stores (s.desc s.rxDesc) (g, s.segCount) := by
  have hat := h.phase
  rw [hph] at hat
  obtain ⟨-, hrx, hle, hpart, -⟩ := hat
  have hlen := h.fifo
  rw [hfifo] at hlen
  have hk : (([] : List (MacFrame × Nat)) ++ (g :: rest).flatMap MacFrame.slots).length = k := hlen
  rw [List.nil_append, List.flatMap_cons, List.length_append, slots_length] at hk
  have hown : (s.desc s.rxDesc).own = false := by
    have hcount := h.held.count_le
    have hat := h.held.at_index s.segCount (by omega)
    rw [← hrx, decide_eq_true (by omega)] at hat
    simpa using hat
  refine ⟨hown, ?_⟩
  obtain ⟨g', rest', hp, -, -, hst⟩ := scan_at h hrx hle hpart hown
  obtain ⟨rfl, rfl⟩ := List.cons.inj hp
  exact hst

/-- the scan finds the last segment of a complete frame -/
theorem scan_ends {pbufAlloc : PbufAlloc} {g : MacFrame} {rest : List MacFrame} (n : Nat) :
    ∀ (s : EthRx) (counter : Nat), RxInv s rel k [] (g :: rest) →
      s.phase = .scan counter pbufAlloc → s.fifo = none → s.segCount + (n + 1) = g.segs →
      counter + (n + 1) ≤ ethRxBufNb →
      (rxCpuStep^[n + 1] s).phase = .copying pbufAlloc ∧
        RxInv (rxCpuStep^[n + 1] s) rel k [] (g :: rest) ∧
        (rxCpuStep^[n + 1] s).fifo = none := by
  induction n with
  | zero =>
    intro s counter h hph hfifo hn hc
    obtain ⟨hown, hst⟩ := scan_filled h hph hfifo (by omega)
    rw [Function.iterate_succ_apply, Function.iterate_zero_apply, rxCpuStep_scan hph]
    exact ⟨(scanDescStep_go pbufAlloc hown (by omega) hst).1 hn, h.scan hph,
      (scanDescStep_frame s counter pbufAlloc).1.trans hfifo⟩
  | succ n ih =>
    intro s counter h hph hfifo hn hc
    obtain ⟨hown, hst⟩ := scan_filled h hph hfifo (by omega)
    obtain ⟨hphase, hcount⟩ := (scanDescStep_go pbufAlloc hown (show counter < ethRxBufNb by omega) hst).2 (by omega)
    rw [Function.iterate_succ_apply, rxCpuStep_scan hph]
    exact ih _ (counter + 1) (h.scan hph) hphase
      ((scanDescStep_frame s counter pbufAlloc).1.trans hfifo) (by omega) (by omega)

/-- all descriptors of a frame are given back -/
theorem release_ends (junk : List (MacFrame × Nat)) : ∀ (s : EthRx) (rel k i d : Nat),
    RxInv s rel k junk pending → s.phase = .releasing i d → s.fifo = none →
      ∃ rel' k', (rxCpuStep^[junk.length + 1] s).phase = .idle ∧
        RxInv (rxCpuStep^[junk.length + 1] s) rel' k' [] pending ∧
        (rxCpuStep^[junk.length + 1] s).fifo = none := by
  induction junk with
  | nil =>
    intro s rel k i d h hph hfifo
    obtain ⟨hphase, h'⟩ := h.released hph
    rw [List.length_nil, Function.iterate_succ_apply, Function.iterate_zero_apply,
      rxCpuStep_releasing hph]
    refine ⟨rel, k, hphase, h', ?_⟩
    unfold releaseStep
    split_ifs <;> exact hfifo
  | cons x junk ih =>
    intro s rel k i d h hph hfifo
    obtain ⟨hphase, h'⟩ := h.release hph
    rw [List.length_cons, Function.iterate_succ_apply, rxCpuStep_releasing hph]
    apply ih _ _ _ _ _ h' hphase
    unfold releaseStep
    split_ifs <;> exact hfifo

/-- one call of `ethernetif_input`, to its end -/
def fetch (pbufAlloc : PbufAlloc) : List EthRxEvent := .poll pbufAlloc :: List.replicate 10 .cpu

theorem fetch_one {pbufAlloc : PbufAlloc} {g : MacFrame} {rest : List MacFrame}
    (halloc : ∀ n lens, pbufAlloc n = some lens → lens.sum = n)
    (h : RxInv s rel k junk (g :: rest)) (hph : s.phase = .idle) (hfifo : s.fifo = none) :
    ∃ rel' k', (run ethRxStep s (fetch pbufAlloc)).phase = .idle ∧
      RxInv (run ethRxStep s (fetch pbufAlloc)) rel' k' [] rest ∧
      (run ethRxStep s (fetch pbufAlloc)).fifo = none := by
  have hat := h.phase
  rw [hph] at hat
  obtain ⟨rfl, -, hle, hpart⟩ := hat
  have hsegs := segs_bounds g
  have hm : s.segCount < g.segs := by
    rcases hpart with hz | ⟨g', rest', hp, hlt, -⟩
    · omega
    · obtain ⟨rfl, rfl⟩ := List.cons.inj hp
      exact hlt
  have hbegin : ethRxStep s (.poll pbufAlloc) = { s with phase := .scan 0 pbufAlloc } := by
    unfold ethRxStep
    rw [hph]
  obtain ⟨n, hn⟩ : ∃ n, s.segCount + (n + 1) = g.segs := ⟨g.segs - s.segCount - 1, by omega⟩
  obtain ⟨hcopy, hinv, hnone⟩ := scan_ends n
    { s with phase := .scan 0 pbufAlloc } 0 (h.poll hph halloc) rfl hfifo hn (by omega)
  have hrel := hinv.copy hcopy
  obtain ⟨rel', k', hidle, hinv', hnone'⟩ := release_ends g.slots _ _ _ _ _ hrel rfl hnone
  rw [slots_length] at hidle hinv' hnone'
  have hsteps : run ethRxStep s (fetch pbufAlloc) =
      rxCpuStep^[g.segs + 1] (copyStep (rxCpuStep^[n + 1] { s with phase := .scan 0 pbufAlloc })
        pbufAlloc) := by
    have hten : 10 = (10 - (g.segs + 1) - 1 - (n + 1)) + (g.segs + 1) + 1 + (n + 1) := by
      have hnb : g.segs ≤ 4 := hsegs.2.1
      omega
    unfold fetch
    rw [run_cons, hbegin, run_cpu]
    conv_lhs => rw [hten]
    rw [Function.iterate_add_apply, Function.iterate_add_apply, Function.iterate_add_apply,
      Function.iterate_one, rxCpuStep_copying hcopy]
    exact cpu_idle _ hidle
  rw [hsteps]
  exact ⟨rel', k', hidle, hinv', hnone'⟩

/-- a call with nothing to fetch -/
theorem fetch_none {pbufAlloc : PbufAlloc}
    (halloc : ∀ n lens, pbufAlloc n = some lens → lens.sum = n) (h : RxInv s rel k junk [])
    (hph : s.phase = .idle) (hfifo : s.fifo = none) :
    (run ethRxStep s (fetch pbufAlloc)).phase = .idle ∧
      RxInv (run ethRxStep s (fetch pbufAlloc)) rel k [] [] ∧
      (run ethRxStep s (fetch pbufAlloc)).fifo = none := by
  have hat := h.phase
  rw [hph] at hat
  obtain ⟨rfl, hrx, hle, -⟩ := hat
  have hlen := h.fifo
  rw [hfifo] at hlen
  obtain rfl : k = 0 := Eq.symm hlen
  have hown : (s.desc s.rxDesc).own = true := by
    have hfront := h.held.front_empty
    rw [show s.segCount = 0 by omega, Nat.add_zero, Nat.mod_eq_of_lt h.held.first_lt] at hrx
    rw [hrx]
    simpa using hfront
  have hpoll := h.poll hph halloc
  have hscan := hpoll.scan rfl
  have hback : scanDescStep { s with phase := .scan 0 pbufAlloc } 0 pbufAlloc = { s with phase := .idle } := by
    unfold scanDescStep
    simp [hown]
  have hsteps : run ethRxStep s (fetch pbufAlloc) = { s with phase := .idle } := by
    have hbegin : ethRxStep s (.poll pbufAlloc) = { s with phase := .scan 0 pbufAlloc } := by
      unfold ethRxStep
      rw [hph]
    unfold fetch
    rw [run_cons, hbegin, run_cpu, Function.iterate_succ_apply, rxCpuStep_scan rfl, hback]
    exact cpu_idle 9 rfl
  rw [hsteps]
  rw [hback] at hscan
  exact ⟨rfl, hscan, hfifo⟩

/-- as many calls as frames wait -/
theorem fetch_all {pbufAlloc : PbufAlloc}
    (halloc : ∀ n lens, pbufAlloc n = some lens → lens.sum = n) (n : Nat) :
    ∀ {s : EthRx} {rel k : Nat} {junk : List (MacFrame × Nat)} {pending : List MacFrame},
      RxInv s rel k junk pending → s.phase = .idle → s.fifo = none → pending.length ≤ n →
      ∃ rel' k' junk', RxInv (run ethRxStep s (List.replicate n (fetch pbufAlloc)).flatten)
        rel' k' junk' [] := by
  induction n with
  | zero =>
    intro s rel k junk pending h _ _ hn
    obtain rfl : pending = [] := List.eq_nil_of_length_eq_zero (by omega)
    exact ⟨rel, k, junk, h⟩
  | succ n ih =>
    intro s rel k junk pending h hph hfifo hn
    rw [List.replicate_succ, List.flatten_cons, run_append]
    cases pending with
    | nil =>
      obtain ⟨hph', h', hfifo'⟩ := fetch_none halloc h hph hfifo
      exact ih h' hph' hfifo' (Nat.zero_le n)
    | cons g rest =>
      obtain ⟨rel', k', hph', h', hfifo'⟩ := fetch_one halloc h hph hfifo
      rw [List.length_cons] at hn
      exact ih h' hph' hfifo' (by omega)

theorem rxCpuStep_taken (s : EthRx) : (rxCpuStep s).taken = s.taken := by
  cases hph : s.phase with
  | idle => rw [rxCpuStep_idle hph]
  | scan counter pbufAlloc =>
    rw [rxCpuStep_scan hph]
    exact (scanDescStep_frame s counter pbufAlloc).2
  | copying pbufAlloc =>
    rw [rxCpuStep_copying hph]
    rfl
  | releasing i d =>
    rw [rxCpuStep_releasing hph]
    unfold releaseStep
    split_ifs <;> rfl

theorem fetch_taken (pbufAlloc : PbufAlloc) (n : Nat) (s : EthRx) :
    (run ethRxStep s (List.replicate n (fetch pbufAlloc)).flatten).taken = s.taken := by
  refine run_invariant_mem (P := fun t : EthRx => t.taken = s.taken) (fun t e he ht => ?_) rfl
  obtain ⟨l, hl, he⟩ := List.mem_flatten.1 he
  rw [List.eq_of_mem_replicate hl] at he
  unfold fetch at he
  rcases List.mem_cons.1 he with rfl | he
  · unfold ethRxStep
    cases t.phase <;> exact ht
  · rw [List.eq_of_mem_replicate he]
    exact (rxCpuStep_taken t).trans ht

/-- a frame has one segment at least -/
theorem length_le_slots (l : List MacFrame) : l.length ≤ (l.flatMap MacFrame.slots).length := by
  induction l with
  | nil => exact Nat.le_refl 0
  | cons g l ih =>
    have hone := (segs_bounds g).1
    rw [List.flatMap_cons, List.length_append, slots_length, List.length_cons]
    omega

/-- what waits is held in the descriptors -/
theorem pending_le (h : RxInv s rel k junk pending) (hfifo : s.fifo = none) :
    pending.length ≤ ethRxBufNb := by
  have hlen := h.fifo
  rw [hfifo] at hlen
  have hk : (junk ++ pending.flatMap MacFrame.slots).length = k := hlen
  have hcount := h.held.count_le
  have hp := length_le_slots pending
  rw [List.length_append] at hk
  omega

/-- **Reception.**  Along every run each call that found a frame has returned, in order, the frames
that the MAC has taken from the line, in the pbufs that it was given; once the MAC has stored all of
them, four more calls fetch what waits. -/
theorem ethRx_frames (buffers : Nat → Nat → UInt8) (es : List EthRxEvent)
    (hes : ∀ e ∈ es, e.Lawful) :
    List.Forall₂ RxResult.Of (run ethRxStep (ethRxInit buffers) es).received
        ((run ethRxStep (ethRxInit buffers) es).taken.take
          (run ethRxStep (ethRxInit buffers) es).received.length) ∧
      ((run ethRxStep (ethRxInit buffers) es).phase = .idle →
        (run ethRxStep (ethRxInit buffers) es).fifo = none →
        ∀ pbufAlloc : PbufAlloc, (∀ n lens, pbufAlloc n = some lens → lens.sum = n) →
          List.Forall₂ RxResult.Of (run ethRxStep (ethRxInit buffers)
            (es ++ (List.replicate ethRxBufNb (fetch pbufAlloc)).flatten)).received
            (run ethRxStep (ethRxInit buffers) es).taken) := by
  obtain ⟨rel, k, junk, pending, h⟩ := ethRx_inv buffers hes
  obtain ⟨done, htaken, hall⟩ := h.frames
  refine ⟨?_, fun hph hfifo pbufAlloc halloc => ?_⟩
  · rw [htaken, hall.length_eq, List.take_left]
    exact hall
  · obtain ⟨rel', k', junk', h'⟩ := fetch_all halloc ethRxBufNb h hph hfifo (pending_le h hfifo)
    obtain ⟨done', htaken', hall'⟩ := h'.frames
    rw [fetch_taken, List.append_nil] at htaken'
    rw [run_append, htaken']
    exact hall'

end

/-- a read command, and then a frame of zeros -/
def commandFrame : MacFrame where
  data := List.replicate 34 0 ++ [0x13, 0x88, 0x50, 0x04, 0, 11, 0, 0, 0x02, 0x10, 0x00]
  fcs := (0, 0, 0, 0)
  size := by decide

def zeroFrame : MacFrame := ⟨List.replicate 60 0, (0, 0, 0, 0), by decide⟩

/-- the command is fetched, and then the other frame comes in -/
def lateRun : List EthRxEvent :=
  [.arrive commandFrame, .store] ++ fetch (fun n => some [n]) ++ [.arrive zeroFrame, .store]

theorem lateRun_lawful : ∀ e ∈ lateRun, e.Lawful := by
  have halloc : ∀ n lens, (fun n : Nat => some [n]) n = some lens → lens.sum = n := by
    intro n lens h
    obtain rfl := Option.some.inj h
    exact List.sum_singleton
  simp [lateRun, fetch, EthRxEvent.Lawful]

theorem ethRx_frames_late :
    List.Forall₂ RxResult.Of (run ethRxStep (ethRxInit fun _ _ => 0) lateRun).received
      ((run ethRxStep (ethRxInit fun _ _ => 0) lateRun).taken.take 1) :=
  (ethRx_frames _ _ lateRun_lawful).1

end MenuFirmware
