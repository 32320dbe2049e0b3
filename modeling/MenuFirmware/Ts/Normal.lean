import MenuFirmware.Ts.Mux

/-!
# The packets that follow, taken apart again

* `tsParse`            what a receiver makes of a packet;
* `normal_full`, `normal_stuffed`   the bytes of one pass of the loop: without an adaptation field,
                       and with one that fills the packet up;
* `tsParse_normal`     a packet gives back its part of the payload;
* `normal_parsed`      so do all of them, by induction on the passes;
* `normal_roundtrip`   together they give back the payload.
-/

namespace MenuFirmware
open Memory

/-! ## the receiver -/

structure TsPacket where
  pid : Nat
  cc : Nat
  /-- the adaptation field behind its length, where there is one -/
  adaptation : Option (List UInt8)
  payload : List UInt8

def tsParse (p : List UInt8) : Option TsPacket :=
  if p.length = tsPacketSize ∧ p.getD 0 0 = 0x47 ∧ p.getD 3 0 &&& 0x10 ≠ 0 then
    let pid := (p.getD 1 0).toNat % 32 * 256 + (p.getD 2 0).toNat
    let cc := (p.getD 3 0).toNat % 16
    let len := (p.getD 4 0).toNat
    if p.getD 3 0 &&& 0x20 = 0 then some ⟨pid, cc, none, p.drop 4⟩
    else if 5 + len ≤ tsPacketSize then
      some ⟨pid, cc, some ((p.drop 5).take len), p.drop (5 + len)⟩
    else none
  else none

/-- an adaptation field of `len` bytes that only fills: no flags, and 0xff behind them -/
def stuffingField : Nat → List UInt8
  | 0 => []
  | len + 1 => 0x00 :: List.replicate len 0xff

theorem stuffingField_length (len : Nat) : (stuffingField len).length = len := by
  cases len with
  | zero => rfl
  | succ len =>
    unfold stuffingField
    rw [List.length_cons, List.length_replicate]

/-! ## the header -/

theorem byteOf_toNat (x : Int) : (byteOf x).toNat = (x % 256).toNat := by
  have h : 0 ≤ x % 256 := Int.emod_nonneg x (by omega)
  have hlt : x % 256 < 256 := Int.emod_lt_of_pos x (by omega)
  show (UInt8.ofNat (x % 256).toNat).toNat = (x % 256).toNat
  rw [UInt8.toNat_ofNat']
  omega

theorem byteOf_nextCc (cc : Int) :
    ∃ c < 16, byteOf (nextCc cc) = UInt8.ofNat c ∧ (nextCc cc).toNat = c := by
  have h : nextCc cc = (cc + 1) % 16 := rfl
  refine ⟨(nextCc cc).toNat, by omega, ?_, rfl⟩
  apply UInt8.toNat_inj.1
  rw [byteOf_toNat, UInt8.toNat_ofNat']
  omega

/-- the flags beside a continuity counter -/
theorem flags_beside : ∀ c < 16, ∀ f ∈ ([0x10, 0x30] : List UInt8),
    (f ||| UInt8.ofNat c) &&& 0x10 ≠ 0 ∧ (f ||| UInt8.ofNat c).toNat % 16 = c ∧
      ((f ||| UInt8.ofNat c) &&& 0x20 = 0 ↔ f = 0x10) ∧
      f ||| UInt8.ofNat c ||| 0x20 = 0x30 ||| UInt8.ofNat c := by
  decide +kernel

/-- 13 bits are the number of a stream -/
theorem pid_bytes (pid : Int) :
    (byteOf (pid >>> (8 : Nat))).toNat % 32 * 256 + (byteOf pid).toNat = (pid % 8192).toNat := by
  have hdiv : pid >>> (8 : Nat) = pid / 256 := Int.shiftRight_eq_div_pow pid 8
  rw [byteOf_toNat, byteOf_toNat, hdiv]
  omega

theorem nextCc_plain (cc : Int) : (0x10 ||| byteOf (nextCc cc)) &&& 0x20 = 0 := by
  obtain ⟨c, hc, hb, -⟩ := byteOf_nextCc cc
  rw [hb]
  exact (flags_beside c hc 0x10 (by simp)).2.2.1.2 rfl

theorem nextCc_adapted (cc : Int) :
    (0x30 ||| byteOf (nextCc cc)) &&& 0x20 ≠ 0 ∧ (0x30 ||| byteOf (nextCc cc)) &&& 0x10 ≠ 0 ∧
      0x10 ||| byteOf (nextCc cc) ||| 0x20 = 0x30 ||| byteOf (nextCc cc) := by
  obtain ⟨c, hc, hb, -⟩ := byteOf_nextCc cc
  obtain ⟨hpay, -, haf, -⟩ := flags_beside c hc 0x30 (by simp)
  rw [hb]
  exact ⟨fun h => absurd (haf.1 h) (by decide), hpay, (flags_beside c hc 0x10 (by simp)).2.2.2⟩

/-! ## one packet -/

theorem normalLen_add (ts : WriteStream) : normalLen ts + stuffingLen ts = 184 := by
  unfold stuffingLen
  have h : normalLen ts ≤ 184 := by
    unfold normalLen tsPacketSize normalHeaderLen
    split <;> omega
  show normalLen ts + (184 - normalLen ts) = 184
  omega

theorem normalBuf_slice (mem buf : Nat → UInt8) (ts : WriteStream) :
    slice (normalBuf mem buf ts) 0 tsPacketSize =
      slice (addStuffing (memcpy buf 0 (normalHeader ts)) normalHeaderLen (stuffingLen ts)) 0
        (4 + stuffingLen ts) ++ slice mem ts.payload (normalLen ts) := by
  have hlen := normalLen_add ts
  have hpos : tsPacketSize - normalLen ts = 4 + stuffingLen ts := by
    show 188 - normalLen ts = 4 + stuffingLen ts
    omega
  have hend : tsPacketSize = 4 + stuffingLen ts + (slice mem ts.payload (normalLen ts)).length := by
    rw [slice_length]
    show 188 = 4 + stuffingLen ts + normalLen ts
    omega
  unfold normalBuf
  rw [hpos]
  nth_rewrite 1 [hend]
  rw [slice_memcpy]

theorem normal_full (mem buf : Nat → UInt8) {ts : WriteStream} (h : stuffingLen ts = 0) :
    slice (normalBuf mem buf ts) 0 tsPacketSize =
      normalHeader ts ++ slice mem ts.payload (normalLen ts) := by
  rw [normalBuf_slice, h]
  rfl

/-- the header as the stuffing changes it -/
def stuffedHeader (ts : WriteStream) (len : Nat) : List UInt8 :=
  [0x47, byteOf (ts.pid >>> (8 : Nat)), byteOf ts.pid, 0x30 ||| byteOf (nextCc ts.cc), byteOf len]

theorem newStuffing_slice (buf : Nat → UInt8) (ts : WriteStream) (len : Nat) :
    slice (newStuffing (memcpy buf 0 (normalHeader ts)) normalHeaderLen (len + 1)) 0 (5 + len) =
      stuffedHeader ts len ++ stuffingField len := by
  have hflag := (nextCc_adapted ts.cc).2.2
  have hmoved : memcpy (memcpy buf 0 (normalHeader ts)) (4 + (len + 1))
      (slice (memcpy buf 0 (normalHeader ts)) 4 (normalHeaderLen - 4)) =
      memcpy buf 0 (normalHeader ts) := memcpy_nil _ _
  have hfield : ∀ b : UInt8, slice (memcpy (memcpy buf 0 (normalHeader ts)) 3
      [0x10 ||| byteOf (nextCc ts.cc) ||| 0x20, b]) 0 5 =
      [0x47, byteOf (ts.pid >>> (8 : Nat)), byteOf ts.pid, 0x30 ||| byteOf (nextCc ts.cc), b] := by
    intro b
    rw [← hflag]
    exact slice_memcpy (memcpy buf 0 (normalHeader ts)) 3 _
  have hlen : byteOf ((len + 1 : Nat) - 1) = byteOf len := by
    congr 1
    omega
  unfold newStuffing
  rw [hmoved]
  show slice (if 2 ≤ len + 1 then memcpy (memcpy _ 3 [_, _]) 5 _ else memcpy _ 3 [_, _]) 0 _ = _
  rw [hlen]
  cases len with
  | zero => exact hfield _
  | succ len =>
    rw [if_pos (by omega)]
    have hsrc : (0x00 :: List.replicate (len + 1 + 1 - 2) 0xff : List UInt8) =
        stuffingField (len + 1) := rfl
    have hend : 5 + (len + 1) = 5 + (stuffingField (len + 1)).length := by
      rw [stuffingField_length]
    rw [hsrc, hend, slice_memcpy]
    exact congrArg (· ++ stuffingField (len + 1)) (hfield _)

theorem normal_stuffed (mem buf : Nat → UInt8) {ts : WriteStream} {len : Nat}
    (h : stuffingLen ts = len + 1) :
    slice (normalBuf mem buf ts) 0 tsPacketSize =
      stuffedHeader ts len ++ stuffingField len ++ slice mem ts.payload (normalLen ts) := by
  have hnew : addStuffing (memcpy buf 0 (normalHeader ts)) normalHeaderLen (len + 1) =
      newStuffing (memcpy buf 0 (normalHeader ts)) normalHeaderLen (len + 1) := by
    unfold addStuffing
    rw [if_neg (Nat.succ_ne_zero len)]
    exact if_pos (nextCc_plain ts.cc)
  rw [normalBuf_slice, h, hnew, show 4 + (len + 1) = 5 + len by omega, newStuffing_slice]

/-! ## a packet is taken apart -/

theorem tsParse_plain {b1 b2 b3 : UInt8} {payload : List UInt8} (hlen : payload.length = 184)
    (hpay : b3 &&& 0x10 ≠ 0) (haf : b3 &&& 0x20 = 0) :
    tsParse ([0x47, b1, b2, b3] ++ payload) =
      some ⟨b1.toNat % 32 * 256 + b2.toNat, b3.toNat % 16, none, payload⟩ := by
  have hall : ([0x47, b1, b2, b3] ++ payload).length = tsPacketSize := by
    rw [List.length_append, hlen]
    rfl
  unfold tsParse
  rw [if_pos ⟨hall, rfl, hpay⟩]
  exact if_pos haf

theorem tsParse_adapted {b1 b2 b3 b4 : UInt8} {field payload : List UInt8}
    (hfield : field.length = b4.toNat) (hlen : field.length + payload.length = 183)
    (hpay : b3 &&& 0x10 ≠ 0) (haf : b3 &&& 0x20 ≠ 0) :
    tsParse ([0x47, b1, b2, b3, b4] ++ field ++ payload) =
      some ⟨b1.toNat % 32 * 256 + b2.toNat, b3.toNat % 16, some field, payload⟩ := by
  have hall : ([0x47, b1, b2, b3, b4] ++ field ++ payload).length = tsPacketSize := by
    rw [List.length_append, List.length_append]
    show 5 + field.length + payload.length = 188
    omega
  have htail : ([0x47, b1, b2, b3, b4] ++ field ++ payload).drop 5 = field ++ payload := rfl
  have hroom : 5 + b4.toNat ≤ tsPacketSize := by
    show 5 + b4.toNat ≤ 188
    omega
  have hdrop : ([0x47, b1, b2, b3, b4] ++ field ++ payload).drop (5 + b4.toNat) = payload := by
    rw [← List.drop_drop, htail, ← hfield, List.drop_left]
  unfold tsParse
  rw [if_pos ⟨hall, rfl, hpay⟩]
  show (if b3 &&& 0x20 = 0 then _ else if 5 + b4.toNat ≤ tsPacketSize then _ else _) = _
  rw [if_neg haf, if_pos hroom]
  show some (TsPacket.mk _ _ (some (List.take b4.toNat _)) (List.drop (5 + b4.toNat) _)) = _
  rw [hdrop, htail, ← hfield, List.take_left]
  rfl

/-- the adaptation field that fills up what `n` bytes leave free -/
def fillField (n : Nat) : Option (List UInt8) :=
  if n < 184 then some (stuffingField (183 - n)) else none

/-- the packet for the `n` bytes of `mem` that are still to be sent -/
def tsOf (mem : Nat → UInt8) (ts : WriteStream) (n : Nat) : TsPacket where
  pid := (ts.pid % 8192).toNat
  cc := ((ts.cc + 1) % 16).toNat
  adaptation := fillField n
  payload := slice mem ts.payload (min 184 n)

theorem normalLen_eq {ts : WriteStream} {n : Nat} (h : ts.payloadSize = n) :
    normalLen ts = min 184 n := by
  unfold normalLen
  rw [h]
  show (if ((184 : Nat) : Int) > n then (n : Int).toNat else 184) = _
  split <;> omega

theorem tsParse_normal (mem buf : Nat → UInt8) {ts : WriteStream} {n : Nat}
    (hts : ts.payloadSize = n) (hn : 0 < n) :
    tsParse (slice (normalBuf mem buf ts) 0 tsPacketSize) = some (tsOf mem ts n) := by
  have hlen := normalLen_eq hts
  have hadd := normalLen_add ts
  obtain ⟨c, hc, hb, hcc⟩ := byteOf_nextCc ts.cc
  have hcc' : ((ts.cc + 1) % 16).toNat = c := hcc
  unfold tsOf fillField
  rw [← hlen, hcc', ← pid_bytes]
  by_cases hfull : n < 184
  · obtain ⟨len, hs⟩ : ∃ len, stuffingLen ts = len + 1 := ⟨stuffingLen ts - 1, by omega⟩
    obtain ⟨haf, hpay, -⟩ := nextCc_adapted ts.cc
    obtain ⟨-, hmod, -⟩ := flags_beside c hc 0x30 (by simp)
    have hbyte : (byteOf len).toNat = len := by
      rw [byteOf_toNat]
      omega
    rw [normal_stuffed mem buf hs, if_pos hfull, show 183 - n = len by omega]
    unfold stuffedHeader
    rw [tsParse_adapted, hb, hmod]
    · rw [stuffingField_length, hbyte]
    · rw [stuffingField_length, slice_length]
      omega
    · exact hb ▸ hpay
    · exact hb ▸ haf
  · obtain ⟨hpay, hmod, haf, -⟩ := flags_beside c hc 0x10 (by simp)
    rw [normal_full mem buf (by omega), if_neg hfull]
    unfold normalHeader
    rw [tsParse_plain, hb, hmod]
    · rw [slice_length]
      omega
    · rw [hb]
      exact hpay
    · rw [hb]
      exact haf.2 rfl

/-! ## all packets -/

theorem normal_done (mem buf : Nat → UInt8) {ts : WriteStream} (h : ¬ 0 < ts.payloadSize) :
    mpegtsNormalPacket mem buf ts = (ts, []) := by
  rw [mpegtsNormalPacket, if_neg h]

theorem normal_step (mem buf : Nat → UInt8) {ts : WriteStream} (h : 0 < ts.payloadSize) :
    mpegtsNormalPacket mem buf ts =
      ((mpegtsNormalPacket mem (normalBuf mem buf ts) (normalNext ts)).1,
        slice (normalBuf mem buf ts) 0 tsPacketSize ::
          (mpegtsNormalPacket mem (normalBuf mem buf ts) (normalNext ts)).2) := by
  rw [mpegtsNormalPacket, if_pos h]

theorem normalNext_size {ts : WriteStream} {n : Nat} (h : ts.payloadSize = n) :
    (normalNext ts).payloadSize = (n - min 184 n : Nat) := by
  show ts.payloadSize - normalLen ts = _
  rw [normalLen_eq h, h]
  omega

/-- how many packets `n` bytes need -/
def packetsFor (n : Nat) : Nat := (n + 183) / 184

theorem packetsFor_next {n : Nat} (hn : 0 < n) :
    packetsFor n = packetsFor (n - min 184 n) + 1 := by
  unfold packetsFor
  omega

/-- packet `i` of those for `n` bytes -/
def tsAt (mem : Nat → UInt8) (ts : WriteStream) (n i : Nat) : TsPacket :=
  tsOf mem { ts with cc := ts.cc + i, payload := ts.payload + 184 * i } (n - 184 * i)

/-- what follows the first packet is what the next pass begins with -/
theorem tsAt_next (mem : Nat → UInt8) {ts : WriteStream} {n i : Nat} (h : ts.payloadSize = n)
    (hi : i < packetsFor (n - min 184 n)) :
    tsAt mem (normalNext ts) (n - min 184 n) i = tsAt mem ts n (i + 1) := by
  unfold packetsFor at hi
  have hmin : min 184 n = 184 := by omega
  have hlen : normalLen ts = 184 := by rw [normalLen_eq h, hmin]
  have hcc : ((nextCc ts.cc + i + 1) % 16).toNat = ((ts.cc + (i + 1 : Nat) + 1) % 16).toNat := by
    unfold nextCc
    omega
  have hpos : ts.payload + 184 + 184 * i = ts.payload + 184 * (i + 1) := by omega
  have hrest : n - 184 - 184 * i = n - 184 * (i + 1) := by omega
  unfold tsAt tsOf
  show TsPacket.mk _ _ _ (slice mem (ts.payload + normalLen ts + 184 * i) _) = _
  rw [hlen, hmin, hpos, hrest]
  show TsPacket.mk _ (((nextCc ts.cc + i + 1) % 16).toNat) _ _ = _
  rw [hcc]
  rfl

theorem normal_parsed (mem : Nat → UInt8) (n : Nat) : ∀ (buf : Nat → UInt8) (ts : WriteStream),
    ts.payloadSize = n → (mpegtsNormalPacket mem buf ts).2.map tsParse =
      (List.range (packetsFor n)).map fun i => some (tsAt mem ts n i) := by
  induction n using Nat.strongRecOn with
  | ind n ih =>
    intro buf ts h
    by_cases hn : 0 < n
    · have hpos : 0 < ts.payloadSize := by omega
      have hfirst : tsAt mem ts n 0 = tsOf mem ts n := by
        unfold tsAt
        show tsOf mem { ts with cc := ts.cc + 0 } n = _
        rw [Int.add_zero]
      rw [normal_step mem buf hpos, List.map_cons, tsParse_normal mem buf h hn,
        ih (n - min 184 n) (by omega) _ _ (normalNext_size h), packetsFor_next hn,
        List.range_succ_eq_map, List.map_cons, List.map_map, hfirst]
      congr 1
      apply List.map_congr_left
      intro i hi
      exact congrArg some (tsAt_next mem h (List.mem_range.1 hi))
    · have hzero : n = 0 := by omega
      rw [normal_done mem buf (by omega), hzero]
      rfl

/-- what is left of the stream -/
theorem normal_stream (mem : Nat → UInt8) (n : Nat) : ∀ (buf : Nat → UInt8) (ts : WriteStream),
    ts.payloadSize = n → (mpegtsNormalPacket mem buf ts).1 =
      { ts with
        cc := if n = 0 then ts.cc else (ts.cc + packetsFor n) % 16
        payload := ts.payload + n
        payloadSize := 0 } := by
  induction n using Nat.strongRecOn with
  | ind n ih =>
    intro buf ts h
    by_cases hn : 0 < n
    · have hpos : 0 < ts.payloadSize := by omega
      have hcc : (if n - min 184 n = 0 then nextCc ts.cc
          else (nextCc ts.cc + packetsFor (n - min 184 n)) % 16) =
          (ts.cc + packetsFor n) % 16 := by
        have hk := packetsFor_next hn
        unfold nextCc
        split
        · have hz : packetsFor (n - min 184 n) = 0 := by
            unfold packetsFor
            omega
          omega
        · omega
      have hpay : ts.payload + normalLen ts + (n - min 184 n) = ts.payload + n := by
        rw [normalLen_eq h]
        omega
      rw [normal_step mem buf hpos]
      show (mpegtsNormalPacket mem (normalBuf mem buf ts) (normalNext ts)).1 = _
      rw [ih (n - min 184 n) (by omega) _ _ (normalNext_size h), if_neg (by omega : n ≠ 0)]
      show WriteStream.mk _ _ (if n - min 184 n = 0 then nextCc ts.cc
        else (nextCc ts.cc + packetsFor (n - min 184 n)) % 16) _
        (ts.payload + normalLen ts + (n - min 184 n)) _ _ = _
      rw [hcc, hpay]
      rfl
    · have hzero : n = 0 := by omega
      rw [normal_done mem buf (by omega)]
      subst hzero
      show ts = WriteStream.mk _ _ ts.cc _ ts.payload 0 _
      rw [← show ts.payloadSize = 0 from h]

/-! ## the round trip -/

/-- the packets for `n` bytes -/
def normalSent (mem buf : Nat → UInt8) (ts : WriteStream) (n : Nat) : List (List UInt8) :=
  (mpegtsNormalPacket mem buf { ts with payloadSize := n }).2

theorem tsParse_some {p : List UInt8} {d : TsPacket} (h : tsParse p = some d) :
    p.length = tsPacketSize ∧ p.head? = some 0x47 := by
  unfold tsParse at h
  split at h
  next hp =>
    refine ⟨hp.1, ?_⟩
    cases p with
    | nil => cases hp.1
    | cons b p => exact congrArg some hp.2.1
  next => cases h

theorem tsAt_adaptation (mem : Nat → UInt8) (ts : WriteStream) {n i : Nat}
    (hi : i < packetsFor n) :
    (tsAt mem ts n i).adaptation.isSome ↔ i + 1 = packetsFor n ∧ n % 184 ≠ 0 := by
  unfold packetsFor at hi
  show (fillField (n - 184 * i)).isSome ↔ i + 1 = (n + 183) / 184 ∧ n % 184 ≠ 0
  unfold fillField
  split
  next h => simpa using by omega
  next h => simpa using by omega

theorem tsAt_stuffing (mem : Nat → UInt8) (ts : WriteStream) {n i : Nat} {field : List UInt8}
    (h : (tsAt mem ts n i).adaptation = some field) :
    field = stuffingField field.length ∧
      5 + field.length + (tsAt mem ts n i).payload.length = tsPacketSize := by
  have hf : fillField (n - 184 * i) = some field := h
  unfold fillField at hf
  split at hf
  next hlt =>
    cases hf
    rw [stuffingField_length]
    refine ⟨rfl, ?_⟩
    show _ + (slice mem _ (min 184 (n - 184 * i))).length = 188
    rw [slice_length]
    omega
  next => cases hf

/-- ROUND TRIP: the receiver gets the payload, in packets numbered modulo 16; an adaptation field
stands in the last one alone, where the payload does not fill it, and holds nothing -/
theorem normal_roundtrip (mem buf : Nat → UInt8) (ts : WriteStream) (n : Nat) :
    (normalSent mem buf ts n).length = (n + 183) / 184 ∧
      (∀ p ∈ normalSent mem buf ts n, p.length = 188 ∧ p.head? = some 0x47) ∧
      ∃ ds : List TsPacket, (normalSent mem buf ts n).map tsParse = ds.map some ∧
        (ds.map TsPacket.payload).flatten = slice mem ts.payload n ∧
        ∀ (i : Nat) (d : TsPacket), ds[i]? = some d →
          d.pid = (ts.pid % 8192).toNat ∧ d.cc = ((ts.cc + i + 1) % 16).toNat ∧
          (d.adaptation.isSome ↔ i + 1 = ds.length ∧ n % 184 ≠ 0) ∧
          ∀ field, d.adaptation = some field →
            field = stuffingField field.length ∧ 5 + field.length + d.payload.length = 188 := by
  have hall := normal_parsed mem n buf { ts with payloadSize := n } rfl
  refine ⟨?_, ?_, (List.range (packetsFor n)).map (tsAt mem ts n), ?_, ?_, ?_⟩
  · have hlen := congrArg List.length hall
    rw [List.length_map, List.length_map, List.length_range] at hlen
    exact hlen
  · intro p hp
    have hmem : tsParse p ∈ (normalSent mem buf ts n).map tsParse := List.mem_map_of_mem hp
    unfold normalSent at hmem
    rw [hall] at hmem
    obtain ⟨i, -, hi⟩ := List.mem_map.1 hmem
    exact tsParse_some hi.symm
  · rw [List.map_map]
    exact hall
  · rw [List.map_map]
    have hpay := slice_windows mem ts.payload 184 n (packetsFor n)
    have hmin : min (184 * packetsFor n) n = n := by
      unfold packetsFor
      omega
    rw [hmin] at hpay
    exact hpay
  · intro i d hd
    have hi : i < packetsFor n := by
      have h := (List.getElem?_eq_some_iff.1 hd).1
      rw [List.length_map, List.length_range] at h
      exact h
    rw [List.getElem?_map, List.getElem?_range hi] at hd
    obtain rfl : tsAt mem ts n i = d := Option.some.inj hd
    rw [List.length_map, List.length_range]
    exact ⟨rfl, rfl, tsAt_adaptation mem ts hi, fun field hf => tsAt_stuffing mem ts hf⟩

end MenuFirmware
