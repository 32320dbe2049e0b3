import MenuFirmware.Ts.Normal

/-!
# The first packet of a payload, and its clocks

* `readPts`, `readPcrBase`, `readPcrExt`   what a receiver reads from the bytes of a clock;
* `writePts_read`, `writePcrBits_read`     ROUND TRIPS, modulo the 33 bits that there are;
* `startHead`            the transport header with its adaptation field;
* `startCursor_written`  what stands before the payload;
* `start_sent`           the whole packet;
* `clocks_roundtrip`     the packet carries one clock twice.
-/

namespace MenuFirmware
open Memory

/-! ## clocks -/

def readPts (b : List UInt8) : Nat :=
  (b.getD 0 0).toNat / 2 % 8 * 1073741824 +
    ((b.getD 1 0).toNat * 256 + (b.getD 2 0).toNat) / 2 * 32768 +
    ((b.getD 3 0).toNat * 256 + (b.getD 4 0).toNat) / 2

/-- the three marker bits are set -/
def ptsMarked (b : List UInt8) : Prop :=
  (b.getD 0 0).toNat % 2 = 1 ∧ (b.getD 2 0).toNat % 2 = 1 ∧ (b.getD 4 0).toNat % 2 = 1

def readPcrBase (b : List UInt8) : Nat :=
  (b.getD 0 0).toNat * 33554432 + (b.getD 1 0).toNat * 131072 + (b.getD 2 0).toNat * 512 +
    (b.getD 3 0).toNat * 2 + (b.getD 4 0).toNat / 128

def readPcrExt (b : List UInt8) : Nat := (b.getD 4 0).toNat % 2 * 256 + (b.getD 5 0).toNat

theorem pts_first : ∀ f < 16, ∀ t < 8,
    (UInt8.ofNat (f * 16) ||| UInt8.ofNat (t * 2) ||| 1).toNat = f * 16 + t * 2 + 1 := by
  decide

theorem byteOf_ofNat {x : Int} {n : Nat} (h : x % 256 = n) : byteOf x = UInt8.ofNat n := by
  apply UInt8.toNat_inj.1
  rw [byteOf_toNat, UInt8.toNat_ofNat']
  omega

theorem pts_parts (pts : Int) :
    pts / 1073741824 % 8 * 1073741824 + pts / 32768 % 32768 * 32768 + pts % 32768 =
      pts % 8589934592 := by
  omega

/-- two bytes are a number of 16 bits -/
theorem bytes_pair {w : Int} (h0 : 0 ≤ w) (h : w < 65536) :
    (w / 256 % 256).toNat * 256 + (w % 256).toNat = w.toNat := by
  have hhigh : w / 256 % 256 = w / 256 := by omega
  rw [hhigh]
  omega

theorem withMarker_read {x : Int} (h0 : 0 ≤ x) (h : x < 32768) :
    ((byteOf ((x * 2 + 1) >>> (8 : Nat))).toNat * 256 + (byteOf (x * 2 + 1)).toNat) / 2 = x.toNat ∧
      (byteOf (x * 2 + 1)).toNat % 2 = 1 := by
  have hdiv : (x * 2 + 1) >>> (8 : Nat) = (x * 2 + 1) / 256 := Int.shiftRight_eq_div_pow (x * 2 + 1) 8
  rw [byteOf_toNat, byteOf_toNat, hdiv, bytes_pair (by omega) (by omega)]
  constructor
  · omega
  · omega

theorem writePts_first (fourbits pts : Int) :
    (byteOf (fourbits * 16) ||| byteOf ((pts >>> (30 : Nat)) % 8 * 2) ||| 1).toNat =
      (fourbits % 16).toNat * 16 + (pts / 1073741824 % 8).toNat * 2 + 1 := by
  have h30 : pts >>> (30 : Nat) = pts / 1073741824 := Int.shiftRight_eq_div_pow pts 30
  have hf : byteOf (fourbits * 16) = UInt8.ofNat ((fourbits % 16).toNat * 16) :=
    byteOf_ofNat (by omega)
  have ht : byteOf ((pts >>> (30 : Nat)) % 8 * 2) = UInt8.ofNat ((pts / 1073741824 % 8).toNat * 2) := by
    rw [h30]
    exact byteOf_ofNat (by omega)
  rw [hf, ht]
  exact pts_first _ (by omega) _ (by omega)

theorem pts_field (a : Nat) {t : Nat} (h : t < 8) : (a * 16 + t * 2 + 1) / 2 % 8 = t := by
  omega

/-- the three parts of a time, put together as natural numbers -/
theorem parts_toNat {a b c : Int} (ha : 0 ≤ a) (hb : 0 ≤ b) (hc : 0 ≤ c) :
    ((a.toNat * 1073741824 + b.toNat * 32768 + c.toNat : Nat) : Int) =
      a * 1073741824 + b * 32768 + c := by
  omega

theorem writePts_read (fourbits pts : Int) :
    (readPts (writePts fourbits pts) : Int) = pts % 8589934592 ∧
      ptsMarked (writePts fourbits pts) := by
  have h15 : pts >>> (15 : Nat) = pts / 32768 := Int.shiftRight_eq_div_pow pts 15
  have hfirst := writePts_first fourbits pts
  obtain ⟨hmid, hmid1⟩ := withMarker_read (x := pts >>> (15 : Nat) % 32768) (by omega) (by omega)
  obtain ⟨hlow, hlow1⟩ := withMarker_read (x := pts % 32768) (by omega) (by omega)
  have hread : readPts (writePts fourbits pts) =
      (byteOf (fourbits * 16) ||| byteOf ((pts >>> (30 : Nat)) % 8 * 2) ||| 1).toNat / 2 % 8 *
          1073741824 +
        ((byteOf ((pts >>> (15 : Nat) % 32768 * 2 + 1) >>> (8 : Nat))).toNat * 256 +
          (byteOf (pts >>> (15 : Nat) % 32768 * 2 + 1)).toNat) / 2 * 32768 +
        ((byteOf ((pts % 32768 * 2 + 1) >>> (8 : Nat))).toNat * 256 +
          (byteOf (pts % 32768 * 2 + 1)).toNat) / 2 := rfl
  rw [hread, hmid, hlow, hfirst, h15]
  refine ⟨?_, ?_, hmid1, hlow1⟩
  · have hnonneg : ∀ x k : Int, k ≠ 0 → 0 ≤ x % k := fun x k hk => Int.emod_nonneg x hk
    rw [pts_field _ (by omega), parts_toNat (hnonneg _ 8 (by decide)) (hnonneg _ _ (by decide))
      (hnonneg _ _ (by decide)), pts_parts]
  · show (byteOf (fourbits * 16) ||| byteOf ((pts >>> (30 : Nat)) % 8 * 2) ||| 1).toNat % 2 = 1
    omega

theorem pcr_middle : ∀ a < 2, ∀ e < 2,
    (UInt8.ofNat (a * 128) ||| UInt8.ofNat e ||| 0x7e).toNat = a * 128 + 126 + e := by
  decide

theorem pcr_parts (base : Int) :
    base / 33554432 % 256 * 33554432 + base / 131072 % 256 * 131072 + base / 512 % 256 * 512 +
      base / 2 % 256 * 2 + base % 2 = base % 8589934592 := by
  omega

theorem pcr_bytes (base ext : Int) (h : 0 ≤ ext) (hlt : ext < 300) :
    (byteOf (base * 128) ||| byteOf (ext >>> (8 : Nat)) ||| 0x7e).toNat =
      (base % 2).toNat * 128 + 126 + (ext / 256).toNat := by
  have h8 : ext >>> (8 : Nat) = ext / 256 := Int.shiftRight_eq_div_pow ext 8
  have hlow : byteOf (base * 128) = UInt8.ofNat ((base % 2).toNat * 128) := byteOf_ofNat (by omega)
  have hhigh : byteOf (ext >>> (8 : Nat)) = UInt8.ofNat (ext / 256).toNat := by
    rw [h8]
    exact byteOf_ofNat (by omega)
  rw [hlow, hhigh]
  exact pcr_middle _ (by omega) _ (by omega)

theorem byteOf_cast (x : Int) : ((byteOf x).toNat : Int) = x % 256 := by
  rw [byteOf_toNat]
  omega

theorem writePcrBits_read (pcr : Int) (h : 0 ≤ pcr.tmod 300) :
    (readPcrBase (writePcrBits pcr) : Int) = pcr.tdiv 300 % 8589934592 ∧
      (readPcrExt (writePcrBits pcr) : Int) = pcr.tmod 300 := by
  have hlt : pcr.tmod 300 < 300 := Int.tmod_lt_of_pos pcr (by omega)
  have hmid := pcr_bytes (pcr.tdiv 300) (pcr.tmod 300) h hlt
  constructor
  · have hparts := pcr_parts (pcr.tdiv 300)
    rw [← byteOf_cast, ← byteOf_cast, ← byteOf_cast, ← byteOf_cast] at hparts
    have hbase : readPcrBase (writePcrBits pcr) =
        (byteOf (pcr.tdiv 300 / 33554432)).toNat * 33554432 +
          (byteOf (pcr.tdiv 300 / 131072)).toNat * 131072 +
          (byteOf (pcr.tdiv 300 / 512)).toNat * 512 + (byteOf (pcr.tdiv 300 / 2)).toNat * 2 +
          (byteOf (pcr.tdiv 300 * 128) ||| byteOf (pcr.tmod 300 >>> (8 : Nat)) ||| 0x7e).toNat /
            128 := by
      have h25 : pcr.tdiv 300 >>> (25 : Nat) = pcr.tdiv 300 / 33554432 :=
        Int.shiftRight_eq_div_pow _ 25
      have h17 : pcr.tdiv 300 >>> (17 : Nat) = pcr.tdiv 300 / 131072 :=
        Int.shiftRight_eq_div_pow _ 17
      have h9 : pcr.tdiv 300 >>> (9 : Nat) = pcr.tdiv 300 / 512 := Int.shiftRight_eq_div_pow _ 9
      have h1 : pcr.tdiv 300 >>> (1 : Nat) = pcr.tdiv 300 / 2 := Int.shiftRight_eq_div_pow _ 1
      rw [← h25, ← h17, ← h9, ← h1]
      rfl
    rw [hbase, hmid]
    omega
  · have hext : readPcrExt (writePcrBits pcr) =
        (byteOf (pcr.tdiv 300 * 128) ||| byteOf (pcr.tmod 300 >>> (8 : Nat)) ||| 0x7e).toNat % 2 *
            256 +
          (byteOf (pcr.tmod 300)).toNat := rfl
    have hlow := byteOf_cast (pcr.tmod 300)
    rw [hext, hmid]
    omega

/-! ## the header -/

/-- transport header, length and flags of the adaptation field -/
def startFixed (ts : WriteStream) (len flags : UInt8) : List UInt8 :=
  [0x47, byteOf (ts.pid >>> (8 : Nat)) ||| 0x40, byteOf ts.pid, 0x30 ||| byteOf (nextCc ts.cc), len,
    flags]

/-- the adaptation field carries the clock of the video -/
def startHead (ts : WriteStream) : List UInt8 :=
  if ts.codecType = .video then
    startFixed ts 7 0x50 ++ writePcrBits (toInt64 (ts.payloadPts * 300))
  else startFixed ts 1 0x40

section
variable {pkt : Nat → UInt8} {ts : WriteStream} {len flags : UInt8}

theorem startFixed_at (h : slice pkt 0 6 = startFixed ts len flags) :
    pkt 3 = 0x30 ||| byteOf (nextCc ts.cc) ∧ pkt 4 = len ∧ pkt 5 = flags := by
  have hget : ∀ i < 6, pkt i = (startFixed ts len flags).getD i 0 := by
    intro i hi
    rw [← h, slice_getD pkt 0 hi, Nat.zero_add]
  exact ⟨hget 3 (by omega), hget 4 (by omega), hget 5 (by omega)⟩

theorem startFixed_payloadStart (h : slice pkt 0 6 = startFixed ts len flags) :
    getTsPayloadStart pkt = 5 + len.toNat := by
  obtain ⟨h3, h4, -⟩ := startFixed_at h
  unfold getTsPayloadStart
  rw [h3, h4, if_neg (nextCc_adapted ts.cc).1]

theorem startFixed_setAfFlag (h : slice pkt 0 6 = startFixed ts len flags) (flag : UInt8) :
    slice (setAfFlag pkt flag) 0 6 = startFixed ts len (flags ||| flag) := by
  obtain ⟨h3, -, h5⟩ := startFixed_at h
  unfold setAfFlag
  rw [h3, if_neg (nextCc_adapted ts.cc).1, slice_update, h, h5]
  rfl

end

theorem setAfFlag_first (stack : Nat → UInt8) (ts : WriteStream) (flag : UInt8) :
    slice (setAfFlag (memcpy stack 0 (startHeader ts)) flag) 0 6 = startFixed ts 1 flag := by
  have hplain : memcpy stack 0 (startHeader ts) 3 &&& 0x20 = 0 := nextCc_plain ts.cc
  have hzero : 0 ||| flag = flag := UInt8.zero_or
  have hcopy := slice_memcpy (memcpy stack 0 (startHeader ts)) 3
    [memcpy stack 0 (startHeader ts) 3 ||| 0x20, 1, 0 ||| flag]
  unfold setAfFlag startFixed
  rw [if_pos hplain, ← (nextCc_adapted ts.cc).2.2]
  rw [hzero] at hcopy ⊢
  exact hcopy

theorem addPcr_slice {pkt : Nat → UInt8} {ts : WriteStream}
    (h : slice pkt 0 6 = startFixed ts 1 0x40) :
    slice (addPcr pkt ts) 0 (startHead ts).length = startHead ts ∧
      getTsPayloadStart (addPcr pkt ts) = (startHead ts).length := by
  unfold addPcr startHead
  by_cases hv : ts.codecType = .video
  · have hflag := startFixed_setAfFlag h 0x10
    have hstart := startFixed_payloadStart hflag
    have hwhole : slice (extendAf (memcpy (setAfFlag pkt 0x10) 6
        (writePcrBits (toInt64 (ts.payloadPts * 300)))) 6) 0 12 =
        startFixed ts 7 0x50 ++ writePcrBits (toInt64 (ts.payloadPts * 300)) := by
      have hcopy : slice (memcpy (setAfFlag pkt 0x10) 6
          (writePcrBits (toInt64 (ts.payloadPts * 300)))) 0 12 = _ := slice_memcpy _ 6 _
      have hfour : memcpy (setAfFlag pkt 0x10) 6
          (writePcrBits (toInt64 (ts.payloadPts * 300))) 4 = 1 := by
        rw [memcpy_below _ _ (by omega)]
        exact (startFixed_at hflag).2.1
      unfold extendAf
      rw [slice_update, hcopy, hflag, hfour]
      rfl
    rw [if_pos hv, if_pos hv]
    show slice (extendAf (memcpy (setAfFlag pkt 0x10) (getTsPayloadStart (setAfFlag pkt 0x10)) _) 6)
      0 12 = _ ∧ getTsPayloadStart (extendAf (memcpy (setAfFlag pkt 0x10)
        (getTsPayloadStart (setAfFlag pkt 0x10)) _) 6) = 12
    rw [hstart]
    refine ⟨hwhole, ?_⟩
    have hsix := congrArg (List.take 6) hwhole
    have htake : (slice (extendAf (memcpy (setAfFlag pkt 0x10) 6
        (writePcrBits (toInt64 (ts.payloadPts * 300)))) 6) 0 12).take 6 =
        slice (extendAf (memcpy (setAfFlag pkt 0x10) 6
          (writePcrBits (toInt64 (ts.payloadPts * 300)))) 6) 0 6 := rfl
    rw [htake] at hsix
    exact startFixed_payloadStart hsix
  · rw [if_neg hv, if_neg hv]
    exact ⟨h, startFixed_payloadStart h⟩

/-- what stands before the payload -/
theorem startCursor_written (stack : Nat → UInt8) (ts : WriteStream) :
    (startCursor stack ts).written = startHead ts ++ pesHeader ts ∧
      (startCursor stack ts).q = (startHead ts ++ pesHeader ts).length := by
  obtain ⟨hslice, hstart⟩ := addPcr_slice (setAfFlag_first stack ts 0x40)
  have hq : (startCursor stack ts).q =
      getTsPayloadStart (addPcr (setAfFlag (memcpy stack 0 (startHeader ts)) 0x40) ts) +
        (pesHeader ts).length := rfl
  unfold Cursor.written
  rw [hq, hstart, List.length_append]
  refine ⟨?_, rfl⟩
  show slice (memcpy (addPcr _ ts) (getTsPayloadStart (addPcr _ ts)) (pesHeader ts)) 0 _ = _
  rw [hstart, slice_memcpy, hslice]

/-! ## the packet -/

/-- one of the two kinds of streams that the driver sends -/
def isMedia (ts : WriteStream) : Prop := ts.codecType = .video ∨ ts.codecType = .audio

/-- the room that the headers leave in the first packet -/
def startRoom (ts : WriteStream) : Nat :=
  (if ts.codecType = .video then 167 else 173) - (if hasPts ts then 5 else 0)

theorem startHead_length (ts : WriteStream) :
    (startHead ts).length = if ts.codecType = .video then 12 else 6 := by
  unfold startHead
  split <;> rfl

theorem writePts_length (fourbits pts : Int) : (writePts fourbits pts).length = 5 := rfl

theorem pesHeader_length {ts : WriteStream} (h : isMedia ts) :
    (pesHeader ts).length = 9 + if hasPts ts then 5 else 0 := by
  have hid : (streamId ts).length = 1 := by
    unfold streamId
    by_cases hv : ts.codecType = .video
    · rw [if_pos hv]
      rfl
    · rw [if_neg hv, if_pos (h.resolve_left hv)]
      rfl
  unfold pesHeader
  rw [List.length_append, List.length_append, List.length_append, hid]
  split
  · rw [writePts_length]
    rfl
  · rfl

theorem startCursor_room (stack : Nat → UInt8) {ts : WriteStream} (h : isMedia ts) :
    (startCursor stack ts).q + startRoom ts = tsPacketSize := by
  rw [(startCursor_written stack ts).2, List.length_append, startHead_length, pesHeader_length h]
  unfold startRoom
  show _ = 188
  split <;> split <;> rfl

theorem startLen_eq (stack : Nat → UInt8) {ts : WriteStream} (h : isMedia ts) :
    startLen stack ts = startRoom ts := by
  have hroom := startCursor_room stack h
  unfold startLen
  omega

theorem start_sent (mem stack : Nat → UInt8) {ts : WriteStream} (h : isMedia ts) :
    (mpegtsStartPacket mem stack ts).2 =
      [startHead ts ++ pesHeader ts ++ slice mem ts.payload (startRoom ts)] := by
  have hroom := startCursor_room stack h
  obtain ⟨hwritten, hq⟩ := startCursor_written stack ts
  have hpos : tsPacketSize - startRoom ts = (startCursor stack ts).q := by omega
  have hend : tsPacketSize =
      (startCursor stack ts).q + (slice mem ts.payload (startRoom ts)).length := by
    rw [slice_length, hroom]
  show [slice (memcpy (startCursor stack ts).buf (tsPacketSize - startLen stack ts)
    (slice mem ts.payload (startLen stack ts))) 0 tsPacketSize] = _
  rw [startLen_eq stack h, hpos]
  nth_rewrite 1 [hend]
  rw [slice_memcpy, ← hwritten]
  rfl

/-! ## the clocks in the packet -/

/-- base and extension of the clock reference -/
def pcrOf (d : TsPacket) : Option (Nat × Nat) :=
  match d.adaptation with
  | some (flags :: pcr) =>
    if flags &&& 0x10 ≠ 0 then some (readPcrBase pcr, readPcrExt pcr) else none
  | _ => none

/-- the time stamp of an elementary packet that begins here -/
def ptsOf (d : TsPacket) : Option Nat :=
  if d.payload.take 3 = startCode ∧ d.payload.getD 7 0 &&& 0x80 ≠ 0 then
    some (readPts (d.payload.drop 9))
  else none

theorem start_parsed (mem stack : Nat → UInt8) {ts : WriteStream} (hv : ts.codecType = .video) :
    ∃ p d, (mpegtsStartPacket mem stack ts).2 = [p] ∧ tsParse p = some d ∧
      d.adaptation = some (0x50 :: writePcrBits (toInt64 (ts.payloadPts * 300))) ∧
      d.payload = pesHeader ts ++ slice mem ts.payload (startRoom ts) := by
  have hroom := startCursor_room stack (Or.inl hv)
  have hlen : (startHead ts ++ pesHeader ts).length + startRoom ts = 188 := by
    rw [← (startCursor_written stack ts).2, hroom]
    rfl
  rw [List.length_append, startHead_length, if_pos hv] at hlen
  obtain ⟨haf, hpay, -⟩ := nextCc_adapted ts.cc
  have hsplit : startHead ts ++ pesHeader ts ++ slice mem ts.payload (startRoom ts) =
      ([0x47, byteOf (ts.pid >>> (8 : Nat)) ||| 0x40, byteOf ts.pid, 0x30 ||| byteOf (nextCc ts.cc),
        7] : List UInt8) ++ (0x50 :: writePcrBits (toInt64 (ts.payloadPts * 300))) ++
        (pesHeader ts ++ slice mem ts.payload (startRoom ts)) := by
    unfold startHead
    rw [if_pos hv, ← List.append_assoc]
    rfl
  have hfull : (0x50 :: writePcrBits (toInt64 (ts.payloadPts * 300)) : List UInt8).length +
      (pesHeader ts ++ slice mem ts.payload (startRoom ts)).length = 183 := by
    rw [List.length_append, slice_length]
    show 7 + _ = 183
    omega
  exact ⟨_, _, start_sent mem stack (Or.inl hv),
    (congrArg tsParse hsplit).trans (tsParse_adapted rfl hfull hpay haf), rfl, rfl⟩

/-- with a time stamp, the header of a video packet is this one -/
theorem pesHeader_video {ts : WriteStream} (hv : ts.codecType = .video) (hp : hasPts ts) :
    pesHeader ts = [0x00, 0x00, 0x01, 0xe0, 0x00, 0x00, 0x80, 0x80, 5] ++
      writePts 2 ts.payloadPts := by
  unfold pesHeader streamId pesLength pesFlags pesHeaderLen
  rw [if_pos hv, if_pos hp, if_pos hp, if_pos hp, if_pos hv]
  rfl

theorem start_pcr {d : TsPacket} {pts : Int} (hlo : -9223372036854775808 ≤ pts * 300)
    (hhi : pts * 300 < 9223372036854775808)
    (h : d.adaptation = some (0x50 :: writePcrBits (toInt64 (pts * 300)))) :
    pcrOf d = some ((pts % 8589934592).toNat, 0) := by
  have hfit : toInt64 (pts * 300) = pts * 300 := Int.bmod_eq_of_le_mul_two (by omega) (by omega)
  have hmod : (pts * 300).tmod 300 = 0 := Int.mul_tmod_left pts 300
  obtain ⟨hbase, hext⟩ := writePcrBits_read (pts * 300) (by omega)
  rw [hfit] at h
  rw [Int.mul_tdiv_cancel pts (by omega)] at hbase
  rw [hmod] at hext
  unfold pcrOf
  rw [h]
  show some (readPcrBase (writePcrBits (pts * 300)), readPcrExt (writePcrBits (pts * 300))) = _
  rw [show readPcrExt (writePcrBits (pts * 300)) = 0 by omega,
    show readPcrBase (writePcrBits (pts * 300)) = (pts % 8589934592).toNat by omega]

theorem start_pts {d : TsPacket} {ts : WriteStream} {rest : List UInt8}
    (hv : ts.codecType = .video) (hp : hasPts ts) (h : d.payload = pesHeader ts ++ rest) :
    ptsOf d = some (ts.payloadPts % 8589934592).toNat := by
  have hread := (writePts_read 2 ts.payloadPts).1
  rw [pesHeader_video hv hp] at h
  unfold ptsOf
  rw [h, if_pos ⟨rfl, show (0x80 : UInt8) &&& 0x80 ≠ 0 by decide⟩]
  show some (readPts (writePts 2 ts.payloadPts ++ rest)) = _
  have hfive : readPts (writePts 2 ts.payloadPts ++ rest) = readPts (writePts 2 ts.payloadPts) := rfl
  rw [hfive]
  congr 1
  omega

/-- ROUND TRIPS: the time stamp and the clock reference are read back, with the marker bits set; the
two clocks of a first packet of the video agree as long as the reference fits 64 bits -/
theorem clocks_roundtrip :
    (∀ fourbits pts : Int, 0 ≤ pts → pts < 8589934592 →
      (readPts (writePts fourbits pts) : Int) = pts ∧ ptsMarked (writePts fourbits pts)) ∧
    (∀ pcr : Int, 0 ≤ pcr → pcr < 300 * 8589934592 →
      (writePcrBits pcr).length = 6 ∧
        (readPcrBase (writePcrBits pcr) : Int) = pcr / 300 ∧
        (readPcrExt (writePcrBits pcr) : Int) = pcr % 300) ∧
    ∀ (mem stack : Nat → UInt8) (ts : WriteStream), ts.codecType = .video →
      -9223372036854775808 ≤ ts.payloadPts * 300 → ts.payloadPts * 300 < 9223372036854775808 →
      ∃ p d, (mpegtsStartPacket mem stack ts).2 = [p] ∧ tsParse p = some d ∧
        pcrOf d = some ((ts.payloadPts % 8589934592).toNat, 0) ∧
        ptsOf d = some (ts.payloadPts % 8589934592).toNat := by
  refine ⟨?_, ?_, ?_⟩
  · intro fourbits pts h0 h
    obtain ⟨hread, hmark⟩ := writePts_read fourbits pts
    rw [Int.emod_eq_of_lt h0 h] at hread
    exact ⟨hread, hmark⟩
  · intro pcr h0 h
    have hdiv : pcr.tdiv 300 = pcr / 300 := Int.tdiv_eq_ediv_of_nonneg h0
    have hmod : pcr.tmod 300 = pcr % 300 := Int.tmod_eq_emod_of_nonneg h0
    obtain ⟨hbase, hext⟩ := writePcrBits_read pcr (by omega)
    rw [hdiv, Int.emod_eq_of_lt (by omega) (by omega)] at hbase
    exact ⟨rfl, hbase, hext.trans hmod⟩
  · intro mem stack ts hv hlo hhi
    have hp : hasPts ts := by
      show ts.payloadPts ≠ -9223372036854775808
      omega
    obtain ⟨p, d, hsent, hparse, had, hpay⟩ := start_parsed mem stack hv
    exact ⟨p, d, hsent, hparse, start_pcr hlo hhi had, start_pts hv hp hpay⟩

/-- a stream of the video after five hours and a half, with a payload of 400 bytes -/
def videoStream : WriteStream := ⟨.video, 256, 15, true, 0, 400, 1782000000⟩

theorem clocks_roundtrip_video :
    ((readPts (writePts 2 8589934591) : Int) = 8589934591 ∧ ptsMarked (writePts 2 8589934591)) ∧
    ((writePcrBits 2576980377599).length = 6 ∧
      (readPcrBase (writePcrBits 2576980377599) : Int) = 2576980377599 / 300 ∧
      (readPcrExt (writePcrBits 2576980377599) : Int) = 2576980377599 % 300) ∧
    ∃ p d, (mpegtsStartPacket (fun _ => 0) (fun _ => 0xaa) videoStream).2 = [p] ∧
      tsParse p = some d ∧ pcrOf d = some (1782000000, 0) ∧ ptsOf d = some 1782000000 :=
  ⟨clocks_roundtrip.1 2 8589934591 (by decide) (by decide),
    clocks_roundtrip.2.1 2576980377599 (by decide) (by decide),
    clocks_roundtrip.2.2 (fun _ => 0) (fun _ => 0xaa) videoStream rfl (by decide) (by decide)⟩

end MenuFirmware
