import Mathlib.Data.List.Basic
import Mathlib.Data.List.GetD

/-!
# Packages on the serial line (`Decode_OK`)

A package is a magic byte, a header of five bytes, up to 256 bytes of payload and a checksum.  It
is decoded into a structure on the stack that nothing initialises.

* `crcAccumulate`, `packageCrc`  the X.25 checksum, and the one of a package;
* `Lan`            `STR_PECRPORTOCOL`; `buf` goes on behind the structure;
* `decodeOk`       `Decode_OK`;
* `encodePackage`  what the sender sends;
* `decodeOk_encode`  ROUND TRIP: a package is accepted, and the structure filled from it;
* `decodeOk_true`  whatever is accepted is a package.
-/

set_option linter.unusedSectionVars false
set_option linter.unusedVariables false

namespace MenuFirmware

/-! ## checksum -/

def crcAccumulate (crc : UInt16) (data : UInt8) : UInt16 :=
  let tmp := data ^^^ (crc &&& 0xff).toUInt8
  let tmp := tmp ^^^ (tmp <<< 4)
  (crc >>> 8) ^^^ (tmp.toUInt16 <<< 8) ^^^ (tmp.toUInt16 <<< 3) ^^^ (tmp.toUInt16 >>> 4)

def crcAccumulateBuffer (crc : UInt16) (buf : List UInt8) : UInt16 := buf.foldl crcAccumulate crc

def crcCalculate (buf : List UInt8) : UInt16 := crcAccumulateBuffer 0xffff buf

def proExtraCrc : UInt8 := 39

def packageCrc (header payload : List UInt8) : UInt16 :=
  crcAccumulate (crcAccumulateBuffer (crcCalculate header) payload) proExtraCrc

def crcLow (crc : UInt16) : UInt8 := (crc &&& 0xFF).toUInt8
def crcHigh (crc : UInt16) : UInt8 := (crc >>> 8).toUInt8

/-! ## decoding -/

def progMaxPayloadLen : Nat := 256
def progCoreHeaderLen : Nat := 5
def progNumHeaderBytes : Nat := progCoreHeaderLen + 1
def progNumChecksumBytes : Nat := 2

structure Lan where
  type : UInt8
  command : UInt8
  length : Nat
  addr : Nat
  magic : UInt8
  len : UInt8
  cmd : UInt8
  para1 : UInt8
  para2 : UInt8
  msgid : UInt8
  /-- the bytes from `buf` on; the structure ends after 256 of them, the memory does not -/
  buf : Nat → UInt8

/-- the length byte, 0 for 256 -/
def payloadLen (len : UInt8) : Nat := if len = 0 then progMaxPayloadLen else len.toNat

def decodeOk (src : List UInt8) (lan : Lan) (len : Nat) : Bool × Lan :=
  let length := payloadLen (src.getD 1 0)
  if len ≠ length + progNumHeaderBytes + progNumChecksumBytes then (false, lan)
  else
    let payload := (src.drop progNumHeaderBytes).take length
    let checksum := packageCrc ((src.drop 1).take progCoreHeaderLen) payload
    let lan := { lan with buf := fun i => payload.getD i (lan.buf i) }
    if src.getD (progNumHeaderBytes + length) 0 = crcLow checksum ∧
        src.getD (progNumHeaderBytes + length + 1) 0 = crcHigh checksum then
      -- header and payload are copied over the fields from `magic` on
      (true,
        { type := 0
          command := src.getD 2 0
          length := length + progNumHeaderBytes
          addr := ((src.getD 4 0).toNat * 0x100 + (src.getD 3 0).toNat) * 0x100
          magic := src.getD 0 0
          len := src.getD 1 0
          cmd := src.getD 2 0
          para1 := src.getD 3 0
          para2 := src.getD 4 0
          msgid := src.getD 5 0
          buf := fun i => payload.getD i (lan.buf i) })
    else (false, lan)

/-! ## packages -/

/-- the fields that the sender chooses -/
structure Package where
  magic : UInt8
  cmd : UInt8
  para1 : UInt8
  para2 : UInt8
  msgid : UInt8
  payload : List UInt8
  payload_pos : 0 < payload.length
  payload_le : payload.length ≤ progMaxPayloadLen

def Package.header (p : Package) : List UInt8 :=
  [UInt8.ofNat p.payload.length, p.cmd, p.para1, p.para2, p.msgid]

def Package.crc (p : Package) : UInt16 := packageCrc p.header p.payload

def encodePackage (p : Package) : List UInt8 :=
  (p.magic :: p.header) ++ (p.payload ++ [crcLow p.crc, crcHigh p.crc])

/-- the structure after decoding; the bytes behind the payload are what was there before -/
def Package.decoded (p : Package) (lan : Lan) : Lan where
  type := 0
  command := p.cmd
  length := p.payload.length + progNumHeaderBytes
  addr := (p.para2.toNat * 0x100 + p.para1.toNat) * 0x100
  magic := p.magic
  len := UInt8.ofNat p.payload.length
  cmd := p.cmd
  para1 := p.para1
  para2 := p.para2
  msgid := p.msgid
  buf i := p.payload.getD i (lan.buf i)

theorem payloadLen_ofNat {n : Nat} (h0 : 0 < n) (h : n ≤ progMaxPayloadLen) :
    payloadLen (UInt8.ofNat n) = n := by
  unfold progMaxPayloadLen at h
  unfold payloadLen
  have ht : (UInt8.ofNat n).toNat = n % 256 := UInt8.toNat_ofNat'
  by_cases h256 : n = 256
  · subst h256
    rfl
  · have hne : UInt8.ofNat n ≠ 0 := by
      intro e
      rw [e] at ht
      have hz : (0 : UInt8).toNat = 0 := rfl
      omega
    rw [if_neg hne, ht]
    omega

theorem encodePackage_length (p : Package) :
    (encodePackage p).length = p.payload.length + progNumHeaderBytes + progNumChecksumBytes := by
  unfold encodePackage Package.header progNumHeaderBytes progCoreHeaderLen progNumChecksumBytes
  simp only [List.length_append, List.length_cons, List.length_nil]
  omega

theorem drop_header (a b c d e f : UInt8) (rest : List UInt8) :
    ((a :: [b, c, d, e, f]) ++ rest).drop progNumHeaderBytes = rest := rfl

/-- behind the header -/
theorem getD_behind (a b c d e f : UInt8) (rest : List UInt8) (i : Nat) :
    ((a :: [b, c, d, e, f]) ++ rest).getD (progNumHeaderBytes + i) 0 = rest.getD i 0 := by
  simp only [List.getD_eq_getElem?_getD, ← List.getElem?_drop, drop_header]

/-- the two bytes behind the payload -/
theorem getD_checksum (payload : List UInt8) (x y : UInt8) :
    (payload ++ [x, y]).getD payload.length 0 = x ∧
      (payload ++ [x, y]).getD (payload.length + 1) 0 = y := by
  rw [List.getD_append_right _ _ _ _ (Nat.le_refl _), Nat.sub_self,
    List.getD_append_right _ _ _ _ (Nat.le_add_right _ 1), Nat.add_sub_cancel_left]
  exact ⟨rfl, rfl⟩

/-- **Round trip.**  A package is accepted; the length in the structure counts its header too. -/
theorem decodeOk_encode (p : Package) (lan : Lan) :
    decodeOk (encodePackage p) lan (encodePackage p).length = (true, p.decoded lan) := by
  have hlen : payloadLen ((encodePackage p).getD 1 0) = p.payload.length :=
    payloadLen_ofNat p.payload_pos p.payload_le
  have htake : ((encodePackage p).drop progNumHeaderBytes).take p.payload.length = p.payload := by
    unfold encodePackage Package.header
    rw [drop_header, List.take_left]
  have hhead : ((encodePackage p).drop 1).take progCoreHeaderLen = p.header := rfl
  obtain ⟨hx, hy⟩ := getD_checksum p.payload (crcLow p.crc) (crcHigh p.crc)
  have hlow : (encodePackage p).getD (progNumHeaderBytes + p.payload.length) 0 = crcLow p.crc :=
    (getD_behind _ _ _ _ _ _ _ _).trans hx
  have hhigh : (encodePackage p).getD (progNumHeaderBytes + p.payload.length + 1) 0
      = crcHigh p.crc :=
    (getD_behind _ _ _ _ _ _ _ _).trans hy
  unfold decodeOk
  simp only [hlen, htake, hhead]
  rw [if_neg (not_not.2 (encodePackage_length p)), if_pos ⟨hlow, hhigh⟩]
  have hbuf : (fun i => p.payload.getD i (p.payload.getD i (lan.buf i)))
      = fun i => p.payload.getD i (lan.buf i) := by
    funext i
    by_cases hi : i < p.payload.length
    · rw [List.getD_eq_getElem _ _ hi, List.getD_eq_getElem _ _ hi]
    · rw [List.getD_eq_default _ _ (by omega)]
  rw [hbuf]
  rfl

theorem payloadLen_bounds (len : UInt8) :
    0 < payloadLen len ∧ payloadLen len ≤ progMaxPayloadLen := by
  unfold payloadLen progMaxPayloadLen
  by_cases h : len = 0
  · rw [if_pos h]
    omega
  · rw [if_neg h]
    have hlt := len.toNat_lt
    have hne : len.toNat ≠ 0 := fun e => h (UInt8.toNat_inj.1 e)
    omega

theorem ofNat_payloadLen (len : UInt8) : UInt8.ofNat (payloadLen len) = len := by
  unfold payloadLen
  by_cases h : len = 0
  · rw [if_pos h, h]
    rfl
  · rw [if_neg h, UInt8.ofNat_toNat]

/-- the packet as a list: six bytes, the payload and two more -/
theorem src_split (src : List UInt8) (n : Nat)
    (h : src.length = n + progNumHeaderBytes + progNumChecksumBytes) :
    ∃ a b c d e f payload x y, payload.length = n ∧
      src = (a :: [b, c, d, e, f]) ++ (payload ++ [x, y]) := by
  unfold progNumHeaderBytes progCoreHeaderLen progNumChecksumBytes at h
  match src, h with
  | a :: b :: c :: d :: e :: f :: rest, h =>
    simp only [List.length_cons] at h
    have hdrop : (rest.drop n).length = 2 := by
      rw [List.length_drop]
      omega
    obtain ⟨x, y, hxy⟩ := List.length_eq_two.1 hdrop
    refine ⟨a, b, c, d, e, f, rest.take n, x, y, ?_, ?_⟩
    · rw [List.length_take]
      omega
    · rw [← hxy, List.take_append_drop]
      rfl
  | [], h | [_], h | [_, _], h | [_, _, _], h | [_, _, _, _], h | [_, _, _, _, _], h =>
    simp only [List.length_cons, List.length_nil] at h
    omega

/-- **What is accepted is a package.** -/
theorem decodeOk_true (src : List UInt8) (lan : Lan)
    (h : (decodeOk src lan src.length).1 = true) : ∃ p, src = encodePackage p := by
  unfold decodeOk at h
  by_cases hlen : src.length ≠ payloadLen (src.getD 1 0) + progNumHeaderBytes + progNumChecksumBytes
  · simp only [if_pos hlen] at h
    exact absurd h Bool.false_ne_true
  simp only [if_neg hlen] at h
  obtain ⟨a, b, c, d, e, f, payload, x, y, hn, rfl⟩ := src_split src _ (not_not.1 hlen)
  obtain ⟨hpos, hle⟩ := payloadLen_bounds b
  change payload.length = payloadLen b at hn
  have hb : UInt8.ofNat payload.length = b := by rw [hn, ofNat_payloadLen]
  obtain ⟨hx, hy⟩ := getD_checksum payload x y
  by_cases hc : ((a :: [b, c, d, e, f]) ++ (payload ++ [x, y])).getD
        (progNumHeaderBytes + payload.length) 0 = crcLow (packageCrc [b, c, d, e, f] payload) ∧
      ((a :: [b, c, d, e, f]) ++ (payload ++ [x, y])).getD
        (progNumHeaderBytes + payload.length + 1) 0 = crcHigh (packageCrc [b, c, d, e, f] payload)
  · refine ⟨⟨a, c, d, e, f, payload, hn ▸ hpos, hn ▸ hle⟩, ?_⟩
    rw [getD_behind, hx, Nat.add_assoc, getD_behind, hy] at hc
    obtain ⟨rfl, rfl⟩ := hc
    unfold encodePackage Package.crc Package.header
    rw [hb]
  · have htake : (((a :: [b, c, d, e, f]) ++ (payload ++ [x, y])).drop progNumHeaderBytes).take
        payload.length = payload := by
      rw [drop_header, List.take_left]
    have hsize : payloadLen (((a :: [b, c, d, e, f]) ++ (payload ++ [x, y])).getD 1 0)
        = payload.length := hn.symm
    have hhead : (((a :: [b, c, d, e, f]) ++ (payload ++ [x, y])).drop 1).take progCoreHeaderLen
        = [b, c, d, e, f] := rfl
    simp only [hsize, htake, hhead, if_neg hc] at h
    exact absurd h Bool.false_ne_true

end MenuFirmware
