import MenuFirmware.Lib.Run
import MenuFirmware.Serial.Decode

/-!
# What the checksum detects

One byte of the checksum can be undone: the high byte of the new sum gives back what went into it.
So two packets that differ in one byte have different sums.

* `crcAccumulate_inj`    the sum before and the byte, from the sum after;
* `crcCalculate_set_ne`  a byte that is replaced changes the sum;
* `decodeOk_fst_iff`     what `Decode_OK` looks at;
* `decodeOk_detects`     of a packet that is accepted, every single byte behind the magic one counts.
-/

namespace MenuFirmware
open Runs

/-! ## one step -/

/-- the byte that the sum is shifted with -/
def crcMix (t : UInt8) : UInt8 := t ^^^ (t <<< 4)

def crcSpread (t : UInt8) : UInt16 :=
  (t.toUInt16 <<< 8) ^^^ (t.toUInt16 <<< 3) ^^^ (t.toUInt16 >>> 4)

theorem crcAccumulate_eq (crc : UInt16) (data : UInt8) :
    crcAccumulate crc data = (crc >>> 8) ^^^ crcSpread (crcMix (data ^^^ crcLow crc)) := by
  unfold crcAccumulate crcSpread crcMix crcLow
  rw [UInt16.xor_assoc, UInt16.xor_assoc, UInt16.xor_assoc]

/-- the byte that went in, from the high byte that comes out -/
def crcUnmix (y : UInt8) : UInt8 :=
  (y ^^^ (y >>> 5)) ^^^ ((y ^^^ (y >>> 5)) <<< 4)

theorem crcUnmix_spread (t : UInt8) : crcUnmix (crcHigh (crcSpread (crcMix t))) = t := by
  have h : ∀ n : Fin 256, crcUnmix (crcHigh (crcSpread (crcMix (UInt8.ofFin n)))) = UInt8.ofFin n := by
    decide +kernel
  exact h t.toFin

theorem crcHigh_xor (a b : UInt16) : crcHigh (a ^^^ b) = crcHigh a ^^^ crcHigh b := by
  unfold crcHigh
  rw [UInt16.shiftRight_xor, UInt16.toUInt8_xor]

theorem crcHigh_toNat (crc : UInt16) : (crcHigh crc).toNat = crc.toNat / 256 := by
  have hlt := crc.toNat_lt
  unfold crcHigh
  rw [UInt16.toNat_toUInt8, UInt16.toNat_shiftRight]
  show crc.toNat >>> 8 % 256 = _
  rw [Nat.shiftRight_eq_div_pow]
  omega

theorem crcLow_toNat (crc : UInt16) : (crcLow crc).toNat = crc.toNat % 256 := by
  unfold crcLow
  rw [UInt16.toNat_toUInt8, UInt16.toNat_and]
  show (crc.toNat &&& (2 ^ 8 - 1)) % 2 ^ 8 = _
  rw [Nat.and_two_pow_sub_one_eq_mod, Nat.mod_mod]

theorem crc_ext {a b : UInt16} (hl : crcLow a = crcLow b) (hh : crcHigh a = crcHigh b) : a = b := by
  have hl' := crcLow_toNat a
  have hh' := crcHigh_toNat a
  rw [hl, crcLow_toNat] at hl'
  rw [hh, crcHigh_toNat] at hh'
  apply UInt16.toNat_inj.1
  omega

theorem crcHigh_shift (crc : UInt16) : crcHigh (crc >>> 8) = 0 := by
  have hlt := crc.toNat_lt
  apply UInt8.toNat_inj.1
  rw [crcHigh_toNat, UInt16.toNat_shiftRight]
  show crc.toNat >>> 8 / 256 = 0
  rw [Nat.shiftRight_eq_div_pow]
  omega

/-- **A step can be undone.** -/
theorem crcAccumulate_inj {a b : UInt16} {d e : UInt8}
    (h : crcAccumulate a d = crcAccumulate b e) :
    d ^^^ crcLow a = e ^^^ crcLow b ∧ crcHigh a = crcHigh b := by
  rw [crcAccumulate_eq, crcAccumulate_eq] at h
  have hh := congrArg crcHigh h
  rw [crcHigh_xor, crcHigh_xor, crcHigh_shift, crcHigh_shift, UInt8.zero_xor, UInt8.zero_xor] at hh
  have ht : d ^^^ crcLow a = e ^^^ crcLow b := by
    rw [← crcUnmix_spread (d ^^^ crcLow a), hh, crcUnmix_spread]
  rw [ht, UInt16.xor_left_inj] at h
  exact ⟨ht, congrArg UInt16.toUInt8 h⟩

theorem crcAccumulate_state (d : UInt8) : Function.Injective fun crc => crcAccumulate crc d := by
  intro a b h
  obtain ⟨hl, hh⟩ := crcAccumulate_inj h
  exact crc_ext ((UInt8.xor_right_inj d).1 hl) hh

theorem crcAccumulate_data (crc : UInt16) : Function.Injective (crcAccumulate crc) :=
  fun _ _ h => (UInt8.xor_left_inj (crcLow crc)).1 (crcAccumulate_inj h).1

/-- **One byte counts.** -/
theorem crcCalculate_set_ne {buf : List UInt8} {i : Nat} (hi : i < buf.length) {b : UInt8}
    (hb : b ≠ buf[i]) : crcCalculate (buf.set i b) ≠ crcCalculate buf :=
  run_set_ne crcAccumulate_state crcAccumulate_data 0xffff hi hb

/-! ## packets -/

/-- the bytes that the checksum covers: header and payload -/
def covered (src : List UInt8) : List UInt8 :=
  (src.drop 1).take (progCoreHeaderLen + payloadLen (src.getD 1 0))

def coveredCrc (src : List UInt8) : UInt16 :=
  crcAccumulate (crcCalculate (covered src)) proExtraCrc

/-- where the checksum stands -/
def crcIndex (src : List UInt8) : Nat := progNumHeaderBytes + payloadLen (src.getD 1 0)

theorem packageCrc_eq (src : List UInt8) :
    packageCrc ((src.drop 1).take progCoreHeaderLen)
      ((src.drop progNumHeaderBytes).take (payloadLen (src.getD 1 0))) = coveredCrc src := by
  have h : covered src = (src.drop 1).take progCoreHeaderLen ++
      (src.drop progNumHeaderBytes).take (payloadLen (src.getD 1 0)) := by
    unfold covered
    rw [List.take_add, List.drop_drop]
    rfl
  unfold coveredCrc packageCrc crcCalculate crcAccumulateBuffer
  rw [h, List.foldl_append]

/-- **What `Decode_OK` looks at.** -/
theorem decodeOk_fst_iff (src : List UInt8) (lan : Lan) (len : Nat) :
    (decodeOk src lan len).1 = true ↔
      len = crcIndex src + progNumChecksumBytes ∧
      src.getD (crcIndex src) 0 = crcLow (coveredCrc src) ∧
      src.getD (crcIndex src + 1) 0 = crcHigh (coveredCrc src) := by
  have hlen : payloadLen (src.getD 1 0) + progNumHeaderBytes + progNumChecksumBytes
      = crcIndex src + progNumChecksumBytes := by
    unfold crcIndex
    rw [Nat.add_comm (payloadLen _)]
  unfold decodeOk
  simp only [packageCrc_eq, hlen]
  by_cases h : len = crcIndex src + progNumChecksumBytes
  · rw [if_neg (not_not.2 h)]
    by_cases hc : src.getD (crcIndex src) 0 = crcLow (coveredCrc src) ∧
        src.getD (crcIndex src + 1) 0 = crcHigh (coveredCrc src)
    · exact ⟨fun _ => ⟨h, hc⟩, fun _ => by unfold crcIndex at hc; rw [if_pos hc]⟩
    · refine ⟨fun e => ?_, fun e => absurd e.2 hc⟩
      unfold crcIndex at hc
      rw [if_neg hc] at e
      exact absurd e Bool.false_ne_true
  · rw [if_pos h]
    exact ⟨fun e => absurd e Bool.false_ne_true, fun e => absurd e.1 h⟩

theorem payloadLen_inj {a b : UInt8} (h : payloadLen a = payloadLen b) : a = b := by
  rw [← ofNat_payloadLen a, h, ofNat_payloadLen]

theorem crcIndex_ge (src : List UInt8) : 7 ≤ crcIndex src := by
  have h := (payloadLen_bounds (src.getD 1 0)).1
  unfold crcIndex progNumHeaderBytes progCoreHeaderLen
  omega

section
variable {src : List UInt8} {i : Nat} {b : UInt8}

theorem getD_set_ne (j : Nat) (h : i ≠ j) : (src.set i b).getD j 0 = src.getD j 0 := by
  rw [List.getD_eq_getElem?_getD, List.getD_eq_getElem?_getD, List.getElem?_set_ne h]

theorem getD_set_self (h : i < src.length) : (src.set i b).getD i 0 = b := by
  rw [List.getD_eq_getElem?_getD, List.getElem?_set_self h, Option.getD_some]

theorem crcIndex_set (h : i ≠ 1) : crcIndex (src.set i b) = crcIndex src := by
  unfold crcIndex
  rw [getD_set_ne 1 h]

/-- a byte behind the length byte -/
theorem covered_set (h : 1 < i) : covered (src.set i b) = (covered src).set (i - 1) b := by
  unfold covered
  rw [getD_set_ne 1 (by omega), List.drop_set, if_neg (by omega), List.take_set]

theorem covered_length (hlen : crcIndex src ≤ src.length) :
    (covered src).length = crcIndex src - 1 := by
  have h := crcIndex_ge src
  unfold covered
  rw [List.length_take, List.length_drop]
  unfold crcIndex progNumHeaderBytes at *
  omega

theorem covered_getElem (h1 : 0 < i) (hi : i - 1 < (covered src).length) :
    (covered src)[i - 1] = src.getD i 0 := by
  have hs : i < src.length := by
    unfold covered at hi
    rw [List.length_take, List.length_drop] at hi
    omega
  have e : (covered src)[i - 1] = src[1 + (i - 1)] := by
    simp only [covered, List.getElem_take, List.getElem_drop]
  have hidx : 1 + (i - 1) = i := by omega
  simp only [e, hidx]
  exact (List.getD_eq_getElem _ _ hs).symm

end

/-- **Detection.**  A packet that is accepted, with any payload of 1 to 256 bytes, is refused at the
same length once any one byte behind the first is replaced, whatever is in the structures. -/
theorem decodeOk_detects (src : List UInt8) (lan lan' : Lan) (len i : Nat) (b : UInt8)
    (hlen : len ≤ src.length) (hok : (decodeOk src lan len).1 = true) (h1 : 1 ≤ i) (hi : i < len)
    (hb : b ≠ src.getD i 0) : (decodeOk (src.set i b) lan' len).1 = false := by
  rw [decodeOk_fst_iff] at hok
  obtain ⟨hl, hlow, hhigh⟩ := hok
  rw [Bool.eq_false_iff, Ne, decodeOk_fst_iff]
  rintro ⟨hl', hlow', hhigh'⟩
  have hsi : i < src.length := Nat.lt_of_lt_of_le hi hlen
  have hchk : progNumChecksumBytes = 2 := rfl
  rcases Nat.lt_or_ge 1 i with hgt | hle
  · rw [crcIndex_set (by omega)] at hl' hlow' hhigh'
    rcases Nat.lt_or_ge i (crcIndex src) with hin | hout
    · -- a byte that the checksum covers: the sum changes, the stored one does not
      rw [getD_set_ne _ (by omega), hlow] at hlow'
      rw [getD_set_ne _ (by omega), hhigh] at hhigh'
      have hcl : (covered src).length = crcIndex src - 1 := covered_length (by omega)
      have hlt : i - 1 < (covered src).length := by omega
      have hne := crcCalculate_set_ne hlt (b := b) (by rw [covered_getElem (by omega) hlt]; exact hb)
      rw [← covered_set hgt] at hne
      exact hne (crcAccumulate_state proExtraCrc (crc_ext hlow' hhigh')).symm
    · -- a byte of the checksum itself
      have hcov : covered (src.set i b) = covered src := by
        rw [covered_set hgt, List.set_eq_of_length_le]
        rw [covered_length (by omega)]
        omega
      unfold coveredCrc at hlow' hhigh' hlow hhigh
      rw [hcov] at hlow' hhigh'
      rcases Nat.lt_or_ge (crcIndex src) i with hlast | hfirst
      · have e : i = crcIndex src + 1 := by omega
        subst e
        rw [getD_set_self hsi] at hhigh'
        exact hb (hhigh'.trans hhigh.symm)
      · have e : i = crcIndex src := by omega
        subst e
        rw [getD_set_self hsi] at hlow'
        exact hb (hlow'.trans hlow.symm)
  · -- the length byte: the packet would have another length
    have e : i = 1 := by omega
    subst e
    have hp : payloadLen ((src.set 1 b).getD 1 0) = payloadLen (src.getD 1 0) := by
      have h6 := hl.symm.trans hl'
      unfold crcIndex at h6
      omega
    rw [getD_set_self hsi] at hp
    exact hb (payloadLen_inj hp)

/-- a packet with one byte of payload -/
def smallPackage : Package where
  magic := 0x55
  cmd := 1
  para1 := 2
  para2 := 3
  msgid := 4
  payload := [5]
  payload_pos := by decide
  payload_le := by decide

def noLan : Lan where
  type := 0
  command := 0
  length := 0
  addr := 0
  magic := 0
  len := 0
  cmd := 0
  para1 := 0
  para2 := 0
  msgid := 0
  buf _ := 0

theorem decodeOk_detects_small :
    (decodeOk (encodePackage smallPackage) noLan 9).1 = true ∧
    (decodeOk ((encodePackage smallPackage).set 6 7) noLan 9).1 = false :=
  ⟨by decide +kernel,
    decodeOk_detects (encodePackage smallPackage) noLan noLan 9 6 7 (by decide)
      (by decide +kernel) (by decide) (by decide) (by decide)⟩

end MenuFirmware
