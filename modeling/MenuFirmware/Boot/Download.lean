import MenuFirmware.Flash.Romflash
import MenuFirmware.Serial.Decode

/-!
# Firmware download over the serial line

A firmware image comes in packages of 256 bytes, the page number in the header.  Each package is
programmed at its page behind `ApplicationAddress`.

* `writeOnePackage`, `lanFunDoPackage`  what is done with a decoded package;
* `FirmwareImage`        an image whose pages the header can number;
* `deliver`              the flash after the first packages of an image;
* `receivePackage_image` ONE PACKAGE: its payload is programmed, and six bytes of stack behind it;
                         no sector is ever erased, since the page address is not a sector base;
* `DownloadOk`           every package is programmed exactly, and the image is in the flash;
* `downloadOk_iff`       when that is so.
-/

set_option linter.unusedSectionVars false
set_option linter.unusedVariables false

namespace MenuFirmware
open Nor

/-! ## what is done with a package -/

inductive NetStatus where
  | err
  | ack
  | downPrg
  | downConfigPrg
  deriving DecidableEq, Repr

def progFileDat : UInt8 := 2
def progFileEnd : UInt8 := 3
def progFileCnfgDat : UInt8 := 4
def progFileCnfgEnd : UInt8 := 5

def vectorLen : Nat := 0x400
def applicationAddress : Nat := 0x08000000 + 0x4000 + 0x4000
def fatyAddr : Nat := 0x080C0000
def softKey : Nat := 0x55aa33cc
def hardVer : Nat := 0x00030001

/-- a word in memory, low byte first -/
def wordAt (buf : Nat → UInt8) (i : Nat) : Nat :=
  (buf i).toNat + (buf (i + 1)).toNat * 0x100 + (buf (i + 2)).toNat * 0x10000
    + (buf (i + 3)).toNat * 0x1000000

/-- erase the sector that starts at `addr`, write `len` bytes at `base + addr` -/
def cleanAndWrite (fl : Flash) (base addr : Nat) (buf : Nat → UInt8) (len : Nat) :
    NetStatus × Flash :=
  match romflashCleanPages fl addr with
  | (true, fl) =>
    match romflashPagesWrite fl (addr + base) ((List.range len).map buf) with
    | (true, fl) => (.ack, fl)
    | (false, fl) => (.err, fl)
  | (false, fl) => (.err, fl)

def writeOnePackage (fl : Flash) (buf : Nat → UInt8) (addr len : Nat) : NetStatus × Flash :=
  -- `Key` and `v_Hardver` of the file header
  if addr = vectorLen / 0x100 ∧ (wordAt buf 0 ≠ softKey ∨ wordAt buf 12 ≠ hardVer) then (.err, fl)
  else cleanAndWrite fl applicationAddress addr buf len

def downloadProgram (fl : Flash) (lan : Lan) : NetStatus × Flash :=
  writeOnePackage fl lan.buf lan.addr lan.length

def downloadConfig (fl : Flash) (lan : Lan) : NetStatus × Flash :=
  cleanAndWrite fl fatyAddr lan.addr lan.buf lan.length

def lanFunDoPackage (fl : Flash) (lan : Lan) : NetStatus × Flash :=
  if lan.command = progFileDat then downloadProgram fl lan
  else if lan.command = progFileEnd then (.downPrg, fl)
  else if lan.command = progFileCnfgDat then downloadConfig fl lan
  else if lan.command = progFileCnfgEnd then (.downConfigPrg, fl)
  else (.err, fl)

/-- the packet `src` is decoded into the uninitialised `lan`; no answer when it is not accepted -/
def receivePackage (fl : Flash) (lan : Lan) (src : List UInt8) : Option NetStatus × Flash :=
  match decodeOk src lan src.length with
  | (true, lan) => (some (lanFunDoPackage fl lan).1, (lanFunDoPackage fl lan).2)
  | (false, _) => (none, fl)

/-! ## images -/

def proStx : UInt8 := 0xfe
def proMsgid : UInt8 := 0x1e

/-- an image whose pages have numbers of 16 bits -/
structure FirmwareImage where
  bytes : List UInt8
  size : bytes.length ≤ 0x1000000

def FirmwareImage.pageCount (img : FirmwareImage) : Nat := (img.bytes.length + 255) / 256

def FirmwareImage.page (img : FirmwareImage) (k : Nat) : List UInt8 :=
  (img.bytes.drop (256 * k)).take 256

theorem page_length (img : FirmwareImage) (k : Nat) :
    (img.page k).length = min 256 (img.bytes.length - 256 * k) := by
  unfold FirmwareImage.page
  rw [List.length_take, List.length_drop]

def FirmwareImage.package (img : FirmwareImage) (k : Nat) (h : k < img.pageCount) : Package where
  magic := proStx
  cmd := progFileDat
  para1 := UInt8.ofNat (k % 256)
  para2 := UInt8.ofNat (k / 256)
  msgid := proMsgid
  payload := img.page k
  payload_pos := by
    unfold FirmwareImage.pageCount at h
    rw [page_length]
    omega
  payload_le := by
    rw [page_length]
    exact Nat.min_le_left ..

/-- the flash after the first `n` packages; `lan k` is what is on the stack for the package `k` -/
def deliver (fl : Flash) (lan : Nat → Lan) (img : FirmwareImage) : Nat → Flash
  | 0 => fl
  | n + 1 =>
    if h : n < img.pageCount then
      (receivePackage (deliver fl lan img n) (lan n) (encodePackage (img.package n h))).2
    else deliver fl lan img n

/-! ## one package -/

/-- where the page `k` goes -/
def pageAddr (k : Nat) : Nat := applicationAddress + 256 * k

/-- the six bytes behind the payload of `n` bytes -/
def Lan.behind (lan : Lan) (n : Nat) : List UInt8 :=
  (List.range progNumHeaderBytes).map fun j => lan.buf (n + j)

theorem page_addr_eq (img : FirmwareImage) (k : Nat) (h : k < img.pageCount) (lan : Lan) :
    ((img.package k h).decoded lan).addr = 256 * k := by
  have hsize := img.size
  unfold FirmwareImage.pageCount at h
  show ((UInt8.ofNat (k / 256)).toNat * 0x100 + (UInt8.ofNat (k % 256)).toNat) * 0x100 = _
  rw [UInt8.toNat_ofNat', UInt8.toNat_ofNat']
  omega

/-- `lan.length` bytes of `lan.buf`: the payload and six more -/
theorem decoded_bytes (p : Package) (lan : Lan) :
    (List.range (p.decoded lan).length).map (p.decoded lan).buf
      = p.payload ++ lan.behind p.payload.length := by
  have hlen : (p.decoded lan).length = p.payload.length + progNumHeaderBytes := rfl
  rw [hlen, List.range_add, List.map_append, List.map_map]
  congr 1
  · apply List.ext_getElem
    · rw [List.length_map, List.length_range]
    · intro i h1 h2
      rw [List.getElem_map, List.getElem_range]
      exact List.getD_eq_getElem _ _ h2
  · apply List.map_congr_left
    intro j _
    exact List.getD_eq_default _ _ (Nat.le_add_right _ _)

/-- **One package.**  Its payload is programmed at its page, the stack behind it; nothing is
erased. -/
theorem receivePackage_image (fl : Flash) (h : fl.AllOk) (lan : Lan) (img : FirmwareImage) (k : Nat)
    (hk : k < img.pageCount) :
    receivePackage fl lan (encodePackage (img.package k hk)) =
      (some .ack, fl.after (programOps (record (pageAddr k)
        (img.page k ++ lan.behind (img.page k).length)))) := by
  have haddr := page_addr_eq img k hk lan
  have hsize := img.size
  have hk' := hk
  unfold FirmwareImage.pageCount at hk'
  have hnull : getSector ((img.package k hk).decoded lan).addr = flashSectorNull := by
    rw [haddr]
    exact getSector_of_lt _ (by omega)
  have hvec : ¬ (((img.package k hk).decoded lan).addr = vectorLen / 0x100 ∧
      (wordAt ((img.package k hk).decoded lan).buf 0 ≠ softKey ∨
        wordAt ((img.package k hk).decoded lan).buf 12 ≠ hardVer)) := by
    rw [haddr]
    unfold vectorLen
    omega
  have hw : lanFunDoPackage fl ((img.package k hk).decoded lan) =
      (.ack, fl.after (programOps (record (pageAddr k)
        (img.page k ++ lan.behind (img.page k).length)))) := by
    show writeOnePackage fl _ _ _ = _
    unfold writeOnePackage cleanAndWrite
    rw [if_neg hvec, romflashCleanPages_null fl _ hnull]
    simp only [romflashPagesWrite_allOk (halFlashLock fl) _ _ h, decoded_bytes]
    rw [haddr, Nat.add_comm]
    rfl
  unfold receivePackage
  rw [decodeOk_encode]
  simp only [hw]

/-! ## an image -/

theorem deliver_succ (fl : Flash) (lan : Nat → Lan) (img : FirmwareImage) {k : Nat}
    (hk : k < img.pageCount) :
    deliver fl lan img (k + 1)
      = (receivePackage (deliver fl lan img k) (lan k) (encodePackage (img.package k hk))).2 := by
  show (if h : k < img.pageCount then _ else _) = _
  rw [dif_pos hk]

theorem deliver_allOk (fl : Flash) (h : fl.AllOk) (lan : Nat → Lan) (img : FirmwareImage) (k : Nat) :
    (deliver fl lan img k).AllOk := by
  induction k with
  | zero => exact h
  | succ k ih =>
    by_cases hk : k < img.pageCount
    · rw [deliver_succ fl lan img hk, receivePackage_image _ ih _ _ _ hk]
      exact (Flash.after_allOk _ _).2 ih
    · have hs : deliver fl lan img (k + 1) = deliver fl lan img k := dif_neg hk
      rw [hs]
      exact ih

/-- the memory after one more package -/
theorem deliver_mem (fl : Flash) (h : fl.AllOk) (lan : Nat → Lan) (img : FirmwareImage) {k : Nat}
    (hk : k < img.pageCount) :
    (deliver fl lan img (k + 1)).mem =
      program (program (deliver fl lan img k).mem (record (pageAddr k) (img.page k)))
        (record (pageAddr k + (img.page k).length) ((lan k).behind (img.page k).length)) := by
  rw [deliver_succ fl lan img hk, receivePackage_image _ (deliver_allOk fl h lan img k) _ _ _ hk]
  rw [Flash.after_mem, replay_programOps, record_append, program_append]

/-- every package is acknowledged and programs exactly its payload, and the image arrives -/
structure DownloadOk (fl : Flash) (lan : Nat → Lan) (img : FirmwareImage) : Prop where
  ack : ∀ k, ∀ hk : k < img.pageCount,
    (receivePackage (deliver fl lan img k) (lan k) (encodePackage (img.package k hk))).1 = some .ack
  exactly : ∀ k < img.pageCount, (deliver fl lan img (k + 1)).mem =
    program (deliver fl lan img k).mem (record (pageAddr k) (img.page k))
  image : ∀ i, ∀ hi : i < img.bytes.length,
    (deliver fl lan img img.pageCount).mem (applicationAddress + i) = img.bytes[i]

/-- the image can be programmed without an erase -/
def Programmable (m : Mem UInt8) (img : FirmwareImage) : Prop :=
  ∀ i, ∀ hi : i < img.bytes.length, m (applicationAddress + i) &&& img.bytes[i] = img.bytes[i]

/-- the stack behind each payload clears no bit -/
def StackHarmless (m : Mem UInt8) (lan : Nat → Lan) (img : FirmwareImage) : Prop :=
  ∀ k < img.pageCount, ∀ j < progNumHeaderBytes,
    m (pageAddr k + (img.page k).length + j) &&& (lan k).buf ((img.page k).length + j)
      = m (pageAddr k + (img.page k).length + j)

theorem take_succ_page (img : FirmwareImage) (k : Nat) :
    img.bytes.take (256 * (k + 1)) = img.bytes.take (256 * k) ++ img.page k := by
  unfold FirmwareImage.page
  rw [Nat.mul_succ, List.take_add]

theorem take_length (img : FirmwareImage) {k : Nat} (hk : k < img.pageCount) :
    (img.bytes.take (256 * k)).length = 256 * k := by
  unfold FirmwareImage.pageCount at hk
  rw [List.length_take]
  omega

/-- where every package is programmed exactly, the pages come one behind the other -/
theorem mem_of_exactly (fl : Flash) (lan : Nat → Lan) (img : FirmwareImage) (n : Nat)
    (hn : n ≤ img.pageCount)
    (h : ∀ k < n, (deliver fl lan img (k + 1)).mem =
      program (deliver fl lan img k).mem (record (pageAddr k) (img.page k))) :
    (deliver fl lan img n).mem
      = program fl.mem (record applicationAddress (img.bytes.take (256 * n))) := by
  induction n with
  | zero => rfl
  | succ n ih =>
    rw [h n (Nat.lt_succ_self n), ih (by omega) fun k hk => h k (by omega), take_succ_page,
      record_append, take_length img (by omega), program_append]
    rfl

/-- behind the payload of the package `k` the memory is as before the download -/
theorem behind_untouched (m : Mem UInt8) (img : FirmwareImage) {k : Nat} (hk : k < img.pageCount)
    (j : Nat) :
    program (program m (record applicationAddress (img.bytes.take (256 * k))))
        (record (pageAddr k) (img.page k)) (pageAddr k + (img.page k).length + j)
      = m (pageAddr k + (img.page k).length + j) := by
  have hlen := take_length img hk
  rw [program_outside, program_outside]
  · rw [mem_record_fst, hlen]
    unfold pageAddr
    omega
  · rw [mem_record_fst]
    omega

theorem behind_length (lan : Lan) (n : Nat) : (lan.behind n).length = progNumHeaderBytes := by
  unfold Lan.behind
  rw [List.length_map, List.length_range]

/-- the bytes that are written behind a payload at `a` -/
theorem mem_record_behind (lan : Lan) (a n : Nat) (p : Nat × UInt8) :
    p ∈ record a (lan.behind n) ↔ ∃ j < progNumHeaderBytes, p = (a + j, lan.buf (n + j)) := by
  have hget : ∀ j, ∀ h : j < (lan.behind n).length, (lan.behind n)[j] = lan.buf (n + j) := by
    intro j h
    simp only [Lan.behind, List.getElem_map, List.getElem_range]
  rw [mem_record]
  constructor
  · rintro ⟨j, hj, rfl⟩
    exact ⟨j, behind_length lan n ▸ hj, by rw [hget]⟩
  · rintro ⟨j, hj, rfl⟩
    exact ⟨j, (behind_length lan n).symm ▸ hj, by rw [hget]⟩

/-- with a harmless stack every package is programmed exactly -/
theorem exactly_of_harmless (fl : Flash) (h : fl.AllOk) (lan : Nat → Lan) (img : FirmwareImage)
    (hs : StackHarmless fl.mem lan img) (n : Nat) (hn : n ≤ img.pageCount) :
    ∀ k < n, (deliver fl lan img (k + 1)).mem =
      program (deliver fl lan img k).mem (record (pageAddr k) (img.page k)) := by
  induction n with
  | zero => exact fun k hk => absurd hk (Nat.not_lt_zero k)
  | succ n ih =>
    intro k hk
    have hbefore := ih (by omega)
    by_cases e : k = n
    · subst e
      have hkp : k < img.pageCount := by omega
      have hmem := mem_of_exactly fl lan img k (by omega) hbefore
      rw [deliver_mem fl h lan img hkp, hmem]
      apply program_eq_self
      intro p hp
      obtain ⟨j, hj, rfl⟩ := (mem_record_behind _ _ _ _).1 hp
      show program (program fl.mem _) _ _ &&& _ = program (program fl.mem _) _ _
      rw [behind_untouched fl.mem img hkp j]
      exact hs k hkp j hj
    · exact hbefore k (by omega)

/-- the whole image, programmed exactly -/
theorem mem_all (fl : Flash) (lan : Nat → Lan) (img : FirmwareImage)
    (h : ∀ k < img.pageCount, (deliver fl lan img (k + 1)).mem =
      program (deliver fl lan img k).mem (record (pageAddr k) (img.page k)))
    (i : Nat) (hi : i < img.bytes.length) :
    (deliver fl lan img img.pageCount).mem (applicationAddress + i)
      = fl.mem (applicationAddress + i) &&& img.bytes[i] := by
  have hall : img.bytes.take (256 * img.pageCount) = img.bytes := by
    apply List.take_of_length_le
    unfold FirmwareImage.pageCount
    omega
  rw [mem_of_exactly fl lan img img.pageCount (Nat.le_refl _) h, hall]
  exact program_mem _ _ _ _ ((mem_record _ _ _).2 ⟨i, hi, rfl⟩) (record_nodup _ _)

/-- **The download.**  Every package programs exactly its payload and the image arrives iff the
flash holds no cleared bit that the image has set, and the stack behind each payload clears none
either. -/
theorem downloadOk_iff (fl : Flash) (lan : Nat → Lan) (img : FirmwareImage) (h : fl.AllOk) :
    DownloadOk fl lan img ↔ Programmable fl.mem img ∧ StackHarmless fl.mem lan img := by
  constructor
  · intro hd
    refine ⟨fun i hi => ?_, fun k hk j hj => ?_⟩
    · rw [← mem_all fl lan img hd.exactly i hi]
      exact hd.image i hi
    · -- the six bytes were programmed, and nothing changed
      have hmem := mem_of_exactly fl lan img k (Nat.le_of_lt hk) fun l hl =>
        hd.exactly l (Nat.lt_trans hl hk)
      have hexact := hd.exactly k hk
      rw [deliver_mem fl h lan img hk, hmem] at hexact
      have hcell := congrFun hexact (pageAddr k + (img.page k).length + j)
      rw [program_mem _ (record _ ((lan k).behind _)) _ _
          ((mem_record_behind _ _ _ _).2 ⟨j, hj, rfl⟩) (record_nodup _ _),
        behind_untouched fl.mem img hk j] at hcell
      exact hcell
  · rintro ⟨hprog, hstack⟩
    have hexact := exactly_of_harmless fl h lan img hstack img.pageCount (Nat.le_refl _)
    refine ⟨fun k hk => ?_, hexact, fun i hi => ?_⟩
    · rw [receivePackage_image _ (deliver_allOk fl h lan img k) _ _ _ hk]
    · rw [mem_all fl lan img hexact i hi]
      exact hprog i hi

/-- a flash whose cells all hold `b` -/
def uniformFlash (b : UInt8) : Flash := ⟨fun _ => b, true, fun _ => .ok, 0, []⟩

/-- a stack whose bytes are all `b` -/
def uniformLan (b : UInt8) : Lan := ⟨b, b, 0, 0, b, b, b, b, b, b, fun _ => b⟩

def tinyImage : FirmwareImage := ⟨[0x12, 0x34], by decide⟩

theorem downloadOk_iff_tiny :
    DownloadOk (uniformFlash 0xFF) (fun _ => uniformLan 0xFF) tinyImage ↔
      Programmable (uniformFlash 0xFF).mem tinyImage ∧
        StackHarmless (uniformFlash 0xFF).mem (fun _ => uniformLan 0xFF) tinyImage :=
  downloadOk_iff _ _ _ fun _ => rfl

/-- over an old firmware nothing is erased; into an erased flash six bytes of stack go along -/
theorem download_misses :
    (deliver (uniformFlash 0x00) (fun _ => uniformLan 0xFF) tinyImage 1).mem applicationAddress
      = 0x00 ∧
    ¬ DownloadOk (uniformFlash 0x00) (fun _ => uniformLan 0xFF) tinyImage ∧
    (deliver (uniformFlash 0xFF) (fun _ => uniformLan 0x00) tinyImage 1).mem (applicationAddress + 2)
      = 0x00 ∧
    ¬ DownloadOk (uniformFlash 0xFF) (fun _ => uniformLan 0x00) tinyImage := by
  have hpage : 0 < tinyImage.pageCount := by decide
  have h1 : (deliver (uniformFlash 0x00) (fun _ => uniformLan 0xFF) tinyImage 1).mem
      applicationAddress = 0x00 := by
    decide
  have h2 : (deliver (uniformFlash 0xFF) (fun _ => uniformLan 0x00) tinyImage 1).mem
      (applicationAddress + 2) = 0x00 := by
    decide
  refine ⟨h1, fun hd => ?_, h2, fun hd => ?_⟩
  · have himg := hd.image 0 (by decide)
    exact absurd (h1.symm.trans himg) (by decide)
  · have hex := congrFun (hd.exactly 0 hpage) (applicationAddress + 2)
    rw [h2, program_outside] at hex
    · exact absurd hex (by decide)
    · rw [mem_record_fst]
      decide

end MenuFirmware
