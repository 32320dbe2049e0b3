import MenuFirmware.Boot.Download
import MenuFirmware.Serial.Mavlink

/-!
# The register files in the flash (`config_env.c`)

Sector 7 holds a record of the factory settings, one of the user settings and the FPGA registers.  A
record is a key and a checksum, and its data behind them.  The data has 32 bytes (`REG_Data`) or 512
(`REG_Info`), and the functions do not agree which.

* `romflashFactoryRegGet`, `romflashUserRegGet`, `romflashUserRegSave`, `romflashFpgaRegSave`;
* `Passes`               what the last of them finds when it compares checksums;
* `writePages_allOk`     what a list of writes leaves when the flash takes them all;
* `save_at`              what a save leaves in the flash;
* `save_factory`, `save_fpga`, `save_checks`   it keeps the factory data and the FPGA registers, and
                         both of its records pass the comparison;
* `factoryGet_fails`     the record of the factory settings does not;
* `callRight_iff`        when a call does what is expected of it.
-/

namespace MenuFirmware
open Memory Nor

/-! ## records -/

def envStartAddr : Nat := fatyAddr
def cfgInfoLen : Nat := 0x100
def userAddr : Nat := fatyAddr + cfgInfoLen + regBufLen
def fpgaAddr : Nat := userAddr + cfgInfoLen + regBufLen
/-- the size of `REG_Data` -/
def regDataLen : Nat := 32

def softKey1Val : Nat := 0xa5a5a5a5
def softKey2Val : Nat := 0x5a5a5a5a

/-- a word of 32 bits as it lies in memory -/
def le32 (x : Nat) : List UInt8 :=
  [UInt8.ofNat x, UInt8.ofNat (x / 0x100), UInt8.ofNat (x / 0x10000), UInt8.ofNat (x / 0x1000000)]

/-- `CFG_Filestr` -/
def cfgFilestr (key ckSum : Nat) : List UInt8 := le32 key ++ le32 ckSum

/-- a file at `addr`: key and checksum, and the data behind them -/
def cfgFile (addr key ckSum : Nat) (dat : List UInt8) : List (Nat × List UInt8) :=
  [(addr, cfgFilestr key ckSum), (addr + cfgInfoLen, dat)]

def ckSumOf (dat : List UInt8) : Nat := (crcCalculate dat).toNat

/-- the register files in memory and in the flash -/
structure RegEnv where
  flash : Flash
  factoryReg : Nat → UInt8
  userReg : Nat → UInt8
  fpgaDatBuf : Nat → UInt8

def romflashWordRead (fl : Flash) (suaddr : Nat) : Nat := wordAt fl.mem suaddr

/-- what `romflash_pages_read` copies -/
def pagesRead (fl : Flash) (suaddr len : Nat) : List UInt8 := List.ofFn (romflashPagesRead fl suaddr len)

/-- writes one after the other; nobody looks at what they return -/
def writePages (fl : Flash) (l : List (Nat × List UInt8)) : Flash :=
  l.foldl (fun fl p => (romflashPagesWrite fl p.1 p.2).2) fl

def cleaned (fl : Flash) : Flash := (romflashCleanPages fl envStartAddr).2

/-! ## the functions -/

def factoryMac : List UInt8 := [0x00, 0x80, 0xE1, 0x00, 0x00, 0x00]
def factoryIp : List UInt8 := [192, 168, 0, 188]
def factoryGateway : List UInt8 := [192, 168, 0, 1]
def factoryNetmask : List UInt8 := [255, 255, 255, 0]
def factoryUdpOutPort : List UInt8 := [0x03, 0x50]
def factoryUdpInPort : List UInt8 := [0x04, 0x50]
def factoryRemoteIp : List UInt8 := [192, 168, 0, 190]

/-- the fields of `REG_Data`; the first six are control and counters -/
def factoryData : List UInt8 :=
  [0, 0, 0, 0, 0, 0] ++ factoryMac ++ factoryIp ++ factoryGateway ++ factoryNetmask ++
    factoryUdpOutPort ++ factoryUdpInPort ++ factoryRemoteIp

/-- `memset` of a whole `REG_Info` -/
def zeroed (reg : Nat → UInt8) : Nat → UInt8 := memcpy reg 0 (List.replicate regBufLen 0)

def romflashFactoryRegGet (e : RegEnv) : RegEnv :=
  if romflashWordRead e.flash fatyAddr ≠ softKey1Val then
    { e with
      factoryReg := memcpy (zeroed e.factoryReg) 0 factoryData
      flash := writePages (cleaned e.flash)
        (cfgFile fatyAddr softKey1Val (ckSumOf factoryData) factoryData) }
  else
    { e with
      factoryReg := memcpy (zeroed e.factoryReg) 0
        (pagesRead e.flash (fatyAddr + cfgInfoLen) regDataLen) }

/-- the part of the factory settings that goes to the user settings -/
def factoryPart (e : RegEnv) : List UInt8 := slice e.factoryReg 0 regDataLen

def romflashUserRegGet (e : RegEnv) : RegEnv :=
  if romflashWordRead e.flash userAddr ≠ softKey2Val then
    { e with
      userReg := memcpy (zeroed e.userReg) 0 (factoryPart e)
      flash := writePages e.flash
        (cfgFile userAddr softKey2Val (ckSumOf (factoryPart e)) (factoryPart e)) }
  else
    { e with
      userReg := memcpy (zeroed e.userReg) 0
        (pagesRead e.flash (userAddr + cfgInfoLen) regDataLen) }

/-- the two files and the FPGA registers, as they are written to the erased sector -/
def sectorFiles (ck1 ck2 : Nat) (key1 key2 : Nat) (factory user fpga : List UInt8) :
    List (Nat × List UInt8) :=
  cfgFile fatyAddr key1 ck1 factory ++ cfgFile userAddr key2 ck2 user ++ [(fpgaAddr, fpga)]

def saveFiles (e : RegEnv) : List (Nat × List UInt8) :=
  let factory := pagesRead e.flash (fatyAddr + cfgInfoLen) regBufLen
  let user := slice e.userReg 0 regBufLen
  sectorFiles (ckSumOf factory) (ckSumOf user) softKey1Val softKey2Val factory user
    (pagesRead e.flash fpgaAddr fpgaRegBufLen)

def romflashUserRegSave (e : RegEnv) : RegEnv :=
  if romflashWordRead e.flash fatyAddr = softKey1Val then
    { e with flash := writePages (cleaned e.flash) (saveFiles e) }
  else e

/-- the checksum in the file at `addr` is not the one over its 512 bytes -/
def ckDiffers (fl : Flash) (addr : Nat) : Prop :=
  romflashWordRead fl (addr + 4) ≠ ckSumOf (pagesRead fl (addr + cfgInfoLen) regBufLen)

instance instDecidableCkDiffers (fl : Flash) (addr : Nat) : Decidable (ckDiffers fl addr) :=
  inferInstanceAs (Decidable (_ ≠ _))

/-- what is printed about the file at `addr`: nothing, while its key is in place -/
def ckError (fl : Flash) (addr key : Nat) (text : String) : List String :=
  if ckDiffers fl addr ∧ romflashWordRead fl addr ≠ key then [text] else []

def fpgaSaveFiles (e : RegEnv) : List (Nat × List UInt8) :=
  sectorFiles (romflashWordRead e.flash (fatyAddr + 4)) (romflashWordRead e.flash (userAddr + 4))
    (romflashWordRead e.flash fatyAddr) (romflashWordRead e.flash userAddr)
    (pagesRead e.flash (fatyAddr + cfgInfoLen) regBufLen)
    (pagesRead e.flash (userAddr + cfgInfoLen) regBufLen) (slice e.fpgaDatBuf 0 fpgaRegBufLen)

/-- what a call of `romflash_FPGA_reg_save` does -/
structure FpgaRegSaved where
  /-- ghost: the files whose checksum it compares, and whether it finds it right -/
  compared : List (Nat × Bool)
  printed : List String
  env : RegEnv

def romflashFpgaRegSave (e : RegEnv) : FpgaRegSaved :=
  if romflashWordRead e.flash fatyAddr = softKey1Val then
    { compared := [(fatyAddr, !ckDiffers e.flash fatyAddr), (userAddr, !ckDiffers e.flash userAddr)]
      printed := ckError e.flash fatyAddr softKey1Val "romflash FATORY ck error\r\n" ++
        ckError e.flash userAddr softKey2Val "romflash USER ck error\r\n"
      env := { e with flash := writePages (cleaned e.flash) (fpgaSaveFiles e) } }
  else ⟨[], [], e⟩

/-- `romflash_FPGA_reg_save` finds the checksum of the file at `addr` right -/
def Passes (e : RegEnv) (addr : Nat) : Prop := (addr, true) ∈ (romflashFpgaRegSave e).compared

def factoryKey (e : RegEnv) : Prop := romflashWordRead e.flash fatyAddr = softKey1Val

def userKey (e : RegEnv) : Prop := romflashWordRead e.flash userAddr = softKey2Val

theorem passes_factory (e : RegEnv) :
    Passes e fatyAddr ↔ factoryKey e ∧ ¬ ckDiffers e.flash fatyAddr := by
  unfold Passes romflashFpgaRegSave factoryKey
  by_cases hkey : romflashWordRead e.flash fatyAddr = softKey1Val
  · have hne : fatyAddr ≠ userAddr := by decide
    simp [hkey, hne]
  · simp [hkey]

theorem passes_user (e : RegEnv) :
    Passes e userAddr ↔ factoryKey e ∧ ¬ ckDiffers e.flash userAddr := by
  unfold Passes romflashFpgaRegSave factoryKey
  by_cases hkey : romflashWordRead e.flash fatyAddr = softKey1Val
  · have hne : userAddr ≠ fatyAddr := by decide
    simp [hkey, hne]
  · simp [hkey]

/-! ## what the flash holds -/

theorem pagesRead_eq (fl : Flash) (a n : Nat) : pagesRead fl a n = slice fl.mem a n := by
  apply List.ext_getElem
  · rw [slice_length]
    exact List.length_ofFn
  · intro i h1 h2
    have hleft : (pagesRead fl a n)[i] = fl.mem (a + i) := List.getElem_ofFn h1
    rw [hleft]
    simp [slice]

theorem writePages_allOk (l : List (Nat × List UInt8)) : ∀ fl : Flash, fl.AllOk →
    (writePages fl l).mem = programAll fl.mem l := by
  induction l with
  | nil => exact fun fl _ => rfl
  | cons p l ih =>
    intro fl h
    have hstep : (writePages fl (p :: l)).mem =
        (writePages (romflashPagesWrite fl p.1 p.2).2 l).mem := rfl
    rw [hstep, romflashPagesWrite_allOk fl p.1 p.2 h]
    show (writePages (fl.after (programOps (record p.1 p.2))) l).mem = _
    rw [ih (fl.after (programOps (record p.1 p.2))) h, Flash.after_mem, replay_programOps,
      programAll_cons]

/-- the sector of the register files without its contents -/
def blankSector (m : Mem UInt8) : Mem UInt8 := erase m fatyAddr (fatyAddr + 0x40000)

theorem cleaned_allOk {fl : Flash} (h : fl.AllOk) :
    (cleaned fl).mem = blankSector fl.mem ∧ (cleaned fl).AllOk := by
  have hsector : getSector envStartAddr = 7 := by decide
  have hne : getSector envStartAddr ≠ flashSectorNull := by
    rw [hsector]
    decide
  unfold cleaned
  rw [romflashCleanPages_allOk fl envStartAddr h hne, hsector]
  exact ⟨rfl, h⟩

theorem writePages_cleaned {fl : Flash} (h : fl.AllOk) (l : List (Nat × List UInt8)) :
    (writePages (cleaned fl) l).mem = programAll (blankSector fl.mem) l := by
  rw [writePages_allOk l _ (cleaned_allOk h).2, (cleaned_allOk h).1]

theorem blankSector_at (m : Mem UInt8) {x : Nat} (hlo : fatyAddr ≤ x) (hhi : x < fatyAddr + 0x40000) :
    blankSector m x = 0xFF := erase_inside m _ _ x ⟨hlo, hhi⟩

/-- a record programmed in the erased sector reads back -/
theorem slice_programAll {l : List (Nat × List UInt8)} {a : Nat} {bs : List UInt8} (h : (a, bs) ∈ l)
    (hd : (extents l).Pairwise Apart) (hlo : fatyAddr ≤ a)
    (hhi : a + bs.length ≤ fatyAddr + 0x40000) (m : Mem UInt8) :
    slice (programAll (blankSector m) l) a bs.length = bs := by
  apply List.ext_getElem (slice_length _ _ _)
  intro i h1 h2
  have hleft : (slice (programAll (blankSector m) l) a bs.length)[i] =
      programAll (blankSector m) l (a + i) := by
    simp [slice]
  rw [hleft, programAll_at h hd h2, blankSector_at m (by omega) (by omega)]
  exact Cell.prog_blank bs[i]

theorem le32_word {x : Nat} (h : x < 0x100000000) {m : Nat → UInt8} {a : Nat}
    (hm : ∀ i < 4, m (a + i) = (le32 x).getD i 0) : wordAt m a = x := by
  have h0 : m a = UInt8.ofNat x := hm 0 (by omega)
  have h1 : m (a + 1) = UInt8.ofNat (x / 0x100) := hm 1 (by omega)
  have h2 : m (a + 2) = UInt8.ofNat (x / 0x10000) := hm 2 (by omega)
  have h3 : m (a + 3) = UInt8.ofNat (x / 0x1000000) := hm 3 (by omega)
  unfold wordAt
  rw [h0, h1, h2, h3, UInt8.toNat_ofNat', UInt8.toNat_ofNat', UInt8.toNat_ofNat',
    UInt8.toNat_ofNat']
  omega

theorem slice_word {x : Nat} (h : x < 0x100000000) (m : Nat → UInt8) (a : Nat) :
    wordAt m a = x ↔ slice m a 4 = le32 x := by
  constructor
  · intro hw
    show [m a, m (a + 1), m (a + 2), m (a + 3)] = le32 x
    have h0 := (m a).toNat_lt
    have h1 := (m (a + 1)).toNat_lt
    have h2 := (m (a + 2)).toNat_lt
    have h3 := (m (a + 3)).toNat_lt
    unfold wordAt at hw
    have hbyte : ∀ (b : UInt8) (y : Nat), b.toNat = y % 0x100 → b = UInt8.ofNat y := by
      intro b y hy
      rw [← UInt8.toNat_inj, UInt8.toNat_ofNat', hy]
    unfold le32
    rw [hbyte (m a) x (by omega), hbyte (m (a + 1)) (x / 0x100) (by omega),
      hbyte (m (a + 2)) (x / 0x10000) (by omega), hbyte (m (a + 3)) (x / 0x1000000) (by omega)]
  · intro hs
    apply le32_word h
    intro i hi
    rw [← hs, slice_getD m a hi]

theorem cfgFilestr_words {key ck : Nat} (hk : key < 0x100000000) (hc : ck < 0x100000000)
    {m : Nat → UInt8} {a : Nat} (h : slice m a 8 = cfgFilestr key ck) :
    wordAt m a = key ∧ wordAt m (a + 4) = ck := by
  rw [show 8 = 4 + 4 from rfl, slice_add] at h
  obtain ⟨hkey, hck⟩ := List.append_inj h (slice_length m a 4)
  exact ⟨(slice_word hk m a).2 hkey, (slice_word hc m (a + 4)).2 hck⟩

theorem ckSumOf_lt (dat : List UInt8) : ckSumOf dat < 0x100000000 :=
  Nat.lt_trans (crcCalculate dat).toNat_lt (by decide)

/-! ## what a save leaves -/

/-- where the two files and the FPGA registers stand -/
def sectorExtents : List (Nat × Nat) :=
  [(fatyAddr, 8), (fatyAddr + cfgInfoLen, regBufLen), (userAddr, 8), (userAddr + cfgInfoLen, regBufLen),
    (fpgaAddr, fpgaRegBufLen)]

theorem sectorExtents_apart : sectorExtents.Pairwise Apart := by decide

theorem sectorFiles_extents (ck1 ck2 key1 key2 : Nat) {factory user fpga : List UInt8}
    (hf : factory.length = regBufLen) (hu : user.length = regBufLen)
    (hp : fpga.length = fpgaRegBufLen) :
    extents (sectorFiles ck1 ck2 key1 key2 factory user fpga) = sectorExtents := by
  show [(fatyAddr, 8), (fatyAddr + cfgInfoLen, factory.length), (userAddr, 8),
    (userAddr + cfgInfoLen, user.length), (fpgaAddr, fpga.length)] = _
  rw [hf, hu, hp]
  rfl

theorem pagesRead_length (fl : Flash) (a n : Nat) : (pagesRead fl a n).length = n := by
  rw [pagesRead_eq, slice_length]

theorem saveFiles_extents (e : RegEnv) : extents (saveFiles e) = sectorExtents :=
  sectorFiles_extents _ _ _ _ (pagesRead_length _ _ _) (slice_length _ _ _) (pagesRead_length _ _ _)

theorem userGet_absent {e : RegEnv} (h : ¬ userKey e) : romflashUserRegGet e =
    { e with
      userReg := memcpy (zeroed e.userReg) 0 (factoryPart e)
      flash := writePages e.flash
        (cfgFile userAddr softKey2Val (ckSumOf (factoryPart e)) (factoryPart e)) } :=
  if_pos h

theorem userGet_absent_flash {e : RegEnv} (h : ¬ userKey e) : (romflashUserRegGet e).flash =
    writePages e.flash
      (cfgFile userAddr softKey2Val (ckSumOf (factoryPart e)) (factoryPart e)) := by
  rw [userGet_absent h]

theorem userGet_present {e : RegEnv} (h : userKey e) : romflashUserRegGet e =
    { e with
      userReg := memcpy (zeroed e.userReg) 0
        (pagesRead e.flash (userAddr + cfgInfoLen) regDataLen) } :=
  if_neg (not_not_intro h)

theorem userGet_present_frame {e : RegEnv} (h : userKey e) :
    (romflashUserRegGet e).flash = e.flash ∧ (romflashUserRegGet e).factoryReg = e.factoryReg := by
  rw [userGet_present h]
  exact ⟨rfl, rfl⟩

theorem userGet_present_userReg {e : RegEnv} (h : userKey e) : (romflashUserRegGet e).userReg =
    memcpy (zeroed e.userReg) 0 (pagesRead e.flash (userAddr + cfgInfoLen) regDataLen) := by
  rw [userGet_present h]

theorem save_factoryReg (e : RegEnv) : (romflashUserRegSave e).factoryReg = e.factoryReg := by
  unfold romflashUserRegSave
  by_cases hword : romflashWordRead e.flash fatyAddr = softKey1Val
  · rw [if_pos hword]
  · rw [if_neg hword]

section
variable {e : RegEnv} (h : e.flash.AllOk) (hkey : factoryKey e)
include h hkey

theorem save_mem : (romflashUserRegSave e).flash.mem =
    programAll (blankSector e.flash.mem) (saveFiles e) := by
  have hword : romflashWordRead e.flash fatyAddr = softKey1Val := hkey
  unfold romflashUserRegSave
  rw [if_pos hword]
  exact writePages_cleaned h (saveFiles e)

/-- every part of the sector reads back as it was written -/
theorem save_at {a n : Nat} {bs : List UInt8} (hmem : (a, bs) ∈ saveFiles e) (hlen : bs.length = n)
    (hlo : fatyAddr ≤ a) (hhi : a + n ≤ fatyAddr + 0x40000) :
    slice (romflashUserRegSave e).flash.mem a n = bs := by
  rw [save_mem h hkey, ← hlen]
  apply slice_programAll hmem _ hlo (by rwa [hlen])
  rw [saveFiles_extents]
  exact sectorExtents_apart

theorem save_factory : slice (romflashUserRegSave e).flash.mem (fatyAddr + cfgInfoLen) regBufLen =
    slice e.flash.mem (fatyAddr + cfgInfoLen) regBufLen := by
  rw [← pagesRead_eq e.flash]
  apply save_at h hkey _ (pagesRead_length _ _ _) (by decide) (by decide)
  exact List.mem_cons_of_mem _ List.mem_cons_self

theorem save_user : slice (romflashUserRegSave e).flash.mem (userAddr + cfgInfoLen) regBufLen =
    slice e.userReg 0 regBufLen := by
  apply save_at h hkey _ (slice_length _ _ _) (by decide) (by decide)
  exact List.mem_cons_of_mem _ (List.mem_cons_of_mem _ (List.mem_cons_of_mem _ List.mem_cons_self))

theorem save_fpga : slice (romflashUserRegSave e).flash.mem fpgaAddr fpgaRegBufLen =
    slice e.flash.mem fpgaAddr fpgaRegBufLen := by
  rw [← pagesRead_eq e.flash]
  apply save_at h hkey _ (pagesRead_length _ _ _) (by decide) (by decide)
  exact List.mem_append_right _ List.mem_cons_self

/-- the words of the two files -/
theorem save_words :
    wordAt (romflashUserRegSave e).flash.mem fatyAddr = softKey1Val ∧
      wordAt (romflashUserRegSave e).flash.mem (fatyAddr + 4) =
        ckSumOf (slice e.flash.mem (fatyAddr + cfgInfoLen) regBufLen) ∧
      wordAt (romflashUserRegSave e).flash.mem userAddr = softKey2Val ∧
      wordAt (romflashUserRegSave e).flash.mem (userAddr + 4) =
        ckSumOf (slice e.userReg 0 regBufLen) := by
  have hfactory : slice (romflashUserRegSave e).flash.mem fatyAddr 8 =
      cfgFilestr softKey1Val (ckSumOf (pagesRead e.flash (fatyAddr + cfgInfoLen) regBufLen)) :=
    save_at h hkey List.mem_cons_self rfl (Nat.le_refl _) (by decide)
  have huser : slice (romflashUserRegSave e).flash.mem userAddr 8 =
      cfgFilestr softKey2Val (ckSumOf (slice e.userReg 0 regBufLen)) :=
    save_at h hkey (List.mem_cons_of_mem _ (List.mem_cons_of_mem _ List.mem_cons_self)) rfl
      (by decide) (by decide)
  rw [pagesRead_eq] at hfactory
  obtain ⟨hk, hck⟩ := cfgFilestr_words (by decide) (ckSumOf_lt _) hfactory
  obtain ⟨hk2, hck2⟩ := cfgFilestr_words (by decide) (ckSumOf_lt _) huser
  exact ⟨hk, hck, hk2, hck2⟩

/-- both files pass the comparison -/
theorem save_checks : Passes (romflashUserRegSave e) fatyAddr ∧
    Passes (romflashUserRegSave e) userAddr := by
  obtain ⟨hk, hck, -, hck2⟩ := save_words h hkey
  rw [passes_factory, passes_user]
  unfold ckDiffers romflashWordRead
  rw [pagesRead_eq, pagesRead_eq, save_factory h hkey, save_user h hkey]
  exact ⟨⟨hk, not_not_intro hck⟩, hk, not_not_intro hck2⟩

/-- the key is in place when the settings are read back -/
theorem save_userKey : userKey (romflashUserRegSave e) := (save_words h hkey).2.2.1

end

theorem zeroed_at (reg : Nat → UInt8) {i : Nat} (h : i < regBufLen) : zeroed reg i = 0 :=
  memcpy_replicate reg 0 h

/-- 32 registers over a file that was set to zero -/
theorem zeroed_memcpy (reg : Nat → UInt8) {dat : List UInt8} (hdat : dat.length = regDataLen)
    {i : Nat} (hlo : regDataLen ≤ i) (hhi : i < regBufLen) :
    memcpy (zeroed reg) 0 dat i = 0 := by
  rw [memcpy_above _ (by rw [hdat, Nat.zero_add]; exact hlo), zeroed_at reg hhi]

/-- nothing but the first 32 registers is read back -/
theorem userGet_zero (e : RegEnv) {i : Nat} (hlo : regDataLen ≤ i) (hhi : i < regBufLen) :
    (romflashUserRegGet e).userReg i = 0 := by
  by_cases hk : userKey e
  · rw [userGet_present hk]
    exact zeroed_memcpy e.userReg (pagesRead_length _ _ _) hlo hhi
  · rw [userGet_absent hk]
    exact zeroed_memcpy e.userReg (slice_length _ _ _) hlo hhi

/-! ## a file whose data are the 32 registers only -/

/-- bytes programmed over those that the flash holds -/
def progOver (old new : List UInt8) : List UInt8 := List.zipWith Cell.prog old new

theorem slice_program (m : Mem UInt8) (a : Nat) (bs : List UInt8) :
    slice (program m (record a bs)) a bs.length = progOver (slice m a bs.length) bs := by
  apply List.ext_getElem
  · unfold progOver
    rw [List.length_zipWith, slice_length, slice_length, Nat.min_self]
  · intro i h1 h2
    have hi : i < bs.length := by rwa [slice_length] at h1
    have hleft : (slice (program m (record a bs)) a bs.length)[i] =
        program m (record a bs) (a + i) := by
      simp [slice]
    have hright : (progOver (slice m a bs.length) bs)[i] = Cell.prog (m (a + i)) bs[i] := by
      simp [progOver, slice]
    rw [hleft, hright, program_record_at m a bs hi]

/-- `progOver` on a blank part of the flash -/
theorem progOver_blank {m : Mem UInt8} {a n : Nat} {bs : List UInt8} (hlen : bs.length = n)
    (h : ∀ i < n, m (a + i) = 0xFF) : progOver (slice m a n) bs = bs := by
  apply List.ext_getElem
  · unfold progOver
    rw [List.length_zipWith, slice_length, hlen, Nat.min_self]
  · intro i h1 h2
    have hleft : (progOver (slice m a n) bs)[i] = Cell.prog (m (a + i)) bs[i] := by
      simp [progOver, slice]
    rw [hleft, h i (by omega)]
    exact Cell.prog_blank bs[i]

/-- the checksum that the flash holds is that of all the 512 bytes it holds -/
def Overlaid (m : Mem UInt8) (addr ck : Nat) (dat : List UInt8) : Prop :=
  progOver (slice m (addr + 4) 4) (le32 ck) =
    le32 (ckSumOf (progOver (slice m (addr + cfgInfoLen) dat.length) dat ++
      slice m (addr + cfgInfoLen + dat.length) (regBufLen - dat.length)))

/-- cells outside of a record -/
theorem slice_program_outside (m : Mem UInt8) {a pos n : Nat} {bs : List UInt8}
    (h : pos + n ≤ a ∨ a + bs.length ≤ pos) :
    slice (program m (record a bs)) pos n = slice m pos n := by
  apply slice_congr
  intro i hi
  apply program_outside
  rw [mem_record_fst]
  omega

section
variable (m : Mem UInt8) (addr key ck : Nat) {dat : List UInt8} (hdat : dat.length ≤ regBufLen)

theorem cfgFile_mem : programAll m (cfgFile addr key ck dat) =
    program (program (program m (record addr (le32 key))) (record (addr + 4) (le32 ck)))
      (record (addr + cfgInfoLen) dat) := by
  have hrecord : record addr (cfgFilestr key ck) =
      record addr (le32 key) ++ record (addr + 4) (le32 ck) := record_append addr (le32 key) (le32 ck)
  show program (program m (record addr (cfgFilestr key ck))) (record (addr + cfgInfoLen) dat) = _
  rw [hrecord, program_append]

theorem cfgFile_ckSum : slice (programAll m (cfgFile addr key ck dat)) (addr + 4) 4 =
    progOver (slice m (addr + 4) 4) (le32 ck) := by
  have hlen : ∀ x, (le32 x).length = 4 := fun x => rfl
  have hinfo : cfgInfoLen = 256 := rfl
  rw [cfgFile_mem, slice_program_outside _ (Or.inl (by omega))]
  have hprog := slice_program (program m (record addr (le32 key))) (addr + 4) (le32 ck)
  rw [hlen ck, slice_program_outside m (Or.inr (Nat.le_refl (addr + 4)))] at hprog
  exact hprog

include hdat in
theorem cfgFile_data : slice (programAll m (cfgFile addr key ck dat)) (addr + cfgInfoLen) regBufLen =
    progOver (slice m (addr + cfgInfoLen) dat.length) dat ++
      slice m (addr + cfgInfoLen + dat.length) (regBufLen - dat.length) := by
  have hlen : ∀ x, (le32 x).length = 4 := fun x => rfl
  have hinfo : cfgInfoLen = 256 := rfl
  have hkey : ∀ pos n, addr + cfgInfoLen ≤ pos →
      slice (program (program m (record addr (le32 key))) (record (addr + 4) (le32 ck))) pos n =
        slice m pos n := by
    intro pos n hpos
    rw [slice_program_outside _ (Or.inr (by rw [hlen ck]; omega)),
      slice_program_outside m (Or.inr (by rw [hlen key]; omega))]
  obtain ⟨n, hn⟩ := Nat.exists_eq_add_of_le hdat
  rw [cfgFile_mem, hn, slice_add, Nat.add_sub_cancel_left, slice_program, hkey _ _ (Nat.le_refl _),
    slice_program_outside _ (Or.inr (Nat.le_refl _)), hkey _ _ (Nat.le_add_right _ _)]

/-- cells before the file -/
theorem cfgFile_below {pos n : Nat} (h : pos + n ≤ addr) :
    slice (programAll m (cfgFile addr key ck dat)) pos n = slice m pos n := by
  rw [cfgFile_mem, slice_program_outside _ (Or.inl (by omega)),
    slice_program_outside _ (Or.inl (by omega)), slice_program_outside _ (Or.inl h)]

include hdat in
/-- when a file that was just written passes the comparison -/
theorem cfgFile_passes_iff {fl : Flash}
    (hmem : fl.mem = programAll m (cfgFile addr key ck dat)) :
    ¬ ckDiffers fl addr ↔ Overlaid m addr ck dat := by
  unfold ckDiffers romflashWordRead Overlaid
  rw [Ne, not_not, pagesRead_eq, hmem, cfgFile_data m addr key ck hdat, slice_word (ckSumOf_lt _),
    cfgFile_ckSum]

end

/-- nothing was written to the file at `addr` since the sector was erased -/
def BlankFile (m : Mem UInt8) (addr : Nat) : Prop :=
  ∀ i < cfgInfoLen + regBufLen, m (addr + i) = 0xFF

/-- the checksum stays what it is over the erased bytes behind the data -/
def PaddingKeeps (dat : List UInt8) : Prop :=
  crcAccumulateBuffer (crcCalculate dat) (List.replicate (regBufLen - dat.length) 0xFF) =
    crcCalculate dat

theorem le32_inj {x y : Nat} (hx : x < 0x100000000) (hy : y < 0x100000000)
    (h : le32 x = le32 y) : x = y := by
  have hword : ∀ z < 0x100000000, wordAt (fun i => (le32 z).getD i 0) 0 = z :=
    fun z hz => le32_word hz fun i _ => by rw [Nat.zero_add]
  rw [← hword x hx, h, hword y hy]

theorem ckSumOf_padded (dat : List UInt8) (n : Nat) :
    ckSumOf (dat ++ List.replicate n 0xFF) =
      (crcAccumulateBuffer (crcCalculate dat) (List.replicate n 0xFF)).toNat := by
  unfold ckSumOf crcCalculate crcAccumulateBuffer
  rw [List.foldl_append]

theorem overlaid_blank {m : Mem UInt8} {addr : Nat} (h : BlankFile m addr) {dat : List UInt8}
    (hdat : dat.length ≤ regBufLen) : Overlaid m addr (ckSumOf dat) dat ↔ PaddingKeeps dat := by
  have hinfo : cfgInfoLen = 256 := rfl
  have hword : progOver (slice m (addr + 4) 4) (le32 (ckSumOf dat)) = le32 (ckSumOf dat) := by
    apply progOver_blank (show (le32 (ckSumOf dat)).length = 4 from rfl)
    intro i hi
    rw [Nat.add_assoc]
    exact h (4 + i) (by omega)
  have hfirst : progOver (slice m (addr + cfgInfoLen) dat.length) dat = dat := by
    apply progOver_blank rfl
    intro i hi
    rw [Nat.add_assoc]
    exact h (cfgInfoLen + i) (by omega)
  have hrest : slice m (addr + cfgInfoLen + dat.length) (regBufLen - dat.length) =
      List.replicate (regBufLen - dat.length) 0xFF := by
    apply slice_const
    intro i hi
    rw [Nat.add_assoc, Nat.add_assoc]
    exact h (cfgInfoLen + (dat.length + i)) (by omega)
  unfold Overlaid PaddingKeeps
  rw [hword, hfirst, hrest]
  constructor
  · intro heq
    have hck := le32_inj (ckSumOf_lt _) (ckSumOf_lt _) heq
    rw [ckSumOf_padded] at hck
    exact (UInt16.toNat_inj.1 hck).symm
  · intro heq
    rw [ckSumOf_padded, heq]
    rfl

/-! ## what is expected of a call -/

theorem factoryGet_mem {e : RegEnv} (h : e.flash.AllOk) (hkey : ¬ factoryKey e) :
    (romflashFactoryRegGet e).flash.mem = programAll (blankSector e.flash.mem)
      (cfgFile fatyAddr softKey1Val (ckSumOf factoryData) factoryData) := by
  have hword : romflashWordRead e.flash fatyAddr ≠ softKey1Val := hkey
  unfold romflashFactoryRegGet
  rw [if_pos hword]
  exact writePages_cleaned h _

theorem userGet_mem {e : RegEnv} (h : e.flash.AllOk) (hkey : ¬ userKey e) :
    (romflashUserRegGet e).flash.mem = programAll e.flash.mem
      (cfgFile userAddr softKey2Val (ckSumOf (factoryPart e)) (factoryPart e)) := by
  rw [userGet_absent_flash hkey]
  exact writePages_allOk _ _ h

/-- the checksum over the factory settings is not the one over the whole file -/
theorem factoryData_padding : ¬ PaddingKeeps factoryData := by
  unfold PaddingKeeps
  decide +kernel

theorem factoryGet_fails {e : RegEnv} (h : e.flash.AllOk) (hkey : ¬ factoryKey e) :
    ¬ Passes (romflashFactoryRegGet e) fatyAddr := by
  have hlen : factoryData.length ≤ regBufLen := by decide
  have hblank : BlankFile (blankSector e.flash.mem) fatyAddr := by
    intro i hi
    have hinfo : cfgInfoLen + regBufLen = 0x300 := rfl
    exact blankSector_at e.flash.mem (Nat.le_add_right _ _) (by omega)
  rw [passes_factory]
  rintro ⟨-, hpass⟩
  rw [cfgFile_passes_iff _ _ _ _ hlen (factoryGet_mem h hkey), overlaid_blank hblank hlen] at hpass
  exact factoryData_padding hpass

/-- the file of the user settings that `romflashUserRegGet` would write passes the comparison -/
def UserFileFits (e : RegEnv) : Prop :=
  (BlankFile e.flash.mem userAddr ∧ PaddingKeeps (factoryPart e)) ∨
    (¬ BlankFile e.flash.mem userAddr ∧
      Overlaid e.flash.mem userAddr (ckSumOf (factoryPart e)) (factoryPart e))

/-- the file of the user settings lies behind the key of the factory settings -/
theorem userGet_factoryKey {e : RegEnv} (h : e.flash.AllOk) (hkey : factoryKey e)
    (huser : ¬ userKey e) : factoryKey (romflashUserRegGet e) := by
  have hbelow : fatyAddr + 4 ≤ userAddr := by decide
  unfold factoryKey romflashWordRead at *
  rw [slice_word (by decide)] at *
  rw [userGet_mem h huser, cfgFile_below _ _ _ _ hbelow]
  exact hkey

theorem userGet_passes_iff {e : RegEnv} (h : e.flash.AllOk) (hfactory : factoryKey e)
    (hkey : ¬ userKey e) : Passes (romflashUserRegGet e) userAddr ↔ UserFileFits e := by
  rw [passes_user, and_iff_right (userGet_factoryKey h hfactory hkey)]
  have hlen : (factoryPart e).length ≤ regBufLen := by
    unfold factoryPart
    rw [slice_length]
    decide
  rw [cfgFile_passes_iff _ _ _ _ hlen (userGet_mem h hkey)]
  unfold UserFileFits
  by_cases hblank : BlankFile e.flash.mem userAddr
  · rw [overlaid_blank hblank hlen]
    simp [hblank]
  · simp [hblank]

/-- the 32 registers are read back as they were saved -/
theorem save_restores {e : RegEnv} (h : e.flash.AllOk) (hkey : factoryKey e) {i : Nat}
    (hi : i < regDataLen) :
    (romflashUserRegGet (romflashUserRegSave e)).userReg i = e.userReg i := by
  have hlt : i < regBufLen := Nat.lt_trans hi (by decide)
  have hsaved : (romflashUserRegSave e).flash.mem (userAddr + cfgInfoLen + i) = e.userReg i := by
    have hat := slice_getD (romflashUserRegSave e).flash.mem (userAddr + cfgInfoLen) hlt 0
    rw [save_user h hkey, slice_getD _ _ hlt, Nat.zero_add] at hat
    exact hat.symm
  rw [userGet_present_userReg (save_userKey h hkey), pagesRead_eq]
  have hcopy := memcpy_slice_at (zeroed (romflashUserRegSave e).userReg)
    (romflashUserRegSave e).flash.mem 0 (userAddr + cfgInfoLen) hi
  rw [Nat.zero_add, hsaved] at hcopy
  exact hcopy

/-- a save, and the settings read again: everything is as it was, and both files are in order -/
structure SaveRight (e : RegEnv) : Prop where
  restored : slice (romflashUserRegGet (romflashUserRegSave e)).userReg 0 regBufLen =
    slice e.userReg 0 regBufLen
  factory : slice (romflashUserRegGet (romflashUserRegSave e)).flash.mem (fatyAddr + cfgInfoLen)
    regBufLen = slice e.flash.mem (fatyAddr + cfgInfoLen) regBufLen
  factoryReg : (romflashUserRegGet (romflashUserRegSave e)).factoryReg = e.factoryReg
  fpga : slice (romflashUserRegGet (romflashUserRegSave e)).flash.mem fpgaAddr fpgaRegBufLen =
    slice e.flash.mem fpgaAddr fpgaRegBufLen
  factoryPasses : Passes (romflashUserRegSave e) fatyAddr
  userPasses : Passes (romflashUserRegSave e) userAddr

theorem saveRight_iff {e : RegEnv} (h : e.flash.AllOk) (hkey : factoryKey e) :
    SaveRight e ↔ ∀ i, regDataLen ≤ i → i < regBufLen → e.userReg i = 0 := by
  constructor
  · intro hright i hlo hhi
    have hat : (slice (romflashUserRegGet (romflashUserRegSave e)).userReg 0 regBufLen).getD i 0 =
        (slice e.userReg 0 regBufLen).getD i 0 := by rw [hright.restored]
    rw [slice_getD _ _ hhi, slice_getD _ _ hhi, Nat.zero_add, userGet_zero _ hlo hhi] at hat
    exact hat.symm
  · intro hzero
    obtain ⟨hflash, hreg⟩ := userGet_present_frame (save_userKey h hkey)
    obtain ⟨hpass, hpass2⟩ := save_checks h hkey
    refine ⟨?_, by rw [hflash, save_factory h hkey], by rw [hreg, save_factoryReg],
      by rw [hflash, save_fpga h hkey], hpass, hpass2⟩
    apply slice_congr
    intro i hi
    rw [Nat.zero_add]
    by_cases hlo : regDataLen ≤ i
    · rw [userGet_zero _ hlo hi, hzero i hlo hi]
    · exact save_restores h hkey (Nat.lt_of_not_le hlo)

/-- the calls that write a file -/
inductive RegCall where
  | factoryRegGet
  | userRegGet
  | userRegSave
  deriving DecidableEq, Repr

/-- what is expected of a call; only a file that the call writes is looked at -/
def CallRight (e : RegEnv) : RegCall → Prop
  | .factoryRegGet => ¬ factoryKey e → Passes (romflashFactoryRegGet e) fatyAddr
  | .userRegGet => factoryKey e → ¬ userKey e → Passes (romflashUserRegGet e) userAddr
  | .userRegSave => factoryKey e → SaveRight e

/-- when it happens: a get writes a checksum over 32 bytes, which must be that of the 512 bytes in
the flash, and a save is read back up to the 32nd register only -/
def CallFits (e : RegEnv) : RegCall → Prop
  | .factoryRegGet => factoryKey e
  | .userRegGet => factoryKey e → userKey e ∨ UserFileFits e
  | .userRegSave => factoryKey e → ∀ i, regDataLen ≤ i → i < regBufLen → e.userReg i = 0

theorem callRight_iff (e : RegEnv) (c : RegCall) (h : e.flash.AllOk) :
    CallRight e c ↔ CallFits e c := by
  cases c with
  | factoryRegGet =>
    constructor
    · intro hright
      by_contra hkey
      exact factoryGet_fails h hkey (hright hkey)
    · intro hkey habsent
      exact absurd hkey habsent
  | userRegGet =>
    constructor
    · intro hright hkey
      by_cases huser : userKey e
      · exact Or.inl huser
      · exact Or.inr ((userGet_passes_iff h hkey huser).1 (hright hkey huser))
    · intro hfits hkey huser
      rcases hfits hkey with hpresent | hfile
      · exact absurd hpresent huser
      · exact (userGet_passes_iff h hkey huser).2 hfile
  | userRegSave =>
    constructor
    · intro hright hkey
      exact (saveRight_iff h hkey).1 (hright hkey)
    · intro hzero hkey
      exact (saveRight_iff h hkey).2 (hzero hkey)

/-- settings that were never saved: an erased flash -/
def freshEnv : RegEnv := ⟨uniformFlash 0xFF, fun _ => 0, fun _ => 0, fun _ => 0⟩

theorem callRight_iff_fresh : freshEnv.flash.AllOk ∧ ¬ CallRight freshEnv .factoryRegGet := by
  have hok : freshEnv.flash.AllOk := fun n => rfl
  have hkey : ¬ factoryKey freshEnv := by
    show ¬ wordAt (fun _ => 0xFF) fatyAddr = softKey1Val
    decide
  exact ⟨hok, fun hright => hkey ((callRight_iff freshEnv .factoryRegGet hok).1 hright)⟩

/-- the key of the factory settings in the flash, and a register behind the first 32 set -/
def setEnv : RegEnv where
  flash := { uniformFlash 0xFF with mem := memcpy (fun _ => 0xFF) fatyAddr (le32 softKey1Val) }
  factoryReg := fun _ => 0
  userReg := fun i => if i = 32 then 1 else 0
  fpgaDatBuf := fun _ => 0

/-- the register is lost -/
theorem save_loses : ¬ CallRight setEnv .userRegSave := by
  have hkey : factoryKey setEnv := by
    show wordAt (memcpy (fun _ => 0xFF) fatyAddr (le32 softKey1Val)) fatyAddr = softKey1Val
    decide
  intro hright
  have hzero := (saveRight_iff (fun n => rfl) hkey).1 (hright hkey) 32 (by decide) (by decide)
  revert hzero
  decide

end MenuFirmware
