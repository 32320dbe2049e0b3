import MenuFirmware.Boot.Download
import MenuFirmware.Flash.Refusal
import MenuFirmware.Lib.Run

/-!
# The check of the file header

The page at `VectorLen` of an image carries a key and a hardware version, and `WriteOnePackage`
refuses it when they are wrong.  It compares the address with `VectorLen / 0x100`, which would be
the number of the page, but the address it gets counts bytes.

* `DataFrame`        a frame with program data that `Decode_OK` accepts;
* `lanFunDoPackage_frame`  DEAD GUARD: every such frame is programmed, its header is not looked at;
* `Foreign`          a frame for the page at `VectorLen` with a wrong key or version;
* `foreignRefused_iff`  such frames are refused iff the flash itself refuses them.
-/

set_option linter.unusedSectionVars false
set_option linter.unusedVariables false

namespace MenuFirmware
open Nor Runs

/-- an accepted `PROG_FILE_DAT` frame, and what was on the stack before it -/
structure DataFrame where
  src : List UInt8
  lan : Lan
  accepted : (decodeOk src lan src.length).1 = true
  data : (decodeOk src lan src.length).2.command = progFileDat

def DataFrame.decoded (f : DataFrame) : Lan := (decodeOk f.src f.lan f.src.length).2

/-- a frame received -/
def frameStep (fl : Flash) (f : DataFrame) : Flash := (receivePackage fl f.lan f.src).2

/-- addressed to the file header, and not for this firmware or this hardware -/
def Foreign (f : DataFrame) : Prop :=
  f.decoded.addr = vectorLen ∧
    (wordAt f.decoded.buf 0 ≠ softKey ∨ wordAt f.decoded.buf 12 ≠ hardVer)

/-- answered `NET_ERR`, no flash byte changed -/
def Refused (fl : Flash) (f : DataFrame) : Prop :=
  (receivePackage fl f.lan f.src).1 = some .err ∧ (frameStep fl f).mem = fl.mem

def ForeignRefused (fl : Flash) (f : DataFrame) : Prop := Foreign f → Refused fl f

/-- the HAL refuses to program a byte of the frame, and those before it clear no bit -/
def FlashRefuses (fl : Flash) (f : DataFrame) : Prop :=
  Foreign f → acceptedCalls fl.hal fl.calls f.decoded.length < f.decoded.length ∧
    ∀ j < acceptedCalls fl.hal fl.calls f.decoded.length,
      fl.mem (applicationAddress + vectorLen + j) &&& f.decoded.buf j
        = fl.mem (applicationAddress + vectorLen + j)

/-- an address counts bytes, in whole pages -/
theorem DataFrame.addr_page (f : DataFrame) : ∃ page, f.decoded.addr = page * 0x100 := by
  obtain ⟨p, hp⟩ := decodeOk_true f.src f.lan f.accepted
  have hd : f.decoded = p.decoded f.lan := by
    unfold DataFrame.decoded
    rw [hp, decodeOk_encode]
  exact ⟨p.para2.toNat * 0x100 + p.para1.toNat, by rw [hd]; rfl⟩

/-- **The guard is dead.**  Whatever the header holds, the frame is programmed at its address. -/
theorem lanFunDoPackage_frame (fl : Flash) (f : DataFrame) :
    lanFunDoPackage fl f.decoded = cleanAndWrite fl applicationAddress f.decoded.addr f.decoded.buf
      f.decoded.length := by
  obtain ⟨page, hpage⟩ := f.addr_page
  have hcmd : f.decoded.command = progFileDat := f.data
  have hne : f.decoded.addr ≠ vectorLen / 0x100 := by
    rw [hpage]
    unfold vectorLen
    omega
  unfold lanFunDoPackage
  rw [if_pos hcmd]
  unfold downloadProgram writeOnePackage
  exact if_neg fun h => hne h.1

theorem receivePackage_frame (fl : Flash) (f : DataFrame) :
    receivePackage fl f.lan f.src
      = (some (lanFunDoPackage fl f.decoded).1, (lanFunDoPackage fl f.decoded).2) := by
  have hacc := f.accepted
  unfold receivePackage DataFrame.decoded
  rcases hd : decodeOk f.src f.lan f.src.length with ⟨b, lan⟩
  rw [hd] at hacc
  obtain rfl : b = true := hacc
  rfl

/-- where nothing is to be erased, the answer is that of the write -/
theorem cleanAndWrite_null (fl : Flash) (base addr : Nat) (buf : Nat → UInt8) (len : Nat)
    (h : getSector addr = flashSectorNull) :
    ((cleanAndWrite fl base addr buf len).1 = .err ↔
      (romflashPagesWrite (halFlashLock fl) (addr + base) ((List.range len).map buf)).1 = false) ∧
    (cleanAndWrite fl base addr buf len).2 =
      (romflashPagesWrite (halFlashLock fl) (addr + base) ((List.range len).map buf)).2 := by
  rcases hw : romflashPagesWrite (halFlashLock fl) (addr + base) ((List.range len).map buf)
    with ⟨b, fl1⟩
  unfold cleanAndWrite
  cases b with
  | true =>
    simp only [romflashCleanPages_null fl addr h, hw]
    exact ⟨iff_of_false nofun nofun, trivial⟩
  | false =>
    simp only [romflashCleanPages_null fl addr h, hw]
    exact ⟨trivial, trivial⟩

/-- **One frame** with a wrong header -/
theorem refused_iff (fl : Flash) (f : DataFrame) (h : Foreign f) :
    Refused fl f ↔ acceptedCalls fl.hal fl.calls f.decoded.length < f.decoded.length ∧
      ∀ j < acceptedCalls fl.hal fl.calls f.decoded.length,
        fl.mem (applicationAddress + vectorLen + j) &&& f.decoded.buf j
          = fl.mem (applicationAddress + vectorLen + j) := by
  have hnull : getSector f.decoded.addr = flashSectorNull := by
    rw [h.1]
    exact getSector_of_lt _ (by decide)
  obtain ⟨herr, hfl⟩ := cleanAndWrite_null fl applicationAddress f.decoded.addr f.decoded.buf
    f.decoded.length hnull
  have hidle := romflashPagesWrite_idle (halFlashLock fl) (f.decoded.addr + applicationAddress)
    ((List.range f.decoded.length).map f.decoded.buf)
  unfold Refused frameStep
  rw [receivePackage_frame, lanFunDoPackage_frame]
  show some _ = some NetStatus.err ∧ (cleanAndWrite _ _ _ _ _).2.mem = fl.mem ↔ _
  rw [Option.some_inj, herr, hfl]
  refine hidle.trans ?_
  rw [List.length_map, List.length_range]
  refine and_congr_right fun hk => ?_
  change acceptedCalls fl.hal fl.calls _ < _ at hk
  show program fl.mem (record _ (List.take (acceptedCalls fl.hal fl.calls _) _)) = fl.mem ↔ _
  rw [← List.map_take, List.take_range, Nat.min_eq_left (Nat.le_of_lt hk), program_range_eq_self, h.1,
    Nat.add_comm vectorLen]
  exact Iff.rfl

/-- **The file header.**  In every sequence of data frames, those with a wrong header are refused
iff the HAL refuses each of them before a bit has been cleared. -/
theorem foreignRefused_iff (fl : Flash) (fs : List DataFrame) :
    Along frameStep ForeignRefused fl fs ↔ Along frameStep FlashRefuses fl fs :=
  Along_congr (fun fl f => imp_congr_right fun h => refused_iff fl f h) fl fs

/-- sixteen zero bytes for the page at `VectorLen` -/
def blankHeader : Package := ⟨proStx, progFileDat, 4, 0, proMsgid, List.replicate 16 0, by decide, by decide⟩

def blankHeaderFrame : DataFrame where
  src := encodePackage blankHeader
  lan := uniformLan 0xFF
  accepted := by rw [decodeOk_encode]
  data := by rw [decodeOk_encode]; rfl

/-- the frame is acknowledged and programmed -/
theorem blankHeader_programmed :
    Foreign blankHeaderFrame ∧
    (receivePackage (uniformFlash 0xFF) blankHeaderFrame.lan blankHeaderFrame.src).1 = some .ack ∧
    (frameStep (uniformFlash 0xFF) blankHeaderFrame).mem (applicationAddress + vectorLen) = 0 ∧
    ¬ Along frameStep ForeignRefused (uniformFlash 0xFF) [blankHeaderFrame] := by
  have hforeign : Foreign blankHeaderFrame := by
    unfold Foreign DataFrame.decoded blankHeaderFrame
    rw [decodeOk_encode]
    decide
  have hack : (receivePackage (uniformFlash 0xFF) blankHeaderFrame.lan blankHeaderFrame.src).1
      = some .ack := by decide +kernel
  have hmem : (frameStep (uniformFlash 0xFF) blankHeaderFrame).mem (applicationAddress + vectorLen)
      = 0 := by decide +kernel
  refine ⟨hforeign, hack, hmem, fun h => ?_⟩
  exact absurd (hack.symm.trans (h.1 hforeign).1) (by decide)

end MenuFirmware
