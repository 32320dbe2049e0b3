import MenuFirmware.Config.Device

/-!
# Saving and loading the configuration (`meau_flash.c`)

`Write2Flash` erases sector 11 and programs the thirteen records and the `RESTORE` marker;
`ReadFlash2Arr` reads them back, or rebuilds them from the defaults when the marker is `0x00`;
`Read_Flash_IP_MAC` and `config_env_init` run before it at boot and start the network stack.

* `layout_nodup`         no two bytes of the records and the marker share an address;
* `saveOps c`            the flash operations of a save; `write2Flash_flash`: it performs these;
* `Holds m c b`          a memory holds the records of `c` and the marker `b`;
* `Holds_saveOps`        after a save the memory holds what was saved;
* `readFlash2Arr_one`, `readFlash2Arr_zero`, `readFlash2Arr_other`  loading, by marker;
* `boot`                 the readers in the order of `HardWare_Init`.
-/

set_option linter.unusedSectionVars false
set_option linter.unusedVariables false

namespace MenuFirmware
open Nor

/-! ## the code -/

/-- `romflash_pages_write` of every array of `c`, in order -/
def writeRecords (fl : Flash) (c : Config) : Flash :=
  Arr.all.foldl (fun fl a => (romflashPagesWrite fl a.addr (c.buf a)).2) fl

/-- `romflash_pages_read` of every array -/
def readRecords (fl : Flash) : Config := fun a => romflashPagesRead fl a.addr a.num

def readRestore (fl : Flash) : UInt8 := romflashPagesRead fl restoreNumAddr restoreNum 0

def Dev.setArr (d : Dev) (a : Arr) (f : Fin a.num → UInt8) : Dev :=
  { d with arr := Function.update d.arr a f }

/-- `romflash_pages_read` into one array -/
def Dev.readArr (d : Dev) (a : Arr) : Dev := d.setArr a (romflashPagesRead d.flash a.addr a.num)

/-- the calls that `Write2Flash` and the restore branch of `ReadFlash2Arr` share: erase the
sector, write all records, write the marker -/
def saveFlash (fl : Flash) (c : Config) : Flash :=
  let fl := (romflashCleanPages fl addrFlashSector11).2
  let fl := writeRecords fl c
  (romflashPagesWrite fl restoreNumAddr [0x01]).2

def write2Flash (d : Dev) : Dev :=
  updateUserArr { d with flash := saveFlash d.flash d.arr, restore := 0x01 }

/-- the marker that asks the next boot for the defaults -/
def restoreFlash (d : Dev) : Dev :=
  { d with flash := (romflashPagesWrite d.flash restoreNumAddr [0x00]).2 }

def readFlashIpMac (d : Dev) : Dev :=
  let restore := readRestore d.flash
  let d :=
    if restore = 0x00 then d.setArr .ip (defaultArr .ip)
    else if restore = 0x01 then d.readArr .ip
    else d
  { d.readArr .mac with restore := restore }

/-- the buffers that the restore branch of `ReadFlash2Arr` writes: the features from RAM, all
other records from the `Default_*` arrays, the MAC address among them -/
def restoreRecords (ram : Config) : Config
  | .grp .systemFeature => ram Group.systemFeature
  | a => defaultArr a

def readFlash2Arr (d : Dev) : UInt8 × Dev :=
  let restore := readRestore d.flash
  if restore = 0x00 then
    -- the features and the MAC address are kept in RAM across the erase
    let d := (d.readArr Group.systemFeature).readArr .mac
    let fl := saveFlash d.flash (restoreRecords d.arr)
    (0x01, updateUserArr { d with flash := fl, restore := 0x01, arr := readRecords fl })
  else if restore = 0x01 then
    (0x01, updateUserArr { d with restore := 0x01, arr := readRecords d.flash })
  else (restore, updateUserArr { d with restore := restore })

def loadFactoryIpPar (d : Dev) : NetPar where
  ip := d.arr .ip
  netmask := ![255, 255, 255, 0]
  gateway := ![192, 168, 0, 1]
  mac := d.arr .mac
  port := 0x5004

def configEnvInit (d : Dev) : Dev := { d with netPar := loadFactoryIpPar d }

/-- `HardWare_Init`: the network identity first, the settings later -/
def boot (d : Dev) : Dev := (readFlash2Arr (configEnvInit (readFlashIpMac d))).2

/-! ## the layout -/

def Config.cells (c : Config) : List (Nat × UInt8) := Arr.all.flatMap fun a => record a.addr (c.buf a)

def layout : List Nat := Arr.all.flatMap fun a => List.range' a.addr a.num

theorem layout_nodup : (layout ++ [restoreNumAddr]).Nodup := by decide +kernel

theorem cells_fst (c : Config) : c.cells.map Prod.fst = layout := by
  unfold Config.cells layout
  rw [List.map_flatMap]
  apply List.flatMap_congr
  intro a _
  rw [record_fst, Config.buf_length]

/-- the cells of a save, marker last -/
def saveCells (c : Config) : List (Nat × UInt8) := c.cells ++ [(restoreNumAddr, 0x01)]

theorem saveCells_nodup (c : Config) : ((saveCells c).map Prod.fst).Nodup := by
  unfold saveCells
  rw [List.map_append, cells_fst]
  exact layout_nodup

theorem record_subset_saveCells (c : Config) (a : Arr) :
    record a.addr (List.ofFn (c a)) ⊆ saveCells c := by
  intro p hp
  exact List.mem_append_left _ (List.mem_flatMap.2 ⟨a, a.mem_all, hp⟩)

/-- every record and the marker lie inside sector 11 -/
theorem layout_in_sector (x : Nat) (h : x ∈ layout ++ [restoreNumAddr]) :
    addrFlashSector11 ≤ x ∧ x < addrFlashSector11 + 0x40000 := by
  have hall : ∀ y ∈ layout ++ [restoreNumAddr],
      addrFlashSector11 ≤ y ∧ y < addrFlashSector11 + 0x40000 := by decide +kernel
  exact hall x h

/-! ## what a save does to the flash -/

/-- the flash operations of a save -/
def saveOps (c : Config) : List FlashOp := .erase 11 :: programOps (saveCells c)

theorem getSector_eleven : getSector addrFlashSector11 = 11 := by decide

theorem writeRecords_after (fl : Flash) (ops : List FlashOp) (c : Config) (h : fl.AllOk) :
    writeRecords (fl.after ops) c = fl.after (ops ++ programOps c.cells) := by
  have hl : ∀ l : List Arr, ∀ ops : List FlashOp,
      l.foldl (fun fl a => (romflashPagesWrite fl a.addr (c.buf a)).2) (fl.after ops)
        = fl.after (ops ++ programOps (l.flatMap fun a => record a.addr (c.buf a))) := by
    intro l
    induction l with
    | nil =>
      intro ops
      rw [List.flatMap_nil, programOps_nil, List.append_nil]
      rfl
    | cons a l ih =>
      intro ops
      rw [List.foldl_cons, romflashPagesWrite_allOk _ _ _ ((Flash.after_allOk fl ops).2 h),
        Flash.after_after, ih, List.append_assoc, List.flatMap_cons, programOps_append]
  exact hl Arr.all ops

theorem saveFlash_allOk (fl : Flash) (c : Config) (h : fl.AllOk) :
    saveFlash fl c = fl.after (saveOps c) := by
  have hs : getSector addrFlashSector11 ≠ flashSectorNull := by decide
  show (romflashPagesWrite (writeRecords (romflashCleanPages fl addrFlashSector11).2 c)
    restoreNumAddr [0x01]).2 = _
  rw [romflashCleanPages_allOk fl _ h hs, getSector_eleven, writeRecords_after fl _ c h,
    romflashPagesWrite_allOk _ _ _ ((Flash.after_allOk fl _).2 h), Flash.after_after]
  show fl.after (.erase 11 :: programOps c.cells ++ programOps [(restoreNumAddr, 0x01)]) = _
  rw [List.cons_append, ← programOps_append]
  rfl

section
variable (d : Dev)

theorem write2Flash_flash : (write2Flash d).flash = saveFlash d.flash d.arr := by
  rw [write2Flash, updateUserArr_flash]
@[simp] theorem write2Flash_arr : (write2Flash d).arr = d.arr := by
  rw [write2Flash, updateUserArr_arr]
@[simp] theorem write2Flash_menu : (write2Flash d).menu = d.menu := by
  rw [write2Flash, updateUserArr_menu]
@[simp] theorem write2Flash_fpga : (write2Flash d).fpga = d.fpga := by
  rw [write2Flash, updateUserArr_fpga]

end

/-! ## what a memory holds -/

/-- the records of `c` and the marker `b` -/
structure Holds (m : Mem UInt8) (c : Config) (b : UInt8) : Prop where
  records : ∀ a : Arr, read m a.addr a.num = c a
  marker : m restoreNumAddr = b

theorem Holds.readRecords_eq {fl : Flash} {c : Config} {b : UInt8} (h : Holds fl.mem c b) :
    readRecords fl = c := funext h.records

/-- the memory right after the erase of a save -/
def erased (m : Mem UInt8) : Mem UInt8 := erase m addrFlashSector11 (addrFlashSector11 + 0x40000)

theorem erased_blank (m : Mem UInt8) (x : Nat) (h : x ∈ layout ++ [restoreNumAddr]) :
    erased m x = 0xFF := erase_inside m _ _ x (layout_in_sector x h)

theorem mem_layout (a : Arr) (i : Fin a.num) : a.addr + i ∈ layout ++ [restoreNumAddr] := by
  apply List.mem_append_left
  refine List.mem_flatMap.2 ⟨a, a.mem_all, ?_⟩
  rw [List.mem_range'_1]
  omega

theorem replay_saveOps (m : Mem UInt8) (c : Config) :
    replay m (saveOps c) = program (erased m) (saveCells c) := by
  unfold saveOps
  rw [replay_cons, replay_programOps]
  rfl

/-- **A save.**  Whatever the flash held before, afterwards it holds what was saved. -/
theorem Holds_saveOps (m : Mem UInt8) (c : Config) : Holds (replay m (saveOps c)) c 0x01 := by
  rw [replay_saveOps]
  constructor
  · intro a
    apply read_program_record _ _ _ _ (saveCells_nodup c) (record_subset_saveCells c a)
    intro i
    exact erased_blank m _ (mem_layout a i)
  · have hm : (restoreNumAddr, (0x01 : UInt8)) ∈ saveCells c :=
      List.mem_append_right _ (List.mem_singleton.2 rfl)
    rw [program_mem _ _ _ _ hm (saveCells_nodup c), erased_blank m _ (by simp)]
    rfl

/-! ## what a load does -/

theorem Holds.readRestore_eq {fl : Flash} {c : Config} {b : UInt8} (h : Holds fl.mem c b) :
    readRestore fl = b := h.marker

theorem readFlash2Arr_one (d : Dev) (c : Config) (h : Holds d.flash.mem c 0x01) :
    readFlash2Arr d = (0x01, updateUserArr { d with restore := 0x01, arr := c }) := by
  have hr : readRestore d.flash = 0x01 := h.readRestore_eq
  unfold readFlash2Arr
  rw [if_neg (by rw [hr]; decide), if_pos hr, h.readRecords_eq]

theorem readFlash2Arr_other (d : Dev) (h0 : readRestore d.flash ≠ 0x00)
    (h1 : readRestore d.flash ≠ 0x01) :
    readFlash2Arr d = (readRestore d.flash,
      updateUserArr { d with restore := readRestore d.flash }) := by
  unfold readFlash2Arr
  rw [if_neg h0, if_neg h1]

theorem setArr_arr (d : Dev) (a : Arr) (f : Fin a.num → UInt8) :
    (d.setArr a f).arr = Function.update d.arr a f := rfl
theorem setArr_flash (d : Dev) (a : Arr) (f : Fin a.num → UInt8) :
    (d.setArr a f).flash = d.flash := rfl
theorem readArr_flash (d : Dev) (a : Arr) : (d.readArr a).flash = d.flash := rfl
theorem readArr_self (d : Dev) (a : Arr) : (d.readArr a).arr a = read d.flash.mem a.addr a.num :=
  Function.update_self ..
theorem readArr_of_ne (d : Dev) (a b : Arr) (h : b ≠ a) : (d.readArr a).arr b = d.arr b :=
  Function.update_of_ne h ..

theorem restoreRecords_feature (c c' : Config)
    (h : c Group.systemFeature = c' Group.systemFeature) : restoreRecords c = restoreRecords c' := by
  funext a
  cases a with
  | grp g => cases g <;> first | exact h | rfl
  | ip => rfl
  | mac => rfl
  | utcOffset => rfl

/-- the restore branch: the stored features stay, everything else becomes the default, in RAM and
in flash -/
theorem readFlash2Arr_zero (d : Dev) (c : Config) (hok : d.flash.AllOk)
    (h : Holds d.flash.mem c 0x00) :
    readFlash2Arr d = (0x01, updateUserArr
      { d with flash := d.flash.after (saveOps (restoreRecords c)), restore := 0x01,
               arr := restoreRecords c }) := by
  have hr : readRestore d.flash = 0x00 := h.readRestore_eq
  have hf : restoreRecords ((d.readArr Group.systemFeature).readArr .mac).arr
      = restoreRecords c := by
    apply restoreRecords_feature
    rw [readArr_of_ne _ _ _ (by decide), readArr_self]
    exact h.records Group.systemFeature
  have hh : Holds (d.flash.after (saveOps (restoreRecords c))).mem (restoreRecords c) 0x01 := by
    rw [Flash.after_mem]
    exact Holds_saveOps d.flash.mem (restoreRecords c)
  unfold readFlash2Arr
  rw [if_pos hr]
  simp only [readArr_flash, hf, saveFlash_allOk d.flash _ hok, hh.readRecords_eq]
  rfl

/-! ## the reader of the network identity -/

theorem readFlashIpMac_flash (d : Dev) : (readFlashIpMac d).flash = d.flash := by
  unfold readFlashIpMac
  by_cases h0 : readRestore d.flash = 0x00
  · simp only [h0, if_true, readArr_flash, setArr_flash]
  · by_cases h1 : readRestore d.flash = 0x01
    · have h10 : (0x01 : UInt8) ≠ 0x00 := by decide
      simp only [h1, if_neg h10, if_true, readArr_flash]
    · simp only [if_neg h0, if_neg h1, readArr_flash]

theorem readFlashIpMac_zero (d : Dev) (c : Config) (h : Holds d.flash.mem c 0x00) :
    (readFlashIpMac d).arr = Function.update (Function.update d.arr .ip (defaultArr .ip))
      .mac (c .mac) := by
  have hr : readRestore d.flash = 0x00 := h.readRestore_eq
  have hm : romflashPagesRead d.flash Arr.mac.addr Arr.mac.num = c .mac := h.records .mac
  unfold readFlashIpMac Dev.readArr
  simp only [hr, if_true, setArr_flash, hm, setArr_arr]

theorem readFlashIpMac_one (d : Dev) (c : Config) (h : Holds d.flash.mem c 0x01) :
    (readFlashIpMac d).arr = Function.update (Function.update d.arr .ip (c .ip)) .mac (c .mac) := by
  have hr : readRestore d.flash = 0x01 := h.readRestore_eq
  have hi : romflashPagesRead d.flash Arr.ip.addr Arr.ip.num = c .ip := h.records .ip
  have hm : romflashPagesRead d.flash Arr.mac.addr Arr.mac.num = c .mac := h.records .mac
  have h10 : (0x01 : UInt8) ≠ 0x00 := by decide
  unfold readFlashIpMac Dev.readArr
  simp only [hr, if_neg h10, if_true, setArr_flash, hi, hm, setArr_arr]

/-- with a marker that is neither, the IP address stays and the MAC address is read all the same -/
theorem readFlashIpMac_other (d : Dev) (h0 : readRestore d.flash ≠ 0x00)
    (h1 : readRestore d.flash ≠ 0x01) :
    (readFlashIpMac d).arr = Function.update d.arr .mac (read d.flash.mem Arr.mac.addr Arr.mac.num) := by
  unfold readFlashIpMac
  simp only [if_neg h0, if_neg h1]
  rfl

/-! ## the boot sequence, by marker -/

theorem configEnvInit_flash (d : Dev) : (configEnvInit d).flash = d.flash := rfl

/-- the boot of a device whose flash holds `c` -/
theorem boot_one (d : Dev) (c : Config) (h : Holds d.flash.mem c 0x01) :
    (boot d).arr = c ∧ (boot d).restore = 0x01 ∧ (boot d).flash = d.flash ∧
      (boot d).netPar.ip = c .ip ∧ (boot d).netPar.mac = c .mac := by
  have hfl := readFlashIpMac_flash d
  have he := readFlash2Arr_one (configEnvInit (readFlashIpMac d)) c (by rwa [configEnvInit_flash, hfl])
  have hb : boot d = _ := congrArg Prod.snd he
  have harr := readFlashIpMac_one d c h
  refine ⟨?_, ?_, ?_, ?_, ?_⟩
  · rw [hb, updateUserArr_arr]
  · rw [hb, updateUserArr_restore]
  · rw [hb, updateUserArr_flash, configEnvInit_flash, hfl]
  · rw [hb, updateUserArr_netPar]
    show (readFlashIpMac d).arr .ip = c .ip
    rw [harr, Function.update_of_ne (by decide), Function.update_self]
  · rw [hb, updateUserArr_netPar]
    show (readFlashIpMac d).arr .mac = c .mac
    rw [harr, Function.update_self]

/-- the boot that restores the defaults -/
theorem boot_zero (d : Dev) (c : Config) (hok : d.flash.AllOk) (h : Holds d.flash.mem c 0x00) :
    (boot d).arr = restoreRecords c ∧ (boot d).restore = 0x01 ∧
      Holds (boot d).flash.mem (restoreRecords c) 0x01 ∧
      (boot d).netPar.ip = defaultArr .ip ∧ (boot d).netPar.mac = c .mac := by
  have hfl := readFlashIpMac_flash d
  have he := readFlash2Arr_zero (configEnvInit (readFlashIpMac d)) c
    (by rwa [configEnvInit_flash, hfl]) (by rwa [configEnvInit_flash, hfl])
  have hb : boot d = _ := congrArg Prod.snd he
  have harr := readFlashIpMac_zero d c h
  refine ⟨?_, ?_, ?_, ?_, ?_⟩
  · rw [hb, updateUserArr_arr]
  · rw [hb, updateUserArr_restore]
  · rw [hb, updateUserArr_flash, Flash.after_mem]
    exact Holds_saveOps _ _
  · rw [hb, updateUserArr_netPar]
    show (readFlashIpMac d).arr .ip = defaultArr .ip
    rw [harr, Function.update_of_ne (by decide), Function.update_self]
  · rw [hb, updateUserArr_netPar]
    show (readFlashIpMac d).arr .mac = c .mac
    rw [harr, Function.update_self]

/-- the boot from a flash whose marker is neither `0x00` nor `0x01` -/
theorem boot_other (d : Dev) (h0 : readRestore d.flash ≠ 0x00) (h1 : readRestore d.flash ≠ 0x01) :
    (boot d).arr = Function.update d.arr .mac (read d.flash.mem Arr.mac.addr Arr.mac.num) := by
  have hfl := readFlashIpMac_flash d
  have he := readFlash2Arr_other (configEnvInit (readFlashIpMac d))
    (by rwa [configEnvInit_flash, hfl]) (by rwa [configEnvInit_flash, hfl])
  have hb : boot d = _ := congrArg Prod.snd he
  rw [hb, updateUserArr_arr]
  exact readFlashIpMac_other d h0 h1

/-! ## reset -/

/-- RAM after a reset holds the C initialisers; the flash, the pins and the FPGA keep their state
(the menu fields are set by `Arr_Init` before anything reads them) -/
def powerOn (d : Dev) : Dev :=
  { d with arr := defaultArr, restore := 0x01, userArr := fun _ => 0, updateFlashFlag := false,
           statusFlag := 2, fwRegNum := fun _ => 0, reStart := false }

/-! ## the round trip -/

/-- address and length of everything a save writes -/
def records : List (Nat × Nat) :=
  Arr.all.map (fun a => (a.addr, a.num)) ++ [(restoreNumAddr, restoreNum)]

theorem saveCells_fst (c : Config) :
    (saveCells c).map Prod.fst = records.flatMap fun p => List.range' p.1 p.2 := by
  unfold saveCells records
  rw [List.map_append, cells_fst, List.flatMap_append, List.flatMap_map]
  rfl

/-- **Round trip.**  A save followed by a load, with any RAM at the reader and any flash content
before, restores all thirteen arrays byte for byte and reads the marker as `0x01`; what the save
programs are exactly the bytes of `records`, and no two of these overlap. -/
theorem write2Flash_readFlash2Arr (d ram : Dev) (h : d.flash.AllOk) :
    (readFlash2Arr { ram with flash := (write2Flash d).flash }).2.arr = d.arr ∧
    (readFlash2Arr { ram with flash := (write2Flash d).flash }).1 = 0x01 ∧
    (readFlash2Arr { ram with flash := (write2Flash d).flash }).2.restore = 0x01 ∧
    (∃ cells, (write2Flash d).flash.done
        = d.flash.done ++ FlashOp.erase 11 :: programOps cells ∧
      cells.map Prod.fst = records.flatMap fun p => List.range' p.1 p.2) ∧
    records.Pairwise Apart := by
  have hfl : (write2Flash d).flash = d.flash.after (saveOps d.arr) := by
    rw [write2Flash_flash, saveFlash_allOk d.flash d.arr h]
  have hh : Holds (write2Flash d).flash.mem d.arr 0x01 := by
    rw [hfl, Flash.after_mem]
    exact Holds_saveOps d.flash.mem d.arr
  have hload := readFlash2Arr_one { ram with flash := (write2Flash d).flash } d.arr hh
  refine ⟨?_, ?_, ?_, ⟨saveCells d.arr, ?_, saveCells_fst d.arr⟩, ?_⟩
  · rw [hload, updateUserArr_arr]
  · rw [hload]
  · rw [hload, updateUserArr_restore]
  · rw [hfl, Flash.after_done, saveOps]
  · decide +kernel

/-- a device with a blank flash and a HAL that always succeeds -/
def blankDev : Dev where
  flash := ⟨fun _ => 0xFF, true, fun _ => .ok, 0, []⟩
  arr := defaultArr
  restore := 0x01
  menu := fun g => defaultArr g
  userArr := fun _ => 0
  updateFlashFlag := false
  statusFlag := 2
  fwRegNum := fun _ => 0
  hw := 0
  fpga := fun _ => 0
  netPar := ⟨fun _ => 0, fun _ => 0, fun _ => 0, fun _ => 0, 0⟩
  reStart := false

theorem blankDev_allOk : blankDev.flash.AllOk := fun _ => rfl

/-- a device that holds the configuration `c`, in RAM and in flash -/
def savedDev (c : Config) : Dev :=
  { blankDev with flash := blankDev.flash.after (saveOps c), arr := c }

theorem savedDev_flash (c : Config) : (savedDev c).flash = blankDev.flash.after (saveOps c) := by
  rw [savedDev]

theorem savedDev_holds (c : Config) : Holds (savedDev c).flash.mem c 0x01 := by
  rw [savedDev_flash, Flash.after_mem]
  exact Holds_saveOps blankDev.flash.mem c

/-- the defaults, but for an IP address that ends in `01` -/
def storedIp : Config :=
  Function.update defaultArr .ip (Function.update (defaultArr .ip) ⟨3, by decide⟩ 0x01)

theorem storedIp_mac : storedIp .mac = defaultArr .mac :=
  Function.update_of_ne (by decide) _ _

/-- the defaults are in flash, another configuration is saved over them, and read where the RAM holds
the defaults -/
theorem write2Flash_readFlash2Arr_used :
    (readFlash2Arr { savedDev defaultArr with
      flash := (write2Flash { savedDev defaultArr with arr := storedIp }).flash }).2.arr = storedIp :=
  (write2Flash_readFlash2Arr { savedDev defaultArr with arr := storedIp } (savedDev defaultArr)
    blankDev_allOk).1

end MenuFirmware
