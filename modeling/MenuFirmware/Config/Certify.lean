import MenuFirmware.Config.Store
import MenuFirmware.Flash.Refusal

/-!
# Saves that the HAL refuses in part

`Write2Flash` makes 68 calls of the HAL if none is refused: the erase, 66 bytes of records, the
marker.  It looks at no result.  A record whose write stops early is cut off there, and the next
one is written all the same; after an erase that is refused everything is programmed on top of the
old records.

* `saveWritten`        the cells that a save programs, for a pattern of refusals;
* `saveFlash_cell`     what a cell of the save holds afterwards;
* `MarkerTrue`         the marker ends as `0x01` only where every byte of the records ends right;
* `SaveCertifies`      the marker vouches for the records, and each call leaves the flash locked;
* `write2Flash_certifies_iff`  that is so iff none of the 68 calls is refused; for the marker alone
                       iff `MarkerTrue`.
-/

namespace MenuFirmware
open Nor

/-! ## the cells that are programmed -/

/-- the cells of the arrays `l`, when the writes begin with the `n`-th call of the HAL -/
def writtenCells (hal : Nat → HalStatus) (c : Config) : Nat → List Arr → List (Nat × UInt8)
  | _, [] => []
  | n, a :: l =>
    record a.addr ((c.buf a).take (acceptedCalls hal n a.num)) ++
      writtenCells hal c (nextCall hal n a.num) l

/-- the number of the call after the arrays `l` -/
def callsAfter (hal : Nat → HalStatus) : Nat → List Arr → Nat
  | n, [] => n
  | n, a :: l => callsAfter hal (nextCall hal n a.num) l

/-- the memory that the records are programmed on, when the erase is the `n`-th call -/
def saveBase (hal : Nat → HalStatus) (n : Nat) (m : Mem UInt8) : Mem UInt8 :=
  if hal n = .ok then erased m else m

/-- the cells that a save programs whose erase is the `n`-th call -/
def saveWritten (hal : Nat → HalStatus) (n : Nat) (c : Config) : List (Nat × UInt8) :=
  writtenCells hal c (n + 1) Arr.all ++
    if hal (callsAfter hal (n + 1) Arr.all) = .ok then [(restoreNumAddr, 0x01)] else []

section
variable {hal : Nat → HalStatus} (c : Config)

/-- the records, each perhaps cut off -/
theorem writtenCells_sublist (n : Nat) (l : List Arr) :
    List.Sublist (writtenCells hal c n l) (l.flatMap fun a => record a.addr (c.buf a)) := by
  induction l generalizing n with
  | nil => exact List.nil_sublist _
  | cons a l ih =>
    rw [List.flatMap_cons]
    apply List.Sublist.append _ (ih _)
    conv_rhs => rw [← List.take_append_drop (acceptedCalls hal n a.num) (c.buf a), record_append]
    exact List.sublist_append_left _ _

theorem saveWritten_sublist (n : Nat) : List.Sublist (saveWritten hal n c) (saveCells c) := by
  apply List.Sublist.append (writtenCells_sublist c (n + 1) Arr.all)
  by_cases h : hal (callsAfter hal (n + 1) Arr.all) = .ok
  · rw [if_pos h]
  · rw [if_neg h]
    exact List.nil_sublist _

end

/-! ## what the save does -/

/-- the writes of the arrays `l` -/
theorem recordWrites_spec (fl : Flash) (c : Config) (l : List Arr) :
    (l.foldl (fun fl a => (romflashPagesWrite fl a.addr (c.buf a)).2) fl).mem
        = program fl.mem (writtenCells fl.hal c fl.calls l) ∧
      (l.foldl (fun fl a => (romflashPagesWrite fl a.addr (c.buf a)).2) fl).calls
        = callsAfter fl.hal fl.calls l ∧
      (l.foldl (fun fl a => (romflashPagesWrite fl a.addr (c.buf a)).2) fl).hal = fl.hal := by
  induction l generalizing fl with
  | nil => exact ⟨rfl, rfl, rfl⟩
  | cons a l ih =>
    obtain ⟨hm, hc, hh, _⟩ := romflashPagesWrite_spec fl a.addr (c.buf a)
    obtain ⟨hm', hc', hh'⟩ := ih (romflashPagesWrite fl a.addr (c.buf a)).2
    rw [Config.buf_length] at hm hc
    rw [hm, hh, hc] at hm'
    rw [hh, hc] at hc'
    rw [List.foldl_cons, writtenCells, program_append]
    exact ⟨hm', hc', hh'.trans hh⟩

/-- the erase and the records -/
def recordsFlash (fl : Flash) (c : Config) : Flash :=
  writeRecords (romflashCleanPages fl addrFlashSector11).2 c

theorem recordsFlash_spec (fl : Flash) (c : Config) :
    (recordsFlash fl c).mem
        = program (saveBase fl.hal fl.calls fl.mem) (writtenCells fl.hal c (fl.calls + 1) Arr.all) ∧
      (recordsFlash fl c).calls = callsAfter fl.hal (fl.calls + 1) Arr.all ∧
      (recordsFlash fl c).hal = fl.hal := by
  have hs : getSector addrFlashSector11 ≠ flashSectorNull := by decide
  obtain ⟨hm0, hc0, hh0, _⟩ := romflashCleanPages_spec fl addrFlashSector11 hs
  have h := recordWrites_spec (romflashCleanPages fl addrFlashSector11).2 c Arr.all
  rw [hm0, hc0, hh0, getSector_eleven] at h
  exact h

theorem saveFlash_eq (fl : Flash) (c : Config) :
    saveFlash fl c = (romflashPagesWrite (recordsFlash fl c) restoreNumAddr [0x01]).2 := rfl

theorem take_acceptedCalls_one (hal : Nat → HalStatus) (n : Nat) (b : UInt8) :
    [b].take (acceptedCalls hal n 1) = if hal n = .ok then [b] else [] := by
  by_cases h : hal n = .ok
  · rw [if_pos h, acceptedCalls_ok _ h]
    rfl
  · rw [if_neg h, acceptedCalls_refused _ h]
    rfl

theorem saveFlash_mem (fl : Flash) (c : Config) :
    (saveFlash fl c).mem =
      program (saveBase fl.hal fl.calls fl.mem) (saveWritten fl.hal fl.calls c) := by
  obtain ⟨hm, hc, hh⟩ := recordsFlash_spec fl c
  rw [saveFlash_eq, (romflashPagesWrite_spec _ _ _).1, hm, hc, hh, List.length_singleton,
    take_acceptedCalls_one, saveWritten, program_append]
  by_cases h : fl.hal (callsAfter fl.hal (fl.calls + 1) Arr.all) = .ok
  · rw [if_pos h, if_pos h, record_cons, record_nil]
  · rw [if_neg h, if_neg h, record_nil]

/-- what a cell holds after a save whose erase is the `n`-th call -/
def cellAfter (hal : Nat → HalStatus) (n : Nat) (m : Mem UInt8) (c : Config) (p : Nat × UInt8) :
    UInt8 :=
  if p ∈ saveWritten hal n c then saveBase hal n m p.1 &&& p.2 else saveBase hal n m p.1

theorem saveFlash_cell (fl : Flash) (c : Config) (p : Nat × UInt8) (hp : p ∈ saveCells c) :
    (saveFlash fl c).mem p.1 = cellAfter fl.hal fl.calls fl.mem c p := by
  have hsub : List.Sublist (saveWritten fl.hal fl.calls c) (saveCells c) :=
    saveWritten_sublist c fl.calls
  have hnd := saveCells_nodup c
  rw [saveFlash_mem]
  unfold cellAfter
  by_cases h : p ∈ saveWritten fl.hal fl.calls c
  · rw [if_pos h, program_mem _ _ p.1 p.2 h ((hsub.map Prod.fst).nodup hnd)]
    rfl
  · rw [if_neg h]
    apply program_outside
    intro hmem
    obtain ⟨q, hq, hqp⟩ := List.mem_map.1 hmem
    have hqe : q = p := List.inj_on_of_nodup_map hnd (hsub.subset hq) hp hqp
    exact h (hqe ▸ hq)

/-- the marker ends as `0x01` only where every byte of the records ends right -/
def MarkerTrue (hal : Nat → HalStatus) (n : Nat) (m : Mem UInt8) (c : Config) : Prop :=
  cellAfter hal n m c (restoreNumAddr, 0x01) = 0x01 →
    ∀ p ∈ c.cells, cellAfter hal n m c p = p.2

theorem records_iff (m : Mem UInt8) (c : Config) :
    (∀ a : Arr, read m a.addr a.num = c a) ↔ ∀ p ∈ c.cells, m p.1 = p.2 := by
  constructor
  · intro h p hp
    obtain ⟨a, _, hp⟩ := List.mem_flatMap.1 hp
    unfold Config.buf at hp
    rw [record_ofFn, List.mem_ofFn] at hp
    obtain ⟨i, rfl⟩ := hp
    exact congrFun (h a) i
  · intro h a
    funext i
    exact h (a.addr + i, c a i)
      (List.mem_flatMap.2 ⟨a, a.mem_all, mem_record_ofFn a.addr (c a) i⟩)

theorem marker_vouches_iff (fl : Flash) (c : Config) :
    ((saveFlash fl c).mem restoreNumAddr = 0x01 →
        ∀ a : Arr, read (saveFlash fl c).mem a.addr a.num = c a) ↔
      MarkerTrue fl.hal fl.calls fl.mem c := by
  have hp : (restoreNumAddr, (0x01 : UInt8)) ∈ saveCells c :=
    List.mem_append_right _ (List.mem_singleton.2 rfl)
  have hmark := saveFlash_cell fl c (restoreNumAddr, 0x01) hp
  simp only at hmark
  have hcells : (∀ p ∈ c.cells, (saveFlash fl c).mem p.1 = p.2) ↔
      ∀ p ∈ c.cells, cellAfter fl.hal fl.calls fl.mem c p = p.2 := by
    apply forall₂_congr
    intro p hp
    rw [saveFlash_cell fl c p (List.mem_append_left _ hp)]
  rw [records_iff, hcells, hmark, MarkerTrue]

/-! ## the register -/

/-- the flash at the return of each of the writes of the arrays `l` -/
def recordReturns (fl : Flash) (c : Config) : List Arr → List Flash
  | [] => []
  | a :: l =>
    (romflashPagesWrite fl a.addr (c.buf a)).2 ::
      recordReturns (romflashPagesWrite fl a.addr (c.buf a)).2 c l

/-- the flash at the return of each call that a save makes of `romflash.c` -/
def saveReturns (fl : Flash) (c : Config) : List Flash :=
  (romflashCleanPages fl addrFlashSector11).2 ::
    (recordReturns (romflashCleanPages fl addrFlashSector11).2 c Arr.all ++ [saveFlash fl c])

/-- the bytes of the arrays `l` -/
def bytesOf (l : List Arr) : Nat := l.foldr (fun a n => a.num + n) 0

theorem bytesOf_cons (a : Arr) (l : List Arr) : bytesOf (a :: l) = a.num + bytesOf l :=
  List.foldr_cons

theorem recordReturns_locked_iff (fl : Flash) (c : Config) (l : List Arr) :
    (∀ fl' ∈ recordReturns fl c l, fl'.locked = true) ↔
      AllAccepted fl.hal fl.calls (bytesOf l) := by
  induction l generalizing fl with
  | nil => exact ⟨fun _ => allAccepted_zero _ _, fun _ _ h => nomatch h⟩
  | cons a l ih =>
    obtain ⟨_, hc, hh, hlock⟩ := romflashPagesWrite_spec fl a.addr (c.buf a)
    rw [recordReturns, List.forall_mem_cons, ih, hlock, hc, hh, Config.buf_length, bytesOf_cons,
      allAccepted_add]
    apply and_congr_right
    intro h
    rw [nextCall_allAccepted _ h]

theorem callsAfter_allAccepted (hal : Nat → HalStatus) (n : Nat) (l : List Arr)
    (h : AllAccepted hal n (bytesOf l)) : callsAfter hal n l = n + bytesOf l := by
  induction l generalizing n with
  | nil => rfl
  | cons a l ih =>
    rw [bytesOf_cons, allAccepted_add] at h
    rw [callsAfter, nextCall_allAccepted _ h.1, ih _ h.2, bytesOf_cons, Nat.add_assoc]

theorem bytesOf_all : bytesOf Arr.all = 66 := by decide

/-- every call of a save leaves the flash locked iff none of its 68 calls of the HAL is refused -/
theorem saveReturns_locked_iff (fl : Flash) (c : Config) :
    (∀ fl' ∈ saveReturns fl c, fl'.locked = true) ↔ AllAccepted fl.hal fl.calls 68 := by
  have hs : getSector addrFlashSector11 ≠ flashSectorNull := by decide
  obtain ⟨_, hc0, hh0, hl0⟩ := romflashCleanPages_spec fl addrFlashSector11 hs
  obtain ⟨_, hc1, hh1⟩ := recordsFlash_spec fl c
  have h68 : 68 = 1 + (66 + 1) := rfl
  unfold saveReturns
  rw [List.forall_mem_cons, List.forall_mem_append, List.forall_mem_singleton, hl0,
    recordReturns_locked_iff, hc0, hh0, saveFlash_eq, romflashPagesWrite_locked_iff, hc1, hh1,
    List.length_singleton, allAccepted_one, h68, allAccepted_add, allAccepted_one,
    allAccepted_add, allAccepted_one, bytesOf_all]
  apply and_congr_right
  intro _
  apply and_congr_right
  intro h
  rw [callsAfter_allAccepted _ _ _ (bytesOf_all.symm ▸ h), bytesOf_all]

/-! ## the save as a whole -/

/-- the marker vouches for the records, and every call leaves the flash locked -/
def SaveCertifies (d : Dev) : Prop :=
  ((write2Flash d).flash.mem restoreNumAddr = 0x01 →
      ∀ a : Arr, read (write2Flash d).flash.mem a.addr a.num = (write2Flash d).arr a) ∧
    ∀ fl ∈ saveReturns d.flash d.arr, fl.locked = true

/-- what the HAL takes is written in full -/
theorem writtenCells_allAccepted {hal : Nat → HalStatus} (c : Config) {n : Nat} {l : List Arr}
    (h : AllAccepted hal n (bytesOf l)) :
    writtenCells hal c n l = l.flatMap fun a => record a.addr (c.buf a) := by
  induction l generalizing n with
  | nil => rfl
  | cons a l ih =>
    rw [bytesOf_cons, allAccepted_add] at h
    rw [writtenCells, nextCall_allAccepted _ h.1, ih h.2, acceptedCalls_allAccepted _ h.1,
      List.flatMap_cons, ← Config.buf_length c a, List.take_length]

theorem markerTrue_of_allAccepted {hal : Nat → HalStatus} {n : Nat} (m : Mem UInt8) (c : Config)
    (h : AllAccepted hal n 68) : MarkerTrue hal n m c := by
  have h68 : 68 = 1 + (bytesOf Arr.all + 1) := by decide
  rw [h68, allAccepted_add, allAccepted_one, allAccepted_add] at h
  obtain ⟨h0, hrec, _⟩ := h
  intro _ p hp
  have hw : p ∈ saveWritten hal n c := by
    unfold saveWritten
    rw [writtenCells_allAccepted c hrec]
    exact List.mem_append_left _ hp
  have hin : p.1 ∈ layout ++ [restoreNumAddr] :=
    List.mem_append_left _ (cells_fst c ▸ List.mem_map_of_mem hp)
  unfold cellAfter saveBase
  rw [if_pos hw, if_pos h0, erased_blank m _ hin]
  exact Cell.prog_blank p.2

/-- **What the marker is worth.**  Exactly when the HAL takes all 68 calls of a save does the marker
vouch for the records and every call leave the flash locked.  The marker alone can be trusted exactly
when `MarkerTrue`.  Each function of `romflash.c` locks the flash again exactly when the HAL refuses
none of its calls. -/
theorem write2Flash_certifies_iff (d : Dev) (fl : Flash) (addr : Nat) (buf : List UInt8)
    (dat : UInt8) :
    (SaveCertifies d ↔ AllAccepted d.flash.hal d.flash.calls 68) ∧
    (((write2Flash d).flash.mem restoreNumAddr = 0x01 →
        ∀ a : Arr, read (write2Flash d).flash.mem a.addr a.num = (write2Flash d).arr a) ↔
      MarkerTrue d.flash.hal d.flash.calls d.flash.mem d.arr) ∧
    ((romflashCleanPages fl addr).2.locked = true ↔
      getSector addr = flashSectorNull ∨ fl.hal fl.calls = .ok) ∧
    ((romflashPagesWrite fl addr buf).2.locked = true ↔
      AllAccepted fl.hal fl.calls buf.length) ∧
    ((romflashByteWrite fl addr dat).2.locked = true ↔ fl.hal fl.calls = .ok) := by
  refine ⟨?_, ?_, romflashCleanPages_locked_iff fl addr, romflashPagesWrite_locked_iff fl addr buf,
    romflashByteWrite_locked_iff fl addr dat⟩
  · unfold SaveCertifies
    rw [saveReturns_locked_iff, write2Flash_flash, write2Flash_arr, marker_vouches_iff]
    exact ⟨fun h => h.2, fun h => ⟨markerTrue_of_allAccepted _ _ h, h⟩⟩
  · rw [write2Flash_flash, write2Flash_arr]
    exact marker_vouches_iff d.flash d.arr

/-- a blank flash whose HAL refuses the second call, the first byte of the first record -/
def refusingFlash : Flash := ⟨fun _ => 0xFF, true, fun n => if n = 1 then .error else .ok, 0, []⟩

/-- the marker is set, the first record is not what RAM holds, and its write left the flash open -/
theorem write2Flash_certifies_refused :
    (write2Flash { blankDev with flash := refusingFlash }).flash.mem restoreNumAddr = 0x01 ∧
    (write2Flash { blankDev with flash := refusingFlash }).flash.mem enOrDisNumAddr
      ≠ defaultArr Group.systemFeature ⟨0, by decide⟩ ∧
    ((romflashPagesWrite (romflashCleanPages refusingFlash addrFlashSector11).2 enOrDisNumAddr
      (defaultArr.buf Group.systemFeature)).2.locked = false) := by
  rw [write2Flash_flash]
  refine ⟨?_, ?_, ?_⟩ <;> decide +kernel

end MenuFirmware
