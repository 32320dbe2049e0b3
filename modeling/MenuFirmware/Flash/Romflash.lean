import Mathlib.Data.List.GetD
import MenuFirmware.Lib.Nor

/-!
# The internal flash and `romflash.c`

The flash is a NOR memory behind the HAL.  A HAL call is carried out only while the control
register is unlocked and only when the HAL returns `HAL_OK`; what it returns is an oracle on the
number of the call.  `done` is the list of operations carried out so far, so that the flash that
survives a power failure is the replay of an initial part of it.

* `getSector`                 sector lookup by EXACT base address;
* `romflashCleanPages`        erase the sector that starts at an address;
* `romflashPagesWrite`        program a buffer byte by byte, up to the first failure;
* `romflashByteWrite`         program one byte;
* `romflashPagesRead`         read a buffer;
* `pagesWriteIndexed`         the same loop with its 16-bit index;
* `pagesWriteIndexed_eq`, `pagesWriteIndexed_endless`  it comes to its end, as above, for buffers of up
                              to 65535 bytes, and never for longer ones;
* `romflashPagesWrite_allOk`, `romflashCleanPages_allOk`  the effect when every HAL call succeeds.
-/

set_option linter.unusedSectionVars false
set_option linter.unusedVariables false

namespace MenuFirmware
open Nor

inductive HalStatus where
  | ok
  | error
  | busy
  | timeout
  deriving DecidableEq, Repr

/-! ## sectors (single bank) -/

/-- base addresses of the flash sectors 0 to 11 -/
def addrFlashSector : List Nat :=
  [0x08000000, 0x08008000, 0x08010000, 0x08018000, 0x08020000, 0x08040000, 0x08080000, 0x080C0000,
    0x08100000, 0x08140000, 0x08180000, 0x081C0000]

/-- sizes of the flash sectors 0 to 11 -/
def flashSectorSize : List Nat :=
  [0x8000, 0x8000, 0x8000, 0x8000, 0x20000, 0x40000, 0x40000, 0x40000, 0x40000, 0x40000, 0x40000,
    0x40000]

def flashSectorNull : Nat := 128

def getSector (addr : Nat) : Nat :=
  if addr ∈ addrFlashSector then addrFlashSector.idxOf addr else flashSectorNull

theorem getSector_of_lt (addr : Nat) (h : addr < 0x08000000) :
    getSector addr = flashSectorNull := by
  apply if_neg
  intro hm
  simp only [addrFlashSector, List.mem_cons, List.not_mem_nil, or_false] at hm
  omega

/-! ## operations of the flash controller -/

inductive FlashOp where
  | erase (sector : Nat)
  | program (addr : Nat) (dat : UInt8)
  deriving DecidableEq, Repr

def FlashOp.apply (m : Mem UInt8) : FlashOp → Mem UInt8
  | .erase s =>
    Nor.erase m (addrFlashSector.getD s 0) (addrFlashSector.getD s 0 + flashSectorSize.getD s 0)
  | .program a b => programCell m (a, b)

/-- the memory after a list of operations -/
def replay (m : Mem UInt8) (ops : List FlashOp) : Mem UInt8 := ops.foldl FlashOp.apply m

/-- programming the cells of a list -/
def programOps (l : List (Nat × UInt8)) : List FlashOp := l.map fun p => .program p.1 p.2

theorem replay_nil (m : Mem UInt8) : replay m [] = m := rfl
theorem replay_cons (m : Mem UInt8) (o : FlashOp) (ops : List FlashOp) :
    replay m (o :: ops) = replay (o.apply m) ops := rfl
theorem replay_append (m : Mem UInt8) (a b : List FlashOp) :
    replay m (a ++ b) = replay (replay m a) b := by
  simp [replay, List.foldl_append]

theorem programOps_nil : programOps [] = [] := rfl
theorem programOps_cons (p : Nat × UInt8) (l : List (Nat × UInt8)) :
    programOps (p :: l) = .program p.1 p.2 :: programOps l := rfl
theorem programOps_append (k l : List (Nat × UInt8)) :
    programOps (k ++ l) = programOps k ++ programOps l := List.map_append
theorem programOps_take (l : List (Nat × UInt8)) (n : Nat) :
    (programOps l).take n = programOps (l.take n) := List.map_take.symm
theorem programOps_length (l : List (Nat × UInt8)) : (programOps l).length = l.length :=
  List.length_map _

theorem replay_programOps (m : Mem UInt8) (l : List (Nat × UInt8)) :
    replay m (programOps l) = program m l := by
  induction l generalizing m with
  | nil => rfl
  | cons p l ih =>
    rw [programOps_cons, replay_cons, program_cons]
    exact ih _

/-! ## the HAL -/

structure Flash where
  mem : Mem UInt8
  /-- the `LOCK` bit of the control register -/
  locked : Bool
  /-- what the HAL returns for its `n`-th erase or program call -/
  hal : Nat → HalStatus
  calls : Nat
  /-- the operations carried out so far -/
  done : List FlashOp

def halFlashUnlock (fl : Flash) : Flash := { fl with locked := false }
def halFlashLock (fl : Flash) : Flash := { fl with locked := true }

/-- one erase or program call of the HAL -/
def halFlashOp (fl : Flash) (o : FlashOp) : HalStatus × Flash :=
  if fl.locked then (.error, fl)
  else match fl.hal fl.calls with
    | .ok => (.ok, { fl with mem := o.apply fl.mem, calls := fl.calls + 1, done := fl.done ++ [o] })
    | r => (r, { fl with calls := fl.calls + 1 })

/-! ## `romflash.c` -/

def romflashCleanPages (fl : Flash) (addr : Nat) : Bool × Flash :=
  let fl := halFlashUnlock fl
  let useSector := getSector addr
  if useSector = flashSectorNull then (true, halFlashLock fl)
  else match halFlashOp fl (.erase useSector) with
    | (.ok, fl) => (true, halFlashLock fl)
    | (_, fl) => (false, fl)

/-- the byte loop of `romflash_pages_write` -/
def pagesWriteLoop (fl : Flash) (addr : Nat) : List UInt8 → Bool × Flash
  | [] => (true, halFlashLock fl)
  | b :: buf =>
    match halFlashOp fl (.program addr b) with
    | (.ok, fl) => pagesWriteLoop fl (addr + 1) buf
    | (_, fl) => (false, fl)

/-- for a buffer of up to 65535 bytes -/
def romflashPagesWrite (fl : Flash) (suaddr : Nat) (buf : List UInt8) : Bool × Flash :=
  pagesWriteLoop (halFlashUnlock fl) suaddr buf

/-- the loop as it counts, with `uint16_t i` against `int len`: what it has returned after so many
turns -/
def pagesWriteIndexed (fl : Flash) (addr : Nat) (buf : List UInt8) (i : UInt16) :
    Nat → Option (Bool × Flash)
  | 0 => none
  | turns + 1 =>
    if i.toNat < buf.length then
      match halFlashOp fl (.program addr (buf.getD i.toNat 0)) with
      | (.ok, fl) => pagesWriteIndexed fl (addr + 1) buf (i + 1) turns
      | (_, fl) => some (false, fl)
    else some (true, halFlashLock fl)

def romflashByteWrite (fl : Flash) (addr : Nat) (dat : UInt8) : Bool × Flash :=
  match halFlashOp (halFlashUnlock fl) (.program addr dat) with
  | (.ok, fl) => (true, halFlashLock fl)
  | (_, fl) => (false, fl)

def romflashPagesRead (fl : Flash) (suaddr len : Nat) : Fin len → UInt8 := read fl.mem suaddr len

/-! ## one turn of the loop -/

theorem pagesWriteLoop_ok (fl : Flash) (addr : Nat) (b : UInt8) (buf : List UInt8)
    (hl : fl.locked = false) (h : fl.hal fl.calls = .ok) :
    pagesWriteLoop fl addr (b :: buf) =
      pagesWriteLoop { fl with
        mem := FlashOp.apply fl.mem (.program addr b)
        calls := fl.calls + 1
        done := fl.done ++ [.program addr b] } (addr + 1) buf := by
  rw [pagesWriteLoop, halFlashOp, hl, if_neg Bool.false_ne_true, h]

theorem pagesWriteLoop_refused (fl : Flash) (addr : Nat) (b : UInt8) (buf : List UInt8)
    (hl : fl.locked = false) (h : fl.hal fl.calls ≠ .ok) :
    pagesWriteLoop fl addr (b :: buf) = (false, { fl with calls := fl.calls + 1 }) := by
  rw [pagesWriteLoop, halFlashOp, hl, if_neg Bool.false_ne_true]
  cases hr : fl.hal fl.calls with
  | ok => exact absurd hr h
  | error => rw [← hl]
  | busy => rw [← hl]
  | timeout => rw [← hl]

/-! ## the index -/

/-- behind `i` bytes -/
theorem pagesWriteIndexed_drop {buf : List UInt8} (h : buf.length ≤ 65535) (turns : Nat) :
    ∀ (fl : Flash) (addr : Nat) (i : UInt16), i.toNat ≤ buf.length →
      buf.length < i.toNat + turns →
      pagesWriteIndexed fl addr buf i turns = some (pagesWriteLoop fl addr (buf.drop i.toNat)) := by
  induction turns with
  | zero => exact fun fl addr i hi ht => absurd ht (by omega)
  | succ turns ih =>
    intro fl addr i hi ht
    rw [pagesWriteIndexed]
    by_cases hlt : i.toNat < buf.length
    · have hnext : (i + 1).toNat = i.toNat + 1 := by
        rw [UInt16.toNat_add]
        exact Nat.mod_eq_of_lt (by rw [UInt16.toNat_one]; omega)
      have hdrop : buf.drop i.toNat = buf.getD i.toNat 0 :: buf.drop (i.toNat + 1) := by
        rw [List.getD_eq_getElem _ _ hlt]
        exact List.drop_eq_getElem_cons hlt
      rw [if_pos hlt, hdrop, pagesWriteLoop]
      rcases halFlashOp fl (.program addr (buf.getD i.toNat 0)) with ⟨r, fl1⟩
      cases r with
      | ok =>
        have hrest := ih fl1 (addr + 1) (i + 1) (by omega) (by omega)
        rw [hnext] at hrest
        exact hrest
      | error => rfl
      | busy => rfl
      | timeout => rfl
    · rw [if_neg hlt, List.drop_eq_nil_of_le (by omega)]
      rfl

/-- **The index** counts up to 65535 bytes. -/
theorem pagesWriteIndexed_eq (fl : Flash) (addr : Nat) {buf : List UInt8} (h : buf.length ≤ 65535)
    {turns : Nat} (ht : buf.length < turns) :
    pagesWriteIndexed (halFlashUnlock fl) addr buf 0 turns = some (romflashPagesWrite fl addr buf) :=
  pagesWriteIndexed_drop h turns _ addr 0 (Nat.zero_le _) (by rw [UInt16.toNat_zero]; omega)

/-! ## the calls when the HAL always succeeds -/

def Flash.AllOk (fl : Flash) : Prop := ∀ n, fl.hal n = .ok

/-- the flash after the operations `ops` have been carried out and the register locked again -/
def Flash.after (fl : Flash) (ops : List FlashOp) : Flash :=
  { fl with mem := replay fl.mem ops, locked := true, calls := fl.calls + ops.length,
            done := fl.done ++ ops }

theorem Flash.after_mem (fl : Flash) (ops : List FlashOp) :
    (fl.after ops).mem = replay fl.mem ops := rfl
theorem Flash.after_done (fl : Flash) (ops : List FlashOp) :
    (fl.after ops).done = fl.done ++ ops := rfl
theorem Flash.after_allOk (fl : Flash) (ops : List FlashOp) :
    (fl.after ops).AllOk ↔ fl.AllOk := Iff.rfl
theorem Flash.after_after (fl : Flash) (a b : List FlashOp) :
    (fl.after a).after b = fl.after (a ++ b) := by
  simp [Flash.after, replay_append, Nat.add_assoc]

theorem halFlashOp_allOk (fl : Flash) (o : FlashOp) (h : fl.AllOk) (hl : fl.locked = false) :
    halFlashOp fl o = (.ok, { fl with mem := o.apply fl.mem, calls := fl.calls + 1,
                                      done := fl.done ++ [o] }) := by
  unfold halFlashOp
  rw [hl, if_neg Bool.false_ne_true, h fl.calls]

theorem pagesWriteLoop_allOk (fl : Flash) (addr : Nat) (buf : List UInt8) (h : fl.AllOk)
    (hl : fl.locked = false) :
    pagesWriteLoop fl addr buf = (true, fl.after (programOps (record addr buf))) := by
  induction buf generalizing fl addr with
  | nil => simp [pagesWriteLoop, halFlashLock, Flash.after, record_nil, programOps, replay]
  | cons b buf ih =>
    have ih1 := ih { fl with mem := FlashOp.apply fl.mem (.program addr b), calls := fl.calls + 1,
                             done := fl.done ++ [.program addr b] } (addr + 1) h hl
    rw [pagesWriteLoop, halFlashOp_allOk fl _ h hl]
    refine ih1.trans ?_
    rw [record_cons, programOps_cons]
    simp [Flash.after, replay_cons, Nat.add_assoc, Nat.add_comm 1]

theorem romflashPagesWrite_allOk (fl : Flash) (addr : Nat) (buf : List UInt8) (h : fl.AllOk) :
    romflashPagesWrite fl addr buf = (true, fl.after (programOps (record addr buf))) :=
  pagesWriteLoop_allOk (halFlashUnlock fl) addr buf h rfl

theorem romflashCleanPages_allOk (fl : Flash) (addr : Nat) (h : fl.AllOk)
    (hs : getSector addr ≠ flashSectorNull) :
    romflashCleanPages fl addr = (true, fl.after [.erase (getSector addr)]) := by
  unfold romflashCleanPages
  rw [if_neg hs, halFlashOp_allOk (halFlashUnlock fl) _ h rfl]
  rfl

/-- of a longer buffer it comes back to the first byte, over and over -/
theorem pagesWriteIndexed_endless {buf : List UInt8} (h : 65535 < buf.length) (turns : Nat) :
    ∀ (fl : Flash) (addr : Nat) (i : UInt16), fl.AllOk → fl.locked = false →
      pagesWriteIndexed fl addr buf i turns = none := by
  induction turns with
  | zero => exact fun _ _ _ _ _ => rfl
  | succ turns ih =>
    intro fl addr i hall hl
    have hlt : i.toNat < buf.length := Nat.lt_of_lt_of_le i.toNat_lt h
    rw [pagesWriteIndexed, if_pos hlt, halFlashOp_allOk fl _ hall hl]
    exact ih _ (addr + 1) (i + 1) hall hl

/-- an address that is no sector base erases nothing and reports success all the same -/
theorem romflashCleanPages_null (fl : Flash) (addr : Nat)
    (hs : getSector addr = flashSectorNull) :
    romflashCleanPages fl addr = (true, halFlashLock fl) := by
  unfold romflashCleanPages
  rw [if_pos hs]
  rfl

end MenuFirmware
