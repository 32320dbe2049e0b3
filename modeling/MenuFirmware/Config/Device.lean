import MenuFirmware.Config.Arrays
import MenuFirmware.Flash.Romflash

/-!
# The device state and the user array

`Dev` is the part of the global state that the settings code reads and writes.  The user array is
what the network client sees: `updateUserArr` (`Update_User_Arr`) fills it from the arrays.

* `Dev`             flash, arrays, menu status fields, user array, flags, FPGA registers;
* `getConfig`       the `Get_Config_*` family: 1 + the index of the choice, 0 without a choice;
* `updateUserArr`   refresh the user array, and nothing else;
* `firstSet_of_isChoice` a group with exactly one `MENU_SET` has that element as its first.
-/

set_option linter.unusedSectionVars false
set_option linter.unusedVariables false

namespace MenuFirmware
open Nor

/-- the status fields of the menu items, one for each element of a mirrored array -/
abbrev Menu := (g : Group) → Fin g.num → UInt8

/-- what `config_env_init` hands to the network stack -/
structure NetPar where
  ip : Fin 4 → UInt8
  netmask : Fin 4 → UInt8
  gateway : Fin 4 → UInt8
  mac : Fin 6 → UInt8
  port : Nat

structure Dev where
  flash : Flash
  arr : Config
  /-- `RESTORE[0]` -/
  restore : UInt8
  menu : Menu
  userArr : UInt8 → UInt8
  updateFlashFlag : Bool
  statusFlag : UInt8
  /-- FPGA firmware version, all zero until it has been read -/
  fwRegNum : Fin 5 → UInt8
  /-- the board revision on the input pins -/
  hw : UInt8
  /-- the last value written to each FPGA register -/
  fpga : UInt8 → UInt8
  /-- `flash_ip_par` -/
  netPar : NetPar
  /-- the watchdog restart has been requested -/
  reStart : Bool

/-! ## getters -/

/-- the first index that holds `MENU_SET`: what an else-if chain over a group finds -/
def firstSet {n : Nat} (f : Fin n → UInt8) : Option (Fin n) :=
  (List.finRange n).find? fun i => f i == menuSet

/-- `k` is the one element that holds `MENU_SET` -/
def IsChoice {n : Nat} (f : Fin n → UInt8) (k : Fin n) : Prop := ∀ i, f i = menuSet ↔ i = k

/-- `Get_Config_*`: 1 + the first index that holds `MENU_SET`, 0 if there is none -/
def getConfig {n : Nat} (f : Fin n → UInt8) : UInt8 :=
  match firstSet f with
  | some i => UInt8.ofNat (i + 1)
  | none => 0

/-- `Get_SRC_MODE`, `Get_Config_Display_Brightness`: is the first choice set -/
def getFirst (f : Fin 2 → UInt8) : UInt8 := if f ⟨0, Nat.two_pos⟩ = menuSet then 1 else 0

/-- `Get_UTCoffset_Num` -/
def Config.utcOffsetNum (c : Config) : UInt8 := c .utcOffset ⟨0, Nat.one_pos⟩

/-- `Get_FW`: the version bytes, none while the first one is zero -/
def getFw (d : Dev) : Option (List UInt8) :=
  match List.ofFn d.fwRegNum with
  | b :: bs => if b ≠ 0 then some (b :: bs) else none
  | [] => none

def getSw : Fin 5 → UInt8 := ![0x20, 0x19, 0x01, 0x27, 0xc2]

theorem isChoice_oneHot {n : Nat} (k : Fin n) : IsChoice (oneHot k) k :=
  fun _ => oneHot_eq_menuSet

theorem firstSet_of_isChoice {n : Nat} {f : Fin n → UInt8} {k : Fin n} (h : IsChoice f k) :
    firstSet f = some k := by
  unfold firstSet
  cases hf : (List.finRange n).find? fun i => f i == menuSet with
  | none =>
    have hk := List.find?_eq_none.1 hf k (List.mem_finRange k)
    exact absurd (beq_iff_eq.2 ((h k).2 rfl)) hk
  | some i =>
    have hs := List.find?_some hf
    have hi : (f i == menuSet) = true := hs
    rw [(h i).1 (beq_iff_eq.1 hi)]

/-! ## `Update_User_Arr` -/

abbrev UserArr := UInt8 → UInt8

def setUser (u : UserArr) (pos : Nat) (v : UInt8) : UserArr :=
  Function.update u (UInt8.ofNat pos) v

/-- copy a buffer to `pos`, `pos + 1`, … -/
def fillUser (u : UserArr) (pos : Nat) : List UInt8 → UserArr
  | [] => u
  | b :: bs => fillUser (setUser u pos b) (pos + 1) bs

/-- the feature loop: an element that is neither set nor reset leaves its byte alone -/
def fillFeatures (u : UserArr) (pos : Nat) : List UInt8 → UserArr
  | [] => u
  | b :: bs =>
    fillFeatures (if b = menuSet then setUser u pos 1
      else if b = menuReset then setUser u pos 0 else u) (pos + 1) bs

def updateUserArr (d : Dev) : Dev :=
  let u := fillFeatures d.userArr 0 (d.arr.buf Group.systemFeature)
  let u := fillUser u 5 (List.ofFn getSw)
  let u := match getFw d with
    | some fw => fillUser u 10 fw
    | none => u
  let u := setUser u 0x0f (getFirst (d.arr Group.configDisplayBrightness))
  let u := setUser u 0x10 (getConfig (d.arr Group.configFormat))
  let u := setUser u 0x11 d.statusFlag
  let u := fillUser u 0x16 (d.arr.buf .mac)
  let u := setUser u 0x1c (getConfig (d.arr Group.configVideoInput))
  let u := setUser u 0x1d (getConfig (d.arr Group.configVideoOutput))
  let u := setUser u 0x1e d.arr.utcOffsetNum
  let u := setUser u 0x1f (getFirst (d.arr Group.configSrcMode))
  let u := setUser u 0x20 (getConfig (d.arr Group.configSrcSyncType))
  let u := setUser u 0x21 (getConfig (d.arr Group.configSrcClockType))
  let u := setUser u 0x22 (getConfig (d.arr Group.configSrcSyncFrame))
  let u := setUser u 0x23 (getConfig (d.arr Group.configDisplayMode))
  let u := setUser u 0x24 d.hw
  { d with userArr := u }

@[simp] theorem updateUserArr_flash (d : Dev) : (updateUserArr d).flash = d.flash := rfl
@[simp] theorem updateUserArr_arr (d : Dev) : (updateUserArr d).arr = d.arr := rfl
@[simp] theorem updateUserArr_restore (d : Dev) : (updateUserArr d).restore = d.restore := rfl
@[simp] theorem updateUserArr_menu (d : Dev) : (updateUserArr d).menu = d.menu := rfl
@[simp] theorem updateUserArr_updateFlashFlag (d : Dev) :
    (updateUserArr d).updateFlashFlag = d.updateFlashFlag := rfl
@[simp] theorem updateUserArr_fpga (d : Dev) : (updateUserArr d).fpga = d.fpga := rfl
@[simp] theorem updateUserArr_netPar (d : Dev) : (updateUserArr d).netPar = d.netPar := rfl

end MenuFirmware
