import MenuFirmware.Lib.Nor
import Mathlib.Data.Fin.VecNotation
import Mathlib.Data.Fintype.Basic

/-!
# The configuration arrays

The settings live in thirteen RAM arrays of one byte per `MENU_STATUS` (`main_meau.h`,
`meau_flash.c`).  Ten of them are GROUPS that the menu mirrors in its own status fields; the IP
and MAC addresses and the UTC offset are kept in their arrays only.

* `Group`, `Arr`     the mirrored groups, and all thirteen arrays;
* `Arr.num`          the length of an array;
* `Arr.addr`         where its record lies in flash: the chain of macros of `main_meau.h`;
* `Config`           a content of all thirteen arrays, each of its own length;
* `defaultArr`       the compiled-in `Default_*` arrays;
* `oneHot`           the content a menu choice leaves in a group.
-/

set_option linter.unusedSectionVars false
set_option linter.unusedVariables false

namespace MenuFirmware

/-! ## `MENU_STATUS` -/

def menuSet : UInt8 := 0
def menuReset : UInt8 := 1
/-- the choice is switched off by a system feature -/
def nonOperate : UInt8 := 3

/-! ## the arrays -/

/-- the arrays that have a copy in the menu items -/
inductive Group where
  | systemFeature
  | configFormat
  | configVideoInput
  | configVideoOutput
  | configSrcMode
  | configSrcSyncType
  | configSrcClockType
  | configSrcSyncFrame
  | configDisplayMode
  | configDisplayBrightness
  deriving DecidableEq, Repr

inductive Arr where
  | grp (g : Group)
  | ip
  | mac
  | utcOffset
  deriving DecidableEq, Repr

instance : Coe Group Arr := ⟨Arr.grp⟩

def Group.num : Group → Nat
  | .systemFeature => 5
  | .configFormat => 17
  | .configVideoInput => 3
  | .configVideoOutput => 2
  | .configSrcMode => 2
  | .configSrcSyncType => 12
  | .configSrcClockType => 3
  | .configSrcSyncFrame => 6
  | .configDisplayMode => 3
  | .configDisplayBrightness => 2

def Arr.num : Arr → Nat
  | .grp g => g.num
  | .ip => 4
  | .mac => 6
  | .utcOffset => 1

theorem Group.num_pos (g : Group) : 0 < g.num := by cases g <;> decide

abbrev restoreNum : Nat := 1

/-! ## flash addresses, each macro eight bytes past the record before it -/

def addrFlashSector11 : Nat := 0x081C0000
def inputNumAddr : Nat := addrFlashSector11 + 8
def outputNumAddr : Nat := inputNumAddr + Group.num .configVideoInput + 8
def srcModeNumAddr : Nat := Group.num .configVideoOutput + outputNumAddr + 8
def srcSyncTypeNumAddr : Nat := Group.num .configSrcMode + srcModeNumAddr + 8
def displayModeNumAddr : Nat := Group.num .configSrcSyncType + srcSyncTypeNumAddr + 8
def displayBrightnessNumAddr : Nat := Group.num .configDisplayMode + displayModeNumAddr + 8
def enOrDisNumAddr : Nat := Group.num .configDisplayBrightness + displayBrightnessNumAddr + 8
def configFormatNumAddr : Nat := Group.num .systemFeature + enOrDisNumAddr + 8
def restoreNumAddr : Nat := Group.num .configFormat + configFormatNumAddr + 8
def utcOffsetNumAddr : Nat := restoreNum + restoreNumAddr + 8
def ipNumAddr : Nat := Arr.num .utcOffset + utcOffsetNumAddr + 8
def srcClockTypeNumAddr : Nat := Arr.num .ip + ipNumAddr + 8
def srcSyncFrameNumAddr : Nat := Group.num .configSrcClockType + srcClockTypeNumAddr + 8
def macArrNumAddr : Nat := Group.num .configSrcSyncFrame + srcSyncFrameNumAddr + 8

def Arr.addr : Arr → Nat
  | .grp .systemFeature => enOrDisNumAddr
  | .grp .configFormat => configFormatNumAddr
  | .grp .configVideoInput => inputNumAddr
  | .grp .configVideoOutput => outputNumAddr
  | .grp .configSrcMode => srcModeNumAddr
  | .grp .configSrcSyncType => srcSyncTypeNumAddr
  | .grp .configSrcClockType => srcClockTypeNumAddr
  | .grp .configSrcSyncFrame => srcSyncFrameNumAddr
  | .grp .configDisplayMode => displayModeNumAddr
  | .grp .configDisplayBrightness => displayBrightnessNumAddr
  | .ip => ipNumAddr
  | .mac => macArrNumAddr
  | .utcOffset => utcOffsetNumAddr

/-- the order in which the records are written and read -/
def Arr.all : List Arr :=
  [Group.systemFeature, Group.configFormat, Group.configVideoInput, Group.configVideoOutput,
    .ip, .mac, .utcOffset, Group.configSrcMode, Group.configSrcSyncType,
    Group.configSrcClockType, Group.configSrcSyncFrame, Group.configDisplayMode,
    Group.configDisplayBrightness]

theorem Arr.mem_all (a : Arr) : a ∈ Arr.all := by
  cases a with
  | grp g => cases g <;> decide
  | ip => decide
  | mac => decide
  | utcOffset => decide

theorem Arr.all_nodup : Arr.all.Nodup := by decide

instance : Fintype Arr := ⟨⟨Arr.all, Arr.all_nodup⟩, Arr.mem_all⟩

/-! ## contents -/

/-- a content of all thirteen arrays -/
abbrev Config := (a : Arr) → Fin a.num → UInt8

/-- the array `a` as the buffer that a flash write takes -/
def Config.buf (c : Config) (a : Arr) : List UInt8 := List.ofFn (c a)

theorem Config.buf_length (c : Config) (a : Arr) : (c.buf a).length = a.num :=
  List.length_ofFn

/-- a new content of one group -/
def Config.setGroup (c : Config) (g : Group) (st : Fin g.num → UInt8) : Config :=
  Function.update c (.grp g) st

theorem Config.setGroup_self (c : Config) (g : Group) (st : Fin g.num → UInt8) :
    c.setGroup g st g = st := Function.update_self ..
theorem Config.setGroup_of_ne (c : Config) (g : Group) (st : Fin g.num → UInt8) (a : Arr)
    (h : a ≠ .grp g) : c.setGroup g st a = c a := Function.update_of_ne h ..
theorem Config.setGroup_grp_of_ne (c : Config) (g g' : Group) (st : Fin g.num → UInt8)
    (h : g' ≠ g) : c.setGroup g st g' = c g' :=
  c.setGroup_of_ne g st g' fun e => h (Arr.grp.inj e)

/-- `MENU_SET` at one index, `MENU_RESET` at the others -/
def oneHot {n : Nat} (k : Fin n) : Fin n → UInt8 := fun i => if i = k then menuSet else menuReset

theorem oneHot_self {n : Nat} (k : Fin n) : oneHot k k = menuSet := if_pos rfl
theorem oneHot_of_ne {n : Nat} {k i : Fin n} (h : i ≠ k) : oneHot k i = menuReset := if_neg h

theorem oneHot_eq_menuSet {n : Nat} {k i : Fin n} : oneHot k i = menuSet ↔ i = k := by
  constructor
  · intro h
    by_contra hne
    rw [oneHot_of_ne hne] at h
    exact absurd h (by decide)
  · rintro rfl
    exact oneHot_self _

/-- the `Default_*` arrays -/
def defaultArr : Config
  | .grp .systemFeature => @oneHot 5 0
  | .grp .configFormat => @oneHot 17 0
  | .grp .configVideoInput => @oneHot 3 0
  | .grp .configVideoOutput => @oneHot 2 0
  | .grp .configSrcMode => @oneHot 2 0
  | .grp .configSrcSyncType => @oneHot 12 0
  | .grp .configSrcClockType => @oneHot 3 0
  | .grp .configSrcSyncFrame => @oneHot 6 0
  | .grp .configDisplayMode => @oneHot 3 2
  | .grp .configDisplayBrightness => @oneHot 2 0
  | .ip => ![192, 168, 0, 188]
  | .mac => ![0x00, 0x80, 0xE1, 0x00, 0x00, 0x00]
  | .utcOffset => ![8]

end MenuFirmware
