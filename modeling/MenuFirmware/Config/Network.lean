import MenuFirmware.Menu.Select

/-!
# Settings over the network (`Send_User_Data`, `Update_Flash_Arr`)

A client reads and writes the user array byte by byte: command `0x02` reads the byte at a
position, command `0x03` writes it, copies it into the array it belongs to and asks the 100 ms poll
to save the arrays.

* `updateFlashArr`      the array changes of a write; `netWrite` is the part on the arrays;
* `sendUserData`        a command and its reply;
* `pollUpdateFlash`     the poll: menu fields from the arrays, then a save;
* `enOrDisUpData_*`, `operable_eq_nonOperate`  a video choice is off exactly with its feature.
-/

set_option linter.unusedSectionVars false
set_option linter.unusedVariables false

namespace MenuFirmware

/-! ## array writes -/

/-- `Set_Config_*`: the element `pos - 1`, no element for a position outside -/
def setConfig {n : Nat} (pos : UInt8) : Fin n → UInt8 :=
  fun i => if i.val + 1 = pos.toNat then menuSet else menuReset

/-- one video element under its feature -/
def operable (feature old : UInt8) : UInt8 :=
  if feature = menuReset then nonOperate else if old = nonOperate then menuReset else old

def enOrDisUpData (c : Config) : Config :=
  let f := c Group.systemFeature
  let c := c.setGroup .configVideoInput fun i =>
    operable (f (Fin.natAdd 2 i)) (c Group.configVideoInput i)
  c.setGroup .configVideoOutput fun i =>
    operable (f (Fin.natAdd 2 i).castSucc) (c Group.configVideoOutput i)

/-- the feature branch of `Update_Flash_Arr` -/
def writeFeature (c : Config) (pos val : UInt8) : Config :=
  if h : pos.toNat < Group.num .systemFeature then
    if val = 1 then
      c.setGroup .systemFeature (Function.update (c Group.systemFeature) ⟨pos.toNat, h⟩ menuSet)
    else if val = 0 then
      c.setGroup .systemFeature (Function.update (c Group.systemFeature) ⟨pos.toNat, h⟩ menuReset)
    else c
  else c

/-- a two-way switch: `1` sets the first element, `0` the second, other values do nothing -/
def writeSwitch (c : Config) (g : Group) (val : UInt8) : Config :=
  if val = 1 then c.setGroup g fun i => if i.val = 0 then menuSet else menuReset
  else if val = 0 then c.setGroup g fun i => if i.val = 0 then menuReset else menuSet
  else c

def writeIp (c : Config) (pos val : UInt8) : Config :=
  if h : pos.toNat - 0x12 < Arr.num .ip then
    Function.update c .ip (Function.update (c .ip) ⟨pos.toNat - 0x12, h⟩ val)
  else c

/-- the arrays after the write of `val` at `pos` -/
def netWrite (c : Config) (pos val : UInt8) : Config :=
  let c := writeFeature c pos val
  let c := enOrDisUpData c
  let c := if pos = 0x0f then writeSwitch c .configDisplayBrightness val else c
  if 0x11 < pos ∧ pos < 0x16 then writeIp c pos val
  else if pos = 0x10 then c.setGroup .configFormat (setConfig val)
  else if pos = 0x1c then c.setGroup .configVideoInput (setConfig val)
  else if pos = 0x1d then c.setGroup .configVideoOutput (setConfig val)
  else if pos = 0x1e then Function.update c .utcOffset fun _ => val
  else if pos = 0x1f then writeSwitch c .configSrcMode val
  else if pos = 0x20 then c.setGroup .configSrcSyncType (setConfig val)
  else if pos = 0x21 then c.setGroup .configSrcClockType (setConfig val)
  else if pos = 0x22 then c.setGroup .configSrcSyncFrame (setConfig val)
  else if pos = 0x23 then c.setGroup .configDisplayMode (setConfig val)
  else c

def updateFlashArr (d : Dev) (pos : UInt8) : Dev :=
  { d with
    arr := netWrite d.arr pos (d.userArr pos)
    reStart := if pos = 0xff ∧ d.userArr pos = 0xff then true else d.reStart }

/-! ## commands and the poll -/

/-- a command of three bytes, with the bytes sent back -/
def sendUserData (d : Dev) (cmd pos val : UInt8) : List UInt8 × Dev :=
  if cmd = 0x02 then ([cmd, pos, d.userArr pos], d)
  else if cmd = 0x03 then
    let d := updateFlashArr { d with userArr := Function.update d.userArr pos val } pos
    ([cmd, pos, val], { d with updateFlashFlag := true })
  else ([], d)

/-- case 9 of `Pollint100mSec` -/
def pollUpdateFlash (d : Dev) : Dev :=
  if d.updateFlashFlag then write2Flash (arrInit { d with updateFlashFlag := false }) else d

theorem sendUserData_write (d : Dev) (pos val : UInt8) :
    (sendUserData d 0x03 pos val).2.arr = netWrite d.arr pos val ∧
    (sendUserData d 0x03 pos val).2.menu = d.menu ∧
    (sendUserData d 0x03 pos val).2.flash = d.flash ∧
    (sendUserData d 0x03 pos val).2.updateFlashFlag = true := by
  refine ⟨?_, rfl, rfl, rfl⟩
  show netWrite d.arr pos (Function.update d.userArr pos val pos) = _
  rw [Function.update_self]

/-- the other commands change nothing -/
theorem sendUserData_other (d : Dev) (cmd pos val : UInt8) (h : cmd ≠ 0x03) :
    (sendUserData d cmd pos val).2 = d := by
  unfold sendUserData
  by_cases h2 : cmd = 0x02
  · rw [if_pos h2]
  · rw [if_neg h2, if_neg h]

/-! ## features and video choices -/

theorem enOrDisUpData_videoInput (c : Config) (i : Fin (Group.num .configVideoInput)) :
    enOrDisUpData c Group.configVideoInput i = operable (c Group.systemFeature (Fin.natAdd 2 i))
      (c Group.configVideoInput i) := by
  unfold enOrDisUpData
  rw [Config.setGroup_grp_of_ne _ _ _ _ (by decide), Config.setGroup_self]

theorem enOrDisUpData_videoOutput (c : Config) (i : Fin (Group.num .configVideoOutput)) :
    enOrDisUpData c Group.configVideoOutput i
      = operable (c Group.systemFeature (Fin.natAdd 2 i).castSucc)
        (c Group.configVideoOutput i) := by
  unfold enOrDisUpData
  rw [Config.setGroup_self, Config.setGroup_grp_of_ne _ _ _ _ (by decide)]

/-- a video element is off exactly when its feature is reset -/
theorem operable_eq_nonOperate (feature old : UInt8) :
    operable feature old = nonOperate ↔ feature = menuReset := by
  unfold operable
  by_cases h : feature = menuReset
  · rw [if_pos h]
    exact iff_of_true rfl h
  · rw [if_neg h]
    refine iff_of_false ?_ h
    by_cases ho : old = nonOperate
    · rw [if_pos ho]
      decide
    · rw [if_neg ho]
      exact ho

end MenuFirmware
