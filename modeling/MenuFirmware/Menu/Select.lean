import MenuFirmware.Config.Store
import MenuFirmware.Fpga.RegConfig

/-!
# Menu choices (`menu_items.c`)

A choice in a settings menu marks one item, copies ALL menu status fields to the arrays
(`Arr_Update`), saves them and sends the group to the FPGA.  `Arr_Init` copies the other way.

* `arrInit`, `arrUpdate`     the two copies between menu fields and arrays;
* `actionCallbackRender`     the `Config_*_ActionCallbackRender` family;
* `selectRender`             the callback of the item `which` of a group;
* `editConfirm`              the confirm branch of the IP, MAC and UTC editors;
* `selectRender_eq`          what a choice does, for all groups at once (`menuRadio`).
-/

set_option linter.unusedSectionVars false
set_option linter.unusedVariables false

namespace MenuFirmware

/-! ## copies -/

def arrInit (d : Dev) : Dev := { d with menu := fun g => d.arr g }

/-- the menu fields in the groups, the rest as it is -/
def menuToArr (m : Menu) (c : Config) : Config
  | .grp g => m g
  | .ip => c .ip
  | .mac => c .mac
  | .utcOffset => c .utcOffset

def arrUpdate (d : Dev) : Dev := write2Flash { d with arr := menuToArr d.menu d.arr }

theorem menuToArr_grp (m : Menu) (c : Config) (g : Group) : menuToArr m c g = m g := rfl

theorem menuToArr_of_eq (m : Menu) (c : Config) (h : ∀ g : Group, m g = c g) :
    menuToArr m c = c := by
  funext a
  cases a with
  | grp g => exact h g
  | ip => rfl
  | mac => rfl
  | utcOffset => rfl

@[simp] theorem arrUpdate_arr (d : Dev) : (arrUpdate d).arr = menuToArr d.menu d.arr :=
  write2Flash_arr _
@[simp] theorem arrUpdate_menu (d : Dev) : (arrUpdate d).menu = d.menu := write2Flash_menu _
@[simp] theorem arrUpdate_fpga (d : Dev) : (arrUpdate d).fpga = d.fpga := write2Flash_fpga _

/-! ## the callbacks -/

/-- mark `which`, copy, save, and tell the FPGA where the group has a register -/
def actionCallbackRender (g : Group) (toFpga : Bool) (d : Dev) (which : Fin g.num) : Dev :=
  let d := arrUpdate { d with menu := Function.update d.menu g (oneHot which) }
  if toFpga then setFpgaRegConfig d (Arr.addr g) 0 else d

/-- the video callbacks leave items that cannot be operated alone -/
def videoActionCallbackRender (g : Group) (toFpga : Bool) (d : Dev) (which : Fin g.num) : Dev :=
  if d.menu g which ≠ nonOperate then
    let st := fun i => if d.menu g i ≠ nonOperate then oneHot which i else d.menu g i
    let d := arrUpdate { d with menu := Function.update d.menu g st }
    if toFpga then setFpgaRegConfig d (Arr.addr g) 0 else d
  else d

def configFormatActionCallbackRender := actionCallbackRender .configFormat true
def configVideoInputActionCallbackRender := videoActionCallbackRender .configVideoInput true
def configVideoOutputActionCallbackRender := videoActionCallbackRender .configVideoOutput false
def configSrcModeActionCallbackRender := actionCallbackRender .configSrcMode true
def configSrcSyncTypeActionCallbackRender := actionCallbackRender .configSrcSyncType true
def configSrcClockTypeActionCallbackRender := actionCallbackRender .configSrcClockType true
def configSrcSyncFrameActionCallbackRender := actionCallbackRender .configSrcSyncFrame true
def configDisplayModeActionCallbackRender := actionCallbackRender .configDisplayMode false
def configDisplayBrightnessActionCallbackRender :=
  actionCallbackRender .configDisplayBrightness false

/-- the choice of the item `which` in the menu of a group; feature items have no callback -/
def selectRender (d : Dev) : (g : Group) → Fin g.num → Dev
  | .systemFeature, _ => d
  | .configFormat, which => configFormatActionCallbackRender d which
  | .configVideoInput, which => configVideoInputActionCallbackRender d which
  | .configVideoOutput, which => configVideoOutputActionCallbackRender d which
  | .configSrcMode, which => configSrcModeActionCallbackRender d which
  | .configSrcSyncType, which => configSrcSyncTypeActionCallbackRender d which
  | .configSrcClockType, which => configSrcClockTypeActionCallbackRender d which
  | .configSrcSyncFrame, which => configSrcSyncFrameActionCallbackRender d which
  | .configDisplayMode, which => configDisplayModeActionCallbackRender d which
  | .configDisplayBrightness, which => configDisplayBrightnessActionCallbackRender d which

/-- the confirm branch of an editor: store the edited value, copy, save -/
def editConfirm (a : Arr) (d : Dev) (column : Fin a.num) (temp : UInt8) : Dev :=
  arrUpdate (d.setArr a (Function.update (d.arr a) column temp))

def configNetworkIpConfirm := editConfirm .ip
def configNetworkMacConfirm := editConfirm .mac
def configGpsConfirm := editConfirm .utcOffset

/-! ## what a choice does -/

/-- the new status fields of a group, `none` where the callback does nothing -/
def menuRadio (g : Group) (st : Fin g.num → UInt8) (which : Fin g.num) :
    Option (Fin g.num → UInt8) :=
  match g with
  | .systemFeature => none
  | .configVideoInput | .configVideoOutput =>
    if st which ≠ nonOperate then some fun i => if st i ≠ nonOperate then oneHot which i else st i
    else none
  | _ => some (oneHot which)

def toFpga : Group → Bool
  | .configVideoOutput | .configDisplayMode | .configDisplayBrightness => false
  | _ => true

theorem selectRender_eq (d : Dev) (g : Group) (which : Fin g.num) :
    selectRender d g which = match menuRadio g (d.menu g) which with
      | none => d
      | some st =>
        let d := arrUpdate { d with menu := Function.update d.menu g st }
        if toFpga g then setFpgaRegConfig d (Arr.addr g) 0 else d := by
  cases g with
  | configVideoInput =>
    unfold menuRadio
    by_cases h : d.menu .configVideoInput which ≠ nonOperate
    · simp only [if_pos h]
      exact if_pos h
    · simp only [if_neg h]
      exact if_neg h
  | configVideoOutput =>
    unfold menuRadio
    by_cases h : d.menu .configVideoOutput which ≠ nonOperate
    · simp only [if_pos h]
      exact if_pos h
    · simp only [if_neg h]
      exact if_neg h
  | systemFeature => rfl
  | configFormat => rfl
  | configSrcMode => rfl
  | configSrcSyncType => rfl
  | configSrcClockType => rfl
  | configSrcSyncFrame => rfl
  | configDisplayMode => rfl
  | configDisplayBrightness => rfl

theorem menuToArr_update (m : Menu) (c : Config) (g : Group) (st : Fin g.num → UInt8)
    (h : ∀ g' : Group, g' ≠ g → m g' = c g') :
    menuToArr (Function.update m g st) c = c.setGroup g st := by
  funext a
  cases a with
  | grp g' =>
    rw [menuToArr_grp]
    by_cases e : g' = g
    · subst e
      rw [Function.update_self, Config.setGroup_self]
    · rw [Function.update_of_ne e, Config.setGroup_grp_of_ne _ _ _ _ e, h g' e]
  | ip => exact (Config.setGroup_of_ne c g st .ip nofun).symm
  | mac => exact (Config.setGroup_of_ne c g st .mac nofun).symm
  | utcOffset => exact (Config.setGroup_of_ne c g st .utcOffset nofun).symm

/-- a choice without effect -/
theorem selectRender_none (d : Dev) (g : Group) (which : Fin g.num)
    (h : menuRadio g (d.menu g) which = none) : selectRender d g which = d := by
  rw [selectRender_eq, h]

/-- a choice overwrites all arrays that the menu mirrors, and saves them -/
theorem selectRender_some (d : Dev) (g : Group) (which : Fin g.num) (st : Fin g.num → UInt8)
    (h : menuRadio g (d.menu g) which = some st) :
    (selectRender d g which).arr = menuToArr (Function.update d.menu g st) d.arr ∧
    (selectRender d g which).menu = Function.update d.menu g st ∧
    (selectRender d g which).flash
      = (arrUpdate { d with menu := Function.update d.menu g st }).flash := by
  have hset : ∀ e : Dev, (if toFpga g then setFpgaRegConfig e (Arr.addr g) 0 else e).arr = e.arr ∧
      (if toFpga g then setFpgaRegConfig e (Arr.addr g) 0 else e).menu = e.menu ∧
      (if toFpga g then setFpgaRegConfig e (Arr.addr g) 0 else e).flash = e.flash := by
    intro e
    by_cases ht : toFpga g = true
    · rw [if_pos ht]
      exact ⟨rfl, rfl, rfl⟩
    · rw [if_neg ht]
      exact ⟨rfl, rfl, rfl⟩
  obtain ⟨h1, h2, h3⟩ := hset (arrUpdate { d with menu := Function.update d.menu g st })
  rw [selectRender_eq, h]
  refine ⟨?_, ?_, h3⟩
  · rw [h1, arrUpdate_arr]
  · rw [h2, arrUpdate_menu]

/-- **A choice**, where menu fields and arrays agree: the group gets its new content in both, and
the FPGA gets the writes of the group. -/
theorem selectRender_spec (d : Dev) (hm : ∀ g : Group, d.menu g = d.arr g) (g : Group)
    (which : Fin g.num) (st : Fin g.num → UInt8) (hst : menuRadio g (d.menu g) which = some st)
    (hf : toFpga g = true) :
    (selectRender d g which).arr = d.arr.setGroup g st ∧
    (∀ g' : Group, (selectRender d g which).menu g' = (selectRender d g which).arr g') ∧
    (selectRender d g which).fpga = applySends d.fpga
      (regConfigSends (d.arr.setGroup g st) (Arr.addr g) 0) := by
  have harr := menuToArr_update d.menu d.arr g st fun g' _ => hm g'
  obtain ⟨ha, hmenu, -⟩ := selectRender_some d g which st hst
  refine ⟨ha.trans harr, ?_, ?_⟩
  · intro g'
    rw [ha, hmenu]
    rfl
  · rw [selectRender_eq, hst]
    simp only [hf, if_true]
    unfold setFpgaRegConfig
    rw [arrUpdate_arr, arrUpdate_fpga, harr]

end MenuFirmware
