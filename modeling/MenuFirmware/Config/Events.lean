import MenuFirmware.Config.Sync

/-!
# The settings under one event

What each event does to the arrays and to the menu fields, array by array.

* `devStep`            the device under an event;
* `Arr.SetAt`          the registers whose network write sets an array;
* `netWrite_of_not`, `netWrite_group`  the arrays after a network write;
* `Move`, `devStep_move`  what any event can do to arrays, menu fields and user array.
-/

set_option linter.unusedSectionVars false
set_option linter.unusedVariables false

namespace MenuFirmware
open Runs Nor

/-- the groups as the menu fields hold them -/
def Config.groups (c : Config) : Menu := fun g => c g

def devStep (d : Dev) : SyncEvent → Dev
  | .net cmd pos val => (sendUserData d cmd pos val).2
  | .select g which => selectRender d g which
  | .editIp column temp => configNetworkIpConfirm d column temp
  | .editMac column temp => configNetworkMacConfirm d column temp
  | .editUtc column temp => configGpsConfirm d column temp
  | .poll => pollUpdateFlash d

/-! ## network writes -/

/-- the register of a group, the first one of the features -/
def Group.register : Group → UInt8
  | .systemFeature => 0x00
  | .configFormat => 0x10
  | .configVideoInput => 0x1c
  | .configVideoOutput => 0x1d
  | .configSrcMode => 0x1f
  | .configSrcSyncType => 0x20
  | .configSrcClockType => 0x21
  | .configSrcSyncFrame => 0x22
  | .configDisplayMode => 0x23
  | .configDisplayBrightness => 0x0f

/-- the two-way switches: first or second -/
def Group.IsSwitch (g : Group) : Prop := g = .configSrcMode ∨ g = .configDisplayBrightness

instance (g : Group) : Decidable g.IsSwitch := inferInstanceAs (Decidable (_ ∨ _))

/-- the chain of registers in `Update_Flash_Arr` sets the array at `pos`; the features are written
before it, and the MAC address cannot be written -/
def Arr.SetAt : Arr → UInt8 → Prop
  | .grp .systemFeature, _ => False
  | .grp g, pos => pos = g.register
  | .ip, pos => 0x11 < pos ∧ pos < 0x16
  | .mac, _ => False
  | .utcOffset, pos => pos = 0x1e

theorem setAt_group {g : Group} (hg : g ≠ .systemFeature) (pos : UInt8) :
    (Arr.grp g).SetAt pos ↔ pos = g.register := by
  cases g with
  | systemFeature => exact absurd rfl hg
  | configFormat => exact Iff.rfl
  | configVideoInput => exact Iff.rfl
  | configVideoOutput => exact Iff.rfl
  | configSrcMode => exact Iff.rfl
  | configSrcSyncType => exact Iff.rfl
  | configSrcClockType => exact Iff.rfl
  | configSrcSyncFrame => exact Iff.rfl
  | configDisplayMode => exact Iff.rfl
  | configDisplayBrightness => exact Iff.rfl

theorem writeFeature_of_ne (c : Config) (pos val : UInt8) (a : Arr)
    (h : a ≠ Group.systemFeature) : writeFeature c pos val a = c a := by
  unfold writeFeature
  split_ifs
  · exact Config.setGroup_of_ne _ _ _ _ h
  · exact Config.setGroup_of_ne _ _ _ _ h
  · rfl
  · rfl

/-- the feature branch is for the first five registers -/
theorem writeFeature_of_le (c : Config) (pos val : UInt8) (h : ¬ pos < 5) :
    writeFeature c pos val = c := by
  have hlt : ¬ pos.toNat < Group.num .systemFeature := fun hp => h (UInt8.lt_iff_toNat_lt.2 hp)
  unfold writeFeature
  rw [dif_neg hlt]

theorem enOrDisUpData_of_ne (c : Config) (a : Arr) (hi : a ≠ Group.configVideoInput)
    (ho : a ≠ Group.configVideoOutput) : enOrDisUpData c a = c a := by
  unfold enOrDisUpData
  rw [Config.setGroup_of_ne _ _ _ _ ho, Config.setGroup_of_ne _ _ _ _ hi]

theorem writeSwitch_of_ne (c : Config) (g : Group) (val : UInt8) (a : Arr) (h : a ≠ .grp g) :
    writeSwitch c g val a = c a := by
  unfold writeSwitch
  split_ifs
  · exact Config.setGroup_of_ne _ _ _ _ h
  · exact Config.setGroup_of_ne _ _ _ _ h
  · rfl

theorem writeIp_of_ne (c : Config) (pos val : UInt8) (a : Arr) (h : a ≠ .ip) :
    writeIp c pos val a = c a := by
  unfold writeIp
  split_ifs
  · exact Function.update_of_ne h ..
  · rfl

/-- an array that the register does not belong to changes by the features only -/
theorem netWrite_of_not (c : Config) (pos val : UInt8) (a : Arr) (h : ¬ a.SetAt pos) :
    netWrite c pos val a = enOrDisUpData (writeFeature c pos val) a := by
  have hne : ∀ g : Group, g ≠ .systemFeature → pos = g.register → a ≠ .grp g := by
    rintro g hg hpos rfl
    exact h ((setAt_group hg pos).2 hpos)
  have hbright : (if pos = 0x0f then
        writeSwitch (enOrDisUpData (writeFeature c pos val)) .configDisplayBrightness val
      else enOrDisUpData (writeFeature c pos val)) a = enOrDisUpData (writeFeature c pos val) a := by
    by_cases hp : pos = 0x0f
    · rw [if_pos hp]
      exact writeSwitch_of_ne _ _ _ _ (hne .configDisplayBrightness (by decide) hp)
    · rw [if_neg hp]
  refine Eq.trans ?_ hbright
  unfold netWrite
  generalize (if pos = 0x0f then
      writeSwitch (enOrDisUpData (writeFeature c pos val)) .configDisplayBrightness val
    else enOrDisUpData (writeFeature c pos val)) = c1
  by_cases hip : 0x11 < pos ∧ pos < 0x16
  · rw [if_pos hip]
    exact writeIp_of_ne _ _ _ _ (by rintro rfl; exact h hip)
  rw [if_neg hip]
  by_cases h10 : pos = 0x10
  · rw [if_pos h10]
    exact Config.setGroup_of_ne _ _ _ _ (hne .configFormat (by decide) h10)
  rw [if_neg h10]
  by_cases h1c : pos = 0x1c
  · rw [if_pos h1c]
    exact Config.setGroup_of_ne _ _ _ _ (hne .configVideoInput (by decide) h1c)
  rw [if_neg h1c]
  by_cases h1d : pos = 0x1d
  · rw [if_pos h1d]
    exact Config.setGroup_of_ne _ _ _ _ (hne .configVideoOutput (by decide) h1d)
  rw [if_neg h1d]
  by_cases h1e : pos = 0x1e
  · rw [if_pos h1e]
    exact Function.update_of_ne (by rintro rfl; exact h h1e) ..
  rw [if_neg h1e]
  by_cases h1f : pos = 0x1f
  · rw [if_pos h1f]
    exact writeSwitch_of_ne _ _ _ _ (hne .configSrcMode (by decide) h1f)
  rw [if_neg h1f]
  by_cases h20 : pos = 0x20
  · rw [if_pos h20]
    exact Config.setGroup_of_ne _ _ _ _ (hne .configSrcSyncType (by decide) h20)
  rw [if_neg h20]
  by_cases h21 : pos = 0x21
  · rw [if_pos h21]
    exact Config.setGroup_of_ne _ _ _ _ (hne .configSrcClockType (by decide) h21)
  rw [if_neg h21]
  by_cases h22 : pos = 0x22
  · rw [if_pos h22]
    exact Config.setGroup_of_ne _ _ _ _ (hne .configSrcSyncFrame (by decide) h22)
  rw [if_neg h22]
  by_cases h23 : pos = 0x23
  · rw [if_pos h23]
    exact Config.setGroup_of_ne _ _ _ _ (hne .configDisplayMode (by decide) h23)
  rw [if_neg h23]

/-- what a network write makes of a group -/
def groupWrite (c : Config) (g : Group) (val : UInt8) : Fin g.num → UInt8 :=
  if g.IsSwitch then writeSwitch c g val g else setConfig val

theorem groupWrite_switch (c : Config) {g : Group} (h : g.IsSwitch) (val : UInt8) :
    groupWrite c g val = writeSwitch c g val g := if_pos h
theorem groupWrite_choice (c : Config) {g : Group} (h : ¬ g.IsSwitch) (val : UInt8) :
    groupWrite c g val = setConfig val := if_neg h

theorem writeSwitch_self (c c' : Config) (g : Group) (val : UInt8) (h : c g = c' g) :
    writeSwitch c g val g = writeSwitch c' g val g := by
  unfold writeSwitch
  split_ifs
  · rw [Config.setGroup_self, Config.setGroup_self]
  · rw [Config.setGroup_self, Config.setGroup_self]
  · exact h

theorem netWrite_group (c : Config) (val : UInt8) (g : Group) (hg : g ≠ .systemFeature) :
    netWrite c g.register val g = groupWrite c g val := by
  have hsame : ∀ (g : Group) (pos : UInt8), ¬ pos < 5 → g ≠ .configVideoInput →
      g ≠ .configVideoOutput → enOrDisUpData (writeFeature c pos val) g = c g := by
    intro g pos hpos hi ho
    rw [writeFeature_of_le c pos val hpos]
    exact enOrDisUpData_of_ne c g (fun e => hi (Arr.grp.inj e)) fun e => ho (Arr.grp.inj e)
  have hset : ∀ (pos : UInt8) (g : Group),
      (enOrDisUpData (writeFeature c pos val)).setGroup g (setConfig val) g = setConfig val :=
    fun pos g => Config.setGroup_self ..
  cases g with
  | systemFeature => exact absurd rfl hg
  | configFormat => exact hset 0x10 .configFormat
  | configVideoInput => exact hset 0x1c .configVideoInput
  | configVideoOutput => exact hset 0x1d .configVideoOutput
  | configSrcMode =>
    exact writeSwitch_self _ c _ val (hsame .configSrcMode 0x1f (by decide) (by decide) (by decide))
  | configSrcSyncType => exact hset 0x20 .configSrcSyncType
  | configSrcClockType => exact hset 0x21 .configSrcClockType
  | configSrcSyncFrame => exact hset 0x22 .configSrcSyncFrame
  | configDisplayMode => exact hset 0x23 .configDisplayMode
  | configDisplayBrightness =>
    exact writeSwitch_self _ c _ val
      (hsame .configDisplayBrightness 0x0f (by decide) (by decide) (by decide))

theorem netWrite_systemFeature (c : Config) (pos val : UInt8) :
    netWrite c pos val Group.systemFeature = writeFeature c pos val Group.systemFeature := by
  rw [netWrite_of_not c pos val Group.systemFeature not_false]
  exact enOrDisUpData_of_ne _ _ (by decide) (by decide)

/-- a group that no feature governs, at another register -/
theorem netWrite_plain (c : Config) (pos val : UInt8) (g : Group) (hg : g ≠ .systemFeature)
    (hi : g ≠ .configVideoInput) (ho : g ≠ .configVideoOutput) (hpos : pos ≠ g.register) :
    netWrite c pos val g = c g := by
  rw [netWrite_of_not c pos val g ((setAt_group hg pos).not.2 hpos),
    enOrDisUpData_of_ne _ _ (fun e => hi (Arr.grp.inj e)) fun e => ho (Arr.grp.inj e)]
  exact writeFeature_of_ne _ _ _ _ fun e => hg (Arr.grp.inj e)

/-- the features do not touch the arrays that are no groups -/
theorem features_of_ne (c : Config) (pos val : UInt8) (a : Arr) (ha : ∀ g : Group, a ≠ g) :
    enOrDisUpData (writeFeature c pos val) a = c a := by
  rw [enOrDisUpData_of_ne _ a (ha _) (ha _)]
  exact writeFeature_of_ne c pos val a (ha _)

theorem netWrite_mac (c : Config) (pos val : UInt8) : netWrite c pos val .mac = c .mac :=
  (netWrite_of_not c pos val .mac not_false).trans (features_of_ne c pos val .mac nofun)

theorem netWrite_ip (c : Config) (pos val : UInt8) (i : Fin (Arr.num .ip)) :
    netWrite c pos val .ip i = if pos.toNat = 0x12 + i.val then val else c .ip i := by
  have hsame := features_of_ne c pos val .ip nofun
  have hi : i.val < 4 := i.2
  by_cases hp : 0x11 < pos ∧ pos < 0x16
  · have h1 : 0x11 < pos.toNat := UInt8.lt_iff_toNat_lt.1 hp.1
    have h2 : pos.toNat < 0x16 := UInt8.lt_iff_toNat_lt.1 hp.2
    have hbound : pos.toNat - 0x12 < Arr.num .ip := by
      show pos.toNat - 0x12 < 4
      omega
    have hne : pos ≠ 0x0f := by
      rintro rfl
      exact absurd hp.1 (by decide)
    have heq : netWrite c pos val .ip = Function.update (c .ip) ⟨pos.toNat - 0x12, hbound⟩ val := by
      unfold netWrite
      rw [if_neg hne, if_pos hp, writeIp, dif_pos hbound, Function.update_self, hsame]
    rw [heq]
    by_cases e : pos.toNat = 0x12 + i.val
    · have hv : i.val = pos.toNat - 0x12 := by rw [e, Nat.add_sub_cancel_left]
      have hidx : i = ⟨pos.toNat - 0x12, hbound⟩ := Fin.ext hv
      rw [if_pos e, hidx, Function.update_self]
    · rw [if_neg e, Function.update_of_ne]
      intro hidx
      have hv : i.val = pos.toNat - 0x12 := congrArg Fin.val hidx
      omega
  · have hne : pos.toNat ≠ 0x12 + i.val := by
      intro e
      exact hp ⟨UInt8.lt_iff_toNat_lt.2 (by show 0x11 < _; omega),
        UInt8.lt_iff_toNat_lt.2 (by show _ < 0x16; omega)⟩
    rw [if_neg hne, netWrite_of_not c pos val .ip hp, hsame]

theorem netWrite_utcOffset (c : Config) (pos val : UInt8) :
    netWrite c pos val .utcOffset = if pos = 0x1e then fun _ => val else c .utcOffset := by
  by_cases hp : pos = 0x1e
  · rw [if_pos hp, hp]
    exact Function.update_self .utcOffset (fun _ => val) (enOrDisUpData (writeFeature c 0x1e val))
  · rw [if_neg hp, netWrite_of_not c pos val .utcOffset hp]
    exact features_of_ne c pos val .utcOffset nofun

/-! ## what an event does -/

/-- the array that an editor has changed, before the menu fields are copied -/
def SyncEvent.editArr (c : Config) : SyncEvent → Config
  | .editIp column temp => Function.update c .ip (Function.update (c .ip) column temp)
  | .editMac column temp => Function.update c .mac (Function.update (c .mac) column temp)
  | .editUtc column temp => Function.update c .utcOffset (Function.update (c .utcOffset) column temp)
  | .net _ _ _ | .select _ _ | .poll => c

def SyncEvent.IsEdit : SyncEvent → Prop
  | .editIp _ _ | .editMac _ _ | .editUtc _ _ => True
  | .net _ _ _ | .select _ _ | .poll => False

/-- the user array has been refreshed from the new arrays, but for the status byte -/
def Refreshed (d d' : Dev) : Prop :=
  ∃ r : Dev, r.arr = d'.arr ∧ r.userArr = d.userArr ∧
    ∀ k, k ≠ 0x11 → d'.userArr k = (updateUserArr r).userArr k

/-- what the event did that brought the device from `d` to `d'` -/
inductive Move (d d' : Dev) : SyncEvent → Prop
  | other (cmd pos val : UInt8) (hc : cmd ≠ 0x03) (same : d' = d) : Move d d' (.net cmd pos val)
  | write (cmd pos val : UInt8) (hc : cmd = 0x03) (arr : d'.arr = netWrite d.arr pos val)
      (menu : d'.menu = d.menu) (user : d'.userArr = Function.update d.userArr pos val) :
      Move d d' (.net cmd pos val)
  | unselected (g : Group) (which : Fin g.num) (hst : menuRadio g (d.menu g) which = none)
      (same : d' = d) : Move d d' (.select g which)
  | selected (g : Group) (which : Fin g.num) (st : Fin g.num → UInt8)
      (hst : menuRadio g (d.menu g) which = some st)
      (arr : d'.arr = menuToArr (Function.update d.menu g st) d.arr)
      (menu : d'.menu = Function.update d.menu g st) (user : Refreshed d d') :
      Move d d' (.select g which)
  | edited (e : SyncEvent) (he : e.IsEdit) (arr : d'.arr = menuToArr d.menu (e.editArr d.arr))
      (menu : d'.menu = d.menu) (user : Refreshed d d') : Move d d' e
  | quiet (hf : d.updateFlashFlag = false) (same : d' = d) : Move d d' .poll
  | polled (hf : d.updateFlashFlag = true) (arr : d'.arr = d.arr)
      (menu : ∀ g : Group, d'.menu g = d.arr g) (user : Refreshed d d') : Move d d' .poll

/-- a save refreshes -/
theorem refreshed_write2Flash (d e : Dev) (h : e.userArr = d.userArr) : Refreshed d (write2Flash e) := by
  refine ⟨{ e with flash := saveFlash e.flash e.arr, restore := 0x01 }, ?_, h, fun k _ => ?_⟩
  · rw [write2Flash_arr]
  · rw [write2Flash]

theorem move_net (d : Dev) (cmd pos val : UInt8) :
    Move d (devStep d (.net cmd pos val)) (.net cmd pos val) := by
  by_cases hc : cmd = 0x03
  · subst hc
    obtain ⟨harr, hmenu, -⟩ := sendUserData_write d pos val
    exact .write 0x03 pos val rfl harr hmenu rfl
  · exact .other cmd pos val hc (sendUserData_other d cmd pos val hc)

theorem move_select (d : Dev) (g : Group) (which : Fin g.num) :
    Move d (devStep d (.select g which)) (.select g which) := by
  cases hst : menuRadio g (d.menu g) which with
  | none => exact .unselected g which hst (selectRender_none d g which hst)
  | some st =>
    obtain ⟨harr, hmenu, -⟩ := selectRender_some d g which st hst
    have hset : ∀ e : Dev, (if toFpga g then setFpgaRegConfig e (Arr.addr g) 0 else e).arr = e.arr ∧
        (if toFpga g then setFpgaRegConfig e (Arr.addr g) 0 else e).userArr = e.userArr := by
      intro e
      by_cases ht : toFpga g = true
      · rw [if_pos ht]
        exact ⟨rfl, rfl⟩
      · rw [if_neg ht]
        exact ⟨rfl, rfl⟩
    have heq : devStep d (.select g which) = if toFpga g then
        setFpgaRegConfig (arrUpdate { d with menu := Function.update d.menu g st }) (Arr.addr g) 0
      else arrUpdate { d with menu := Function.update d.menu g st } := by
      show selectRender d g which = _
      rw [selectRender_eq, hst]
    obtain ⟨ha, hu⟩ := hset (arrUpdate { d with menu := Function.update d.menu g st })
    refine .selected g which st hst harr hmenu ?_
    rw [heq]
    unfold Refreshed
    rw [ha, hu]
    exact refreshed_write2Flash d _ rfl

theorem move_edit (d : Dev) (a : Arr) (column : Fin a.num) (temp : UInt8) (e : SyncEvent) (he : e.IsEdit)
    (ha : e.editArr d.arr = Function.update d.arr a (Function.update (d.arr a) column temp)) :
    Move d (editConfirm a d column temp) e := by
  refine .edited e he ?_ (arrUpdate_menu _) ?_
  · rw [ha]
    exact arrUpdate_arr _
  · exact refreshed_write2Flash d _ rfl

theorem move_poll (d : Dev) : Move d (devStep d .poll) .poll := by
  show Move d (pollUpdateFlash d) .poll
  unfold pollUpdateFlash
  cases hf : d.updateFlashFlag with
  | false => exact .quiet hf (if_neg Bool.false_ne_true)
  | true =>
    rw [if_pos rfl]
    refine .polled hf (write2Flash_arr _) (fun g => ?_) ?_
    · rw [write2Flash_menu]
      rfl
    · exact refreshed_write2Flash d _ rfl

/-- **Every event is one of these moves.** -/
theorem devStep_move (d : Dev) (e : SyncEvent) : Move d (devStep d e) e := by
  cases e with
  | net cmd pos val => exact move_net d cmd pos val
  | select g which => exact move_select d g which
  | editIp column temp => exact move_edit d .ip column temp _ trivial rfl
  | editMac column temp => exact move_edit d .mac column temp _ trivial rfl
  | editUtc column temp => exact move_edit d .utcOffset column temp _ trivial rfl
  | poll => exact move_poll d

theorem exists_move (d : Dev) (e : SyncEvent) : ∃ d', devStep d e = d' ∧ Move d d' e :=
  ⟨_, rfl, devStep_move d e⟩

end MenuFirmware
