import MenuFirmware.Config.Network
import MenuFirmware.Fpga.Replay

/-!
# Two writers of the settings

Network writes go to the arrays, and the menu fields learn of them at the next poll; menu choices
go to the menu fields, and ALL arrays are overwritten from these at once.  `last` is the ghost
record of the last value written to each array, by either path.

* `SyncEvent`, `syncStep`   the events, in any order, and their effect on device and ghost;
* `Settled`                 arrays, menu fields and flash hold the last values written;
* `NoLoss`                  the next poll settles: nothing written has been lost;
* `NoStale`                 no group other than the one chosen has a stale menu field;
* `syncStep_good`, `syncStep_bad`  a step that meets `NoStale` loses nothing, one that does not
                            loses a write;
* `noLoss_iff`              a run loses nothing iff each of its steps meets `NoStale`.
-/

set_option linter.unusedSectionVars false
set_option linter.unusedVariables false

namespace MenuFirmware
open Runs Nor

/-! ## events -/

inductive SyncEvent where
  /-- a command from the network -/
  | net (cmd pos val : UInt8)
  /-- a choice in a settings menu -/
  | select (g : Group) (which : Fin g.num)
  | editIp (column : Fin (Arr.num .ip)) (temp : UInt8)
  | editMac (column : Fin (Arr.num .mac)) (temp : UInt8)
  | editUtc (column : Fin (Arr.num .utcOffset)) (temp : UInt8)
  | poll

/-- the device, and the last value written to each array -/
structure Ghost where
  dev : Dev
  last : Config

/-- the array that a network write is about, `none` for a write without effect -/
def netTarget (pos val : UInt8) : Option Arr :=
  if pos < 5 then if val = 0 ∨ val = 1 then some Group.systemFeature else none
  else if pos = 0x0f then if val = 0 ∨ val = 1 then some Group.configDisplayBrightness else none
  else if 0x11 < pos ∧ pos < 0x16 then some .ip
  else if pos = 0x10 then some Group.configFormat
  else if pos = 0x1c then some Group.configVideoInput
  else if pos = 0x1d then some Group.configVideoOutput
  else if pos = 0x1e then some .utcOffset
  else if pos = 0x1f then if val = 0 ∨ val = 1 then some Group.configSrcMode else none
  else if pos = 0x20 then some Group.configSrcSyncType
  else if pos = 0x21 then some Group.configSrcClockType
  else if pos = 0x22 then some Group.configSrcSyncFrame
  else if pos = 0x23 then some Group.configDisplayMode
  else none

/-- the ghost after a network write: the target, and the video groups that change with it -/
def lastNet (last c c' : Config) (pos val : UInt8) : Config :=
  fun a => if netTarget pos val = some a ∨ c' a ≠ c a then c' a else last a

def syncStep (s : Ghost) : SyncEvent → Ghost
  | .net cmd pos val =>
    let d := (sendUserData s.dev cmd pos val).2
    ⟨d, if cmd = 0x03 then lastNet s.last s.dev.arr d.arr pos val else s.last⟩
  | .select g which =>
    ⟨selectRender s.dev g which, match menuRadio g (s.dev.menu g) which with
      | none => s.last
      | some st => s.last.setGroup g st⟩
  | .editIp column temp =>
    ⟨configNetworkIpConfirm s.dev column temp,
      Function.update s.last .ip (Function.update (s.dev.arr .ip) column temp)⟩
  | .editMac column temp =>
    ⟨configNetworkMacConfirm s.dev column temp,
      Function.update s.last .mac (Function.update (s.dev.arr .mac) column temp)⟩
  | .editUtc column temp =>
    ⟨configGpsConfirm s.dev column temp,
      Function.update s.last .utcOffset (Function.update (s.dev.arr .utcOffset) column temp)⟩
  | .poll => ⟨pollUpdateFlash s.dev, s.last⟩

/-! ## what is to hold -/

structure Settled (s : Ghost) : Prop where
  arr : s.dev.arr = s.last
  menu : ∀ g : Group, s.dev.menu g = s.last g
  flash : Holds s.dev.flash.mem s.last 0x01

/-- after the next poll everything holds the last values written -/
def NoLoss (s : Ghost) : Prop := Settled (syncStep s .poll)

/-- the menu fields of all groups but `g` agree with the arrays -/
def FreshBut (d : Dev) (g : Group) : Prop := ∀ g' : Group, g' ≠ g → d.menu g' = d.arr g'

def Fresh (d : Dev) : Prop := ∀ g : Group, d.menu g = d.arr g

def NoStale (s : Ghost) : SyncEvent → Prop
  | .select g which => menuRadio g (s.dev.menu g) which = none ∨ FreshBut s.dev g
  | .editIp _ _ | .editMac _ _ | .editUtc _ _ => Fresh s.dev
  | .net _ _ _ | .poll => True

/-- what a run without loss keeps: the arrays are always up to date, and without a pending poll so
is the rest -/
structure SyncInv (s : Ghost) : Prop where
  allOk : s.dev.flash.AllOk
  arr : s.dev.arr = s.last
  settled : s.dev.updateFlashFlag = false → Settled s

/-! ## saves -/

theorem write2Flash_holds (d : Dev) (h : d.flash.AllOk) :
    (write2Flash d).flash.AllOk ∧ Holds (write2Flash d).flash.mem d.arr 0x01 := by
  rw [write2Flash_flash, saveFlash_allOk d.flash d.arr h, Flash.after_mem]
  exact ⟨(Flash.after_allOk _ _).2 h, Holds_saveOps d.flash.mem d.arr⟩

theorem arrUpdate_holds (d : Dev) (h : d.flash.AllOk) :
    (arrUpdate d).flash.AllOk ∧
      Holds (arrUpdate d).flash.mem (menuToArr d.menu d.arr) 0x01 :=
  write2Flash_holds { d with arr := menuToArr d.menu d.arr } h

theorem pollUpdateFlash_arr (d : Dev) : (pollUpdateFlash d).arr = d.arr := by
  unfold pollUpdateFlash
  by_cases h : d.updateFlashFlag
  · rw [if_pos h, write2Flash_arr]
    rfl
  · rw [if_neg h]

theorem poll_settled (s : Ghost) (h : SyncInv s) :
    (syncStep s .poll).dev.flash.AllOk ∧ Settled (syncStep s .poll) := by
  show (pollUpdateFlash s.dev).flash.AllOk ∧ Settled ⟨pollUpdateFlash s.dev, s.last⟩
  unfold pollUpdateFlash
  by_cases hf : s.dev.updateFlashFlag = true
  · rw [if_pos hf]
    obtain ⟨hok, hh⟩ := write2Flash_holds (arrInit { s.dev with updateFlashFlag := false }) h.allOk
    change Holds _ s.dev.arr 0x01 at hh
    rw [h.arr] at hh
    refine ⟨hok, ?_, ?_, hh⟩
    · show (write2Flash _).arr = s.last
      rw [write2Flash_arr]
      exact h.arr
    · intro g
      show (write2Flash _).menu g = s.last g
      rw [write2Flash_menu]
      exact congrFun h.arr g
  · rw [if_neg hf]
    exact ⟨h.allOk, h.settled (Bool.eq_false_of_not_eq_true hf)⟩

theorem SyncInv.noLoss {s : Ghost} (h : SyncInv s) : NoLoss s := (poll_settled s h).2

/-! ## steps without loss -/

theorem Settled.syncInv {s : Ghost} (h : Settled s) (hok : s.dev.flash.AllOk) : SyncInv s :=
  ⟨hok, h.arr, fun _ => h⟩

theorem net_good (s : Ghost) (cmd pos val : UInt8) (h : SyncInv s) :
    SyncInv (syncStep s (.net cmd pos val)) := by
  by_cases hc : cmd = 0x03
  · subst hc
    obtain ⟨harr, hmenu, hflash, hflag⟩ := sendUserData_write s.dev pos val
    refine ⟨?_, ?_, ?_⟩
    · show (sendUserData s.dev 0x03 pos val).2.flash.AllOk
      rw [hflash]
      exact h.allOk
    · show (sendUserData s.dev 0x03 pos val).2.arr
        = lastNet s.last s.dev.arr (sendUserData s.dev 0x03 pos val).2.arr pos val
      funext a
      unfold lastNet
      by_cases ha : netTarget pos val = some a ∨ (sendUserData s.dev 0x03 pos val).2.arr a ≠ s.dev.arr a
      · rw [if_pos ha]
      · rw [if_neg ha]
        rw [not_or, not_not] at ha
        rw [ha.2, h.arr]
    · intro hf
      exact absurd (hflag.symm.trans hf) nofun
  · have hs : syncStep s (.net cmd pos val) = s := by
      show (⟨(sendUserData s.dev cmd pos val).2, if cmd = 0x03 then _ else s.last⟩ : Ghost) = s
      rw [sendUserData_other s.dev cmd pos val hc, if_neg hc]
    rw [hs]
    exact h

theorem syncStep_select (s : Ghost) (g : Group) (which : Fin g.num) :
    syncStep s (.select g which) = ⟨selectRender s.dev g which,
      match menuRadio g (s.dev.menu g) which with
      | none => s.last
      | some st => s.last.setGroup g st⟩ := rfl

theorem select_good (s : Ghost) (g : Group) (which : Fin g.num) (h : SyncInv s)
    (hg : menuRadio g (s.dev.menu g) which = none ∨ FreshBut s.dev g) :
    SyncInv (syncStep s (.select g which)) := by
  cases hst : menuRadio g (s.dev.menu g) which with
  | none =>
    have hs : syncStep s (.select g which) = s := by
      rw [syncStep_select, selectRender_none s.dev g which hst, hst]
    rw [hs]
    exact h
  | some st =>
    have hfresh : FreshBut s.dev g := hg.resolve_left (by rw [hst]; exact nofun)
    have hs : syncStep s (.select g which) = ⟨selectRender s.dev g which, s.last.setGroup g st⟩ := by
      rw [syncStep_select, hst]
    obtain ⟨ha, hm, hfl⟩ := selectRender_some s.dev g which st hst
    obtain ⟨hok, hh⟩ := arrUpdate_holds { s.dev with menu := Function.update s.dev.menu g st } h.allOk
    have harr : menuToArr (Function.update s.dev.menu g st) s.dev.arr = s.last.setGroup g st := by
      rw [menuToArr_update _ _ g st hfresh, h.arr]
    rw [hs]
    apply Settled.syncInv
    · refine ⟨ha.trans harr, ?_, ?_⟩
      · intro g'
        show (selectRender s.dev g which).menu g' = s.last.setGroup g st g'
        rw [hm, ← harr]
        rfl
      · show Holds (selectRender s.dev g which).flash.mem _ 0x01
        rw [hfl, ← harr]
        exact hh
    · show (selectRender s.dev g which).flash.AllOk
      rw [hfl]
      exact hok

/-- the three editors -/
theorem edit_good (s : Ghost) (a : Arr) (ha : ∀ g : Group, a ≠ g) (column : Fin a.num)
    (temp : UInt8) (h : SyncInv s) (hf : Fresh s.dev) :
    SyncInv ⟨editConfirm a s.dev column temp,
      Function.update s.last a (Function.update (s.dev.arr a) column temp)⟩ := by
  have hne : ∀ g : Group, Arr.grp g ≠ a := fun g => (ha g).symm
  have harr : menuToArr s.dev.menu (Function.update s.dev.arr a
      (Function.update (s.dev.arr a) column temp))
      = Function.update s.last a (Function.update (s.dev.arr a) column temp) := by
    rw [menuToArr_of_eq, h.arr]
    intro g
    rw [Function.update_of_ne (hne g)]
    exact hf g
  obtain ⟨hok, hh⟩ := arrUpdate_holds
    (s.dev.setArr a (Function.update (s.dev.arr a) column temp)) h.allOk
  apply Settled.syncInv
  · refine ⟨?_, ?_, ?_⟩
    · exact (arrUpdate_arr _).trans harr
    · intro g
      show (arrUpdate _).menu g = _
      rw [arrUpdate_menu, ← harr]
      rfl
    · rw [← harr]
      exact hh
  · exact hok

/-- **A step that meets `NoStale`** loses nothing. -/
theorem syncStep_good (s : Ghost) (e : SyncEvent) (h : SyncInv s) (hg : NoStale s e) :
    SyncInv (syncStep s e) := by
  cases e with
  | net cmd pos val => exact net_good s cmd pos val h
  | select g which => exact select_good s g which h hg
  | editIp column temp => exact edit_good s .ip nofun column temp h hg
  | editMac column temp => exact edit_good s .mac nofun column temp h hg
  | editUtc column temp => exact edit_good s .utcOffset nofun column temp h hg
  | poll =>
    obtain ⟨hok, hs⟩ := poll_settled s h
    exact hs.syncInv hok

/-! ## steps with a loss -/

theorem NoLoss.arr {s : Ghost} (h : NoLoss s) : s.dev.arr = s.last := by
  have ha := Settled.arr h
  change (pollUpdateFlash s.dev).arr = s.last at ha
  rwa [pollUpdateFlash_arr] at ha

/-- an editor overwrites a group whose menu field is stale -/
theorem edit_bad (s : Ghost) (a : Arr) (ha : ∀ g : Group, a ≠ g) (column : Fin a.num)
    (temp : UInt8) (h : SyncInv s) (hf : ¬ Fresh s.dev) :
    ¬ NoLoss ⟨editConfirm a s.dev column temp,
      Function.update s.last a (Function.update (s.dev.arr a) column temp)⟩ := by
  intro hn
  apply hf
  intro g
  have hg := congrFun hn.arr (Arr.grp g)
  change (arrUpdate _).arr (Arr.grp g) = Function.update s.last a _ (Arr.grp g) at hg
  rw [arrUpdate_arr, menuToArr_grp, Function.update_of_ne (ha g).symm, ← h.arr] at hg
  exact hg

/-- **A step that does not meet `NoStale`** loses a write. -/
theorem syncStep_bad (s : Ghost) (e : SyncEvent) (h : SyncInv s) (hg : ¬ NoStale s e) :
    ¬ NoLoss (syncStep s e) := by
  cases e with
  | net cmd pos val => exact absurd trivial hg
  | poll => exact absurd trivial hg
  | editIp column temp => exact edit_bad s .ip nofun column temp h hg
  | editMac column temp => exact edit_bad s .mac nofun column temp h hg
  | editUtc column temp => exact edit_bad s .utcOffset nofun column temp h hg
  | select g which =>
    obtain ⟨hst, hf⟩ := not_or.1 hg
    obtain ⟨st, hst⟩ := Option.ne_none_iff_exists'.1 hst
    intro hn
    apply hf
    intro g' hne
    have ha := congrFun hn.arr (Arr.grp g')
    rw [syncStep_select, hst] at ha
    change (selectRender s.dev g which).arr (Arr.grp g') = s.last.setGroup g st g' at ha
    rw [(selectRender_some s.dev g which st hst).1, menuToArr_grp, Function.update_of_ne hne,
      Config.setGroup_grp_of_ne _ _ _ _ hne, ← h.arr] at ha
    exact ha

/-! ## runs -/

/-- **No write is lost**, exactly: from a settled device, whatever the order of network commands,
menu choices, edits and polls, the next poll settles after every step iff every choice and edit
finds the menu fields of the other groups up to date. -/
theorem noLoss_iff (s : Ghost) (es : List SyncEvent) (h : Settled s) (hok : s.dev.flash.AllOk) :
    Always syncStep NoLoss s es ↔ Along syncStep NoStale s es :=
  Always_iff_Along (fun _ hi => hi.noLoss) syncStep_good syncStep_bad (h.syncInv hok)

/-- a device that has started from a flash that holds `c` is settled -/
theorem settled_startUp (d : Dev) (c : Config) (h : Holds d.flash.mem c 0x01) :
    Settled ⟨startUp d, c⟩ := by
  obtain ⟨harr, hmenu⟩ := startUp_holds d c h
  have hfl : (boot (powerOn d)).flash = d.flash := (boot_one (powerOn d) c h).2.2.1
  refine ⟨harr, hmenu, ?_⟩
  show Holds (boot (powerOn d)).flash.mem c 0x01
  rw [hfl]
  exact h

/-- the default device after its start -/
def started : Ghost := ⟨startUp (savedDev defaultArr), defaultArr⟩

theorem started_settled : Settled started :=
  settled_startUp (savedDev defaultArr) defaultArr (savedDev_holds defaultArr)

theorem started_allOk : started.dev.flash.AllOk := by
  have hfl := (boot_one (powerOn (savedDev defaultArr)) defaultArr (savedDev_holds defaultArr)).2.2.1
  show (boot (powerOn (savedDev defaultArr))).flash.AllOk
  rw [hfl]
  exact blankDev_allOk

/-- the client writes the third format and the poll saves it -/
theorem noLoss_iff_write_poll :
    Always syncStep NoLoss started [.net 0x03 0x10 3, .poll] ↔
      Along syncStep NoStale started [.net 0x03 0x10 3, .poll] :=
  noLoss_iff started [.net 0x03 0x10 3, .poll] started_settled started_allOk

/-- the client writes the third format, and before the poll the brightness is chosen in the menu -/
theorem choice_loses_format :
    Settled started ∧ ¬ Always syncStep NoLoss started
      [.net 0x03 0x10 3, .select .configDisplayBrightness ⟨1, by decide⟩] := by
  refine ⟨started_settled, ?_⟩
  rintro ⟨_, _, hn⟩
  have hi := syncStep_good started (.net 0x03 0x10 3) (started_settled.syncInv started_allOk) trivial
  refine syncStep_bad _ _ hi ?_ hn
  rintro (h | h)
  · exact absurd h nofun
  · have hf := congrFun (h .configFormat (by decide)) ⟨2, by decide⟩
    obtain ⟨harr, hmenu, -⟩ := sendUserData_write started.dev 0x10 3
    change (sendUserData started.dev 0x03 0x10 3).2.menu .configFormat _
      = (sendUserData started.dev 0x03 0x10 3).2.arr (Arr.grp .configFormat) _ at hf
    rw [harr, hmenu, started_settled.arr, started_settled.menu .configFormat] at hf
    exact absurd hf (by decide)

end MenuFirmware
