import MenuFirmware.Config.Events

/-!
# Radio groups

Seven groups are meant to hold exactly one `MENU_SET`.  Menu choices and the two-way switches keep
that; the network setters take any byte, and one that is no choice clears the whole group.

* `radioGroups`, `Radio`   the seven groups, each with one choice;
* `ValidWrites`            a register of such a group is written with the number of a choice;
* `radioInv_good`, `radioInv_bad`  one event;
* `radio_iff`              from the default arrays the groups keep one choice iff all writes are
                           valid.
-/

set_option linter.unusedSectionVars false
set_option linter.unusedVariables false

namespace MenuFirmware
open Runs

def radioGroups : List Group :=
  [.configFormat, .configSrcMode, .configSrcSyncType, .configSrcClockType, .configSrcSyncFrame,
    .configDisplayMode, .configDisplayBrightness]

/-- exactly one `MENU_SET` -/
def OneChoice {n : Nat} (f : Fin n → UInt8) : Prop := ∃ k, IsChoice f k

def Radio (d : Dev) : Prop := ∀ g ∈ radioGroups, OneChoice (d.arr (Arr.grp g))

/-- a write to a choice register carries the number of a choice, counted from 1 -/
def ValidWrites (d : Dev) : SyncEvent → Prop
  | .net cmd pos val => cmd = 0x03 → ∀ g ∈ radioGroups, ¬ g.IsSwitch → pos = g.register →
      1 ≤ val.toNat ∧ val.toNat ≤ g.num
  | .select _ _ | .editIp _ _ | .editMac _ _ | .editUtc _ _ | .poll => True

/-- the groups and their menu fields have one choice -/
structure RadioInv (d : Dev) : Prop where
  arr : Radio d
  menu : ∀ g ∈ radioGroups, OneChoice (d.menu g)

/-! ## contents with one choice -/

theorem oneChoice_oneHot {n : Nat} (k : Fin n) : OneChoice (oneHot k) := ⟨k, isChoice_oneHot k⟩

/-- `Set_Config_*` marks an element exactly for the number of a choice -/
theorem setConfig_eq_menuSet {n : Nat} (val : UInt8) (i : Fin n) :
    setConfig val i = menuSet ↔ i.val + 1 = val.toNat := by
  unfold setConfig
  by_cases h : i.val + 1 = val.toNat
  · rw [if_pos h]
    exact iff_of_true rfl h
  · rw [if_neg h]
    exact iff_of_false (by decide) h

theorem oneChoice_setConfig {n : Nat} (val : UInt8) :
    OneChoice (@setConfig n val) ↔ 1 ≤ val.toNat ∧ val.toNat ≤ n := by
  constructor
  · rintro ⟨k, hk⟩
    have hset := (setConfig_eq_menuSet val k).1 ((hk k).2 rfl)
    have hlt := k.2
    omega
  · rintro ⟨h1, hn⟩
    refine ⟨⟨val.toNat - 1, by omega⟩, fun i => ?_⟩
    rw [setConfig_eq_menuSet, Fin.ext_iff]
    show i.val + 1 = val.toNat ↔ i.val = val.toNat - 1
    omega

/-- a two-way switch keeps one choice, whatever the value -/
theorem oneChoice_writeSwitch (c : Config) (g : Group) (hg : g.IsSwitch) (val : UInt8)
    (h : OneChoice (c (Arr.grp g))) : OneChoice (writeSwitch c g val (Arr.grp g)) := by
  have h2 : g.num = 2 := by
    rcases hg with rfl | rfl <;> rfl
  unfold writeSwitch
  split_ifs with h1 h0
  · rw [Config.setGroup_self]
    refine ⟨⟨0, by rw [Arr.num, h2]; decide⟩, fun i => ?_⟩
    rw [Fin.ext_iff]
    show (if i.val = 0 then menuSet else menuReset) = menuSet ↔ i.val = 0
    by_cases hi : i.val = 0
    · rw [if_pos hi]
      exact iff_of_true rfl hi
    · rw [if_neg hi]
      exact iff_of_false (by decide) hi
  · rw [Config.setGroup_self]
    refine ⟨⟨1, by rw [Arr.num, h2]; decide⟩, fun i => ?_⟩
    have hlt : i.val < 2 := h2 ▸ i.2
    rw [Fin.ext_iff]
    show (if i.val = 0 then menuReset else menuSet) = menuSet ↔ i.val = 1
    by_cases hi : i.val = 0
    · rw [if_pos hi]
      exact iff_of_false (by decide) (by omega)
    · rw [if_neg hi]
      exact iff_of_true rfl (by omega)
  · exact h

/-- a radio group is none of the groups that features touch -/
theorem radio_plain {g : Group} (hg : g ∈ radioGroups) :
    g ≠ .systemFeature ∧ g ≠ .configVideoInput ∧ g ≠ .configVideoOutput := by
  refine ⟨?_, ?_, ?_⟩ <;> rintro rfl <;> exact absurd hg (by decide)

/-- **A network write** and a radio group -/
theorem netWrite_oneChoice (c : Config) (pos val : UInt8) (g : Group) (hg : g ∈ radioGroups)
    (h : OneChoice (c (Arr.grp g))) :
    OneChoice (netWrite c pos val (Arr.grp g)) ↔
      (¬ g.IsSwitch → pos = g.register → 1 ≤ val.toNat ∧ val.toNat ≤ g.num) := by
  obtain ⟨hs, hi, ho⟩ := radio_plain hg
  by_cases hpos : pos = g.register
  · subst hpos
    by_cases hsw : g.IsSwitch
    · rw [netWrite_group c val g hs, groupWrite_switch c hsw]
      exact iff_of_true (oneChoice_writeSwitch c g hsw val h) fun hn => absurd hsw hn
    · rw [netWrite_group c val g hs, groupWrite_choice c hsw]
      exact (oneChoice_setConfig val).trans ⟨fun hv _ _ => hv, fun hv => hv hsw rfl⟩
  · rw [netWrite_plain c pos val g hs hi ho hpos]
    exact iff_of_true h fun _ e => absurd e hpos

/-! ## runs -/

/-- a menu choice in a radio group is a choice -/
theorem menuRadio_oneChoice {g : Group} (hg : g ∈ radioGroups) (old st : Fin g.num → UInt8)
    (which : Fin g.num) (hst : menuRadio g old which = some st) : OneChoice st := by
  have h : some (oneHot which) = some st := by
    simp only [radioGroups, List.mem_cons, List.not_mem_nil, or_false] at hg
    rcases hg with rfl | rfl | rfl | rfl | rfl | rfl | rfl <;> exact hst
  rw [← Option.some.inj h]
  exact oneChoice_oneHot which

theorem update_oneChoice {m : Menu} (h : ∀ g ∈ radioGroups, OneChoice (m g)) {g : Group}
    {st : Fin g.num → UInt8} {which : Fin g.num} (hst : menuRadio g (m g) which = some st) :
    ∀ g' ∈ radioGroups, OneChoice (Function.update m g st g') := by
  intro g' hg'
  by_cases e : g' = g
  · subst e
    rw [Function.update_self]
    exact menuRadio_oneChoice hg' (m g') st which hst
  · rw [Function.update_of_ne e]
    exact h g' hg'

theorem radioInv_good (d : Dev) (e : SyncEvent) (h : RadioInv d) (hv : ValidWrites d e) :
    RadioInv (devStep d e) := by
  obtain ⟨d', hd', hmove⟩ := exists_move d e
  rw [hd']
  cases hmove with
  | other cmd pos val hc same => exact same ▸ h
  | write cmd pos val hc arr menu user =>
    refine ⟨fun g hg => ?_, menu ▸ h.menu⟩
    rw [arr]
    exact (netWrite_oneChoice d.arr pos val g hg (h.arr g hg)).2 (hv hc g hg)
  | unselected g which hst same => exact same ▸ h
  | selected g which st hst arr menu user =>
    have hm := update_oneChoice h.menu hst
    refine ⟨fun g' hg' => ?_, menu ▸ hm⟩
    rw [arr]
    exact hm g' hg'
  | edited e he arr menu user =>
    refine ⟨fun g hg => ?_, menu ▸ h.menu⟩
    rw [arr]
    exact h.menu g hg
  | quiet hf same => exact same ▸ h
  | polled hf arr menu user =>
    refine ⟨fun g hg => ?_, fun g hg => ?_⟩
    · rw [arr]
      exact h.arr g hg
    · rw [menu]
      exact h.arr g hg

theorem radioInv_bad (d : Dev) (e : SyncEvent) (h : RadioInv d) (hv : ¬ ValidWrites d e) :
    ¬ Radio (devStep d e) := by
  intro hr
  apply hv
  cases e with
  | net cmd pos val =>
    rintro rfl g hg
    have hone := hr g hg
    rw [show (devStep d (.net 0x03 pos val)).arr = _ from (sendUserData_write d pos val).1] at hone
    exact (netWrite_oneChoice d.arr pos val g hg (h.arr g hg)).1 hone
  | select g which => trivial
  | editIp column temp => trivial
  | editMac column temp => trivial
  | editUtc column temp => trivial
  | poll => trivial

/-- the default arrays, also in the menu fields -/
def onDefaults (d : Dev) : Dev := arrInit { d with arr := defaultArr }

theorem onDefaults_inv (d : Dev) : RadioInv (onDefaults d) := by
  have h : ∀ g ∈ radioGroups, OneChoice (defaultArr (Arr.grp g)) := by
    intro g hg
    simp only [radioGroups, List.mem_cons, List.not_mem_nil, or_false] at hg
    rcases hg with rfl | rfl | rfl | rfl | rfl | rfl | rfl <;> exact oneChoice_oneHot _
  exact ⟨h, h⟩

/-- **The radio groups.**  From the default arrays each of them keeps exactly one choice iff every
value written to one of their choice registers is the number of a choice. -/
theorem radio_iff (d : Dev) (es : List SyncEvent) :
    Always devStep Radio (onDefaults d) es ↔ Along devStep ValidWrites (onDefaults d) es :=
  Always_iff_Along (fun _ h => h.arr) radioInv_good radioInv_bad (onDefaults_inv d)

/-- the value 0 leaves no format -/
theorem format_zero_clears :
    ¬ Always devStep Radio (onDefaults blankDev) [.net 0x03 0x10 0] := by
  rintro ⟨-, hr⟩
  refine radioInv_bad _ _ (onDefaults_inv blankDev) (fun hv => ?_) hr
  exact absurd (hv rfl .configFormat (by decide) (by decide) rfl).1 (by decide)

end MenuFirmware
