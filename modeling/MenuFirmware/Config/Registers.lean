import MenuFirmware.Config.Gating
import MenuFirmware.Config.Radio
import MenuFirmware.Lib.Writes

/-!
# What a client reads (`Update_User_Arr`)

`Update_User_Arr` fills the user array from the settings, field by field.  It never writes the four
bytes `0x12` to `0x15`, which `Update_Flash_Arr` decodes as the IP address.

* `ReadsRight`         every register that is mapped to a setting reads as its current value;
* `updateUserArr_*`    the bytes after a refresh;
* `Coded`              contents that the codes can tell apart; `coded_step`: every event keeps that;
* `readsRight_iff`     from the boot on, the registers read right after every refresh iff the
                       boot finds the IP address 0.0.0.0, and an edit of the IP address stores only
                       what the client has written there before.
-/

set_option linter.unusedSectionVars false
set_option linter.unusedVariables false

namespace MenuFirmware
open Runs Writes

/-! ## codes -/

/-- what a network read of `pos` answers -/
def readReg (d : Dev) (pos : UInt8) : UInt8 := (sendUserData d 0x02 pos 0).1.getD 2 0

theorem readReg_eq (d : Dev) (pos : UInt8) : readReg d pos = d.userArr pos := rfl

/-- a feature, as `Update_Flash_Arr` decodes it -/
def CodesFeature (x b : UInt8) : Prop := b = 1 ∧ x = menuSet ∨ b = 0 ∧ x = menuReset

/-- a choice: the number that `Set_Config_*` turns into it -/
def CodesChoice {n : Nat} (f : Fin n → UInt8) (b : UInt8) : Prop :=
  ∀ i, setConfig b i = menuSet ↔ f i = menuSet

/-- a two-way switch: 1 for its first element, 0 for the second -/
def CodesSwitch {n : Nat} (f : Fin n → UInt8) (b : UInt8) : Prop :=
  b = 1 ∧ (∀ i, f i = menuSet ↔ i.val = 0) ∨ b = 0 ∧ ∀ i, f i = menuSet ↔ i.val ≠ 0

structure ReadsRight (d : Dev) : Prop where
  feature : ∀ i, CodesFeature (d.arr Group.systemFeature i) (readReg d (UInt8.ofNat i))
  choice : ∀ g : Group, g ≠ .systemFeature → ¬ g.IsSwitch →
    CodesChoice (d.arr g) (readReg d g.register)
  switch : ∀ g : Group, g.IsSwitch → CodesSwitch (d.arr g) (readReg d g.register)
  ip : ∀ i : Fin (Arr.num .ip), readReg d (UInt8.ofNat (0x12 + i)) = d.arr .ip i
  mac : ∀ i : Fin (Arr.num .mac), readReg d (UInt8.ofNat (0x16 + i)) = d.arr .mac i
  utc : readReg d 0x1e = d.arr.utcOffsetNum

/-- contents that the codes can tell apart -/
structure Coded (m : Menu) : Prop where
  feature : ∀ i, m .systemFeature i = menuSet ∨ m .systemFeature i = menuReset
  choice : ∀ g : Group, g ≠ .systemFeature → ¬ g.IsSwitch →
    ∀ i j, m g i = menuSet → m g j = menuSet → i = j
  switch : ∀ g : Group, g.IsSwitch → OneChoice (m g)

/-! ## the bytes after a refresh -/

/-- a buffer at `pos`, `pos + 1`, … as writes -/
def cells (pos : Nat) : List UInt8 → List (UInt8 × UInt8)
  | [] => []
  | b :: bs => (UInt8.ofNat pos, b) :: cells (pos + 1) bs

theorem fillUser_eq (u : UserArr) (pos : Nat) (l : List UInt8) :
    fillUser u pos l = applyAll u (cells pos l) := by
  induction l generalizing u pos with
  | nil => rfl
  | cons b l ih => exact ih _ _

/-- the version bytes -/
def versionCells (d : Dev) : List (UInt8 × UInt8) :=
  cells 5 (List.ofFn getSw) ++ (getFw d).elim [] (cells 10)

/-- what is written behind the versions -/
def settingCells (d : Dev) : List (UInt8 × UInt8) :=
  [(0x0f, getFirst (d.arr Group.configDisplayBrightness)),
    (0x10, getConfig (d.arr Group.configFormat)), (0x11, d.statusFlag)] ++
  cells 0x16 (d.arr.buf .mac) ++
  [(0x1c, getConfig (d.arr Group.configVideoInput)),
    (0x1d, getConfig (d.arr Group.configVideoOutput)), (0x1e, d.arr.utcOffsetNum),
    (0x1f, getFirst (d.arr Group.configSrcMode)),
    (0x20, getConfig (d.arr Group.configSrcSyncType)),
    (0x21, getConfig (d.arr Group.configSrcClockType)),
    (0x22, getConfig (d.arr Group.configSrcSyncFrame)),
    (0x23, getConfig (d.arr Group.configDisplayMode)), (0x24, d.hw)]

theorem updateUserArr_userArr (d : Dev) :
    (updateUserArr d).userArr =
      applyAll (fillFeatures d.userArr 0 (d.arr.buf Group.systemFeature))
        (versionCells d ++ settingCells d) := by
  unfold updateUserArr versionCells settingCells
  cases hfw : getFw d with
  | none =>
    simp only [fillUser_eq, applyAll_append, Option.elim_none, List.append_nil]
    rfl
  | some fw =>
    simp only [fillUser_eq, applyAll_append, Option.elim_some]
    rfl

theorem cells_keys (pos : Nat) (l : List UInt8) :
    (cells pos l).map Prod.fst = (List.range' pos l.length).map UInt8.ofNat := by
  induction l generalizing pos with
  | nil => rfl
  | cons b l ih =>
    rw [cells, List.map_cons, ih, List.length_cons, List.range'_succ, List.map_cons]

theorem mem_cells (pos : Nat) (l : List UInt8) (j : Nat) (h : j < l.length) :
    (UInt8.ofNat (pos + j), l[j]) ∈ cells pos l := by
  induction l generalizing pos j with
  | nil => exact absurd h (Nat.not_lt_zero j)
  | cons b l ih =>
    cases j with
    | zero => exact List.mem_cons_self
    | succ j =>
      have hj := ih (pos + 1) j (Nat.lt_of_succ_lt_succ h)
      rw [Nat.add_assoc, Nat.add_comm 1] at hj
      exact List.mem_cons_of_mem _ hj

/-- the registers behind the versions, in order -/
def settingKeys : List UInt8 :=
  [0x0f, 0x10, 0x11, 0x16, 0x17, 0x18, 0x19, 0x1a, 0x1b, 0x1c, 0x1d, 0x1e, 0x1f, 0x20, 0x21, 0x22,
    0x23, 0x24]

theorem settingCells_keys (d : Dev) : (settingCells d).map Prod.fst = settingKeys := by
  unfold settingCells
  rw [List.map_append, List.map_append, cells_keys, Config.buf_length]
  rfl

theorem getFw_length {d : Dev} {fw : List UInt8} (h : getFw d = some fw) : fw.length = 5 := by
  have hlen : (List.ofFn d.fwRegNum).length = 5 := List.length_ofFn
  unfold getFw at h
  generalize List.ofFn d.fwRegNum = l at h hlen
  cases l with
  | nil => exact absurd h nofun
  | cons b bs =>
    change (if b ≠ 0 then some (b :: bs) else none) = some fw at h
    by_cases hb : b ≠ 0
    · rw [if_pos hb] at h
      rw [← Option.some.inj h, hlen]
    · rw [if_neg hb] at h
      exact absurd h nofun

theorem versionCells_keys (d : Dev) :
    (versionCells d).map Prod.fst ⊆ (List.range' 5 10).map UInt8.ofNat := by
  have hsw : (cells 5 (List.ofFn getSw)).map Prod.fst ⊆ (List.range' 5 10).map UInt8.ofNat := by
    rw [cells_keys, List.length_ofFn]
    decide
  unfold versionCells
  rw [List.map_append]
  refine List.append_subset.2 ⟨hsw, ?_⟩
  cases hfw : getFw d with
  | none => exact List.nil_subset _
  | some fw =>
    rw [Option.elim_some, cells_keys, getFw_length hfw]
    decide

/-- **A refreshed byte.** -/
theorem updateUserArr_setting (d : Dev) (k v : UInt8) (h : (k, v) ∈ settingCells d) :
    (updateUserArr d).userArr k = v := by
  rw [updateUserArr_userArr, applyAll_append]
  refine applyAll_mem _ _ k v h ?_
  rw [settingCells_keys]
  decide

/-- the bytes before the settings -/
theorem updateUserArr_other (d : Dev) (k : UInt8) (hs : k ∉ settingKeys)
    (hv : k ∉ (List.range' 5 10).map UInt8.ofNat) :
    (updateUserArr d).userArr k
      = fillFeatures d.userArr 0 (d.arr.buf Group.systemFeature) k := by
  rw [updateUserArr_userArr, applyAll_outside]
  rw [List.map_append, List.mem_append, settingCells_keys, not_or]
  exact ⟨fun h => hv (versionCells_keys d h), hs⟩

/-- a feature whose content is neither set nor reset keeps its byte -/
def featureByte (x old : UInt8) : UInt8 :=
  if x = menuSet then 1 else if x = menuReset then 0 else old

theorem fillFeatures_cons (u : UserArr) (pos : Nat) (b : UInt8) (l : List UInt8) :
    fillFeatures u pos (b :: l)
      = fillFeatures (setUser u pos (featureByte b (u (UInt8.ofNat pos)))) (pos + 1) l := by
  have h : (if b = menuSet then setUser u pos 1 else if b = menuReset then setUser u pos 0 else u)
      = setUser u pos (featureByte b (u (UInt8.ofNat pos))) := by
    unfold setUser featureByte
    by_cases h1 : b = menuSet
    · rw [if_pos h1, if_pos h1]
    · by_cases h0 : b = menuReset
      · rw [if_neg h1, if_neg h1, if_pos h0, if_pos h0]
      · rw [if_neg h1, if_neg h1, if_neg h0, if_neg h0, Function.update_eq_self]
  rw [fillFeatures, h]

theorem fillFeatures_outside (u : UserArr) (pos : Nat) (l : List UInt8) (k : UInt8)
    (h : k ∉ (List.range' pos l.length).map UInt8.ofNat) : fillFeatures u pos l k = u k := by
  induction l generalizing u pos with
  | nil => rfl
  | cons b l ih =>
    rw [List.length_cons, List.range'_succ, List.map_cons, List.mem_cons, not_or] at h
    rw [fillFeatures_cons, ih _ _ h.2]
    exact Function.update_of_ne h.1 ..

theorem fillFeatures_get (u : UserArr) (pos : Nat) (l : List UInt8) (hb : pos + l.length ≤ 256)
    (j : Nat) (hj : j < l.length) :
    fillFeatures u pos l (UInt8.ofNat (pos + j)) = featureByte l[j] (u (UInt8.ofNat (pos + j))) := by
  have hinj : ∀ a b : Nat, a < 256 → b < 256 → UInt8.ofNat a = UInt8.ofNat b → a = b := by
    intro a b ha hb e
    have ht := congrArg UInt8.toNat e
    rw [UInt8.toNat_ofNat', UInt8.toNat_ofNat'] at ht
    omega
  induction l generalizing u pos j with
  | nil => exact absurd hj (Nat.not_lt_zero j)
  | cons b l ih =>
    rw [List.length_cons] at hb hj
    rw [fillFeatures_cons]
    cases j with
    | zero =>
      rw [fillFeatures_outside]
      · exact Function.update_self ..
      · intro hm
        obtain ⟨x, hx, e⟩ := List.mem_map.1 hm
        rw [List.mem_range'_1] at hx
        have := hinj x pos (by omega) (by omega) e
        omega
    | succ j =>
      have hne : UInt8.ofNat (pos + (j + 1)) ≠ UInt8.ofNat pos := by
        intro e
        have := hinj _ _ (by omega) (by omega) e
        omega
      have hget := ih (setUser u pos (featureByte b (u (UInt8.ofNat pos)))) (pos + 1) (by omega) j
        (by omega)
      rw [Nat.add_assoc, Nat.add_comm 1 j] at hget
      rw [hget]
      exact congrArg (featureByte _) (Function.update_of_ne hne ..)

/-! ## codes of contents -/

theorem codesFeature_iff (x old : UInt8) :
    CodesFeature x (featureByte x old) ↔ x = menuSet ∨ x = menuReset := by
  unfold CodesFeature featureByte
  by_cases h1 : x = menuSet
  · rw [if_pos h1]
    exact iff_of_true (Or.inl ⟨rfl, h1⟩) (Or.inl h1)
  · by_cases h0 : x = menuReset
    · rw [if_neg h1, if_pos h0]
      exact iff_of_true (Or.inr ⟨rfl, h0⟩) (Or.inr h0)
    · rw [if_neg h1, if_neg h0]
      exact ⟨fun h => h.imp And.right And.right, fun h => absurd h (not_or.2 ⟨h1, h0⟩)⟩

theorem firstSet_some {n : Nat} {f : Fin n → UInt8} {k : Fin n} (h : firstSet f = some k) :
    f k = menuSet := by
  have hs := List.find?_some h
  exact beq_iff_eq.1 hs

theorem firstSet_none {n : Nat} {f : Fin n → UInt8} (h : firstSet f = none) (i : Fin n) :
    f i ≠ menuSet :=
  fun e => List.find?_eq_none.1 h i (List.mem_finRange i) (beq_iff_eq.2 e)

theorem getConfig_some {n : Nat} {f : Fin n → UInt8} {k : Fin n} (h : firstSet f = some k) :
    getConfig f = UInt8.ofNat (k + 1) := by
  rw [getConfig, h]

theorem getConfig_none {n : Nat} {f : Fin n → UInt8} (h : firstSet f = none) : getConfig f = 0 := by
  rw [getConfig, h]

theorem codesChoice_iff {n : Nat} (hn : n < 256) (f : Fin n → UInt8) :
    CodesChoice f (getConfig f) ↔ ∀ i j, f i = menuSet → f j = menuSet → i = j := by
  unfold CodesChoice
  cases hf : firstSet f with
  | none =>
    have hno := firstSet_none hf
    rw [getConfig_none hf]
    refine iff_of_true (fun i => ?_) fun i j hi => absurd hi (hno i)
    rw [setConfig_eq_menuSet]
    exact iff_of_false (Nat.succ_ne_zero _) (hno i)
  | some k =>
    have hk := firstSet_some hf
    have hcode : ∀ i, setConfig (getConfig f) i = menuSet ↔ i = k := by
      intro i
      have hlt := k.2
      rw [setConfig_eq_menuSet, getConfig_some hf, UInt8.toNat_ofNat', Fin.ext_iff,
        Nat.mod_eq_of_lt (by omega), Nat.add_right_cancel_iff]
    constructor
    · intro h i j hi hj
      exact ((hcode i).1 ((h i).2 hi)).trans ((hcode j).1 ((h j).2 hj)).symm
    · intro h i
      rw [hcode]
      exact ⟨fun e => e ▸ hk, fun hi => h i k hi hk⟩

theorem codesSwitch_iff (f : Fin 2 → UInt8) : CodesSwitch f (getFirst f) ↔ OneChoice f := by
  constructor
  · rintro (⟨-, h⟩ | ⟨-, h⟩)
    · exact ⟨0, fun i => (h i).trans (Fin.ext_iff (a := i) (b := 0)).symm⟩
    · refine ⟨1, fun i => (h i).trans ?_⟩
      rw [Fin.ext_iff]
      show i.val ≠ 0 ↔ i.val = 1
      omega
  · rintro ⟨k, hk⟩
    have hcases : k = 0 ∨ k = 1 := by omega
    unfold getFirst
    rcases hcases with rfl | rfl
    · left
      refine ⟨if_pos ((hk 0).2 rfl), fun i => (hk i).trans Fin.ext_iff⟩
    · right
      refine ⟨if_neg fun h => absurd ((hk 0).1 h) (by decide), fun i => (hk i).trans ?_⟩
      rw [Fin.ext_iff]
      show i.val = 1 ↔ i.val ≠ 0
      omega

/-! ## a refresh -/

theorem Group.num_lt (g : Group) : g.num < 256 := by cases g <;> decide

/-- a group's register after a refresh -/
theorem updateUserArr_choice (d : Dev) (g : Group) (hg : g ≠ .systemFeature) (hs : ¬ g.IsSwitch) :
    (updateUserArr d).userArr g.register = getConfig (d.arr g) := by
  apply updateUserArr_setting
  cases g with
  | systemFeature => exact absurd rfl hg
  | configSrcMode => exact absurd (Or.inl rfl) hs
  | configDisplayBrightness => exact absurd (Or.inr rfl) hs
  | configFormat => simp [settingCells, Group.register]
  | configVideoInput => simp [settingCells, Group.register]
  | configVideoOutput => simp [settingCells, Group.register]
  | configSrcSyncType => simp [settingCells, Group.register]
  | configSrcClockType => simp [settingCells, Group.register]
  | configSrcSyncFrame => simp [settingCells, Group.register]
  | configDisplayMode => simp [settingCells, Group.register]

theorem updateUserArr_feature (d : Dev) (i : Fin (Group.num .systemFeature)) :
    (updateUserArr d).userArr (UInt8.ofNat i)
      = featureByte (d.arr Group.systemFeature i) (d.userArr (UInt8.ofNat i)) := by
  have hkeys : ∀ i : Fin 5, UInt8.ofNat i ∉ settingKeys ∧
      UInt8.ofNat i ∉ (List.range' 5 10).map UInt8.ofNat := by decide
  have hlen : (d.arr.buf Group.systemFeature).length = 5 := d.arr.buf_length _
  have hlt : i.val < (d.arr.buf Group.systemFeature).length := by
    rw [hlen]
    exact i.2
  have hget : (d.arr.buf Group.systemFeature)[i.val] = d.arr Group.systemFeature i :=
    List.getElem_ofFn ..
  rw [updateUserArr_other d _ (hkeys i).1 (hkeys i).2]
  have h := fillFeatures_get d.userArr 0 (d.arr.buf Group.systemFeature) (by omega) i hlt
  rw [Nat.zero_add, hget] at h
  exact h

/-- the IP bytes are left alone -/
theorem updateUserArr_ip (d : Dev) (i : Fin (Arr.num .ip)) :
    (updateUserArr d).userArr (UInt8.ofNat (0x12 + i)) = d.userArr (UInt8.ofNat (0x12 + i)) := by
  have hkeys : ∀ i : Fin 4, UInt8.ofNat (0x12 + i) ∉ settingKeys ∧
      UInt8.ofNat (0x12 + i) ∉ (List.range' 5 10).map UInt8.ofNat ∧
      UInt8.ofNat (0x12 + i) ∉ (List.range' 0 5).map UInt8.ofNat := by decide
  rw [updateUserArr_other d _ (hkeys i).1 (hkeys i).2.1, fillFeatures_outside]
  rw [Config.buf_length]
  exact (hkeys i).2.2

theorem updateUserArr_mac (d : Dev) (i : Fin (Arr.num .mac)) :
    (updateUserArr d).userArr (UInt8.ofNat (0x16 + i)) = d.arr .mac i := by
  have hlt : i.val < (d.arr.buf .mac).length := by
    rw [Config.buf_length]
    exact i.2
  have hget : (d.arr.buf .mac)[i.val] = d.arr .mac i := List.getElem_ofFn ..
  have hmem := mem_cells 0x16 (d.arr.buf .mac) i hlt
  rw [hget] at hmem
  exact updateUserArr_setting d _ _
    (List.mem_append_left _ (List.mem_append_right _ hmem))

section
variable {r d : Dev} (ha : d.arr = r.arr)
  (hu : ∀ k, k ≠ 0x11 → d.userArr k = (updateUserArr r).userArr k)

include hu in
theorem refresh_ip (i : Fin (Arr.num .ip)) :
    readReg d (UInt8.ofNat (0x12 + i)) = r.userArr (UInt8.ofNat (0x12 + i)) := by
  have hne : ∀ i : Fin 4, UInt8.ofNat (0x12 + i) ≠ 0x11 := by decide
  rw [readReg_eq, hu _ (hne i), updateUserArr_ip]

include ha hu

theorem refresh_feature (i : Fin (Group.num .systemFeature)) : readReg d (UInt8.ofNat i)
    = featureByte (d.arr Group.systemFeature i) (r.userArr (UInt8.ofNat i)) := by
  have hne : ∀ i : Fin 5, UInt8.ofNat i ≠ 0x11 := by decide
  rw [readReg_eq, hu _ (hne i), updateUserArr_feature, ha]

theorem refresh_choice (g : Group) (hg : g ≠ .systemFeature) (hs : ¬ g.IsSwitch) :
    readReg d g.register = getConfig (d.arr g) := by
  have hne : g.register ≠ 0x11 := by cases g <;> decide
  rw [readReg_eq, hu _ hne, updateUserArr_choice r g hg hs, ha]

theorem refresh_mac (i : Fin (Arr.num .mac)) : readReg d (UInt8.ofNat (0x16 + i)) = d.arr .mac i := by
  have hne : ∀ i : Fin 6, UInt8.ofNat (0x16 + i) ≠ 0x11 := by decide
  rw [readReg_eq, hu _ (hne i), updateUserArr_mac, ha]

theorem refresh_utc : readReg d 0x1e = d.arr.utcOffsetNum := by
  rw [readReg_eq, hu _ (by decide), ha]
  exact updateUserArr_setting r _ _ (by simp [settingCells])

theorem refresh_switch (g : Group) (hs : g.IsSwitch) :
    CodesSwitch (d.arr g) (readReg d g.register) ↔ OneChoice (d.arr g) := by
  rcases hs with rfl | rfl
  · have h : readReg d Group.configSrcMode.register = getFirst (d.arr Group.configSrcMode) := by
      rw [readReg_eq, hu _ (by decide), ha]
      exact updateUserArr_setting r _ _ (by simp [settingCells, Group.register])
    rw [h]
    exact codesSwitch_iff (d.arr Group.configSrcMode)
  · have h : readReg d Group.configDisplayBrightness.register
        = getFirst (d.arr Group.configDisplayBrightness) := by
      rw [readReg_eq, hu _ (by decide), ha]
      exact updateUserArr_setting r _ _ (by simp [settingCells, Group.register])
    rw [h]
    exact codesSwitch_iff (d.arr Group.configDisplayBrightness)

/-- **A refresh** makes the registers read right exactly when the contents are coded and the IP
bytes, which it leaves alone, happen to be right. -/
theorem readsRight_refresh : ReadsRight d ↔ Coded r.arr.groups ∧
    ∀ i : Fin (Arr.num .ip), r.userArr (UInt8.ofNat (0x12 + i)) = r.arr .ip i := by
  rw [← ha]
  constructor
  · intro h
    refine ⟨⟨fun i => ?_, fun g hg hs => ?_, fun g hs => ?_⟩, fun i => ?_⟩
    · have hf := h.feature i
      rw [refresh_feature ha hu i] at hf
      exact (codesFeature_iff _ _).1 hf
    · have hc := h.choice g hg hs
      rw [refresh_choice ha hu g hg hs] at hc
      exact (codesChoice_iff g.num_lt _).1 hc
    · exact (refresh_switch ha hu g hs).1 (h.switch g hs)
    · rw [← refresh_ip hu, h.ip]
  · rintro ⟨hc, hi⟩
    refine ⟨fun i => ?_, fun g hg hs => ?_, fun g hs => ?_, fun i => ?_, refresh_mac ha hu,
      refresh_utc ha hu⟩
    · rw [refresh_feature ha hu i]
      exact (codesFeature_iff _ _).2 (hc.feature i)
    · rw [refresh_choice ha hu g hg hs]
      exact (codesChoice_iff g.num_lt _).2 (hc.choice g hg hs)
    · exact (refresh_switch ha hu g hs).2 (hc.switch g hs)
    · rw [refresh_ip hu, hi]

end

/-! ## contents stay coded -/

/-- a choice in the menu marks the item and no other -/
theorem menuRadio_set {g : Group} (old st : Fin g.num → UInt8) (which : Fin g.num)
    (hst : menuRadio g old which = some st) (i : Fin g.num) (hi : st i = menuSet) : i = which := by
  have hvideo : (g = .configVideoInput ∨ g = .configVideoOutput) → i = which := by
    intro hg
    have hold : ¬ old i = nonOperate := by
      rw [← menuRadio_marks hg old st which hst i, hi]
      decide
    rw [menuRadio_video hg old st which hst i, if_pos hold] at hi
    exact oneHot_eq_menuSet.1 hi
  cases g with
  | systemFeature => exact absurd hst nofun
  | configVideoInput => exact hvideo (Or.inl rfl)
  | configVideoOutput => exact hvideo (Or.inr rfl)
  | configFormat => exact oneHot_eq_menuSet.1 (Option.some.inj hst ▸ hi)
  | configSrcMode => exact oneHot_eq_menuSet.1 (Option.some.inj hst ▸ hi)
  | configSrcSyncType => exact oneHot_eq_menuSet.1 (Option.some.inj hst ▸ hi)
  | configSrcClockType => exact oneHot_eq_menuSet.1 (Option.some.inj hst ▸ hi)
  | configSrcSyncFrame => exact oneHot_eq_menuSet.1 (Option.some.inj hst ▸ hi)
  | configDisplayMode => exact oneHot_eq_menuSet.1 (Option.some.inj hst ▸ hi)
  | configDisplayBrightness => exact oneHot_eq_menuSet.1 (Option.some.inj hst ▸ hi)

theorem coded_select {m : Menu} (h : Coded m) {g : Group} {st : Fin g.num → UInt8}
    {which : Fin g.num} (hst : menuRadio g (m g) which = some st) :
    Coded (Function.update m g st) := by
  have hne : Group.systemFeature ≠ g := by
    rintro rfl
    exact absurd hst nofun
  refine ⟨fun i => ?_, fun g' hg' hs => ?_, fun g' hs => ?_⟩
  · rw [Function.update_of_ne hne]
    exact h.feature i
  · by_cases e : g' = g
    · subst e
      rw [Function.update_self]
      intro i j hi hj
      exact (menuRadio_set _ _ _ hst i hi).trans (menuRadio_set _ _ _ hst j hj).symm
    · rw [Function.update_of_ne e]
      exact h.choice g' hg' hs
  · by_cases e : g' = g
    · subst e
      rw [Function.update_self]
      have hradio : g' ∈ radioGroups := by rcases hs with rfl | rfl <;> decide
      exact menuRadio_oneChoice hradio (m g') st which hst
    · rw [Function.update_of_ne e]
      exact h.switch g' hs

theorem writeFeature_coded {c : Config} (pos val : UInt8)
    (h : ∀ i, c.groups .systemFeature i = menuSet ∨ c.groups .systemFeature i = menuReset)
    (i : Fin (Group.num .systemFeature)) :
    (writeFeature c pos val).groups .systemFeature i = menuSet ∨
      (writeFeature c pos val).groups .systemFeature i = menuReset := by
  have hupd : ∀ (hp : pos.toNat < Group.num .systemFeature) (x : UInt8),
      (x = menuSet ∨ x = menuReset) →
      Function.update (c.groups .systemFeature) ⟨pos.toNat, hp⟩ x i = menuSet ∨
        Function.update (c.groups .systemFeature) ⟨pos.toNat, hp⟩ x i = menuReset := by
    intro hp x hx
    by_cases e : i = ⟨pos.toNat, hp⟩
    · rw [e, Function.update_self]
      exact hx
    · rw [Function.update_of_ne e]
      exact h i
  have hself : ∀ st, (c.setGroup .systemFeature st).groups .systemFeature = st :=
    fun st => Config.setGroup_self c .systemFeature st
  unfold writeFeature
  split_ifs with hp h1 h0
  · rw [hself]
    exact hupd hp menuSet (Or.inl rfl)
  · rw [hself]
    exact hupd hp menuReset (Or.inr rfl)
  · exact h i
  · exact h i

/-- a feature marks, but it never chooses -/
theorem operable_eq_menuSet (feature old : UInt8) (h : operable feature old = menuSet) :
    old = menuSet := by
  unfold operable at h
  split_ifs at h
  · exact absurd h (by decide)
  · exact absurd h (by decide)
  · exact h

theorem setConfig_unique {n : Nat} (val : UInt8) (i j : Fin n) (hi : setConfig val i = menuSet)
    (hj : setConfig val j = menuSet) : i = j := by
  rw [setConfig_eq_menuSet] at hi hj
  exact Fin.ext (by omega)

theorem coded_write {c : Config} (h : Coded c.groups) (pos val : UInt8) :
    Coded (netWrite c pos val).groups := by
  refine ⟨fun i => ?_, fun g hg hs => ?_, fun g hs => ?_⟩
  · rw [netWrite_features]
    exact writeFeature_coded pos val h.feature i
  · by_cases hpos : pos = g.register
    · have heq : (netWrite c pos val).groups g = setConfig val := by
        rw [hpos]
        exact (netWrite_group c val g hg).trans (groupWrite_choice c hs val)
      rw [heq]
      exact setConfig_unique val
    · -- a feature at most
      have hset : ∀ i, (netWrite c pos val).groups g i = menuSet → c.groups g i = menuSet := by
        by_cases hi : g = .configVideoInput
        · subst hi
          intro i hnew
          have hop := (netWrite_videoInput c pos val i).trans (if_neg hpos)
          exact operable_eq_menuSet _ _ (hop.symm.trans hnew)
        · by_cases ho : g = .configVideoOutput
          · subst ho
            intro i hnew
            have hop := (netWrite_videoOutput c pos val i).trans (if_neg hpos)
            exact operable_eq_menuSet _ _ (hop.symm.trans hnew)
          · intro i hnew
            exact (congrFun (netWrite_plain c pos val g hg hi ho hpos) i).symm.trans hnew
      exact fun i j hi hj => h.choice g hg hs i j (hset i hi) (hset j hj)
  · have hradio : g ∈ radioGroups := by rcases hs with rfl | rfl <;> decide
    exact (netWrite_oneChoice c pos val g hradio (h.switch g hs)).2 fun hn => absurd hs hn

/-- **Every event** keeps the contents coded. -/
theorem coded_step (d : Dev) (e : SyncEvent) (ha : Coded d.arr.groups) (hm : Coded d.menu) :
    Coded (devStep d e).arr.groups ∧ Coded (devStep d e).menu := by
  obtain ⟨d', hd', hmove⟩ := exists_move d e
  rw [hd']
  cases hmove with
  | other cmd pos val hc same => exact same ▸ ⟨ha, hm⟩
  | write cmd pos val hc arr menu user => exact ⟨arr ▸ coded_write ha pos val, menu ▸ hm⟩
  | unselected g which hst same => exact same ▸ ⟨ha, hm⟩
  | selected g which st hst arr menu user =>
    have hsel := coded_select hm hst
    refine ⟨?_, menu ▸ hsel⟩
    rw [arr]
    exact hsel
  | edited e he arr menu user =>
    refine ⟨?_, menu ▸ hm⟩
    rw [arr]
    exact hm
  | quiet hf same => exact same ▸ ⟨ha, hm⟩
  | polled hf arr menu user =>
    have hmenu : d'.menu = d.arr.groups := funext menu
    exact ⟨arr ▸ ha, hmenu ▸ ha⟩

/-! ## the tick -/

theorem setStatus_userArr (d : Dev) (status k : UInt8) (hk : k ≠ 0x11) :
    (setStatus d status).userArr k = d.userArr k := by
  unfold setStatus
  split_ifs
  · exact Function.update_of_ne hk ..
  · exact Function.update_of_ne hk ..
  · rfl
  · rfl

theorem replayEnd_quiet (v : ReplayVars) (d : Dev) (h : v.addr ≤ 0xB8) : (replayEnd v d).2 = d := by
  unfold replayEnd
  rw [if_neg (Nat.not_lt.2 h)]

/-- the last address of the walk -/
theorem tick_refreshed (v : ReplayVars) (d : Dev) (h : v.addr = 0xB8 ∧ 500 ≤ v.timeout) :
    Refreshed d (powerOnReadRegOnce (v, d)).2 := by
  have heq : (powerOnReadRegOnce (v, d)).2 = setStatus (updateUserArr d) 0 := by
    unfold powerOnReadRegOnce
    simp only [h.1, if_pos h.2]
    rfl
  rw [heq]
  exact ⟨d, (Ticked_setStatus _ 0).arr.symm, rfl, fun k hk => setStatus_userArr _ 0 k hk⟩

/-- the ticks before it, and those after -/
theorem tick_quiet (v : ReplayVars) (d : Dev) (h : ¬ (v.addr = 0xB8 ∧ 500 ≤ v.timeout)) (k : UInt8)
    (hk : k ≠ 0x11) : (powerOnReadRegOnce (v, d)).2.userArr k = d.userArr k := by
  unfold powerOnReadRegOnce
  by_cases ha : v.addr ≤ 0xB8
  · by_cases ht : 500 ≤ v.timeout
    · have hlt : v.addr + 1 ≤ 0xB8 := by omega
      simp only [if_pos ha, if_pos ht]
      by_cases h80 : v.addr ≤ 0x80
      · rw [if_pos h80]
        by_cases h0 : v.addr = 0
        · rw [if_pos h0]
          by_cases hf : v.fpgaFlag = false
          · rw [if_pos hf, replayEnd_quiet { v with fpgaFlag := true } d ha]
          · rw [if_neg hf, replayEnd_quiet { v with addr := v.addr + 1 } d hlt]
        · rw [if_neg h0, replayEnd_quiet { v with addr := v.addr + 1 } _ hlt]
          rfl
      · rw [if_neg h80, replayEnd_quiet { v with addr := v.addr + 1 } d hlt]
    · simp only [if_pos ha, if_neg ht]
      exact setStatus_userArr d 2 k hk
  · simp only [if_neg ha]

theorem tick_same (v : ReplayVars) (d : Dev) :
    (powerOnReadRegOnce (v, d)).2.arr = d.arr ∧ (powerOnReadRegOnce (v, d)).2.menu = d.menu := by
  rcases powerOnReadRegOnce_cases v d with ⟨-, h⟩ | ⟨-, -, -, h⟩ | ⟨-, -, -, -, h⟩ | ⟨-, -, -, -, h⟩
  · rw [h]
    exact ⟨rfl, rfl⟩
  · exact ⟨h.arr, h.menu⟩
  · exact ⟨h.arr, h.menu⟩
  · exact ⟨h.arr, h.menu⟩

/-! ## runs -/

/-- the device under its client -/
structure Served where
  dev : Dev
  vars : ReplayVars
  /-- ghost: the last bytes that the client has written to `0x12` to `0x15` -/
  netIp : Fin (Arr.num .ip) → UInt8
  /-- ghost: the last event has called `Update_User_Arr` -/
  refreshed : Bool

inductive ServedEvent where
  | set (e : SyncEvent)
  /-- `Power_On_Read_Reg_Once` -/
  | tick

def netIpAfter (netIp : Fin (Arr.num .ip) → UInt8) : SyncEvent → Fin (Arr.num .ip) → UInt8
  | .net cmd pos val, i => if cmd = 0x03 ∧ pos.toNat = 0x12 + i.val then val else netIp i
  | .select _ _, i | .editIp _ _, i | .editMac _ _, i | .editUtc _ _, i | .poll, i => netIp i

def callsUpdateUserArr (s : Served) : ServedEvent → Bool
  | .set (.net _ _ _) => false
  | .set (.select g which) => (menuRadio g (s.dev.menu g) which).isSome
  | .set (.editIp _ _) | .set (.editMac _ _) | .set (.editUtc _ _) => true
  | .set .poll => s.dev.updateFlashFlag
  | .tick => decide (s.vars.addr = 0xB8 ∧ 500 ≤ s.vars.timeout)

def servedStep (s : Served) : ServedEvent → Served
  | .set e =>
    ⟨devStep s.dev e, s.vars, netIpAfter s.netIp e, callsUpdateUserArr s (.set e)⟩
  | .tick =>
    ⟨(powerOnReadRegOnce (s.vars, s.dev)).2, (powerOnReadRegOnce (s.vars, s.dev)).1, s.netIp,
      callsUpdateUserArr s .tick⟩

/-- power-on, up to the main loop; `ReadFlash2Arr` has called `Update_User_Arr` -/
def servedStart (d : Dev) : Served := ⟨startUp d, replayStart, fun _ => 0, true⟩

def RightAfterRefresh (s : Served) : Prop := s.refreshed = true → ReadsRight s.dev

/-- an edit of the IP address stores the byte that the client has written last -/
def IpFromClient (s : Served) : ServedEvent → Prop
  | .set (.editIp column temp) => temp = s.netIp column
  | .set (.net _ _ _) | .set (.select _ _) | .set (.editMac _ _) | .set (.editUtc _ _)
  | .set .poll | .tick => True

structure ServedInv (s : Served) : Prop where
  arr : Coded s.dev.arr.groups
  menu : Coded s.dev.menu
  user : ∀ i : Fin (Arr.num .ip), s.dev.userArr (UInt8.ofNat (0x12 + i)) = s.netIp i
  ip : s.dev.arr .ip = s.netIp
  right : RightAfterRefresh s

theorem refreshed_reads {d d' : Dev} (h : Refreshed d d') : ReadsRight d' ↔
    Coded d'.arr.groups ∧
      ∀ i : Fin (Arr.num .ip), d.userArr (UInt8.ofNat (0x12 + i)) = d'.arr .ip i := by
  obtain ⟨r, ha, hu, hk⟩ := h
  rw [readsRight_refresh ha.symm hk, ha, hu]

theorem refreshed_ip {d d' : Dev} (h : Refreshed d d') (i : Fin (Arr.num .ip)) :
    d'.userArr (UInt8.ofNat (0x12 + i)) = d.userArr (UInt8.ofNat (0x12 + i)) := by
  obtain ⟨r, -, hu, hk⟩ := h
  have hne : ∀ i : Fin 4, UInt8.ofNat (0x12 + i) ≠ 0x11 := by decide
  rw [hk _ (hne i), updateUserArr_ip, hu]

/-- a refresh from the invariant -/
theorem servedInv_refreshed {s : Served} (h : ServedInv s) {d' : Dev} {v : ReplayVars} {b : Bool}
    (hr : Refreshed s.dev d') (ha : Coded d'.arr.groups) (hm : Coded d'.menu)
    (hip : d'.arr .ip = s.dev.arr .ip) : ServedInv ⟨d', v, s.netIp, b⟩ := by
  refine ⟨ha, hm, fun i => ?_, hip.trans h.ip, fun _ => ?_⟩
  · exact (refreshed_ip hr i).trans (h.user i)
  · refine (refreshed_reads hr).2 ⟨ha, fun i => ?_⟩
    rw [h.user, hip, h.ip]

theorem netIpAfter_net (netIp : Fin (Arr.num .ip) → UInt8) (cmd pos val : UInt8)
    (i : Fin (Arr.num .ip)) : netIpAfter netIp (.net cmd pos val) i
      = if cmd = 0x03 ∧ pos.toNat = 0x12 + i.val then val else netIp i := rfl

/-- a network write to the bytes of the IP address -/
theorem write_ip (s : Served) (h : ServedInv s) (pos val : UInt8) (i : Fin (Arr.num .ip)) :
    Function.update s.dev.userArr pos val (UInt8.ofNat (0x12 + i))
        = netIpAfter s.netIp (.net 0x03 pos val) i ∧
      netWrite s.dev.arr pos val .ip i = netIpAfter s.netIp (.net 0x03 pos val) i := by
  have hpos : UInt8.ofNat (0x12 + i) = pos ↔ pos.toNat = 0x12 + i.val := by
    have hi : i.val < 4 := i.2
    rw [← UInt8.toNat_inj, UInt8.toNat_ofNat', Nat.mod_eq_of_lt (by omega)]
    exact eq_comm
  have hip := congrFun h.ip i
  rw [netWrite_ip, netIpAfter_net]
  by_cases hp : pos.toNat = 0x12 + i.val
  · rw [hpos.2 hp, Function.update_self, if_pos hp, if_pos ⟨rfl, hp⟩]
    exact ⟨rfl, rfl⟩
  · rw [Function.update_of_ne (hpos.not.2 hp), if_neg hp, if_neg fun hn => hp hn.2]
    exact ⟨h.user i, hip⟩

theorem served_set (s : Served) (e : SyncEvent) (h : ServedInv s) (hg : IpFromClient s (.set e)) :
    ServedInv (servedStep s (.set e)) := by
  obtain ⟨hca, hcm⟩ := coded_step s.dev e h.arr h.menu
  have hmove := devStep_move s.dev e
  show ServedInv ⟨devStep s.dev e, s.vars, netIpAfter s.netIp e, callsUpdateUserArr s (.set e)⟩
  revert hmove hca hcm
  generalize devStep s.dev e = d'
  intro hca hcm hmove
  cases hmove with
  | other cmd pos val hc same =>
    have hn : netIpAfter s.netIp (.net cmd pos val) = s.netIp :=
      funext fun i => if_neg fun hn => hc hn.1
    rw [same, hn]
    exact ⟨h.arr, h.menu, h.user, h.ip, nofun⟩
  | write cmd pos val hc arr menu user =>
    subst hc
    refine ⟨hca, hcm, fun i => ?_, funext fun i => ?_, nofun⟩
    · show d'.userArr _ = _
      rw [user]
      exact (write_ip s h pos val i).1
    · show d'.arr .ip i = _
      rw [arr]
      exact (write_ip s h pos val i).2
  | unselected g which hst same =>
    rw [same]
    refine ⟨h.arr, h.menu, h.user, h.ip, fun hr => ?_⟩
    change (menuRadio g (s.dev.menu g) which).isSome = true at hr
    rw [hst] at hr
    exact absurd hr nofun
  | selected g which st hst arr menu user =>
    exact servedInv_refreshed h user hca hcm (by rw [arr]; rfl)
  | edited e he arr menu user =>
    have hip : d'.arr .ip = s.dev.arr .ip := by
      rw [arr]
      show e.editArr s.dev.arr .ip = s.dev.arr .ip
      cases e with
      | net cmd pos val => rfl
      | select g which => rfl
      | poll => rfl
      | editIp column temp =>
        show Function.update s.dev.arr .ip _ .ip = _
        have htemp : temp = s.netIp column := hg
        rw [Function.update_self, htemp, ← h.ip, Function.update_eq_self]
      | editMac column temp =>
        exact Function.update_of_ne (show Arr.ip ≠ .mac by decide) _ s.dev.arr
      | editUtc column temp =>
        exact Function.update_of_ne (show Arr.ip ≠ .utcOffset by decide) _ s.dev.arr
    have hnet : netIpAfter s.netIp e = s.netIp := by
      cases e with
      | net cmd pos val => exact absurd he id
      | select g which => rfl
      | poll => rfl
      | editIp column temp => rfl
      | editMac column temp => rfl
      | editUtc column temp => rfl
    rw [hnet]
    exact servedInv_refreshed h user hca hcm hip
  | quiet hf same =>
    rw [same]
    refine ⟨h.arr, h.menu, h.user, h.ip, fun hr => ?_⟩
    change s.dev.updateFlashFlag = true at hr
    rw [hf] at hr
    exact absurd hr nofun
  | polled hf arr menu user =>
    exact servedInv_refreshed h user hca hcm (by rw [arr])

theorem served_tick (s : Served) (h : ServedInv s) : ServedInv (servedStep s .tick) := by
  obtain ⟨harr, hmenu⟩ := tick_same s.vars s.dev
  have hca : Coded (powerOnReadRegOnce (s.vars, s.dev)).2.arr.groups := harr ▸ h.arr
  have hcm : Coded (powerOnReadRegOnce (s.vars, s.dev)).2.menu := hmenu ▸ h.menu
  by_cases hv : s.vars.addr = 0xB8 ∧ 500 ≤ s.vars.timeout
  · exact servedInv_refreshed h (tick_refreshed s.vars s.dev hv) hca hcm (by rw [harr])
  · have hne : ∀ i : Fin 4, UInt8.ofNat (0x12 + i) ≠ 0x11 := by decide
    refine ⟨hca, hcm, fun i => ?_, ?_, fun hr => ?_⟩
    · exact (tick_quiet s.vars s.dev hv _ (hne i)).trans (h.user i)
    · exact (congrFun harr .ip).trans h.ip
    · exact absurd (of_decide_eq_true hr) hv

theorem served_good (s : Served) (e : ServedEvent) (h : ServedInv s) (hg : IpFromClient s e) :
    ServedInv (servedStep s e) := by
  cases e with
  | set e => exact served_set s e h hg
  | tick => exact served_tick s h

/-- an edit of the IP address shows up nowhere in the registers -/
theorem served_bad (s : Served) (e : ServedEvent) (h : ServedInv s) (hg : ¬ IpFromClient s e) :
    ¬ RightAfterRefresh (servedStep s e) := by
  cases e with
  | tick => exact absurd trivial hg
  | set e =>
    cases e with
    | net cmd pos val => exact absurd trivial hg
    | select g which => exact absurd trivial hg
    | editMac column temp => exact absurd trivial hg
    | editUtc column temp => exact absurd trivial hg
    | poll => exact absurd trivial hg
    | editIp column temp =>
      intro hr
      have hright : ReadsRight (devStep s.dev (.editIp column temp)) := hr rfl
      have hmove := devStep_move s.dev (.editIp column temp)
      revert hright hmove
      generalize devStep s.dev (.editIp column temp) = d'
      intro hright hmove
      cases hmove with
      | edited e he arr menu user =>
        have hip := ((refreshed_reads user).1 hright).2 column
        have hcol : d'.arr .ip column = temp := by
          rw [arr]
          show Function.update s.dev.arr .ip _ .ip column = temp
          rw [Function.update_self]
          exact Function.update_self column temp (s.dev.arr .ip)
        exact hg (hcol.symm.trans (hip.symm.trans (h.user column)))

theorem refreshed_update (d e : Dev) (h : e.userArr = d.userArr) : Refreshed d (updateUserArr e) :=
  ⟨e, rfl, h, fun _ _ => rfl⟩

/-- the boot ends with a refresh of a user array that is all zero -/
theorem startUp_refreshed (d : Dev) : Refreshed (powerOn d) (startUp d) := by
  have hread : ∀ e : Dev, Refreshed e (readFlash2Arr e).2 := by
    intro e
    unfold readFlash2Arr
    by_cases h0 : readRestore e.flash = 0x00
    · simp only [if_pos h0]
      exact refreshed_update e _ rfl
    · by_cases h1 : readRestore e.flash = 0x01
      · simp only [if_neg h0, if_pos h1]
        exact refreshed_update e _ rfl
      · simp only [if_neg h0, if_neg h1]
        exact refreshed_update e _ rfl
  have hread1 : ∀ (e : Dev) (a : Arr), (e.readArr a).userArr = e.userArr := fun e a => rfl
  have hset : ∀ (e : Dev) (a : Arr) (f : Fin a.num → UInt8), (e.setArr a f).userArr = e.userArr :=
    fun e a f => rfl
  have henv : ∀ e : Dev, (configEnvInit e).userArr = e.userArr := fun e => rfl
  have hmac : ∀ e : Dev, (configEnvInit (readFlashIpMac e)).userArr = e.userArr := by
    intro e
    rw [henv]
    unfold readFlashIpMac
    by_cases h0 : readRestore e.flash = 0x00
    · simp only [if_pos h0, hread1, hset]
    · by_cases h1 : readRestore e.flash = 0x01
      · simp only [if_neg h0, if_pos h1, hread1]
      · simp only [if_neg h0, if_neg h1, hread1]
  obtain ⟨r, ha, hu, hk⟩ := hread (configEnvInit (readFlashIpMac (powerOn d)))
  exact ⟨r, ha, hu.trans (hmac _), hk⟩

theorem servedStart_inv (d : Dev) (hc : Coded (startUp d).arr.groups)
    (hip : ∀ i, (startUp d).arr .ip i = 0) : ServedInv (servedStart d) := by
  have hr := startUp_refreshed d
  refine ⟨hc, hc, fun i => ?_, funext hip, fun _ => ?_⟩
  · exact refreshed_ip hr i
  · refine (refreshed_reads hr).2 ⟨hc, fun i => ?_⟩
    rw [hip]
    rfl

/-- **The registers.**  From power-on, whatever is chosen, edited, written and polled, every
register reads right after every refresh iff the boot loads contents that the codes can tell
apart and the IP address 0.0.0.0, and every edit of the IP address stores what the client has
written there before. -/
theorem readsRight_iff (d : Dev) (es : List ServedEvent) :
    Always servedStep RightAfterRefresh (servedStart d) es ↔
      (Coded (startUp d).arr.groups ∧ ∀ i, (startUp d).arr .ip i = 0) ∧
        Along servedStep IpFromClient (servedStart d) es := by
  have hrun : Coded (startUp d).arr.groups ∧ (∀ i, (startUp d).arr .ip i = 0) →
      (Always servedStep RightAfterRefresh (servedStart d) es ↔
        Along servedStep IpFromClient (servedStart d) es) := fun h =>
    Always_iff_Along (fun _ hi => hi.right) served_good served_bad (servedStart_inv d h.1 h.2)
  constructor
  · intro h
    have hr := (refreshed_reads (startUp_refreshed d)).1 (h.head rfl)
    have hboot : Coded (startUp d).arr.groups ∧ ∀ i, (startUp d).arr .ip i = 0 :=
      ⟨hr.1, fun i => (hr.2 i).symm⟩
    exact ⟨hboot, (hrun hboot).1 h⟩
  · rintro ⟨hboot, hes⟩
    exact (hrun hboot).2 hes

/-- after a boot with the default address the register `0x12` reads 0 instead of 192 -/
theorem ip_reads_zero :
    ¬ Always servedStep RightAfterRefresh (servedStart (savedDev defaultArr)) [] := by
  intro h
  have hr := (refreshed_reads (startUp_refreshed (savedDev defaultArr))).1 (h rfl)
  have hip := hr.2 ⟨0, by decide⟩
  rw [(startUp_holds _ _ (savedDev_holds defaultArr)).1] at hip
  exact absurd hip (by decide)

end MenuFirmware
