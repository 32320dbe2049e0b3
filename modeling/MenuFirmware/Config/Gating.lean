import MenuFirmware.Config.Events

/-!
# Video choices and their features

The features 2, 3 and 4 govern the first, second and third video input, the first two of them the
outputs as well.  `En_Or_Dis_UpData` marks the elements whose feature is reset, at the start of
every network write and whatever the register.

* `Gated`              every element whose feature is reset is marked;
* `gated_iff`          after a network write that is so for the rest of the run iff no video register
                       is written while one of its features is reset, and no menu field that is not
                       gated is copied to the arrays;
* `WriteFrame`         a network write changes what belongs to its register, and nothing else;
* `writeFrame_iff`     that is so iff all other video elements were in step with their features.
-/

set_option linter.unusedSectionVars false
set_option linter.unusedVariables false

namespace MenuFirmware
open Runs

/-! ## elements and features -/

/-- the feature of a video input, and that of an output -/
def Menu.inputFeature (m : Menu) (i : Fin (Group.num .configVideoInput)) : UInt8 :=
  m .systemFeature (Fin.natAdd 2 i)
def Menu.outputFeature (m : Menu) (i : Fin (Group.num .configVideoOutput)) : UInt8 :=
  m .systemFeature (Fin.natAdd 2 i).castSucc

structure Gated (m : Menu) : Prop where
  input : ∀ i, m.inputFeature i = menuReset → m .configVideoInput i = nonOperate
  output : ∀ i, m.outputFeature i = menuReset → m .configVideoOutput i = nonOperate

def VideoGated (d : Dev) : Prop := Gated d.arr.groups

theorem setConfig_ne_nonOperate {n : Nat} (pos : UInt8) (i : Fin n) :
    setConfig pos i ≠ nonOperate := by
  unfold setConfig
  split_ifs <;> decide

/-! ## after a network write -/

/-- no feature of the video group that is written is reset -/
structure FeaturesOn (c : Config) (pos : UInt8) : Prop where
  input : pos = 0x1c → ∀ i, c.groups.inputFeature i ≠ menuReset
  output : pos = 0x1d → ∀ i, c.groups.outputFeature i ≠ menuReset

/-- the video groups and the features after a write -/
theorem netWrite_videoInput (c : Config) (pos val : UInt8) (i : Fin (Group.num .configVideoInput)) :
    netWrite c pos val Group.configVideoInput i = if pos = 0x1c then setConfig val i
      else operable ((writeFeature c pos val).groups.inputFeature i)
        (c Group.configVideoInput i) := by
  by_cases hpos : pos = 0x1c
  · rw [if_pos hpos, hpos]
    exact congrFun (netWrite_group c val .configVideoInput (by decide)) i
  · rw [if_neg hpos, netWrite_of_not c pos val Group.configVideoInput hpos,
      enOrDisUpData_videoInput, writeFeature_of_ne c pos val Group.configVideoInput (by decide)]
    rfl

theorem netWrite_videoOutput (c : Config) (pos val : UInt8) (i : Fin (Group.num .configVideoOutput)) :
    netWrite c pos val Group.configVideoOutput i = if pos = 0x1d then setConfig val i
      else operable ((writeFeature c pos val).groups.outputFeature i)
        (c Group.configVideoOutput i) := by
  by_cases hpos : pos = 0x1d
  · rw [if_pos hpos, hpos]
    exact congrFun (netWrite_group c val .configVideoOutput (by decide)) i
  · rw [if_neg hpos, netWrite_of_not c pos val Group.configVideoOutput hpos,
      enOrDisUpData_videoOutput, writeFeature_of_ne c pos val Group.configVideoOutput (by decide)]
    rfl

theorem netWrite_features (c : Config) (pos val : UInt8) :
    (netWrite c pos val).groups .systemFeature = (writeFeature c pos val).groups .systemFeature :=
  netWrite_systemFeature c pos val

/-- **A network write** gates everything but the video group that it sets. -/
theorem netWrite_gated (c : Config) (pos val : UInt8) :
    Gated (netWrite c pos val).groups ↔ FeaturesOn c pos := by
  have hfeat := netWrite_features c pos val
  have hin : ∀ i, (netWrite c pos val).groups.inputFeature i
      = (writeFeature c pos val).groups.inputFeature i := fun i => congrFun hfeat _
  have hout : ∀ i, (netWrite c pos val).groups.outputFeature i
      = (writeFeature c pos val).groups.outputFeature i := fun i => congrFun hfeat _
  constructor
  · rintro ⟨hi, ho⟩
    refine ⟨?_, ?_⟩
    · rintro rfl i hr
      have h := hi i (by rw [hin, writeFeature_of_le c _ _ (by decide)]; exact hr)
      change netWrite c 0x1c val Group.configVideoInput i = _ at h
      rw [netWrite_videoInput, if_pos rfl] at h
      exact setConfig_ne_nonOperate val i h
    · rintro rfl i hr
      have h := ho i (by rw [hout, writeFeature_of_le c _ _ (by decide)]; exact hr)
      change netWrite c 0x1d val Group.configVideoOutput i = _ at h
      rw [netWrite_videoOutput, if_pos rfl] at h
      exact setConfig_ne_nonOperate val i h
  · rintro ⟨hi, ho⟩
    refine ⟨fun i hr => ?_, fun i hr => ?_⟩
    · show netWrite c pos val Group.configVideoInput i = _
      rw [hin] at hr
      by_cases hpos : pos = 0x1c
      · rw [hpos, writeFeature_of_le c _ _ (by decide)] at hr
        exact absurd hr (hi hpos i)
      · rw [netWrite_videoInput, if_neg hpos]
        exact (operable_eq_nonOperate _ _).2 hr
    · show netWrite c pos val Group.configVideoOutput i = _
      rw [hout] at hr
      by_cases hpos : pos = 0x1d
      · rw [hpos, writeFeature_of_le c _ _ (by decide)] at hr
        exact absurd hr (ho hpos i)
      · rw [netWrite_videoOutput, if_neg hpos]
        exact (operable_eq_nonOperate _ _).2 hr

/-! ## runs -/

/-- a video register is not written while a feature of it is reset, and the menu fields are gated
when they are copied -/
def KeepsGated (d : Dev) : SyncEvent → Prop
  | .net cmd pos _ => cmd = 0x03 → FeaturesOn d.arr pos
  | .select g which => menuRadio g (d.menu g) which = none ∨ Gated d.menu
  | .editIp _ _ | .editMac _ _ | .editUtc _ _ => Gated d.menu
  | .poll => True

theorem keepsGated_edit {d : Dev} {e : SyncEvent} (he : e.IsEdit) :
    KeepsGated d e ↔ Gated d.menu := by
  cases e with
  | net cmd pos val => exact absurd he id
  | select g which => exact absurd he id
  | poll => exact absurd he id
  | editIp column temp => exact Iff.rfl
  | editMac column temp => exact Iff.rfl
  | editUtc column temp => exact Iff.rfl

/-- a choice in a video group skips what is marked -/
theorem menuRadio_video {g : Group} (hg : g = .configVideoInput ∨ g = .configVideoOutput)
    (old st : Fin g.num → UInt8) (which : Fin g.num) (hst : menuRadio g old which = some st)
    (i : Fin g.num) : st i = if old i ≠ nonOperate then oneHot which i else old i := by
  have hmenu : (if old which ≠ nonOperate then
      some fun i => if old i ≠ nonOperate then oneHot which i else old i else none) = some st := by
    rcases hg with rfl | rfl
    · exact hst
    · exact hst
  by_cases hw : old which ≠ nonOperate
  · rw [if_pos hw] at hmenu
    exact (congrFun (Option.some.inj hmenu) i).symm
  · rw [if_neg hw] at hmenu
    exact absurd hmenu nofun

/-- so the marks stay as they are -/
theorem menuRadio_marks {g : Group} (hg : g = .configVideoInput ∨ g = .configVideoOutput)
    (old st : Fin g.num → UInt8) (which : Fin g.num) (hst : menuRadio g old which = some st)
    (i : Fin g.num) : st i = nonOperate ↔ old i = nonOperate := by
  have hone : oneHot which i ≠ nonOperate := by
    unfold oneHot
    split_ifs <;> decide
  rw [menuRadio_video hg old st which hst i]
  by_cases hi : old i = nonOperate
  · rw [if_neg (not_not.2 hi)]
  · rw [if_pos hi]
    exact iff_of_false hone hi

/-- and gated menu fields stay gated -/
theorem gated_select (m : Menu) (g : Group) (which : Fin g.num) (st : Fin g.num → UInt8)
    (hst : menuRadio g (m g) which = some st) : Gated (Function.update m g st) ↔ Gated m := by
  have hfeat : Function.update m g st .systemFeature = m .systemFeature := by
    refine Function.update_of_ne ?_ ..
    rintro rfl
    exact absurd hst nofun
  have hvideo : ∀ v : Group, (v = .configVideoInput ∨ v = .configVideoOutput) →
      ∀ i, Function.update m g st v i = nonOperate ↔ m v i = nonOperate := by
    intro v hv i
    by_cases e : v = g
    · subst e
      rw [Function.update_self]
      exact menuRadio_marks hv (m v) st which hst i
    · rw [Function.update_of_ne e]
  have hin := hvideo .configVideoInput (Or.inl rfl)
  have hout := hvideo .configVideoOutput (Or.inr rfl)
  have hif : ∀ i, (Menu.inputFeature (Function.update m g st) i) = m.inputFeature i :=
    fun i => congrFun hfeat _
  have hof : ∀ i, (Menu.outputFeature (Function.update m g st) i) = m.outputFeature i :=
    fun i => congrFun hfeat _
  constructor
  · rintro ⟨hi, ho⟩
    exact ⟨fun i hr => (hin i).1 (hi i (by rw [hif]; exact hr)),
      fun i hr => (hout i).1 (ho i (by rw [hof]; exact hr))⟩
  · rintro ⟨hi, ho⟩
    exact ⟨fun i hr => (hin i).2 (hi i (by rw [← hif]; exact hr)),
      fun i hr => (hout i).2 (ho i (by rw [← hof]; exact hr))⟩

/-- **A step** leads to a gated state exactly when it meets `KeepsGated`; a network write does so
from any state. -/
theorem devStep_gated (d : Dev) (e : SyncEvent)
    (h : VideoGated d ∨ ∃ pos val, e = .net 0x03 pos val) :
    VideoGated (devStep d e) ↔ KeepsGated d e := by
  obtain ⟨d', hd', hmove⟩ := exists_move d e
  rw [hd']
  cases hmove with
  | other cmd pos val hc same =>
    have hd : VideoGated d := h.resolve_right (by
      rintro ⟨p, v, he⟩
      exact hc (SyncEvent.net.inj he).1)
    rw [same]
    exact iff_of_true hd fun e => absurd e hc
  | write cmd pos val hc arr menu user =>
    unfold VideoGated
    rw [arr, netWrite_gated]
    exact ⟨fun hf _ => hf, fun hf => hf hc⟩
  | unselected g which hst same =>
    rw [same]
    exact iff_of_true (h.resolve_right nofun) (Or.inl hst)
  | selected g which st hst arr menu user =>
    have hgroups : d'.arr.groups = Function.update d.menu g st := by
      rw [arr]
      rfl
    unfold VideoGated
    rw [hgroups, gated_select d.menu g which st hst]
    exact ⟨fun hm => Or.inr hm, fun hk => hk.resolve_left (by rw [hst]; exact nofun)⟩
  | edited e he arr menu user =>
    have hgroups : d'.arr.groups = d.menu := by
      rw [arr]
      rfl
    unfold VideoGated
    rw [hgroups, keepsGated_edit he]
  | quiet hf same =>
    rw [same]
    exact iff_of_true (h.resolve_right nofun) trivial
  | polled hf arr menu user =>
    unfold VideoGated
    rw [arr]
    exact iff_of_true (h.resolve_right nofun) trivial

/-- **The gating.**  From the first network write on every disabled video choice stays marked iff
every step meets `KeepsGated`. -/
theorem gated_iff (d : Dev) (pos val : UInt8) (es : List SyncEvent) :
    Always devStep VideoGated (devStep d (.net 0x03 pos val)) es ↔
      Along devStep KeepsGated d (.net 0x03 pos val :: es) := by
  have hfirst := devStep_gated d (.net 0x03 pos val) (Or.inr ⟨pos, val, rfl⟩)
  have hrest : ∀ d', VideoGated d' →
      (Always devStep VideoGated d' es ↔ Along devStep KeepsGated d' es) := fun d' hd' =>
    Always_iff_Along (fun _ h => h) (fun s e h hg => (devStep_gated s e (Or.inl h)).2 hg)
      (fun s e h hg hn => hg ((devStep_gated s e (Or.inl h)).1 hn)) hd'
  constructor
  · intro h
    exact ⟨hfirst.1 h.head, (hrest _ h.head).1 h⟩
  · rintro ⟨hk, hes⟩
    exact (hrest _ (hfirst.2 hk)).2 hes

/-- in the default configuration the first video input is switched off, and yet can be written -/
theorem input_set_while_disabled :
    ¬ Always devStep VideoGated (devStep started.dev (.net 0x03 0x1c 1)) [] := by
  intro h
  have hg := (devStep_gated started.dev (.net 0x03 0x1c 1) (Or.inr ⟨_, _, rfl⟩)).1 h rfl
  refine hg.input rfl ⟨0, by decide⟩ ?_
  show started.dev.arr Group.systemFeature _ = _
  rw [started_settled.arr]
  rfl

/-! ## what a network write changes -/

/-- the setting that the register is mapped to -/
def Mapped (pos : UInt8) : (a : Arr) → Fin a.num → Prop
  | .grp .systemFeature, i => pos.toNat = i
  | .grp g, _ => pos = g.register
  | .ip, i => pos.toNat = 0x12 + i
  | .mac, _ => False
  | .utcOffset, _ => pos = 0x1e

/-- the video elements that the feature with the number `pos` governs -/
def Governed (pos : UInt8) : (a : Arr) → Fin a.num → Prop
  | .grp .configVideoInput, i => pos.toNat = 2 + i
  | .grp .configVideoOutput, i => pos.toNat = 2 + i
  | _, _ => False

/-- the write changes the byte at `pos` and the setting mapped to it, and with a feature the marks
of the video elements it governs (besides the request to save, and the restart at `0xff`) -/
structure WriteFrame (d d' : Dev) (pos : UInt8) : Prop where
  user : ∀ q, q ≠ pos → d'.userArr q = d.userArr q
  arr : ∀ a i, ¬ Mapped pos a i → ¬ Governed pos a i → d'.arr a i = d.arr a i
  marks : ∀ a i, Governed pos a i → ¬ Mapped pos a i → d'.arr a i ≠ d.arr a i →
    d.arr a i = nonOperate ∨ d'.arr a i = nonOperate
  flash : d'.flash = d.flash
  restore : d'.restore = d.restore
  menu : d'.menu = d.menu
  status : d'.statusFlag = d.statusFlag
  firmware : d'.fwRegNum = d.fwRegNum
  hw : d'.hw = d.hw
  fpga : d'.fpga = d.fpga
  netPar : d'.netPar = d.netPar
  restart : pos ≠ 0xff → d'.reStart = d.reStart

/-- marked exactly while the feature is reset -/
def InStep (feature old : UInt8) : Prop := old = nonOperate ↔ feature = menuReset

/-- the video elements that the write is not about are in step with their features -/
structure OthersInStep (c : Config) (pos : UInt8) : Prop where
  input : pos ≠ 0x1c → ∀ i, pos.toNat ≠ 2 + i.val →
    InStep (c.groups.inputFeature i) (c.groups .configVideoInput i)
  output : pos ≠ 0x1d → ∀ i, pos.toNat ≠ 2 + i.val →
    InStep (c.groups.outputFeature i) (c.groups .configVideoOutput i)

theorem operable_eq_self (feature old : UInt8) : operable feature old = old ↔ InStep feature old := by
  unfold operable InStep
  by_cases hf : feature = menuReset
  · rw [if_pos hf]
    exact ⟨fun h => iff_of_true h.symm hf, fun h => (h.2 hf).symm⟩
  · rw [if_neg hf]
    by_cases ho : old = nonOperate
    · rw [if_pos ho, ho]
      exact iff_of_false (by decide) fun h => hf (h.1 rfl)
    · rw [if_neg ho]
      exact iff_of_true rfl (iff_of_false ho hf)

theorem operable_ne (feature old : UInt8) (h : operable feature old ≠ old) :
    old = nonOperate ∨ operable feature old = nonOperate := by
  unfold operable at h ⊢
  by_cases hf : feature = menuReset
  · exact Or.inr (if_pos hf)
  · rw [if_neg hf] at h
    by_contra hn
    exact h (if_neg fun ho => hn (Or.inl ho))

/-- the feature branch leaves the other features alone -/
theorem writeFeature_other (c : Config) (pos val : UInt8) (i : Fin (Group.num .systemFeature))
    (h : pos.toNat ≠ i.val) : writeFeature c pos val Group.systemFeature i = c Group.systemFeature i := by
  have hupd : ∀ (hp : pos.toNat < Group.num .systemFeature) (x : UInt8),
      c.setGroup .systemFeature (Function.update (c Group.systemFeature) ⟨pos.toNat, hp⟩ x)
        Group.systemFeature i = c Group.systemFeature i := by
    intro hp x
    have hne : i ≠ ⟨pos.toNat, hp⟩ := fun e => h (congrArg Fin.val e).symm
    have hself := c.setGroup_self .systemFeature
      (Function.update (c Group.systemFeature) ⟨pos.toNat, hp⟩ x)
    exact (congrFun hself i).trans (Function.update_of_ne hne x (c Group.systemFeature))
  unfold writeFeature
  split_ifs
  · exact hupd _ _
  · exact hupd _ _
  · rfl
  · rfl

/-- the arrays other than the video groups -/
theorem netWrite_frame (c : Config) (pos val : UInt8) (a : Arr) (i : Fin a.num)
    (hi : a ≠ Group.configVideoInput) (ho : a ≠ Group.configVideoOutput) (h : ¬ Mapped pos a i) :
    netWrite c pos val a i = c a i := by
  cases a with
  | grp g =>
    by_cases hg : g = .systemFeature
    · subst hg
      rw [netWrite_systemFeature]
      exact writeFeature_other c pos val i h
    · have hpos : pos ≠ g.register := by
        intro e
        apply h
        cases g with
        | systemFeature => exact absurd rfl hg
        | configFormat => exact e
        | configVideoInput => exact e
        | configVideoOutput => exact e
        | configSrcMode => exact e
        | configSrcSyncType => exact e
        | configSrcClockType => exact e
        | configSrcSyncFrame => exact e
        | configDisplayMode => exact e
        | configDisplayBrightness => exact e
      exact congrFun (netWrite_plain c pos val g hg (fun e => hi (congrArg Arr.grp e))
        (fun e => ho (congrArg Arr.grp e)) hpos) i
  | ip => exact (netWrite_ip c pos val i).trans (if_neg h)
  | mac => rw [netWrite_mac]
  | utcOffset => exact congrFun ((netWrite_utcOffset c pos val).trans (if_neg h)) i

/-- a video input at another register: its feature is as before, unless the write is for it -/
theorem netWrite_input (c : Config) (pos val : UInt8) (i : Fin (Group.num .configVideoInput))
    (hpos : pos ≠ 0x1c) (hi : pos.toNat ≠ 2 + i.val) :
    netWrite c pos val Group.configVideoInput i
      = operable (c.groups.inputFeature i) (c.groups .configVideoInput i) := by
  rw [netWrite_videoInput, if_neg hpos]
  exact congrArg (fun f => operable f (c Group.configVideoInput i))
    (writeFeature_other c pos val (Fin.natAdd 2 i) hi)

theorem netWrite_output (c : Config) (pos val : UInt8) (i : Fin (Group.num .configVideoOutput))
    (hpos : pos ≠ 0x1d) (hi : pos.toNat ≠ 2 + i.val) :
    netWrite c pos val Group.configVideoOutput i
      = operable (c.groups.outputFeature i) (c.groups .configVideoOutput i) := by
  rw [netWrite_videoOutput, if_neg hpos]
  exact congrArg (fun f => operable f (c Group.configVideoOutput i))
    (writeFeature_other c pos val (Fin.natAdd 2 i).castSucc hi)

/-- the elements that the write is not about keep their value exactly when they are in step -/
theorem netWrite_others (c : Config) (pos val : UInt8) :
    (∀ a i, ¬ Mapped pos a i → ¬ Governed pos a i → netWrite c pos val a i = c a i) ↔
      OthersInStep c pos := by
  constructor
  · intro h
    refine ⟨fun hpos i hi => ?_, fun hpos i hi => ?_⟩
    · rw [← operable_eq_self, ← netWrite_input c pos val i hpos hi]
      exact h (Arr.grp .configVideoInput) i hpos hi
    · rw [← operable_eq_self, ← netWrite_output c pos val i hpos hi]
      exact h (Arr.grp .configVideoOutput) i hpos hi
  · intro h a i hm hgov
    by_cases hi : a = Group.configVideoInput
    · subst hi
      rw [netWrite_input c pos val i hm hgov]
      exact (operable_eq_self _ _).2 (h.input hm i hgov)
    · by_cases ho : a = Group.configVideoOutput
      · subst ho
        rw [netWrite_output c pos val i hm hgov]
        exact (operable_eq_self _ _).2 (h.output hm i hgov)
      · exact netWrite_frame c pos val a i hi ho hm

/-- a feature only moves the marks of its video elements -/
theorem netWrite_marks (c : Config) (pos val : UInt8) (a : Arr) (i : Fin a.num)
    (hgov : Governed pos a i) (hm : ¬ Mapped pos a i) (hne : netWrite c pos val a i ≠ c a i) :
    c a i = nonOperate ∨ netWrite c pos val a i = nonOperate := by
  by_cases hi : a = Group.configVideoInput
  · subst hi
    have hpos : pos ≠ 0x1c := hm
    have heq := (netWrite_videoInput c pos val i).trans (if_neg hpos)
    exact (operable_ne _ _ fun e => hne (heq.trans e)).imp_right heq.trans
  · by_cases ho : a = Group.configVideoOutput
    · subst ho
      have hpos : pos ≠ 0x1d := hm
      have heq := (netWrite_videoOutput c pos val i).trans (if_neg hpos)
      exact (operable_ne _ _ fun e => hne (heq.trans e)).imp_right heq.trans
    · exact absurd (netWrite_frame c pos val a i hi ho hm) hne

/-- **One network write** changes only what belongs to its register iff the other video elements
are in step with their features. -/
theorem writeFrame_iff (d : Dev) (pos val : UInt8) :
    WriteFrame d (devStep d (.net 0x03 pos val)) pos ↔ OthersInStep d.arr pos := by
  have harr : (devStep d (.net 0x03 pos val)).arr = netWrite d.arr pos val :=
    (sendUserData_write d pos val).1
  constructor
  · intro h
    have hf := h.arr
    rw [harr] at hf
    exact (netWrite_others d.arr pos val).1 hf
  · intro h
    constructor
    case user =>
      intro q hq
      show Function.update d.userArr pos val q = d.userArr q
      exact Function.update_of_ne hq val d.userArr
    case arr =>
      rw [harr]
      exact (netWrite_others d.arr pos val).2 h
    case marks =>
      rw [harr]
      exact netWrite_marks d.arr pos val
    case flash => rfl
    case restore => rfl
    case menu => rfl
    case status => rfl
    case firmware => rfl
    case hw => rfl
    case fpga => rfl
    case netPar => rfl
    case restart =>
      intro hpos
      exact if_neg fun hff => hpos hff.1

/-- in the default configuration a write of the format switches the first video input off -/
theorem format_write_clears_input :
    started.dev.arr Group.configVideoInput ⟨0, by decide⟩ = menuSet ∧
    (devStep started.dev (.net 0x03 0x10 3)).arr Group.configVideoInput ⟨0, by decide⟩ = nonOperate ∧
    ¬ WriteFrame started.dev (devStep started.dev (.net 0x03 0x10 3)) 0x10 := by
  have hold : started.dev.arr Group.configVideoInput ⟨0, by decide⟩ = menuSet := by
    rw [started_settled.arr]
    rfl
  have hnew : (devStep started.dev (.net 0x03 0x10 3)).arr Group.configVideoInput ⟨0, by decide⟩
      = nonOperate := by
    have harr := (sendUserData_write started.dev 0x10 3).1
    change (devStep started.dev (.net 0x03 0x10 3)).arr = _ at harr
    rw [harr, started_settled.arr]
    decide
  refine ⟨hold, hnew, fun h => ?_⟩
  have hsame := h.arr (Arr.grp .configVideoInput) ⟨0, by decide⟩ (by decide : (0x10 : UInt8) ≠ 0x1c)
    (by decide : (0x10 : UInt8).toNat ≠ 2 + 0)
  rw [hold, hnew] at hsame
  exact absurd hsame (by decide)

end MenuFirmware
