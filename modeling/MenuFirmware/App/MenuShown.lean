import MenuFirmware.App.MenuScreen

/-!
# The menu on the panel, over every run

A key or the reset leaves the page on the panel that belongs there.  The statuses and titles of a menu
are copies of the settings; a write of the network changes the settings first, and the poll the copies.

* `MenuScreenInv`       what every event keeps;
* `menuScreen_shows`    after every key of a run the panel shows the page and nothing else;
* `Agrees`              the statuses and titles of the menu are those of the settings;
* `menu_shows_settings`   unless a network write waits for the poll, a menu on the panel shows the
                        settings.
-/

set_option linter.unusedSectionVars false
set_option linter.unusedVariables false

namespace MenuFirmware
open Runs Canvas

/-! ## every run -/

/-- what every event keeps; behind a null pointer anything may be drawn -/
structure MenuScreenInv (s : MenuScreen) : Prop where
  nav : ∀ m, s.edit.nav = .ok m → MenuInv m
  ready : ∀ m, s.edit.nav = .ok m → s.panel.contrastNext = false
  labels : ∃ c, LabelsOf c s.labels

theorem event_drawable {s : MenuScreen} (h : MenuScreenInv s) {m : MenuNav} (hs : s.edit.nav = .ok m)
    {ev : MenuEvent} (hg : NotHomeExit (.ok m) ev) (env : StatusEnv) (font : OledFont) :
    Drawable (s.eventCalls env ev) := by
  have hdraws := fun hd => (event_page h.labels hs (h.nav m hs) hg hd env font).1
  cases ev with
  | key role => exact hdraws rfl
  | reset => exact hdraws rfl
  | otherKey =>
    unfold MenuScreen.eventCalls
    rw [hs]
    exact Drawable.nil
  | resetNoRender =>
    unfold MenuScreen.eventCalls
    rw [hs]
    exact Drawable.nil

theorem menuScreen_step (font : OledFont) (s : MenuScreen) (e : MenuScreenEvent)
    (h : MenuScreenInv s) (he : e.Lawful) : MenuScreenInv (menuScreenStep font s e) := by
  cases e with
  | net cmd pos val => exact ⟨h.nav, h.ready, h.labels⟩
  | status status => exact ⟨h.nav, h.ready, h.labels⟩
  | poll =>
    refine ⟨h.nav, h.ready, ?_⟩
    show ∃ c, LabelsOf c (if s.edit.dev.updateFlashFlag then ipMacChar s.edit.dev.arr s.labels
      else s.labels)
    split
    · exact ⟨_, labelsOf_ipMacChar _ _⟩
    · exact h.labels
  | other drawing => exact ⟨h.nav, fun m hm => he _ (h.ready m hm), h.labels⟩
  | menu ev env =>
    have hlabels := labelsAfter_ok h.labels ev
    have hnav : (menuScreenStep font s (.menu ev env)).edit.nav = menuStep s.edit.nav ev :=
      step_nav s.edit env ev
    -- a run that has met a null pointer stays there
    have hfault : ∀ fault, menuStep s.edit.nav ev = .error fault →
        MenuScreenInv (menuScreenStep font s (.menu ev env)) := by
      intro fault hf
      have hno : ∀ m, (menuScreenStep font s (.menu ev env)).edit.nav ≠ .ok m := by
        intro m hm
        rw [hnav, hf] at hm
        cases hm
      exact ⟨fun m hm => absurd hm (hno m), fun m hm => absurd hm (hno m), hlabels⟩
    cases hs : s.edit.nav with
    | error fault =>
      refine hfault fault ?_
      rw [hs]
      rfl
    | ok m =>
      by_cases hg : NotHomeExit (.ok m) ev
      · obtain ⟨m', hok, hout⟩ := menuStep_ok (h.nav m hs) ev hg
        rw [hs, hok] at hnav
        have hdraw := event_drawable h hs hg env font font
        refine ⟨fun m1 hm => ?_, fun m1 hm => hdraw s.panel (h.ready m hs), hlabels⟩
        rw [hnav] at hm
        cases hm
        exact hout.inv (h.nav m hs)
      · refine hfault .prevState ?_
        rw [hs]
        exact menuStep_fault (h.nav m hs) hg

theorem menuScreen_start (d : Dev) {panel : Panel} (hp : panel.contrastNext = false) :
    MenuScreenInv (menuScreenStart d panel) where
  nav m hm := by
    cases hm
    exact ⟨0, _, Opened_home (fun _ _ => rfl) rfl rfl rfl, Or.inl rfl⟩
  ready _ _ := hp
  labels := ⟨_, labelsOf_ipMacChar _ _⟩

theorem page_fault {s : MenuScreen} {fault : Fault} (h : s.edit.nav = .error fault)
    (env : StatusEnv) : s.page env = none := by
  unfold MenuScreen.page
  rw [h]

/-- **The panel shows the page.**  After every run that ends with a key or a reset, the panel shows the
page that belongs there and nothing else. -/
theorem menuScreen_shows (font : OledFont) (d : Dev) {panel : Panel}
    (hpanel : panel.contrastNext = false) (es : List MenuScreenEvent) (hes : ∀ e ∈ es, e.Lawful)
    (ev : MenuEvent) (hd : ev.draws = true) (env : StatusEnv) {texts : List Text}
    (hpage : (run (menuScreenStep font) (menuScreenStart d panel) (es ++ [.menu ev env])).page env =
      some texts) :
    ShowsPage font
      (run (menuScreenStep font) (menuScreenStart d panel) (es ++ [.menu ev env])).panel.ram texts := by
  have hinv : MenuScreenInv (run (menuScreenStep font) (menuScreenStart d panel) es) :=
    run_invariant_mem (fun s e he h => menuScreen_step font s e h (hes e he)) (menuScreen_start d hpanel)
  rw [run_append] at hpage ⊢
  generalize run (menuScreenStep font) (menuScreenStart d panel) es = s at hinv hpage ⊢
  change (menuScreenStep font s (.menu ev env)).page env = some texts at hpage
  show ShowsPage font (menuScreenStep font s (.menu ev env)).panel.ram texts
  have hnav := step_nav s.edit env ev
  have hnone : ∀ fault, (s.edit.step env ev).nav ≠ .error fault := by
    intro fault hf
    rw [page_fault (show (menuScreenStep font s (.menu ev env)).edit.nav = .error fault from hf)] at hpage
    cases hpage
  cases hs : s.edit.nav with
  | error fault =>
    rw [hs] at hnav
    exact absurd hnav (hnone fault)
  | ok m =>
    by_cases hg : NotHomeExit (.ok m) ev
    · exact (event_page hinv.labels hs (hinv.nav m hs) hg hd env font).2 texts hpage font s.panel
        (hinv.ready m hs)
    · rw [hs, menuStep_fault (hinv.nav m hs) hg] at hnav
      exact absurd hnav (hnone _)

/-- to the page of the Ethernet -/
def ethernetKeys : List MenuEvent :=
  [.reset, .key .down, .key .down, .key .confirm, .key .down, .key .down]

/-- nothing that the PHY would say -/
def silentEnv : StatusEnv := ⟨0, 0, 0⟩

theorem menuScreen_shows_ethernet : ShowsPage blankFont
    (run (menuScreenStep blankFont) (menuScreenStart blankDev ⟨0, 0, false, fun _ _ => 0xff⟩)
      (ethernetKeys.map (MenuScreenEvent.menu · silentEnv) ++ [.menu (.key .confirm) silentEnv])).panel.ram
    [statusLine (chars "ETH_ERROR")] :=
  menuScreen_shows blankFont blankDev rfl _ (by simp [ethernetKeys, MenuScreenEvent.Lawful])
    (.key .confirm) rfl silentEnv (by rfl)

/-! ## the settings -/

/-- titles and statuses are those of the settings, unless a network write waits for the poll -/
def Agrees (d : Dev) (l : Labels) : Prop :=
  d.updateFlashFlag = false → Fresh d ∧ LabelsOf d.arr l

theorem Agrees.congr {d d' : Dev} {l : Labels} (h : Agrees d l) (harr : d'.arr = d.arr)
    (hmenu : d'.menu = d.menu) (hflag : d'.updateFlashFlag = d.updateFlashFlag) : Agrees d' l := by
  intro hf
  obtain ⟨hfresh, hlabels⟩ := h (hflag.symm.trans hf)
  refine ⟨fun g => ?_, harr ▸ hlabels⟩
  rw [harr, hmenu]
  exact hfresh g

theorem agrees_status {d : Dev} {l : Labels} (h : Agrees d l) (status : UInt8) :
    Agrees (setStatus d status) l := by
  unfold setStatus
  split_ifs
  · exact h.congr rfl rfl rfl
  · exact h.congr rfl rfl rfl
  · exact h.congr rfl rfl rfl
  · exact h

theorem agrees_link {d : Dev} {l : Labels} (h : Agrees d l) (env : StatusEnv) (c : Callback × Nat) :
    Agrees (linkError env c d) l := by
  unfold linkError
  split
  · exact agrees_status h 1
  · exact h

theorem arrUpdate_flag (d : Dev) : (arrUpdate d).updateFlashFlag = d.updateFlashFlag := by
  unfold arrUpdate write2Flash
  rw [updateUserArr_updateFlashFlag]

theorem arrUpdate_fresh (d : Dev) : Fresh (arrUpdate d) := by
  intro g
  rw [arrUpdate_menu, arrUpdate_arr, menuToArr_grp]

/-- the copy of the menu to the arrays -/
theorem agrees_arrUpdate {d : Dev} {l : Labels}
    (h : d.updateFlashFlag = false → LabelsOf d.arr l) : Agrees (arrUpdate d) l := by
  intro hf
  rw [arrUpdate_flag] at hf
  refine ⟨arrUpdate_fresh d, ?_⟩
  rw [arrUpdate_arr]
  exact (h hf).congr rfl rfl

/-- with the titles written anew -/
theorem agrees_relabel (d : Dev) (l : Labels) : Agrees (arrUpdate d) (ipMacChar (arrUpdate d).arr l) :=
  fun _ => ⟨arrUpdate_fresh d, labelsOf_ipMacChar _ l⟩

theorem agrees_select {d : Dev} {l : Labels} (h : Agrees d l) (g : Group) (which : Fin g.num) :
    Agrees (selectRender d g which) l := by
  cases hr : menuRadio g (d.menu g) which with
  | none =>
    rw [selectRender_none d g which hr]
    exact h
  | some st =>
    have hcopied : Agrees (arrUpdate { d with menu := Function.update d.menu g st }) l :=
      agrees_arrUpdate fun hf => (h hf).2
    rw [selectRender_eq, hr]
    dsimp only
    split
    · exact hcopied.congr rfl rfl rfl
    · exact hcopied

theorem agrees_render {s : EditState} {l : Labels} (h : Agrees s.dev l) (f : Callback) (k : Nat) :
    Agrees (s.render f k).dev l := by
  have hedit : ∀ o, Agrees (s.editRender o).dev l := by
    intro o
    cases o <;> exact h
  cases f with
  | networkIp => exact hedit _
  | networkMac => exact hedit _
  | gps => exact hedit _
  | select g =>
    show Agrees (if h : k < g.num then selectRender s.dev g ⟨k, h⟩ else s.dev) l
    split
    · exact agrees_select h g _
    · exact h
  | systemUniversal =>
    show Agrees (systemUniversalCallbackRender s.dev k) l
    unfold systemUniversalCallbackRender
    split
    · exact h.congr rfl rfl rfl
    · exact h.congr rfl rfl rfl
    · exact h
  | statusPrint => exact h
  | statusSynchPrint => exact h
  | exitAction => exact h
  | exit2MainMenu => exact h

/-- the confirm key, where the callback does not store -/
theorem confirm_once {s : EditState} {e : Editor} {column : Fin e.arr.num}
    (h : ¬ (s.statics e).once = false) : (editActionCallback e s column .confirm).dev = s.dev := by
  have hl : ¬ (loadTemp (s.statics e) (s.dev.arr e.arr column)).once = false := by
    rw [loadTemp_once]
    exact h
  have heq : editActionCallback e s column .confirm
      = s.setStatics e (loadTemp (s.statics e) (s.dev.arr e.arr column)) := if_neg hl
  rw [heq]
  rfl

/-- a confirmed address is written over the titles; the UTC offset is in none -/
theorem agrees_confirm {s : MenuScreen} (h : Agrees s.edit.dev s.labels) {e : Editor}
    {column : Fin e.arr.num} (hf : s.edit.openField = some ⟨e, column⟩) :
    Agrees (s.edit.press .confirm).dev (s.labelsAfter (.key .confirm)) := by
  have hstores : s.edit.storesAddress (.key .confirm) = (e != .gps && !(s.edit.statics e).once) := by
    unfold EditState.storesAddress
    rw [hf]
  have hreact : s.edit.react (.key .confirm) = editActionCallback e s.edit column .confirm :=
    press_some hf .confirm
  unfold MenuScreen.labelsAfter
  rw [hstores, hreact, press_some hf]
  by_cases ho : (s.edit.statics e).once = false
  · rw [ho, confirm_clear ho]
    cases e with
    | networkIp => exact agrees_relabel _ s.labels
    | networkMac => exact agrees_relabel _ s.labels
    | gps => exact agrees_arrUpdate fun hflag => (h hflag).2.congr rfl rfl
  · rw [confirm_once ho, Bool.eq_true_of_not_eq_false ho, Bool.not_true, Bool.and_false]
    exact h

theorem agrees_react {s : MenuScreen} (h : Agrees s.edit.dev s.labels) (ev : MenuEvent) :
    Agrees (s.edit.react ev).dev (s.labelsAfter ev) := by
  cases hf : s.edit.openField with
  | none =>
    rw [react_none hf, labelsAfter_none hf]
    exact h
  | some p =>
    obtain ⟨e, column⟩ := p
    cases ev with
    | otherKey => exact h
    | reset => exact h
    | resetNoRender => exact h
    | key role =>
      have hpress : s.edit.react (.key role) = editActionCallback e s.edit column role :=
        press_some hf role
      cases role with
      | confirm => exact agrees_confirm h hf
      | up =>
        rw [hpress]
        exact h
      | down =>
        rw [hpress]
        exact h
      | cancel =>
        rw [hpress]
        exact h

theorem agrees_event {s : MenuScreen} (h : Agrees s.edit.dev s.labels) (ev : MenuEvent)
    (env : StatusEnv) : Agrees (s.edit.step env ev).dev (s.labelsAfter ev) := by
  have hrender : ∀ (cs : List (Callback × Nat)) (e : EditState), Agrees e.dev (s.labelsAfter ev) →
      Agrees (cs.foldr (fun c t => t.render c.1 c.2) e).dev (s.labelsAfter ev) := by
    intro cs e he
    induction cs with
    | nil => exact he
    | cons c cs ih => exact agrees_render ih c.1 c.2
  have hlink : ∀ (cs : List (Callback × Nat)) (d : Dev), Agrees d (s.labelsAfter ev) →
      Agrees (cs.foldr (linkError env) d) (s.labelsAfter ev) := by
    intro cs d hd
    induction cs with
    | nil => exact hd
    | cons c cs ih => exact agrees_link ih env c
  exact hlink _ _ (hrender _ _ (agrees_react h ev))

/-- **Every event** keeps titles and statuses those of the settings, or sets the flag of the poll. -/
theorem menuScreen_agrees (font : OledFont) (s : MenuScreen) (e : MenuScreenEvent)
    (h : Agrees s.edit.dev s.labels) :
    Agrees (menuScreenStep font s e).edit.dev (menuScreenStep font s e).labels := by
  cases e with
  | menu ev env => exact agrees_event h ev env
  | other drawing => exact h
  | status status => exact agrees_status h status
  | net cmd pos val =>
    intro hf
    by_cases hc : cmd = 0x03
    · subst hc
      have hflag := (sendUserData_write s.edit.dev pos val).2.2.2
      exact absurd (hflag.symm.trans hf) Bool.noConfusion
    · have hsame : (menuScreenStep font s (.net cmd pos val)).edit.dev = s.edit.dev :=
        sendUserData_other s.edit.dev cmd pos val hc
      rw [hsame] at hf ⊢
      exact h hf
  | poll =>
    show Agrees (pollUpdateFlash s.edit.dev)
      (if s.edit.dev.updateFlashFlag then ipMacChar s.edit.dev.arr s.labels else s.labels)
    have harr := pollUpdateFlash_arr s.edit.dev
    unfold pollUpdateFlash at harr ⊢
    split
    · rename_i hflag
      rw [if_pos hflag] at harr
      refine fun _ => ⟨fun g => ?_, ?_⟩
      · rw [harr, write2Flash_menu]
        rfl
      · rw [harr]
        exact labelsOf_ipMacChar _ _
    · exact h

/-- **A menu shows the settings.**  After every run that ends with a key or a reset, unless a network
write waits for the poll, a menu that has the screen is on the panel with the titles and statuses of the
settings, and nothing else. -/
theorem menu_shows_settings (font : OledFont) (d : Dev) {panel : Panel}
    (hpanel : panel.contrastNext = false) (es : List MenuScreenEvent) (hes : ∀ e ∈ es, e.Lawful)
    (ev : MenuEvent) (hd : ev.draws = true) (env : StatusEnv) {s : MenuScreen}
    (hs : s = run (menuScreenStep font) (menuScreenStart d panel) (es ++ [.menu ev env]))
    {m : MenuNav} (hnav : s.edit.nav = .ok m) (hmenu : m.openCallback = none)
    {c : MenuState} {t : Table} (hc : m.cur = .ok c) (ht : m.items = .ok t)
    (hflag : s.edit.dev.updateFlashFlag = false) :
    ShowsPage font s.panel.ram (settingsTexts s.edit.dev.arr t c) := by
  have hlawful : ∀ e ∈ es ++ [MenuScreenEvent.menu ev env], e.Lawful := by
    intro e he
    rcases List.mem_append.1 he with he | he
    · exact hes e he
    · rw [List.mem_singleton.1 he]
      trivial
  have hinv : MenuScreenInv s := by
    rw [hs]
    exact run_invariant_mem (fun s e he h => menuScreen_step font s e h (hlawful e he))
      (menuScreen_start d hpanel)
  have hagrees : Agrees s.edit.dev s.labels := by
    rw [hs]
    exact run_invariant (P := fun s : MenuScreen => Agrees s.edit.dev s.labels)
      (menuScreen_agrees font) (fun _ => ⟨fun _ => rfl, labelsOf_ipMacChar _ _⟩) _
  obtain ⟨hfresh, hlabels⟩ := hagrees hflag
  obtain ⟨n, T, h, hscreen⟩ := hinv.nav m hnav
  have hn : m.currentState = n := by
    rcases hscreen with hn | ⟨k, it, ho⟩
    · exact hn
    · obtain ⟨f, hf⟩ := Option.ne_none_iff_exists'.1 ho.callback
      rw [openCallback_callback h ho hf] at hmenu
      cases hmenu
  have hpage := page_menu h hn hnav env
  rw [cur_eq h hn] at hc
  rw [items_eq h hn] at ht
  cases hc
  cases ht
  rw [menuTexts_settings h hn hlabels hfresh, hs] at hpage
  rw [hs]
  exact menuScreen_shows font d hpanel es hes ev hd env hpage

/-- a write of the network, the poll, and a menu -/
def pollRun : MenuScreen :=
  run (menuScreenStep blankFont) (menuScreenStart blankDev ⟨0, 0, false, fun _ _ => 0xff⟩)
    ([.net 0x03 0x00 1, .poll] ++ [.menu .reset silentEnv])

theorem menu_shows_settings_reset :
    ShowsPage blankFont pollRun.panel.ram
      (settingsTexts pollRun.edit.dev.arr .home ⟨none, none, 0, 0, 0⟩) :=
  menu_shows_settings blankFont blankDev rfl [.net 0x03 0x00 1, .poll]
    (by simp [MenuScreenEvent.Lawful]) .reset rfl silentEnv rfl rfl rfl rfl rfl rfl

end MenuFirmware
