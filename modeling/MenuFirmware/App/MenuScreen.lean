import MenuFirmware.Menu.Exit
import MenuFirmware.Menu.Lines
import MenuFirmware.Menu.Pages

/-!
# What the menu shows (`menu.c`, `menu_items.c`, `pollint.c`)

The menu and the editors with the panel they draw on, while the network writes to the settings and the
poll copies them to the items of the menu.

* `menuScreenStep`      a key, a reset, a network command, the poll, or a drawing of the main screen;
* `MenuScreen.page`     the texts that belong on the panel;
* `scroll_menu`, `scroll_callback`, `after_menu`   what is drawn follows the menu;
* `event_page`          an event that draws brings the page to the panel.
-/

set_option linter.unusedSectionVars false
set_option linter.unusedVariables false

namespace MenuFirmware
open Runs Canvas

/-! ## the steps -/

structure MenuScreen where
  edit : EditState
  labels : Labels
  panel : Panel

/-- after `menuInit`, which begins with the settings `d` -/
def menuScreenStart (d : Dev) (panel : Panel) : MenuScreen where
  edit := editStart (arrInit d)
  labels := ipMacChar d.arr labelsInit
  panel := panel

/-- `scrollMenu` before the screen is drawn -/
def scrolled (m : MenuNav) (role : Role) : Except Fault MenuNav := do
  let c ← m.cur
  match role with
  | .up => do
    let n ← m.maxOptions
    .ok (m.set m.currentState (moveUp c n))
  | .down => do
    let n ← m.maxOptions
    .ok (m.set m.currentState (moveDown c n))
  | .confirm => confirm m
  | .cancel => if c.level ≠ menuLevel1 then m.pop else .ok m

section
variable (l : Labels) (d : Dev) (env : StatusEnv)

/-- the end of `scrollMenu` -/
def showCurrentCalls (m : MenuNav) : List ScreenCall :=
  match m.cur with
  | .ok c =>
    if c.level ≠ menuCallback then renderMenuCalls l d.menu m
    else
      match m.prev >>= MenuState.item with
      | .ok it =>
        match it.renderCallback with
        | some f => callbackCalls d env f c.currentItemIdx
        | none => []
      | .error _ => []
  | .error _ => []

def scrollMenuCalls (m : MenuNav) (role : Role) : List ScreenCall :=
  match scrolled m role with
  | .ok m => showCurrentCalls l d env m
  | .error _ => []

/-- the exits call `scrollMenu` for the cancel key -/
def exitCalls (m : MenuNav) (f : Callback) (role : Role) : List ScreenCall :=
  match f, role with
  | .exitAction, .cancel | .exit2MainMenu, .cancel =>
    match setExit m with
    | .ok m => scrollMenuCalls l d env m .cancel
    | .error _ => []
  | _, _ => []

/-- the menu is drawn where the callback has been left -/
def afterCalls (menu : Menu) : Except Fault (Bool × MenuNav) → List ScreenCall
  | .ok (true, m) =>
    match m.pop with
    | .ok m => renderMenuCalls l menu m
    | .error _ => []
  | _ => []

end

/-- does the key store an address? the editor of the UTC offset does not write the titles -/
def EditState.storesAddress (s : EditState) : MenuEvent → Bool
  | .key .confirm =>
    match s.openField with
    | some ⟨e, _⟩ => e != .gps && !(s.statics e).once
    | none => false
  | _ => false

/-- the titles after the button callback -/
def MenuScreen.labelsAfter (s : MenuScreen) (ev : MenuEvent) : Labels :=
  if s.edit.storesAddress ev then ipMacChar (s.edit.react ev).dev.arr s.labels else s.labels

/-- what `menuPollButtons` draws -/
def MenuScreen.keyCalls (s : MenuScreen) (env : StatusEnv) (m : MenuNav) (role : Role) :
    List ScreenCall :=
  match m.openCallback with
  | none => scrollMenuCalls s.labels s.edit.dev env m role
  | some (f, column) =>
    buttonCalls s.edit f column role ++ exitCalls s.labels s.edit.dev env m f role ++
      afterCalls (s.labelsAfter (.key role)) (s.edit.press role).dev.menu
        (btnHandleCallback m f role)

def MenuScreen.eventCalls (s : MenuScreen) (env : StatusEnv) (ev : MenuEvent) : List ScreenCall :=
  match s.edit.nav with
  | .error _ => []
  | .ok m =>
    match ev with
    | .key role => s.keyCalls env m role
    | .otherKey | .resetNoRender => []
    | .reset =>
      match m.menuResetNoRenderMenu with
      | .ok m => renderMenuCalls s.labels s.edit.dev.menu m
      | .error _ => []

/-- the page of the Ethernet finds the PHY in neither of its two states -/
def linkError (env : StatusEnv) (c : Callback × Nat) (d : Dev) : Dev :=
  if c = (.statusPrint, 2) ∧ readEthLinkStatus env = 2 then setStatus d 1 else d

/-- the event for the menu and the editors -/
def EditState.step (s : EditState) (env : StatusEnv) (ev : MenuEvent) : EditState :=
  { editStep s ev with
    dev := (renderedSince s.nav (editStep s ev).nav).foldr (linkError env) (editStep s ev).dev }

inductive MenuScreenEvent where
  | menu (ev : MenuEvent) (env : StatusEnv)
  /-- a command from the network -/
  | net (cmd pos val : UInt8)
  /-- case 9 of `Pollint100mSec` -/
  | poll
  /-- `Set_Status` -/
  | status (status : UInt8)
  /-- the main screen draws, or the network sets the contrast -/
  | other (drawing : List (Bool × UInt8))

def menuScreenStep (font : OledFont) (s : MenuScreen) : MenuScreenEvent → MenuScreen
  | .menu ev env =>
    { edit := s.edit.step env ev
      labels := s.labelsAfter ev
      panel := run Panel.byte s.panel ((s.eventCalls env ev).flatMap (ScreenCall.bytes font)) }
  | .net cmd pos val =>
    { s with edit := { s.edit with dev := (sendUserData s.edit.dev cmd pos val).2 } }
  | .poll =>
    { s with
      edit := { s.edit with dev := pollUpdateFlash s.edit.dev }
      labels := if s.edit.dev.updateFlashFlag then ipMacChar s.edit.dev.arr s.labels else s.labels }
  | .status status => { s with edit := { s.edit with dev := setStatus s.edit.dev status } }
  | .other drawing => { s with panel := run Panel.byte s.panel drawing }

/-- the main screen sends no half of a command -/
def MenuScreenEvent.Lawful : MenuScreenEvent → Prop
  | .other drawing => Complete drawing
  | _ => True

/-! ## what belongs on the panel -/

def MenuScreen.page (s : MenuScreen) (env : StatusEnv) : Option (List Text) :=
  match s.edit.nav with
  | .error _ => none
  | .ok m =>
    match m.openCallback with
    | some (f, column) => pageTexts s.edit.dev env s.edit.shown f column
    | none =>
      match m.cur, m.items with
      | .ok c, .ok t => some (menuTexts s.labels s.edit.dev.menu t c)
      | _, _ => none

/-! ## the drawing follows the menu -/

theorem scrollMenu_eq (m : MenuNav) (role : Role) :
    scrollMenu m role = scrolled m role >>= showCurrent := by
  unfold scrollMenu scrolled
  cases m.cur with
  | error e => rfl
  | ok c =>
    cases role with
    | up => cases m.maxOptions <;> rfl
    | down => cases m.maxOptions <;> rfl
    | confirm => rfl
    | cancel =>
      show (if c.level ≠ menuLevel1 then m.pop >>= showCurrent else Except.ok m >>= showCurrent) =
        (if c.level ≠ menuLevel1 then m.pop else Except.ok m) >>= showCurrent
      split <;> rfl

/-- a menu has the screen, or a callback -/
theorem showCurrent_calls {m m' : MenuNav} (h : showCurrent m = .ok m') (l : Labels) (d : Dev)
    (env : StatusEnv) : ∃ c, m.cur = .ok c ∧
      ((c.level ≠ menuCallback ∧ m' = m ∧ showCurrentCalls l d env m = renderMenuCalls l d.menu m) ∨
        (c.level = menuCallback ∧ ∃ f k, m' = renderCallback m f k ∧
          showCurrentCalls l d env m = callbackCalls d env f k)) := by
  unfold showCurrent at h
  unfold showCurrentCalls
  cases hc : m.cur with
  | error e =>
    rw [hc] at h
    cases h
  | ok c =>
    rw [hc, ok_bind] at h
    refine ⟨c, rfl, ?_⟩
    by_cases hl : c.level ≠ menuCallback
    · rw [if_pos hl] at h
      cases hr : renderMenu m with
      | error e =>
        rw [hr] at h
        cases h
      | ok u =>
        rw [hr, ok_bind] at h
        cases h
        exact Or.inl ⟨hl, rfl, if_pos hl⟩
    · rw [if_neg hl] at h
      cases hp : m.prev with
      | error e =>
        rw [hp] at h
        cases h
      | ok p =>
        rw [hp, ok_bind] at h
        cases hi : p.item with
        | error e =>
          rw [hi] at h
          cases h
        | ok it =>
          rw [hi, ok_bind] at h
          cases hf : it.renderCallback with
          | none =>
            rw [hf] at h
            cases h
          | some f =>
            rw [hf] at h
            refine Or.inr ⟨not_not.1 hl, f, c.currentItemIdx, (Except.ok.inj h).symm, ?_⟩
            have hitem : (Except.ok p >>= MenuState.item) = .ok it := hi
            dsimp only
            rw [if_neg hl, hitem]
            dsimp only
            rw [hf]

theorem cur_atMenu {m : MenuNav} (h : AtMenu m) {c : MenuState} (hc : m.cur = .ok c) :
    c.level ≠ menuCallback := by
  obtain ⟨n, T, ho, hn⟩ := h
  have hle := ho.le
  rw [cur_eq ho hn] at hc
  cases hc
  rw [cur_level ho hn]
  unfold menuCallback
  omega

theorem cur_atCallback {m : MenuNav} {f : Callback} {k : Nat} (h : AtCallback m f k) {c : MenuState}
    (hc : m.cur = .ok c) : c.level = menuCallback := by
  obtain ⟨n, T, i, it, ho, hopen, -, -⟩ := h
  rw [cur_callback ho hopen] at hc
  cases hc
  exact level_callback ho hopen

theorem cur_render (m : MenuNav) (f : Callback) (k : Nat) : (renderCallback m f k).cur = m.cur := by
  obtain ⟨hst, hcs⟩ := renderCallback_frame m f k
  unfold MenuNav.cur MenuNav.state
  rw [hst, hcs]

section
variable {m m' : MenuNav} {role : Role} (he : scrollMenu m role = .ok m') (l : Labels) (d : Dev)
  (env : StatusEnv)
include he

theorem scroll_drawn : ∃ m1, showCurrent m1 = .ok m' ∧
    scrollMenuCalls l d env m role = showCurrentCalls l d env m1 := by
  rw [scrollMenu_eq] at he
  unfold scrollMenuCalls
  cases hs : scrolled m role with
  | error e =>
    rw [hs] at he
    cases he
  | ok m1 =>
    rw [hs, ok_bind] at he
    exact ⟨m1, he, rfl⟩

/-- a key in a menu that ends in a menu draws it -/
theorem scroll_menu (hm : AtMenu m') :
    scrollMenuCalls l d env m role = renderMenuCalls l d.menu m' := by
  obtain ⟨m1, hshow, hcalls⟩ := scroll_drawn he l d env
  obtain ⟨c, hc, ⟨-, rfl, hdraw⟩ | ⟨hl, f, k, rfl, -⟩⟩ := showCurrent_calls hshow l d env
  · exact hcalls.trans hdraw
  · rw [← cur_render m1 f k] at hc
    exact absurd hl (cur_atMenu hm hc)

/-- one that opens a callback calls its render callback -/
theorem scroll_callback {f : Callback} {k : Nat} (hm : AtCallback m' f k)
    (hr : m'.rendered = (f, k) :: m.rendered) :
    scrollMenuCalls l d env m role = callbackCalls d env f k := by
  obtain ⟨m1, hshow, hcalls⟩ := scroll_drawn he l d env
  obtain ⟨c, hc, ⟨hl, rfl, -⟩ | ⟨-, f', k', rfl, hdraw⟩⟩ := showCurrent_calls hshow l d env
  · exact absurd (cur_atCallback hm hc) hl
  · rw [renderCallback_rendered] at hr
    have hhead := (List.cons.inj hr).1
    cases hhead
    exact hcalls.trans hdraw

end

/-- the menu that a callback is left to is drawn -/
theorem after_menu {m m' : MenuNav} (he : afterCallback (true, m) = .ok m') (l : Labels)
    (menu : Menu) : afterCalls l menu (.ok (true, m)) = renderMenuCalls l menu m' := by
  change (m.pop >>= fun m => renderMenu m >>= fun _ => Except.ok m) = .ok m' at he
  unfold afterCalls
  dsimp only
  cases hp : m.pop with
  | error e =>
    rw [hp] at he
    cases he
  | ok m1 =>
    rw [hp, ok_bind] at he
    cases hr : renderMenu m1 with
    | error e =>
      rw [hr] at he
      cases he
    | ok u =>
      rw [hr, ok_bind] at he
      cases he
      rfl

/-! ## the page of a state -/

/-- calls after which the panel shows the texts and nothing else -/
def LeavesPage (calls : List ScreenCall) (texts : List Text) : Prop :=
  ∀ font, ∀ p : Panel, p.contrastNext = false →
    ShowsPage font (run Panel.byte p (calls.flatMap (ScreenCall.bytes font))).ram texts

theorem LeavesPage.behind {a b : List ScreenCall} {texts : List Text} (h : LeavesPage b texts)
    (ha : Drawable a) : LeavesPage (a ++ b) texts := by
  intro font p hp
  rw [List.flatMap_append, run_append]
  exact h font _ (ha font p hp)

theorem PageCalls.leaves {calls : List ScreenCall} {texts : List Text} (h : PageCalls calls texts) :
    LeavesPage calls texts := fun font _ hp => h.page font hp

section
variable {m : MenuNav} {n : Nat} {T : Nat → Table} (h : Opened m n T) (hc : m.currentState = n)
include h hc

theorem renderMenu_leaves {l : Labels} (hl : ∃ c, LabelsOf c l) (menu : Menu) :
    Drawable (renderMenuCalls l menu m) ∧
      LeavesPage (renderMenuCalls l menu m) (menuTexts l menu (T n) (m.states n)) := by
  obtain ⟨c, hl⟩ := hl
  exact ⟨renderMenu_complete h hc hl menu, fun font _ hp => (renderMenu_shown h hc hl menu font hp).2⟩

theorem page_menu {s : MenuScreen} (hs : s.edit.nav = .ok m) (env : StatusEnv) :
    s.page env = some (menuTexts s.labels s.edit.dev.menu (T n) (m.states n)) := by
  unfold MenuScreen.page
  rw [hs]
  dsimp only
  rw [openCallback_menu h hc]
  dsimp only
  rw [cur_eq h hc, items_eq h hc]

end

theorem page_callback {s : MenuScreen} {m : MenuNav} (hs : s.edit.nav = .ok m) {f : Callback} {k : Nat}
    (h : AtCallback m f k) (env : StatusEnv) :
    s.page env = pageTexts s.edit.dev env s.edit.shown f k := by
  unfold MenuScreen.page
  rw [hs]
  dsimp only
  rw [openCallback_at h]

/-! ## one event -/

theorem renders_nav (cs : List (Callback × Nat)) (s : EditState) :
    (cs.foldr (fun c t => t.render c.1 c.2) s).nav = s.nav := by
  induction cs with
  | nil => rfl
  | cons c cs ih =>
    rw [List.foldr_cons, (render_frame _ c.1 c.2).1]
    exact ih

theorem step_nav (s : EditState) (env : StatusEnv) (ev : MenuEvent) :
    (s.step env ev).nav = menuStep s.nav ev := renders_nav _ _

/-- an event that calls no render callback -/
theorem step_same {s : EditState} {m m' : MenuNav} {ev : MenuEvent} (env : StatusEnv)
    (h : s.nav = .ok m) (he : menuStep (.ok m) ev = .ok m') (hr : m'.rendered = m.rendered) :
    s.step env ev = { s.react ev with nav := .ok m' } := by
  have hnil : renderedSince s.nav (editStep s ev).nav = [] := by
    rw [editStep_same h he hr, h]
    show m'.rendered.take (m'.rendered.length - m.rendered.length) = []
    rw [hr, Nat.sub_self]
    rfl
  unfold EditState.step
  rw [hnil, editStep_same h he hr]
  rfl

/-- one that calls a render callback -/
theorem step_render {s : EditState} {m m' : MenuNav} {ev : MenuEvent} (env : StatusEnv)
    {f : Callback} {k : Nat} (h : s.nav = .ok m) (he : menuStep (.ok m) ev = .ok m')
    (hr : m'.rendered = (f, k) :: m.rendered) (hreact : s.react ev = s) :
    (s.step env ev).dev = linkError env (f, k) (s.render f k).dev ∧
      (s.step env ev).shown = (s.render f k).shown := by
  have hedit : editStep s ev = { s with nav := .ok m' }.render f k := by
    rw [editStep_render h he hr, hreact]
  have hone : renderedSince s.nav (editStep s ev).nav = [(f, k)] := by
    rw [hedit, (render_frame _ f k).1, h]
    show m'.rendered.take (m'.rendered.length - m.rendered.length) = [(f, k)]
    rw [hr, List.length_cons, Nat.add_sub_cancel_left]
    rfl
  have hnav : ({ s with nav := .ok m' }.render f k).dev = (s.render f k).dev ∧
      ({ s with nav := .ok m' }.render f k).shown = (s.render f k).shown := by
    have hfield : ∀ o : Option Field, ({ s with nav := .ok m' }.editRender o).dev = (s.editRender o).dev ∧
        ({ s with nav := .ok m' }.editRender o).shown = (s.editRender o).shown := by
      intro o
      cases o <;> exact ⟨rfl, rfl⟩
    cases f with
    | networkIp => exact hfield _
    | networkMac => exact hfield _
    | gps => exact hfield _
    | select g => exact ⟨rfl, rfl⟩
    | systemUniversal => exact ⟨rfl, rfl⟩
    | statusPrint => exact ⟨rfl, rfl⟩
    | statusSynchPrint => exact ⟨rfl, rfl⟩
    | exitAction => exact ⟨rfl, rfl⟩
    | exit2MainMenu => exact ⟨rfl, rfl⟩
  unfold EditState.step
  rw [hone, hedit]
  exact ⟨congrArg (linkError env (f, k)) hnav.1, hnav.2⟩

/-- a choice leaves what can be operated as it is: the status is never `NONOPERATE` after it -/
theorem notOperable_selectRender (d : Dev) (g : Group) (which : Fin g.num) :
    NotOperable (selectRender d g which) g which ↔ NotOperable d g which := by
  unfold NotOperable
  refine and_congr_right fun hg => exists_congr fun _ => ?_
  cases hr : menuRadio g (d.menu g) which with
  | none => rw [selectRender_none d g which hr]
  | some st =>
    rw [(selectRender_some d g which st hr).2.1, Function.update_self]
    have hboth : d.menu g which ≠ nonOperate ∧ st which = menuSet := by
      rcases hg with rfl | rfl
      all_goals
        unfold menuRadio at hr
        dsimp only at hr
        split at hr
        · rename_i hne
          cases hr
          dsimp only
          rw [if_pos hne]
          exact ⟨hne, if_pos rfl⟩
        · cases hr
    rw [hboth.2]
    exact iff_of_false (by decide) hboth.1

/-- the page of a callback is the same before and after its render callback -/
theorem pageTexts_rendered (s : EditState) (env : StatusEnv) (f : Callback) (k : Nat) (shown : UInt8) :
    pageTexts (linkError env (f, k) (s.render f k).dev) env shown f k =
      pageTexts s.dev env shown f k := by
  have hother : ∀ d : Dev, (f, k) ≠ (.statusPrint, 2) → linkError env (f, k) d = d :=
    fun d h => if_neg fun h' => h h'.1
  cases f with
  | networkIp => rfl
  | networkMac => rfl
  | gps => rfl
  | statusSynchPrint => rfl
  | exitAction => rfl
  | exit2MainMenu => rfl
  | statusPrint =>
    by_cases hk : k = 2
    · rw [hk]
      rfl
    · rw [hother _ fun h => hk (Prod.ext_iff.1 h).2]
      rfl
  | systemUniversal =>
    rw [hother _ nofun]
    show some (systemTexts (systemUniversalCallbackRender s.dev k) k) = some (systemTexts s.dev k)
    match k with
    | 0 => rfl
    | 1 => rfl
    | 2 => rfl
    | 3 => rfl
    | n + 4 => rfl
  | select g =>
    rw [hother _ nofun]
    have hiff : NotOperable (s.render (.select g) k).dev g k ↔ NotOperable s.dev g k := by
      by_cases hk : k < g.num
      · have hdev : (s.render (.select g) k).dev = selectRender s.dev g ⟨k, hk⟩ := dif_pos hk
        rw [hdev]
        exact notOperable_selectRender s.dev g ⟨k, hk⟩
      · have hdev : (s.render (.select g) k).dev = s.dev := dif_neg hk
        rw [hdev]
    unfold pageTexts
    simp only [hiff]

/-! ## what an event draws -/

/-- keys and the reset with a menu draw something -/
def MenuEvent.draws : MenuEvent → Bool
  | .key _ | .reset => true
  | .otherKey | .resetNoRender => false

/-- the calls draw the page that belongs on the panel, if there is one -/
def DrawsPage (calls : List ScreenCall) (page : Option (List Text)) : Prop :=
  Drawable calls ∧ ∀ texts, page = some texts → LeavesPage calls texts

theorem PageCalls.draws {calls : List ScreenCall} {texts : List Text} (h : PageCalls calls texts) :
    DrawsPage calls (some texts) :=
  ⟨h.drawable, fun _ he => Option.some.inj he ▸ h.leaves⟩

theorem DrawsPage.behind {a b : List ScreenCall} {page : Option (List Text)} (h : DrawsPage b page)
    (ha : Drawable a) : DrawsPage (a ++ b) page :=
  ⟨ha.append h.1, fun texts he => (h.2 texts he).behind ha⟩

section
variable {l : Labels} (hl : ∃ c, LabelsOf c l) (env : StatusEnv)
include hl

/-- a menu that has the screen -/
theorem menu_draws {s : MenuScreen} {m : MenuNav} (hs : s.edit.nav = .ok m) (hm : AtMenu m)
    (hlabels : s.labels = l) : DrawsPage (renderMenuCalls l s.edit.dev.menu m) (s.page env) := by
  obtain ⟨n, T, h, hc⟩ := hm
  obtain ⟨hdraw, hleaves⟩ := renderMenu_leaves h hc hl s.edit.dev.menu
  rw [page_menu h hc hs env, hlabels]
  exact ⟨hdraw, fun texts he => Option.some.inj he ▸ hleaves⟩

/-- the exits draw the menu that they go back to -/
theorem exit_drawable {m : MenuNav} {f : Callback} {k : Nat} (h : AtCallback m f k) (d : Dev)
    (role : Role) : Drawable (exitCalls l d env m f role) := by
  obtain ⟨n, T, i, it, ho, hopen, -, -⟩ := h
  have hback := scrollMenu_callback ho hopen
  have hscroll : Drawable (scrollMenuCalls l d env m .cancel) := by
    rw [scroll_menu hback l d env ⟨n, T, ho.back, rfl⟩]
    exact (renderMenu_leaves ho.back rfl hl d.menu).1
  unfold exitCalls
  split
  · rw [setExit_eq ho hopen]
    exact hscroll
  · rw [setExit_eq ho hopen]
    exact hscroll
  · exact Drawable.nil

end

/-- a callback that keeps the screen is not left by an exit -/
theorem exit_stays {m : MenuNav} {f : Callback} {k : Nat} (h : AtCallback m f k) {role : Role}
    (hb : btnHandleCallback m f role = .ok (false, m)) (l : Labels) (d : Dev) (env : StatusEnv) :
    exitCalls l d env m f role = [] := by
  obtain ⟨n, T, i, it, ho, hopen, -, -⟩ := h
  have hleaves : isExit f → role ≠ .cancel := by
    rintro hf rfl
    rw [btnHandleCallback_leaves ho hopen hf] at hb
    cases hb
  unfold exitCalls
  split
  · exact absurd rfl (hleaves (Or.inl rfl))
  · exact absurd rfl (hleaves (Or.inr rfl))
  · rfl

theorem labelsAfter_ok {s : MenuScreen} (hl : ∃ c, LabelsOf c s.labels) (ev : MenuEvent) :
    ∃ c, LabelsOf c (s.labelsAfter ev) := by
  unfold MenuScreen.labelsAfter
  split
  · exact ⟨_, labelsOf_ipMacChar _ _⟩
  · exact hl

/-- where no editor has the screen, no address is stored -/
theorem labelsAfter_none {s : MenuScreen} (h : s.edit.openField = none) (ev : MenuEvent) :
    s.labelsAfter ev = s.labels := by
  have hno : s.edit.storesAddress ev = false := by
    unfold EditState.storesAddress
    split
    · rw [h]
    · rfl
  unfold MenuScreen.labelsAfter
  rw [hno]
  rfl

section
variable {s : MenuScreen} (hl : ∃ c, LabelsOf c s.labels) {m : MenuNav} (hs : s.edit.nav = .ok m)
  {n : Nat} {T : Nat → Table} (h : Opened m n T) (env : StatusEnv) (font : OledFont)
include hl hs h

/-- an event that ends in a menu, which it draws last -/
theorem ends_in_menu {ev : MenuEvent} {m' : MenuNav} (he : menuStep (.ok m) ev = .ok m')
    (hm : OnMenu m m') {before : List ScreenCall} (hbefore : Drawable before)
    (hcalls : s.eventCalls env ev =
      before ++ renderMenuCalls (s.labelsAfter ev) (s.edit.react ev).dev.menu m') :
    DrawsPage (s.eventCalls env ev) ((menuScreenStep font s (.menu ev env)).page env) := by
  have hstep : s.edit.step env ev = { s.edit.react ev with nav := .ok m' } := step_same env hs he hm.2
  have hnav : (menuScreenStep font s (.menu ev env)).edit.nav = .ok m' := by
    show (s.edit.step env ev).nav = _
    rw [hstep]
  have hdev : (menuScreenStep font s (.menu ev env)).edit.dev = (s.edit.react ev).dev := by
    show (s.edit.step env ev).dev = _
    rw [hstep]
  have hdraws := menu_draws (labelsAfter_ok hl ev) env hnav hm.1 rfl
  rw [hdev] at hdraws
  rw [hcalls]
  exact hdraws.behind hbefore

theorem reset_draws :
    DrawsPage (s.eventCalls env .reset) ((menuScreenStep font s (.menu .reset env)).page env) := by
  obtain ⟨m0, he0, hc0, ho0, hr0⟩ := menuReset_home h.level
  have he : menuStep (.ok m) .reset = .ok m0 := by
    show m.menuReset = _
    unfold MenuNav.menuReset
    rw [he0, ok_bind, renderMenu_ok ho0 hc0, ok_bind]
  refine ends_in_menu hl hs h env font he ⟨⟨0, _, ho0, hc0⟩, hr0⟩ Drawable.nil ?_
  unfold MenuScreen.eventCalls
  rw [hs]
  dsimp only
  rw [he0]
  rfl

/-- a key in a menu -/
theorem key_menu (hc : m.currentState = n) (role : Role) :
    DrawsPage (s.eventCalls env (.key role))
      ((menuScreenStep font s (.menu (.key role) env)).page env) := by
  have hfield : s.edit.openField = none := openField_none hs (openCallback_menu h hc)
  have hreact : s.edit.react (.key role) = s.edit := react_none hfield _
  have hcalls : s.eventCalls env (.key role) = scrollMenuCalls s.labels s.edit.dev env m role := by
    unfold MenuScreen.eventCalls MenuScreen.keyCalls
    rw [hs]
    dsimp only
    rw [openCallback_menu h hc]
  obtain ⟨m', hscroll, hcases⟩ := scrollMenu_proceeds h hc role
  have he : menuStep (.ok m) (.key role) = .ok m' := (menuPollButtons_menu h hc role).trans hscroll
  rcases hcases with hm | ⟨f, k, hat, hr, -⟩
  · refine ends_in_menu hl hs h env font he hm Drawable.nil ?_
    rw [hcalls, labelsAfter_none hfield, hreact]
    exact scroll_menu hscroll s.labels s.edit.dev env hm.1
  · obtain ⟨hdev, hshown⟩ := step_render env hs he hr hreact
    have hnav : (menuScreenStep font s (.menu (.key role) env)).edit.nav = .ok m' := by
      show (s.edit.step env (.key role)).nav = _
      rw [step_nav, hs, he]
    have hfieldShown : ∀ e i, fieldOf (f, k) = some ⟨e, i⟩ →
        (s.edit.render f k).shown = s.edit.dev.arr e.arr i := by
      intro e i hf
      rw [render_field s.edit hf]
    obtain ⟨hpage, hdraw⟩ := callback_draws s.edit.dev env hfieldShown
    rw [hcalls, scroll_callback hscroll s.labels s.edit.dev env hat hr, page_callback hnav hat env]
    show DrawsPage _ (pageTexts (s.edit.step env (.key role)).dev env
      (s.edit.step env (.key role)).shown f k)
    rw [hdev, hshown, pageTexts_rendered]
    exact ⟨hdraw, fun texts ht => (hpage texts ht).leaves⟩

/-- a key in a callback -/
theorem key_callback {k : Nat} {it : MenuItem} (ho : CallbackOpen m n (T n) k it) (role : Role)
    (hg : NotHomeExit (.ok m) (.key role)) :
    DrawsPage (s.eventCalls env (.key role))
      ((menuScreenStep font s (.menu (.key role) env)).page env) := by
  obtain ⟨f, hf⟩ := Option.ne_none_iff_exists'.1 ho.callback
  have hat : AtCallback m f (m.states menuCallback).currentItemIdx := ⟨n, T, k, it, h, ho, hf, rfl⟩
  generalize (m.states menuCallback).currentItemIdx = column at hat
  have hopen : s.edit.openField = fieldOf (f, column) := by
    rw [openField_ok hs, openCallback_at hat]
    rfl
  have hcalls : s.eventCalls env (.key role) =
      buttonCalls s.edit f column role ++ exitCalls s.labels s.edit.dev env m f role ++
        afterCalls (s.labelsAfter (.key role)) (s.edit.press role).dev.menu
          (btnHandleCallback m f role) := by
    unfold MenuScreen.eventCalls MenuScreen.keyCalls
    rw [hs]
    dsimp only
    rw [openCallback_at hat]
  have hx : role = .cancel → ¬ HomeExitOpen m := by
    rintro rfl
    exact hg
  have hbutton := button_drawable s.edit f column role
  rcases callback_cases h ho hf role hx with ⟨he, hb⟩ | ⟨m', he, hm⟩
  · have hstep : s.edit.step env (.key role) = { s.edit.press role with nav := .ok m } :=
      step_same env hs he rfl
    have hnav : (menuScreenStep font s (.menu (.key role) env)).edit.nav = .ok m := by
      show (s.edit.step env (.key role)).nav = _
      rw [hstep]
    rw [hcalls, hb, exit_stays hat hb, List.append_nil, page_callback hnav hat env]
    show DrawsPage (buttonCalls s.edit f column role ++ []) (pageTexts (s.edit.step env (.key role)).dev
      env (s.edit.step env (.key role)).shown f column)
    rw [hstep, List.append_nil]
    exact ⟨hbutton, fun texts ht => (button_draws hopen hb _ env ht).leaves⟩
  · refine ends_in_menu hl hs h env font he hm
      (hbutton.append (exit_drawable hl env hat s.edit.dev role)) ?_
    rw [hcalls]
    refine congrArg _ ?_
    -- a callback that has been left is popped
    rw [menuPollButtons_callback h ho hf] at he
    rcases btnHandleCallback_cases h ho f role with hb | ⟨-, hb⟩ | ⟨-, -, hb⟩
    · rw [hb, ok_bind] at he
      cases he
      have hnone := openCallback_atMenu hm.1
      rw [openCallback_at hat] at hnone
      cases hnone
    · rw [hb, ok_bind] at he
      rw [hb]
      exact after_menu he _ _
    · rw [hb, ok_bind] at he
      rw [hb]
      exact after_menu he _ _

end

/-- **An event.**  It draws the page that belongs on the panel after it. -/
theorem event_page {s : MenuScreen} (hl : ∃ c, LabelsOf c s.labels) {m : MenuNav}
    (hs : s.edit.nav = .ok m) (hinv : MenuInv m) {ev : MenuEvent} (hg : NotHomeExit (.ok m) ev)
    (hd : ev.draws = true) (env : StatusEnv) (font : OledFont) :
    DrawsPage (s.eventCalls env ev) ((menuScreenStep font s (.menu ev env)).page env) := by
  obtain ⟨n, T, h, hscreen⟩ := hinv
  cases ev with
  | otherKey => cases hd
  | resetNoRender => cases hd
  | reset => exact reset_draws hl hs h env font
  | key role =>
    rcases hscreen with hc | ⟨k, it, ho⟩
    · exact key_menu hl hs h env font hc role
    · exact key_callback hl hs h env font ho role hg

end MenuFirmware
