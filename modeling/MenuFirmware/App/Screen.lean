import MenuFirmware.App.Wake
import MenuFirmware.Oled.Picture

/-!
# What the screen shows (`main_meau.c`, `menu_items.c`, `oled.c`)

The polls of `Wake`, with the panel they draw on.  The menu may draw anything, but only in a poll that
opens it and for a key that reaches it; between these the main screen draws over itself.

* `screenStep`       a poll, a dispatch, and what else happens between them;
* `Pictured`         the parts of the main screen stand on the panel;
* `screenInv_step`   every step keeps the picture of the main screen;
* `mainScreen_shows`   over every run, the main screen shows the delay that was drawn last;
* `good_after_error`   and the letter that an error has left behind `GOOD`.
-/

set_option linter.unusedSectionVars false
set_option linter.unusedVariables false

namespace MenuFirmware
open Runs Canvas

/-! ## the steps -/

structure MainScreen where
  wake : WakeState
  main : MainMeau
  panel : Panel
  /-- ghost: the delay that was drawn since the screen was cleared, last -/
  delay : Option DelayText
  /-- ghost: the characters that were drawn behind `STATUS` since then, each the last in its place -/
  field : Nat → Option UInt8

/-- before the first poll -/
def screenInit (panel : Panel) : MainScreen := ⟨wakeInit, mainMeauInit, panel, none, fun _ => none⟩

/-- a poll that finds the countdown at zero -/
def mainPoll (font : OledFont) (s : MainScreen) (env : MainEnv) : MainScreen :=
  let r := dspInterface s.main env s.wake.clearOledFlag
  let cleared := clears s.main env s.wake.clearOledFlag
  { wake := pollintDisplayMainMenu s.wake
    main := r.1
    panel := run Panel.byte s.panel
      (((if s.wake.clearOledFlag then [ScreenCall.clear] else []) ++ r.2).flatMap (ScreenCall.bytes font))
    delay := if env.status = 0 then some (delayText env) else if cleared then none else s.delay
    field := overField (statusWord s.main env.status) (if cleared then fun _ => none else s.field) }

inductive ScreenEvent where
  /-- `Pollint_Display_Main_menu`; where it opens the menu, the menu draws -/
  | poll (env : MainEnv) (drawing : List (Bool × UInt8))
  /-- an event of the queue; where it reaches the menu, the menu draws -/
  | dispatch (drawing : List (Bool × UInt8))
  | scan (p : Pins)
  | setCntDown (cnt : UInt16)
  /-- `set_blink_flag` -/
  | blink
  /-- the brightness is set over the network -/
  | contrast (level : UInt8)

def screenStep (font : OledFont) (s : MainScreen) : ScreenEvent → MainScreen
  | .poll env drawing =>
    if s.wake.cntDown ≠ 0 then
      { s with
        wake := pollintDisplayMainMenu s.wake
        panel := if s.wake.clearOledFlag then s.panel else run Panel.byte s.panel drawing }
    else mainPoll font s env
  | .dispatch drawing =>
    { s with
      wake := dispatch s.wake
      panel := if (dispatch s.wake).acted.length = s.wake.acted.length then s.panel
        else run Panel.byte s.panel drawing }
  | .scan p => { s with wake := wakeScan s.wake p }
  | .setCntDown cnt => { s with wake := { s.wake with cntDown := cnt } }
  | .blink => { s with main := setBlinkFlag s.main }
  | .contrast level => { s with panel := run Panel.byte s.panel [(oledCmd, 0x81), (oledCmd, level)] }

/-- there is a zero before the end of the row behind `line_2` -/
def ScreenEvent.Lawful : ScreenEvent → Prop
  | .poll env drawing => (∃ k ≤ 8, env.behind k = 0) ∧ Complete drawing
  | .dispatch drawing => Complete drawing
  | _ => True

/-! ## the view -/

theorem renderCall_view (s : WakeState) (f : Callback) :
    (renderCall s f).view = s.view ∧ (renderCall s f).acted = s.acted := by
  cases f
  all_goals exact ⟨rfl, rfl⟩

theorem renderCalls_view (fs : List Callback) : ∀ s : WakeState,
    (fs.foldl renderCall s).view = s.view ∧ (fs.foldl renderCall s).acted = s.acted := by
  induction fs with
  | nil => exact fun s => ⟨rfl, rfl⟩
  | cons f fs ih =>
    intro s
    obtain ⟨hv, ha⟩ := renderCall_view s f
    obtain ⟨hv', ha'⟩ := ih (renderCall s f)
    exact ⟨hv'.trans hv, ha'.trans ha⟩

/-- a dispatch that brings no event to the menu leaves the view, one that does shows the menu -/
theorem dispatch_view (s : WakeState) :
    ((dispatch s).acted.length = s.acted.length ∧ (dispatch s).view = s.view) ∨
      ((dispatch s).acted.length ≠ s.acted.length ∧ (dispatch s).view = .menu) := by
  have hpoll : ∀ (t : WakeState) (e : StrEvent Origin) (role : Role), t.acted = s.acted →
      (pollButtons t e role).acted.length ≠ s.acted.length ∧ (pollButtons t e role).view = .menu := by
    intro t e role ht
    obtain ⟨hv, ha⟩ := renderCalls_view
      (newRendered t.nav (menuStep t.nav (.key role)))
      { t with
        nav := menuStep t.nav (.key role)
        view := .menu
        acted := ⟨t.view, e.tag⟩ :: t.acted }
    have hlen : (pollButtons t e role).acted = ⟨t.view, e.tag⟩ :: t.acted := ha
    refine ⟨?_, hv⟩
    rw [hlen, List.length_cons, ht]
    omega
  unfold dispatch
  simp only
  split
  · unfold modeKey
    split
    · split
      · exact Or.inr (hpoll _ _ _ rfl)
      · exact Or.inl ⟨rfl, rfl⟩
    · exact Or.inl ⟨rfl, rfl⟩
  · exact Or.inl ⟨rfl, rfl⟩

theorem keyCalls_view (cs : List KeyCall) : ∀ s : WakeState,
    (cs.foldl keyCall s).view = s.view := by
  induction cs with
  | nil => exact fun s => rfl
  | cons c cs ih =>
    intro s
    rw [List.foldl_cons, ih]
    cases c
    all_goals rfl

theorem wakeScan_view (s : WakeState) (p : Pins) : (wakeScan s p).view = s.view :=
  keyCalls_view _ _

/-! ## the picture -/

/-- what stands on the panel: the texts, the delay, and in the detail mode the places behind `STATUS` -/
structure Pictured (font : OledFont) (ram : Nat → Nat → UInt8) (mode : UInt8) (d : Option DelayText)
    (word : Nat → Option UInt8) : Prop where
  text : ∀ p ∈ texts font mode, Depicts ram p
  delay : ∀ p ∈ delayPicture font mode d, Depicts ram p
  field : mode = 3 → ∀ i < 5, Depicts ram (fieldPatch font i (word i))

section
variable {font : OledFont} {env : MainEnv} (hends : ∃ k ≤ 8, env.behind k = 0) (m : MainMeau)
include hends

/-- the main screen is drawn over itself -/
theorem pictured_over {ram : Nat → Nat → UInt8} {delay : Option DelayText} {field : Nat → Option UInt8}
    (h : Pictured font ram env.displayMode delay field) :
    Pictured font (run paint ram ((mainCalls m env false).flatMap (ScreenCall.patches font)))
      env.displayMode (if env.status = 0 then some (delayText env) else delay)
      (overField (statusWord m env.status) field) where
  text := fun p hp => texts_shown hends m hp (Or.inl (h.text p hp))
  delay := by
    intro p hp
    by_cases hgood : env.status = 0
    · rw [if_pos hgood] at hp
      exact delay_renewed m false ram hgood hp
    · rw [if_neg hgood] at hp
      exact delay_left hends m hgood hp (h.delay p hp)
  field := fun h3 i hi => field_shown hends m false h3 hi (h.field h3 i hi)

/-- and on a cleared screen -/
theorem pictured_cleared {ram : Nat → Nat → UInt8} (hclear : Depicts ram clearPatch) :
    Pictured font (run paint ram ((mainCalls m env true).flatMap (ScreenCall.patches font)))
      env.displayMode (if env.status = 0 then some (delayText env) else none)
      (overField (statusWord m env.status) fun _ => none) where
  text := fun p hp => texts_shown hends m hp (Or.inr rfl)
  delay := by
    intro p hp
    by_cases hgood : env.status = 0
    · rw [if_pos hgood] at hp
      exact delay_renewed m true ram hgood hp
    · rw [if_neg hgood] at hp
      exact delay_none hends m hgood
        (fun b hb => blank_shown hclear (digitBoxes_cleared env.displayMode b hb)) hp
  field := fun h3 i hi => field_shown hends m true h3 hi
    (blank_shown hclear (fieldBoxes_cleared i hi))

end

/-- the clearing calls before the main screen is drawn -/
def clearCalls (s : MainScreen) (env : MainEnv) : List ScreenCall :=
  (if s.wake.clearOledFlag then [.clear] else []) ++ if modeChanged s.main env then [.clear] else []

theorem clearCalls_shown (font : OledFont) {s : MainScreen} {env : MainEnv}
    (h : clears s.main env s.wake.clearOledFlag = true) (c : Nat → Nat → UInt8) :
    Depicts (run paint c ((clearCalls s env).flatMap (ScreenCall.patches font))) clearPatch := by
  unfold clears at h
  unfold clearCalls
  by_cases hmode : modeChanged s.main env = true
  · rw [if_pos hmode, List.flatMap_append, run_append]
    exact shows_paint _ clearPatch
  · have hflag : s.wake.clearOledFlag = true := by
      rw [Bool.eq_false_iff.2 hmode, Bool.or_false] at h
      exact h
    rw [if_neg hmode, if_pos hflag]
    exact shows_paint c clearPatch

theorem clearCalls_none {s : MainScreen} {env : MainEnv}
    (h : clears s.main env s.wake.clearOledFlag = false) :
    clearCalls s env = [] ∧ env.displayMode = s.main.preMode := by
  obtain ⟨hflag, hmode⟩ := Bool.or_eq_false_iff.1 h
  unfold clearCalls
  rw [hflag, hmode]
  exact ⟨rfl, bne_eq_false_iff_eq.1 hmode⟩

/-- a poll that draws the main screen -/
theorem mainPoll_pictured {font : OledFont} {s : MainScreen} {env : MainEnv}
    (hends : ∃ k ≤ 8, env.behind k = 0) (hready : s.panel.contrastNext = false)
    (honce : s.main.staticDisplayOnce = 1)
    (h : s.wake.clearOledFlag = false →
      Pictured font s.panel.ram s.main.preMode s.delay s.field) :
    (mainPoll font s env).panel.contrastNext = false ∧
      Pictured font (mainPoll font s env).panel.ram env.displayMode (mainPoll font s env).delay
        (mainPoll font s env).field := by
  have hcalls : (if s.wake.clearOledFlag then [ScreenCall.clear] else []) ++
      (dspInterface s.main env s.wake.clearOledFlag).2 =
      clearCalls s env ++ mainCalls s.main env (clears s.main env s.wake.clearOledFlag) := by
    rw [dspInterface_calls honce, ← List.append_assoc]
    rfl
  have hfits : ∀ call ∈ clearCalls s env ++
      mainCalls s.main env (clears s.main env s.wake.clearOledFlag), call.Fits := by
    intro call hc
    rcases List.mem_append.1 hc with hc | hc
    · have hclear : call = .clear := by
        unfold clearCalls at hc
        rcases List.mem_append.1 hc with hc | hc
        · split at hc
          · exact List.mem_singleton.1 hc
          · exact absurd hc List.not_mem_nil
        · split at hc
          · exact List.mem_singleton.1 hc
          · exact absurd hc List.not_mem_nil
      rw [hclear]
      trivial
    · exact mainCalls_fits hends s.main _ call hc
  obtain ⟨hready', hram⟩ := paints_calls font hfits s.panel hready
  have hpaint : ∀ a b : List ScreenCall, run paint s.panel.ram
      ((a ++ b).flatMap (ScreenCall.patches font)) =
      run paint (run paint s.panel.ram (a.flatMap (ScreenCall.patches font)))
        (b.flatMap (ScreenCall.patches font)) := by
    intro a b
    rw [List.flatMap_append, run_append]
  unfold mainPoll
  simp only
  rw [hcalls, hram, hpaint]
  refine ⟨hready', ?_⟩
  cases hcl : clears s.main env s.wake.clearOledFlag with
  | true => exact pictured_cleared hends s.main (clearCalls_shown font hcl s.panel.ram)
  | false =>
    obtain ⟨hnone, hmode⟩ := clearCalls_none hcl
    have hflag : s.wake.clearOledFlag = false := (Bool.or_eq_false_iff.1 hcl).1
    have hpic := h hflag
    rw [← hmode] at hpic
    rw [hnone]
    exact pictured_over hends s.main hpic

/-! ## every step -/

structure ScreenInv (font : OledFont) (s : MainScreen) : Prop where
  wake : WakeInv s.wake
  ready : s.panel.contrastNext = false
  once : s.main.staticDisplayOnce = 1
  pictured : s.wake.view = .main → Pictured font s.panel.ram s.main.preMode s.delay s.field

theorem mainPoll_inv {font : OledFont} {s : MainScreen} {env : MainEnv}
    (hends : ∃ k ≤ 8, env.behind k = 0) (hready : s.panel.contrastNext = false)
    (honce : s.main.staticDisplayOnce = 1)
    (h : s.wake.clearOledFlag = false → Pictured font s.panel.ram s.main.preMode s.delay s.field)
    (hwake : WakeInv (pollintDisplayMainMenu s.wake)) : ScreenInv font (mainPoll font s env) := by
  obtain ⟨hready', hpic⟩ := mainPoll_pictured hends hready honce h
  obtain ⟨honce', hpre, -⟩ := dspInterface_state honce env s.wake.clearOledFlag
  refine ⟨hwake, hready', honce', fun _ => ?_⟩
  have hmode : (mainPoll font s env).main.preMode = env.displayMode := hpre
  rw [hmode]
  exact hpic

/-- the two bytes of the contrast leave what is on the panel -/
theorem panel_contrast {p : Panel} (hp : p.contrastNext = false) (level : UInt8) :
    run Panel.byte p [(oledCmd, 0x81), (oledCmd, level)] = p := by
  have hfirst : p.byte (oledCmd, 0x81) = { p with contrastNext := true } := by
    show p.command _ = _
    unfold Panel.command
    rw [hp, if_neg Bool.false_ne_true, if_pos rfl]
  have hsecond : Panel.byte { p with contrastNext := true } (oledCmd, level) =
      { p with contrastNext := false } := rfl
  rw [run_cons, hfirst, run_cons, hsecond, ← hp]
  rfl

theorem screenInv_step (font : OledFont) (s : MainScreen) (e : ScreenEvent) (h : ScreenInv font s)
    (he : e.Lawful) : ScreenInv font (screenStep font s e) := by
  obtain ⟨hwake, hready, honce, hpic⟩ := h
  cases e with
  | poll env drawing =>
    have hwake' : WakeInv (pollintDisplayMainMenu s.wake) := wakePoll_inv hwake
    have hview : s.wake.clearOledFlag = false → s.wake.view = .main := by
      intro hflag
      rw [hwake.drawn, hflag]
      rfl
    show ScreenInv font (if _ then _ else _)
    by_cases hcnt : s.wake.cntDown ≠ 0
    · rw [if_pos hcnt]
      have hmenu : (pollintDisplayMainMenu s.wake).view = .menu := by
        rw [hwake'.drawn]
        unfold pollintDisplayMainMenu
        rw [if_pos hcnt]
        by_cases hflag : s.wake.clearOledFlag = false
        · rw [if_pos hflag]
          rfl
        · rw [if_neg hflag]
          exact if_pos (Bool.eq_true_of_not_eq_false hflag)
      refine ⟨hwake', ?_, honce, fun hmain => ?_⟩
      · show Panel.contrastNext (if _ then _ else _) = false
        split
        · exact hready
        · exact he.2 s.panel hready
      · rw [hmenu] at hmain
        cases hmain
    · rw [if_neg hcnt]
      exact mainPoll_inv he.1 hready honce (fun hflag => hpic (hview hflag)) hwake'
  | dispatch drawing =>
    have hwake' : WakeInv (dispatch s.wake) := dispatch_inv hwake
    rcases dispatch_view s.wake with ⟨hlen, hview⟩ | ⟨hlen, hview⟩
    · refine ⟨hwake', ?_, honce, fun hmain => ?_⟩
      · show Panel.contrastNext (if _ then _ else _) = false
        rw [if_pos hlen]
        exact hready
      · show Pictured font (Panel.ram (if _ then _ else _)) _ _ _
        rw [if_pos hlen]
        exact hpic (hview ▸ hmain)
    · refine ⟨hwake', ?_, honce, fun hmain => ?_⟩
      · show Panel.contrastNext (if _ then _ else _) = false
        rw [if_neg hlen]
        exact he s.panel hready
      · have hnot : (dispatch s.wake).view = .main := hmain
        rw [hview] at hnot
        cases hnot
  | scan p =>
    refine ⟨wakeScan_inv hwake p, hready, honce, fun hmain => hpic ?_⟩
    rw [← wakeScan_view s.wake p]
    exact hmain
  | setCntDown cnt => exact ⟨wakeCntDown_inv hwake cnt, hready, honce, hpic⟩
  | blink =>
    have hsame : (setBlinkFlag s.main).staticDisplayOnce = s.main.staticDisplayOnce ∧
        (setBlinkFlag s.main).preMode = s.main.preMode := by
      unfold setBlinkFlag
      split
      · exact ⟨rfl, rfl⟩
      · exact ⟨rfl, rfl⟩
    refine ⟨hwake, hready, hsame.1.trans honce, fun hmain => ?_⟩
    show Pictured font s.panel.ram (setBlinkFlag s.main).preMode s.delay s.field
    rw [hsame.2]
    exact hpic hmain
  | contrast level =>
    have hsame : screenStep font s (.contrast level) = s := by
      show { s with panel := run Panel.byte s.panel [(oledCmd, 0x81), (oledCmd, level)] } = s
      rw [panel_contrast hready]
    rw [hsame]
    exact ⟨hwake, hready, honce, hpic⟩

/-- the first poll -/
theorem screenInv_first (font : OledFont) {panel : Panel} (hready : panel.contrastNext = false)
    {env : MainEnv} {drawing : List (Bool × UInt8)} (he : (ScreenEvent.poll env drawing).Lawful) :
    ScreenInv font (screenStep font (screenInit panel) (.poll env drawing)) :=
  mainPoll_inv he.1 hready rfl nofun wakeInv_first

/-! ## while the main screen stays -/

/-- a poll from the main screen to the main screen draws it -/
theorem main_poll {font : OledFont} {s : MainScreen} (h : ScreenInv font s) {env : MainEnv}
    {drawing : List (Bool × UInt8)} (hmain : s.wake.view = .main)
    (hmain' : (screenStep font s (.poll env drawing)).wake.view = .main) :
    s.wake.clearOledFlag = false ∧ screenStep font s (.poll env drawing) = mainPoll font s env := by
  have hflag : s.wake.clearOledFlag = false := by
    by_contra hn
    have hmenu : s.wake.view = .menu := by
      rw [h.wake.drawn, if_pos (Bool.eq_true_of_not_eq_false hn)]
    rw [hmenu] at hmain
    cases hmain
  refine ⟨hflag, ?_⟩
  by_cases hcnt : s.wake.cntDown ≠ 0
  · have hpoll : screenStep font s (.poll env drawing) =
        { s with
          wake := pollintDisplayMainMenu s.wake
          panel := if s.wake.clearOledFlag then s.panel else run Panel.byte s.panel drawing } :=
      if_pos hcnt
    have hview : (pollintDisplayMainMenu s.wake).view = .menu := by
      unfold pollintDisplayMainMenu
      rw [if_pos hcnt, if_pos hflag]
    rw [hpoll] at hmain'
    have hmenu : (pollintDisplayMainMenu s.wake).view = .main := hmain'
    rw [hview] at hmenu
    cases hmenu
  · exact if_neg hcnt

/-- a step from the main screen to the main screen draws it, or leaves what was drawn -/
theorem main_step {font : OledFont} {s : MainScreen} (h : ScreenInv font s) (e : ScreenEvent)
    (hmain : s.wake.view = .main) (hmain' : (screenStep font s e).wake.view = .main) :
    (∃ env drawing, e = .poll env drawing ∧ s.wake.clearOledFlag = false ∧
        screenStep font s e = mainPoll font s env) ∨
      ((screenStep font s e).main.preMode = s.main.preMode ∧
        (screenStep font s e).delay = s.delay ∧ (screenStep font s e).field = s.field) := by
  cases e with
  | poll env drawing => exact Or.inl ⟨env, drawing, rfl, main_poll h hmain hmain'⟩
  | dispatch drawing => exact Or.inr ⟨rfl, rfl, rfl⟩
  | scan p => exact Or.inr ⟨rfl, rfl, rfl⟩
  | setCntDown cnt => exact Or.inr ⟨rfl, rfl, rfl⟩
  | blink =>
    refine Or.inr ⟨?_, rfl, rfl⟩
    show (setBlinkFlag s.main).preMode = s.main.preMode
    unfold setBlinkFlag
    split
    · rfl
    · rfl
  | contrast level => exact Or.inr ⟨rfl, rfl, rfl⟩

theorem mainPoll_mode {font : OledFont} {s : MainScreen} (h : s.main.staticDisplayOnce = 1)
    (env : MainEnv) : (mainPoll font s env).main.preMode = env.displayMode :=
  (dspInterface_state h env s.wake.clearOledFlag).2.1

/-- what a poll of the main screen leaves, where the mode is the same -/
theorem mainPoll_same (font : OledFont) {s : MainScreen} {env : MainEnv}
    (hflag : s.wake.clearOledFlag = false) (hmode : env.displayMode = s.main.preMode) :
    (mainPoll font s env).delay = (if env.status = 0 then some (delayText env) else s.delay) ∧
      (mainPoll font s env).field = overField (statusWord s.main env.status) s.field := by
  have hcl : clears s.main env s.wake.clearOledFlag = false := by
    unfold clears modeChanged
    rw [hflag, hmode, bne_self_eq_false]
    rfl
  unfold mainPoll
  simp only [hcl, Bool.false_eq_true, if_false]
  exact ⟨trivial, trivial⟩

/-- the polls among events are in a display mode, with a status that is one of these -/
def PollsIn (mode : UInt8) (ok : UInt8 → Prop) (es : List ScreenEvent) : Prop :=
  ∀ e ∈ es, e.Lawful ∧ ∀ env drawing, e = .poll env drawing → env.displayMode = mode ∧ ok env.status

/-- the view stays on the main screen -/
def OnMain (font : OledFont) : MainScreen → List ScreenEvent → Prop :=
  Always (screenStep font) fun s => s.wake.view = .main

/-- without a good status, the delay that was drawn stays the last one -/
theorem delay_kept {font : OledFont} {s : MainScreen} (h : ScreenInv font s) {mode : UInt8}
    {d : Option DelayText} (hmode : s.main.preMode = mode) (hd : s.delay = d) {es : List ScreenEvent}
    (hmain : OnMain font s es) (hes : PollsIn mode (· ≠ 0) es) :
    ScreenInv font (run (screenStep font) s es) ∧
      (run (screenStep font) s es).main.preMode = mode ∧ (run (screenStep font) s es).delay = d := by
  refine run_invariant_within (I := fun t => ScreenInv font t ∧ t.main.preMode = mode ∧ t.delay = d)
    ?_ hmain ⟨h, hmode, hd⟩
  rintro t e he hview hview' ⟨hinv, hm, hdel⟩
  obtain ⟨hlaw, hpoll⟩ := hes e he
  refine ⟨screenInv_step font t e hinv hlaw, ?_⟩
  rcases main_step hinv e hview hview' with ⟨env, drawing, rfl, hflag, hstep⟩ | ⟨hm', hd', -⟩
  · obtain ⟨hsame, hbad⟩ := hpoll env drawing rfl
    obtain ⟨hdelay, -⟩ := mainPoll_same font hflag (hsame.trans hm.symm)
    rw [hstep]
    refine ⟨(mainPoll_mode hinv.once env).trans hsame, ?_⟩
    rw [hdelay, if_neg hbad]
    exact hdel
  · exact ⟨hm'.trans hm, hd'.trans hdel⟩

/-- the shorter words leave the fifth place behind `STATUS` -/
theorem field_four {m : MainMeau} {status : UInt8} (h : status ≠ 1) (field : Nat → Option UInt8) :
    overField (statusWord m status) field 4 = field 4 := by
  have hlen : (statusWord m status).length ≤ 4 := by
    unfold statusWord
    rw [if_neg h]
    split
    · decide
    · split
      · decide
      · decide
  unfold overField
  rw [List.getElem?_eq_none hlen, Option.none_or]

theorem field_kept {font : OledFont} {s : MainScreen} (h : ScreenInv font s)
    (hmode : s.main.preMode = 3) {c : Option UInt8} (hc : s.field 4 = c) {es : List ScreenEvent}
    (hmain : OnMain font s es) (hes : PollsIn 3 (· ≠ 1) es) :
    ScreenInv font (run (screenStep font) s es) ∧
      (run (screenStep font) s es).main.preMode = 3 ∧ (run (screenStep font) s es).field 4 = c := by
  refine run_invariant_within (I := fun t => ScreenInv font t ∧ t.main.preMode = 3 ∧ t.field 4 = c)
    ?_ hmain ⟨h, hmode, hc⟩
  rintro t e he hview hview' ⟨hinv, hm, hfour⟩
  obtain ⟨hlaw, hpoll⟩ := hes e he
  refine ⟨screenInv_step font t e hinv hlaw, ?_⟩
  rcases main_step hinv e hview hview' with ⟨env, drawing, rfl, hflag, hstep⟩ | ⟨hm', -, hf'⟩
  · obtain ⟨hsame, hother⟩ := hpoll env drawing rfl
    obtain ⟨-, hfield⟩ := mainPoll_same font hflag (hsame.trans hm.symm)
    rw [hstep]
    refine ⟨(mainPoll_mode hinv.once env).trans hsame, ?_⟩
    rw [hfield, field_four hother]
    exact hfour
  · exact ⟨hm'.trans hm, by rw [hf']; exact hfour⟩

/-! ## every run -/

/-- the state after a first poll and the events `es` -/
def screenRun (font : OledFont) (panel : Panel) (env : MainEnv) (drawing : List (Bool × UInt8))
    (es : List ScreenEvent) : MainScreen :=
  run (screenStep font) (screenInit panel) (.poll env drawing :: es)

theorem screenRun_inv (font : OledFont) {panel : Panel} {env : MainEnv}
    {drawing : List (Bool × UInt8)} {es : List ScreenEvent} (hpanel : panel.contrastNext = false)
    (hes : ∀ e ∈ ScreenEvent.poll env drawing :: es, e.Lawful) :
    ScreenInv font (screenRun font panel env drawing es) :=
  run_invariant_mem (fun s e he h => screenInv_step font s e h (hes e (List.mem_cons_of_mem _ he)))
    (screenInv_first font hpanel (hes _ List.mem_cons_self))

theorem step_mainPoll {font : OledFont} {s : MainScreen} (env : MainEnv)
    (drawing : List (Bool × UInt8)) (h : s.wake.cntDown = 0) :
    screenStep font s (.poll env drawing) = mainPoll font s env := if_neg (not_not.2 h)

/-- **The delay.**  In every run from power-up, a poll of the main screen that finds the status good
puts the delay on the panel, between the texts of the display mode; both stay there through everything
that happens until the screen is left, its mode changes or another poll finds the status good.  With
the GPS or the oscillator as clock, locked and below nine seconds, the characters are read as the
seconds of register 0x88 and the 2500th part of the other four registers, in tenths of a
millisecond. -/
theorem mainScreen_shows (font : OledFont) {panel : Panel} (hpanel : panel.contrastNext = false)
    (env₀ env : MainEnv) (drawing₀ drawing : List (Bool × UInt8)) (es rest : List ScreenEvent)
    (hes : ∀ e ∈ ScreenEvent.poll env₀ drawing₀ :: es, e.Lawful)
    (hlaw : (ScreenEvent.poll env drawing).Lawful)
    (hdue : (screenRun font panel env₀ drawing₀ es).wake.cntDown = 0) (hgood : env.status = 0)
    (hmain : OnMain font (screenRun font panel env₀ drawing₀ (es ++ [.poll env drawing])) rest)
    (hrest : PollsIn env.displayMode (· ≠ 0) rest) :
    (∀ p ∈ texts font env.displayMode ++ digitPatches font env.displayMode (delayText env),
      Depicts (screenRun font panel env₀ drawing₀ (es ++ .poll env drawing :: rest)).panel.ram p) ∧
    ((env.srcClocktype = 0x03 ∨ env.srcClocktype = 0x02) → (env.reg0x8dNum &&& 0x08) >>> 3 = 1 →
      env.reg 0x88 < 0x09 → (delayText env).tenths =
        (env.reg 0x88).toNat * 10000 + (gpsModeJitter env).toNat / 2500 % 10000) := by
  refine ⟨?_, fun hclock hlock hsec => delay_reads hclock hlock hsec⟩
  have hinv := screenRun_inv font hpanel hes
  have hafter : screenRun font panel env₀ drawing₀ (es ++ [.poll env drawing]) =
      mainPoll font (screenRun font panel env₀ drawing₀ es) env := by
    unfold screenRun
    rw [← List.cons_append, run_append]
    exact step_mainPoll env drawing hdue
  have hend : screenRun font panel env₀ drawing₀ (es ++ .poll env drawing :: rest) =
      run (screenStep font) (mainPoll font (screenRun font panel env₀ drawing₀ es) env) rest := by
    rw [← hafter]
    unfold screenRun
    rw [← List.cons_append, run_append, ← List.cons_append, run_append]
    rfl
  have hinv' : ScreenInv font (mainPoll font (screenRun font panel env₀ drawing₀ es) env) := by
    rw [← step_mainPoll env drawing hdue]
    exact screenInv_step font _ _ hinv hlaw
  have hdelay : (mainPoll font (screenRun font panel env₀ drawing₀ es) env).delay =
      some (delayText env) := if_pos hgood
  have hmode : (mainPoll font (screenRun font panel env₀ drawing₀ es) env).main.preMode =
      env.displayMode := mainPoll_mode hinv.once env
  rw [hafter] at hmain
  obtain ⟨hfinal, hfm, hfd⟩ := delay_kept hinv' hmode hdelay hmain hrest
  have hpic := hfinal.pictured hmain.last
  rw [hfm, hfd] at hpic
  rw [hend]
  intro p hp
  rcases List.mem_append.1 hp with hp | hp
  · exact hpic.text p hp
  · exact hpic.delay p hp

/-- a detail screen with the GPS as clock, locked, and ones in all registers -/
def onesEnv (status : UInt8) : MainEnv where
  displayMode := 3
  srcClocktype := 3
  status := status
  reg0x8dNum := 0x08
  reg _ := 1
  utcOffsetNum := defaultUtcOffsetNum
  parse := gpsParseInit
  gpsDisplayStatus := 1
  gpsValue := 1
  vidLinkFlag := 1
  srcMode := 1
  behind _ := 0

def darkPanel : Panel := ⟨0, 0, false, fun _ _ => 0⟩

theorem onesEnv_lawful (status : UInt8) : (ScreenEvent.poll (onesEnv status) []).Lawful :=
  ⟨⟨0, Nat.zero_le 8, rfl⟩, fun _ hp => hp⟩

/-- the delay stays while an error blinks -/
theorem mainScreen_shows_error :
    (texts blankFont 3 ++ digitPatches blankFont 3 (delayText (onesEnv 0))).Forall
      (Depicts (screenRun blankFont darkPanel (onesEnv 2) []
        [.blink, .poll (onesEnv 0) [], .poll (onesEnv 1) [], .blink]).panel.ram) :=
  List.forall_iff_forall_mem.2 (mainScreen_shows blankFont (show darkPanel.contrastNext = false from rfl) (onesEnv 2) (onesEnv 0)
    [] [] [.blink] [.poll (onesEnv 1) [], .blink]
    (by
      intro e he
      rcases List.mem_cons.1 he with rfl | he
      · exact onesEnv_lawful 2
      · rw [List.mem_singleton.1 he]
        trivial)
    (onesEnv_lawful 0) rfl rfl ⟨rfl, rfl, rfl⟩
    (by
      intro e he
      rcases List.mem_cons.1 he with rfl | he
      · refine ⟨onesEnv_lawful 1, fun env drawing heq => ?_⟩
        cases heq
        exact ⟨rfl, show (1 : UInt8) ≠ 0 by decide⟩
      · rw [List.mem_singleton.1 he]
        exact ⟨trivial, nofun⟩)).1

/-- the fifth letter of an error: drawn lit, or dark -/
theorem error_field (font : OledFont) (s : MainScreen) {env : MainEnv} (h : env.status = 1) :
    (mainPoll font s env).field 4 =
      some ((chars (if s.main.blinkFlag then "GOODR" else "GOOD ")).getD 4 0) := by
  show overField (statusWord s.main env.status) _ 4 = _
  unfold overField statusWord
  rw [if_pos h]
  cases s.main.blinkFlag with
  | true => rfl
  | false => rfl

/-- `GOOD` leaves the fifth letter -/
theorem good_over {field : Nat → Option UInt8} (b : Bool)
    (h : field 4 = some ((chars (if b then "GOODR" else "GOOD ")).getD 4 0)) {i : Nat} (hi : i < 5) :
    overField (chars "GOOD") field i =
      some ((chars (if b then "GOODR" else "GOOD ")).getD i 0) := by
  unfold overField
  by_cases hlt : i < 4
  · -- the letters of `GOOD` begin both words
    have hsame : ∀ k < 4, ∀ b : Bool, (chars "GOOD")[k]? =
        some ((chars (if b then "GOODR" else "GOOD ")).getD k 0) := by decide
    rw [hsame i hlt b, Option.some_or]
  · have hi4 : i = 4 := by omega
    have hnone : (chars "GOOD")[4]? = none := rfl
    rw [hi4, hnone, Option.none_or, h]

/-- **`GOOD` behind an error.**  In every run from power-up, in the detail mode: when a poll of the
main screen has shown an error, and the screen stays with polls that find another status, a poll that
finds the status good leaves `GOOD` and a fifth letter on the panel, which is the `R` of `ERROR` where
the error was drawn lit, and a space where it was drawn dark. -/
theorem good_after_error (font : OledFont) {panel : Panel} (hpanel : panel.contrastNext = false)
    (env₀ env env' : MainEnv) (drawing₀ drawing drawing' : List (Bool × UInt8))
    (es rest : List ScreenEvent)
    (hes : ∀ e ∈ ScreenEvent.poll env₀ drawing₀ :: es, e.Lawful)
    (hlaw : (ScreenEvent.poll env drawing).Lawful) (hlaw' : (ScreenEvent.poll env' drawing').Lawful)
    (hdue : (screenRun font panel env₀ drawing₀ es).wake.cntDown = 0)
    (hmode : env.displayMode = 3) (hmode' : env'.displayMode = 3)
    (herror : env.status = 1) (hgood : env'.status = 0)
    (hmain : OnMain font (screenRun font panel env₀ drawing₀ (es ++ [.poll env drawing]))
      (rest ++ [.poll env' drawing']))
    (hrest : PollsIn 3 (· ≠ 1) rest) :
    ∀ i < 5, Depicts (screenRun font panel env₀ drawing₀
        (es ++ .poll env drawing :: rest ++ [.poll env' drawing'])).panel.ram
      (fieldPatch font i (some ((chars (if (screenRun font panel env₀ drawing₀ es).main.blinkFlag
        then "GOODR" else "GOOD ")).getD i 0))) := by
  have hinv := screenRun_inv font hpanel hes
  generalize hs : screenRun font panel env₀ drawing₀ es = s at *
  have hafter : screenRun font panel env₀ drawing₀ (es ++ [.poll env drawing]) = mainPoll font s env := by
    rw [← step_mainPoll env drawing hdue, ← hs]
    unfold screenRun
    rw [← List.cons_append, run_append]
    rfl
  have hend : screenRun font panel env₀ drawing₀
      (es ++ .poll env drawing :: rest ++ [.poll env' drawing']) =
      screenStep font (run (screenStep font) (mainPoll font s env) rest) (.poll env' drawing') := by
    rw [← hafter]
    unfold screenRun
    rw [← List.cons_append, run_append, ← List.cons_append, run_append, ← List.cons_append, run_append]
    rfl
  have hinv' : ScreenInv font (mainPoll font s env) := by
    rw [← step_mainPoll env drawing hdue]
    exact screenInv_step font s _ hinv hlaw
  rw [hafter] at hmain
  obtain ⟨hstay, hlast⟩ := Always_append.1 hmain
  obtain ⟨hinv2, hmode2, hfour2⟩ := field_kept hinv' ((mainPoll_mode hinv.once env).trans hmode)
    (error_field font s herror) hstay hrest
  have hpic := (screenInv_step font _ _ hinv2 hlaw').pictured hlast.2
  rw [hend]
  obtain ⟨hflag, hstep⟩ := main_poll hinv2 hlast.1 hlast.2.head
  obtain ⟨-, hfield⟩ := mainPoll_same font hflag (hmode'.trans hmode2.symm)
  rw [hstep, mainPoll_mode hinv2.once] at hpic
  rw [hstep]
  intro i hi
  have hshown := hpic.field hmode' i hi
  have hword : statusWord (run (screenStep font) (mainPoll font s env) rest).main env'.status =
      chars "GOOD" := by
    unfold statusWord
    rw [hgood]
    rfl
  rwa [hfield, hword, good_over s.main.blinkFlag hfour2 hi] at hshown

/-- an error that is drawn lit, and `INIT` behind it -/
theorem good_after_error_lit : Depicts (screenRun blankFont darkPanel (onesEnv 0) []
      [.blink, .poll (onesEnv 1) [], .poll (onesEnv 2) [], .poll (onesEnv 0) []]).panel.ram
    (fieldPatch blankFont 4 (some (ascii 'R'))) :=
  good_after_error blankFont (show darkPanel.contrastNext = false from rfl) (onesEnv 0) (onesEnv 1)
    (onesEnv 0) [] [] [] [.blink] [.poll (onesEnv 2) []]
    (by
      intro e he
      rcases List.mem_cons.1 he with rfl | he
      · exact onesEnv_lawful 0
      · rw [List.mem_singleton.1 he]
        trivial)
    (onesEnv_lawful 1) (onesEnv_lawful 0) rfl rfl rfl rfl rfl ⟨rfl, rfl, rfl⟩
    (by
      intro e he
      rw [List.mem_singleton.1 he]
      refine ⟨onesEnv_lawful 2, fun env drawing heq => ?_⟩
      cases heq
      exact ⟨rfl, show (2 : UInt8) ≠ 1 by decide⟩)
    4 (by decide)

end MenuFirmware
