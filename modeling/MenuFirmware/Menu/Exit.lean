import MenuFirmware.Menu.Safety

/-!
# Leaving a menu (`menu.c`, `menu_items.c`)

The states of the menus that lie under the one on the screen are not touched, so that a menu is
found again as it was left.

* `MenuNav.menuLevel`   the menu on the screen, or the one that the callback was opened from;
* `key_below`           a key leaves the positions under that menu alone, the confirm key its own too;
* `inside_position`     so does every run that stays above a menu;
* `reachable_entered`   every submenu on the screen was entered from its menu;
* `exit_returns`        the exit of a submenu, and the end of a callback, restore the position.
-/

namespace MenuFirmware
open Runs

/-- `current_item_idx` and `cursor_line` of a level -/
def MenuNav.position (m : MenuNav) (i : Nat) : Nat × Nat :=
  ((m.states i).currentItemIdx, (m.states i).cursorLine)

/-- the menu on the screen, or the one that the callback was opened from -/
def MenuNav.menuLevel (m : MenuNav) : Nat :=
  if m.currentState = menuCallback then ((m.states menuCallback).prevState).getD 0
  else m.currentState

/-- the selected item of the menu on the screen has the callback `f` -/
def MenuNav.selects (m : MenuNav) (f : Callback) : Prop :=
  ∃ t it, m.items = .ok t ∧ t.items[(m.states m.currentState).currentItemIdx]? = some it ∧
    it.renderCallback = some f

/-! ## frames of the functions -/

theorem showCurrent_frame {m m' : MenuNav} (h : showCurrent m = .ok m') :
    m'.states = m.states ∧ m'.currentState = m.currentState := by
  unfold showCurrent at h
  cases hc : m.cur with
  | error e => rw [hc] at h; cases h
  | ok c =>
    rw [hc, ok_bind] at h
    by_cases hl : c.level ≠ menuCallback
    · rw [if_pos hl] at h
      cases hr : renderMenu m with
      | error e => rw [hr] at h; cases h
      | ok u => rw [hr, ok_bind] at h; cases h; exact ⟨rfl, rfl⟩
    · rw [if_neg hl] at h
      cases hp : m.prev with
      | error e => rw [hp] at h; cases h
      | ok p =>
        rw [hp, ok_bind] at h
        cases hi : p.item with
        | error e => rw [hi] at h; cases h
        | ok it =>
          rw [hi, ok_bind] at h
          cases hf : it.renderCallback with
          | none => rw [hf] at h; cases h
          | some f => rw [hf] at h; cases h; exact renderCallback_frame m f c.currentItemIdx

theorem position_of_states {m m' : MenuNav} {i : Nat} (h : m'.states i = m.states i) :
    m'.position i = m.position i := by
  unfold MenuNav.position
  rw [h]

/-- opening a level changes no position but that of the level -/
theorem enter_frame {m m' : MenuNav} {target : Nat} {ptr : ItemPtr} {item : Option ItemPtr}
    {idx : Nat} (h : m.enter target ptr item idx = .ok m') :
    m'.currentState = target ∧ ∀ i, i ≠ target → m'.position i = m.position i := by
  unfold MenuNav.enter at h
  cases hc : m.cur with
  | error e => rw [hc] at h; cases h
  | ok c =>
    rw [hc, ok_bind] at h
    have hcur : c = m.states m.currentState := by
      unfold MenuNav.cur MenuNav.state at hc
      by_cases hlt : m.currentState < menuLevelCount
      · rw [if_pos hlt] at hc
        exact (Except.ok.inj hc).symm
      · rw [if_neg hlt] at hc
        cases hc
    by_cases ht : target < menuLevelCount
    · simp only [state_of_lt _ ht, ok_bind] at h
      cases h
      refine ⟨rfl, fun i hi => ?_⟩
      unfold MenuNav.position
      show (((((m.set m.currentState _).set target _).states i)).currentItemIdx,
        ((((m.set m.currentState _).set target _).states i)).cursorLine) = _
      rw [set_of_ne _ _ hi]
      by_cases hcs : i = m.currentState
      · rw [hcs, set_self, hcur]
      · rw [set_of_ne _ _ hcs]
    · simp only [MenuNav.state, if_neg ht] at h
      cases h

theorem confirm_frame {m m' : MenuNav} {n : Nat} {T : Nat → Table} (h : Opened m n T)
    (hc : m.currentState = n) (he : (confirm m >>= showCurrent) = .ok m') :
    ∀ i ≤ n, m'.position i = m.position i := by
  have hle := h.le
  cases hm1 : confirm m with
  | error e => rw [hm1] at he; cases he
  | ok m1 =>
    rw [hm1, ok_bind] at he
    have hshow := (showCurrent_frame he).1
    have h1 : ∀ i ≤ n, m1.position i = m.position i := by
      obtain ⟨hi, -⟩ := h.window n le_rfl
      have hit := List.getElem?_eq_getElem hi
      generalize (T n).items[(m.states n).currentItemIdx] = it at hit
      unfold confirm at hm1
      rw [cur_eq h hc, ok_bind, items_eq h hc, ok_bind, itemAt_of hit, ok_bind, cur_level h hc] at hm1
      intro i hin
      by_cases hr : it.renderCallback.isSome = true
      · rw [if_pos hr] at hm1
        exact (enter_frame hm1).2 i (by unfold menuCallback; omega)
      · rw [if_neg hr] at hm1
        by_cases hsub : it.submenu.isSome = true
        · rw [if_pos hsub] at hm1
          exact (enter_frame hm1).2 i (by omega)
        · rw [if_neg hsub] at hm1
          cases hm1
          rfl
    intro i hin
    have hst : m'.states i = m1.states i := by rw [hshow]
    rw [position_of_states hst, h1 i hin]

/-- an arrow key changes the state of the menu on the screen only -/
theorem arrow_frame {m m' : MenuNav} {n : Nat} {T : Nat → Table} (h : Opened m n T)
    (hc : m.currentState = n) {role : Role} (hrole : role ≠ .confirm)
    (he : scrollMenu m role = .ok m') : ∀ i < n, m'.position i = m.position i := by
  intro i hin
  have hset : ∀ s, showCurrent (m.set m.currentState s) = .ok m' → m'.position i = m.position i := by
    intro s hs
    refine position_of_states ?_
    rw [(showCurrent_frame hs).1, hc]
    exact set_of_ne m s (Nat.ne_of_lt hin)
  unfold scrollMenu at he
  rw [cur_eq h hc, ok_bind] at he
  cases role with
  | confirm => exact absurd rfl hrole
  | up =>
    simp only [maxOptions_eq h hc, ok_bind] at he
    exact hset _ he
  | down =>
    simp only [maxOptions_eq h hc, ok_bind] at he
    exact hset _ he
  | cancel =>
    change (if (m.states n).level ≠ menuLevel1 then m.pop >>= showCurrent
      else Except.ok m >>= showCurrent) = .ok m' at he
    rw [cur_level h hc] at he
    by_cases hn : n ≠ menuLevel1
    · obtain ⟨k, rfl⟩ := Nat.exists_eq_succ_of_ne_zero hn
      rw [if_pos hn, pop_eq h hc, ok_bind] at he
      exact position_of_states (by rw [(showCurrent_frame he).1])
    · rw [if_neg hn, ok_bind] at he
      exact position_of_states (by rw [(showCurrent_frame he).1])

/-! ## one event -/

theorem menuLevel_menu {m : MenuNav} {n : Nat} {T : Nat → Table} (h : Opened m n T)
    (hc : m.currentState = n) : m.menuLevel = n := by
  have hle := h.le
  unfold MenuNav.menuLevel
  rw [if_neg (by rw [hc]; unfold menuCallback; omega), hc]

theorem menuLevel_callback {m : MenuNav} {n k : Nat} {t : Table} {it : MenuItem}
    (ho : CallbackOpen m n t k it) : m.menuLevel = n := by
  unfold MenuNav.menuLevel
  rw [if_pos ho.current, ho.prev]
  rfl

/-- a key in a callback does nothing, or goes back to a menu -/
theorem callback_result {m m' : MenuNav} {n k : Nat} {T : Nat → Table} {it : MenuItem}
    (h : Opened m n T) (ho : CallbackOpen m n (T n) k it) {role : Role}
    (he : menuPollButtons m role = .ok m') :
    m' = m ∨ ∃ j ≤ n, m' = { m with currentState := j } := by
  obtain ⟨f, hf⟩ := Option.ne_none_iff_exists'.1 ho.callback
  rw [menuPollButtons_callback h ho hf] at he
  rcases btnHandleCallback_cases h ho f role with hb | ⟨-, hb⟩ | ⟨-, -, hb⟩
  · rw [hb, ok_bind] at he
    exact Or.inl (Except.ok.inj he).symm
  · rw [hb, ok_bind, afterCallback_callback h ho] at he
    exact Or.inr ⟨n, le_rfl, (Except.ok.inj he).symm⟩
  · rw [hb, ok_bind] at he
    cases n with
    | zero =>
      rw [afterCallback_home h.back rfl] at he
      cases he
    | succ n =>
      rw [afterCallback_menu h.back rfl] at he
      exact Or.inr ⟨n, Nat.le_succ n, (Except.ok.inj he).symm⟩

theorem callback_states {m m' : MenuNav} {n k : Nat} {T : Nat → Table} {it : MenuItem}
    (h : Opened m n T) (ho : CallbackOpen m n (T n) k it) {role : Role}
    (he : menuPollButtons m role = .ok m') : m'.states = m.states := by
  rcases callback_result h ho he with rfl | ⟨j, -, rfl⟩
  · rfl
  · rfl

/-- **A key** leaves the positions of the menus under the one on the screen alone. -/
theorem key_below {m m' : MenuNav} (hinv : MenuInv m) {role : Role}
    (he : menuPollButtons m role = .ok m') : ∀ i < m.menuLevel, m'.position i = m.position i := by
  obtain ⟨n, T, h, hc | ⟨k, it, ho⟩⟩ := hinv
  · rw [menuLevel_menu h hc]
    rw [menuPollButtons_menu h hc role] at he
    by_cases hrole : role = .confirm
    · subst hrole
      have hcf : scrollMenu m .confirm = (confirm m >>= showCurrent) := by
        unfold scrollMenu
        rw [cur_eq h hc, ok_bind]
      rw [hcf] at he
      exact fun i hi => confirm_frame h hc he i (Nat.le_of_lt hi)
    · exact arrow_frame h hc hrole he
  · exact fun i _ => position_of_states (by rw [callback_states h ho he])

/-- and the confirm key that of the menu itself, too -/
theorem confirm_below {m m' : MenuNav} (hinv : MenuInv m)
    (he : menuPollButtons m .confirm = .ok m') :
    ∀ i ≤ m.menuLevel, m'.position i = m.position i := by
  obtain ⟨n, T, h, hc | ⟨k, it, ho⟩⟩ := hinv
  · rw [menuLevel_menu h hc]
    have hcf : scrollMenu m .confirm = (confirm m >>= showCurrent) := by
      unfold scrollMenu
      rw [cur_eq h hc, ok_bind]
    rw [menuPollButtons_menu h hc, hcf] at he
    exact confirm_frame h hc he
  · exact fun i _ => position_of_states (by rw [callback_states h ho he])

theorem inv_of_ok {m m' : MenuNav} (hinv : MenuInv m) {e : MenuEvent}
    (he : menuStep (.ok m) e = .ok m') : MenuInv m' := by
  by_cases hg : NotHomeExit (.ok m) e
  · obtain ⟨m1, he1, ho⟩ := menuStep_ok hinv e hg
    rw [he1] at he
    cases he
    exact ho.inv hinv
  · rw [menuStep_fault hinv hg] at he
    cases he

theorem run_error (f : Fault) (es : List MenuEvent) :
    run menuStep (.error f) es = .error f := by
  induction es with
  | nil => rfl
  | cons e es ih => exact ih

theorem inv_of_run {m m' : MenuNav} (hinv : MenuInv m) {es : List MenuEvent}
    (hr : run menuStep (.ok m) es = .ok m') : MenuInv m' := by
  have hstep : ∀ (r : Except Fault MenuNav) (e : MenuEvent), (∀ m, r = .ok m → MenuInv m) →
      ∀ m, menuStep r e = .ok m → MenuInv m := by
    intro r e h m he
    cases r with
    | error f => cases he
    | ok m0 => exact inv_of_ok (h m0 rfl) he
  refine run_invariant hstep ?_ es m' hr
  rintro _ ⟨⟩
  exact hinv

theorem inv_init : MenuInv menuNavInit :=
  ⟨0, _, Opened_home (fun _ _ => rfl) rfl rfl rfl, Or.inl rfl⟩

/-! ## runs above a menu -/

/-- a menu above the level `n` is on the screen, or a callback of such a menu -/
def Inside (n : Nat) : Except Fault MenuNav → Prop
  | .ok m => n < m.menuLevel
  | .error _ => False

/-- a callback is on the screen -/
def InCallback : Except Fault MenuNav → Prop
  | .ok m => m.currentState = menuCallback
  | .error _ => False

/-- an event that stays above `n` leaves the positions up to `n` alone -/
theorem inside_step {m m' : MenuNav} {n : Nat} (hinv : MenuInv m) {e : MenuEvent}
    (he : menuStep (.ok m) e = .ok m') (hin : n < m.menuLevel) (hin' : n < m'.menuLevel) :
    ∀ i ≤ n, m'.position i = m.position i := by
  have hreset : ∀ m0, m.menuResetNoRenderMenu = .ok m0 → m0 ≠ m' := by
    intro m0 h0 heq
    obtain ⟨n0, T, h, -⟩ := hinv
    obtain ⟨m1, he1, hc1, ho1, -⟩ := menuReset_home h.level
    rw [he1] at h0
    cases h0
    rw [← heq, menuLevel_menu ho1 hc1] at hin'
    exact Nat.not_lt_zero n hin'
  cases e with
  | otherKey =>
    cases he
    exact fun i _ => rfl
  | key role => exact fun i hi => key_below hinv he i (Nat.lt_of_le_of_lt hi hin)
  | resetNoRender => exact absurd rfl (hreset m' he)
  | reset =>
    change (m.menuResetNoRenderMenu >>= fun m => renderMenu m >>= fun _ => Except.ok m) = .ok m' at he
    cases h0 : m.menuResetNoRenderMenu with
    | error f =>
      rw [h0] at he
      cases he
    | ok m0 =>
      rw [h0, ok_bind] at he
      cases hr : renderMenu m0 with
      | error f =>
        rw [hr] at he
        cases he
      | ok u =>
        rw [hr, ok_bind] at he
        exact absurd (Except.ok.inj he) (hreset m0 h0)

theorem inside_position {m m' : MenuNav} {n : Nat} (hinv : MenuInv m) {es : List MenuEvent}
    (hin : Always menuStep (Inside n) (.ok m) es) (hr : run menuStep (.ok m) es = .ok m') :
    ∀ i ≤ n, m'.position i = m.position i := by
  induction es generalizing m with
  | nil =>
    cases hr
    exact fun i _ => rfl
  | cons e es ih =>
    rw [run_cons] at hr
    cases he : menuStep (.ok m) e with
    | error f =>
      rw [he, run_error] at hr
      cases hr
    | ok m1 =>
      have hin1 := hin.2
      rw [he] at hr hin1
      intro i hi
      rw [ih (inv_of_ok hinv he) hin1 hr i hi]
      exact inside_step hinv he hin.1 hin1.head i hi

/-- a callback keeps the screen, and then nothing has changed, or gives it back -/
theorem callback_step {m m' : MenuNav} {n k : Nat} {T : Nat → Table} {it : MenuItem}
    (h : Opened m n T) (ho : CallbackOpen m n (T n) k it) {f : Callback}
    (hf : it.renderCallback = some f) (hx : ¬ isExit f) {role : Role}
    (he : menuPollButtons m role = .ok m') : m' = m ∨ m' = { m with currentState := n } := by
  rw [menuPollButtons_callback h ho hf] at he
  rcases btnHandleCallback_other m hx role with hb | hb
  · rw [hb, ok_bind] at he
    exact Or.inl (Except.ok.inj he).symm
  · rw [hb, ok_bind, afterCallback_callback h ho] at he
    exact Or.inr (Except.ok.inj he).symm

/-! ## opening a callback -/

/-- the confirm key on an item with a callback -/
theorem confirm_selected {m : MenuNav} (hinv : MenuInv m) (hm : m.currentState ≠ menuCallback)
    {f : Callback} (hsel : m.selects f) :
    ∃ m0 k T it, menuStep (.ok m) (.key .confirm) = .ok (renderCallback m0 f k) ∧
      m0.pushed = m.pushed ∧ Opened m0 m.currentState T ∧
      CallbackOpen m0 m.currentState (T m.currentState) k it ∧ it.renderCallback = some f := by
  obtain ⟨n, T, h, hc | ⟨k, it, ho⟩⟩ := hinv
  · obtain ⟨t, it, ht, hit, hf⟩ := hsel
    rw [items_eq h hc] at ht
    cases ht
    rw [hc] at hit ⊢
    obtain ⟨m0, he, h0, ho, -, -, hp⟩ := confirm_opens h hc hit hf
    refine ⟨m0, (m.states n).currentItemIdx, T, it, ?_, hp, h0, ho, hf⟩
    show menuPollButtons m .confirm = _
    rw [menuPollButtons_menu h hc, ← he]
    unfold scrollMenu confirm
    rw [cur_eq h hc, ok_bind, ok_bind, items_eq h hc, ok_bind, itemAt_of hit, ok_bind, hf,
      Option.isSome_some, if_pos rfl]
  · exact absurd ho.current hm

/-- while a callback that is no exit keeps the screen nothing changes -/
theorem callback_run {m m' : MenuNav} {n k : Nat} {T : Nat → Table} {it : MenuItem}
    (h : Opened m n T) (ho : CallbackOpen m n (T n) k it) {f : Callback}
    (hf : it.renderCallback = some f) (hx : ¬ isExit f) {es : List MenuEvent}
    (hin : Always menuStep InCallback (.ok m) es) (hr : run menuStep (.ok m) es = .ok m') :
    m' = m := by
  have hle := h.le
  induction es with
  | nil => exact (Except.ok.inj hr).symm
  | cons e es ih =>
    have hstay : menuStep (.ok m) e = .ok m := by
      have hnext := hin.2.head
      obtain ⟨m0, he0, hc0, ho0, -⟩ := menuReset_home h.level
      have hreset : ¬ InCallback (.ok m0) := by
        intro hcb
        rw [show m0.currentState = menuCallback from hcb] at hc0
        cases hc0
      cases e with
      | otherKey => rfl
      | key role =>
        cases he : menuStep (.ok m) (.key role) with
        | error g =>
          rw [he] at hnext
          exact absurd hnext id
        | ok m1 =>
          rw [he] at hnext
          rcases callback_step h ho hf hx he with rfl | rfl
          · rfl
          · have hcb : n = menuCallback := hnext
            unfold menuCallback at hcb
            omega
      | resetNoRender =>
        have he : menuStep (.ok m) .resetNoRender = .ok m0 := he0
        rw [he] at hnext
        exact absurd hnext hreset
      | reset =>
        have he : menuStep (.ok m) .reset = .ok m0 := by
          show m.menuReset = _
          unfold MenuNav.menuReset
          rw [he0, ok_bind, renderMenu_ok ho0 hc0, ok_bind]
        rw [he] at hnext
        exact absurd hnext hreset
    have hin' := hin.2
    rw [run_cons] at hr
    rw [hstay] at hr hin'
    exact ih hin' hr

/-- the exit waits for the cancel key -/
theorem exit_waits {m : MenuNav} {n k : Nat} {T : Nat → Table} {it : MenuItem}
    (h : Opened m n T) (ho : CallbackOpen m n (T n) k it) {f : Callback}
    (hf : it.renderCallback = some f) (hx : isExit f) {es : List MenuEvent}
    (hes : ∀ e ∈ es, e = .otherKey ∨ ∃ role, role ≠ .cancel ∧ e = .key role) :
    run menuStep (.ok m) es = .ok m := by
  induction es with
  | nil => rfl
  | cons e es ih =>
    have hstay : menuStep (.ok m) e = .ok m := by
      rcases hes e List.mem_cons_self with rfl | ⟨role, hr, rfl⟩
      · rfl
      · show menuPollButtons m role = _
        rw [menuPollButtons_callback h ho hf, btnHandleCallback_stays h ho hx hr, ok_bind]
        rfl
    rw [run_cons, hstay]
    exact ih fun e' he' => hes e' (List.mem_cons_of_mem e he')

theorem exit_leaves {m : MenuNav} {n k : Nat} {T : Nat → Table} {it : MenuItem}
    (h : Opened m (n + 1) T) (ho : CallbackOpen m (n + 1) (T (n + 1)) k it) {f : Callback}
    (hf : it.renderCallback = some f) (hx : isExit f) :
    menuStep (.ok m) (.key .cancel) = .ok { m with currentState := n } := by
  show menuPollButtons m .cancel = _
  rw [menuPollButtons_callback h ho hf, btnHandleCallback_leaves h ho hx, ok_bind]
  exact afterCallback_menu h.back rfl

/-! ## every submenu was entered -/

theorem menuLevel_of_ne {m : MenuNav} (h : m.currentState ≠ menuCallback) :
    m.menuLevel = m.currentState := if_neg h

/-- an event goes one level up the tree at most, and does so by the confirm key on a submenu -/
theorem level_step {m m' : MenuNav} (hinv : MenuInv m) {e : MenuEvent}
    (he : menuStep (.ok m) e = .ok m') :
    m'.menuLevel ≤ m.menuLevel ∨ (e = .key .confirm ∧ m.menuLevel = m.currentState ∧
      m'.currentState = m.currentState + 1 ∧ m'.currentState ≠ menuCallback) := by
  obtain ⟨n, T, h, hscreen⟩ := hinv
  have hle := h.le
  obtain ⟨m0, he0, hc0, ho0, -⟩ := menuReset_home h.level
  have hreset : m0.menuLevel ≤ m.menuLevel := by
    rw [menuLevel_menu ho0 hc0]
    exact Nat.zero_le _
  have hlow : ∀ j, j ≤ n → m'.currentState = j → m'.menuLevel ≤ n := by
    intro j hj hcj
    rw [menuLevel_of_ne (by rw [hcj]; unfold menuCallback; omega), hcj]
    exact hj
  cases e with
  | otherKey =>
    cases he
    exact Or.inl le_rfl
  | resetNoRender =>
    rw [show menuStep (.ok m) .resetNoRender = .ok m0 from he0] at he
    cases he
    exact Or.inl hreset
  | reset =>
    have hr : menuStep (.ok m) .reset = .ok m0 := by
      show m.menuReset = _
      unfold MenuNav.menuReset
      rw [he0, ok_bind, renderMenu_ok ho0 hc0, ok_bind]
    rw [hr] at he
    cases he
    exact Or.inl hreset
  | key role =>
    change menuPollButtons m role = .ok m' at he
    rcases hscreen with hc | ⟨k, it, ho⟩
    · rw [menuPollButtons_menu h hc role] at he
      rw [menuLevel_menu h hc]
      obtain ⟨hi, -⟩ := h.window n le_rfl
      have hit := List.getElem?_eq_getElem hi
      generalize (T n).items[(m.states n).currentItemIdx] = it at hit
      unfold scrollMenu at he
      rw [cur_eq h hc, ok_bind] at he
      cases role with
      | up =>
        simp only [maxOptions_eq h hc, ok_bind] at he
        exact Or.inl (hlow n le_rfl ((showCurrent_frame he).2.trans hc))
      | down =>
        simp only [maxOptions_eq h hc, ok_bind] at he
        exact Or.inl (hlow n le_rfl ((showCurrent_frame he).2.trans hc))
      | cancel =>
        change (if (m.states n).level ≠ menuLevel1 then m.pop >>= showCurrent
          else Except.ok m >>= showCurrent) = .ok m' at he
        rw [cur_level h hc] at he
        by_cases hn : n ≠ menuLevel1
        · obtain ⟨k, rfl⟩ := Nat.exists_eq_succ_of_ne_zero hn
          rw [if_pos hn, pop_eq h hc, ok_bind] at he
          exact Or.inl (hlow k (Nat.le_succ k) (showCurrent_frame he).2)
        · rw [if_neg hn, ok_bind] at he
          exact Or.inl (hlow n le_rfl ((showCurrent_frame he).2.trans hc))
      | confirm =>
        change (confirm m >>= showCurrent) = .ok m' at he
        unfold confirm at he
        rw [cur_eq h hc, ok_bind, items_eq h hc, ok_bind, itemAt_of hit, ok_bind,
          cur_level h hc] at he
        cases hr : it.renderCallback with
        | some f =>
          rw [hr, Option.isSome_some, if_pos rfl] at he
          obtain ⟨m1, he1, -, ho1, -⟩ := confirm_opens h hc hit hr
          rw [he1] at he
          cases he
          exact Or.inl (menuLevel_callback (ho1.render f _)).le
        | none =>
          rw [hr, Option.isSome_none, if_neg Bool.false_ne_true] at he
          cases hsub : it.submenu with
          | some t =>
            rw [hsub, Option.isSome_some, if_pos rfl] at he
            cases hm1 : m.enter (n + 1) (T n, (m.states n).currentItemIdx) none 0 with
            | error g =>
              rw [hm1] at he
              cases he
            | ok m1 =>
              rw [hm1, ok_bind] at he
              have hcur : m'.currentState = n + 1 :=
                (showCurrent_frame he).2.trans (enter_frame hm1).1
              have hd := submenu_depth (List.mem_of_getElem? hit) hsub
              rw [h.depth n le_rfl] at hd
              have hdl := depth_le t
              refine Or.inr ⟨rfl, hc.symm, by rw [hcur, hc], ?_⟩
              rw [hcur]
              unfold menuCallback
              omega
          | none =>
            rw [hsub, Option.isSome_none, if_neg Bool.false_ne_true, ok_bind] at he
            exact Or.inl (hlow n le_rfl ((showCurrent_frame he).2.trans hc))
    · rw [menuLevel_callback ho]
      rcases callback_result h ho he with rfl | ⟨j, hj, rfl⟩
      · exact Or.inl (menuLevel_callback ho).le
      · exact Or.inl (hlow j hj rfl)

/-- A reachable state above the menu `n` was reached by entering a submenu of `n`, and staying above
`n` since then. -/
theorem reachable_entered {es : List MenuEvent} {m : MenuNav} {n : Nat}
    (hr : run menuStep (.ok menuNavInit) es = .ok m) (hn : n < m.menuLevel) :
    ∃ pre inside m0 m1, es = pre ++ .key .confirm :: inside ∧
      run menuStep (.ok menuNavInit) pre = .ok m0 ∧ m0.currentState = n ∧
      menuStep (.ok m0) (.key .confirm) = .ok m1 ∧ m1.currentState = n + 1 ∧
      n + 1 ≠ menuCallback ∧ Always menuStep (Inside n) (.ok m1) inside ∧
      run menuStep (.ok m1) inside = .ok m := by
  induction es using List.reverseRecOn generalizing m with
  | nil =>
    cases hr
    exact absurd hn (Nat.not_lt_zero n)
  | append_singleton es e ih =>
    rw [run_snoc] at hr
    cases hm : run menuStep (.ok menuNavInit) es with
    | error f =>
      rw [hm] at hr
      cases hr
    | ok ml =>
      rw [hm] at hr
      have hinv := inv_of_run inv_init hm
      by_cases hl : n < ml.menuLevel
      · obtain ⟨pre, inside, m0, m1, rfl, h0, hc0, he1, hc1, hcb, hin, hrun⟩ := ih hm hl
        have hend : run menuStep (.ok m1) (inside ++ [e]) = .ok m := by
          rw [run_snoc, hrun, hr]
        refine ⟨pre, inside ++ [e], m0, m1, by simp, h0, hc0, he1, hc1, hcb, ?_, hend⟩
        rw [Always_snoc, hend]
        exact ⟨hin, hn⟩
      · rcases level_step hinv hr with hle | ⟨rfl, hcl, hcm, hcb⟩
        · omega
        · have hlev := menuLevel_of_ne hcb
          have hcn : ml.currentState = n := by omega
          rw [hcn] at hcm
          refine ⟨es, [], ml, m, rfl, hm, hcn, hr, hcm, by rw [← hcm]; exact hcb, ?_, rfl⟩
          exact hn

/-- the configuration menu, entered from the home menu -/
theorem reachable_entered_config :
    ∃ m, run menuStep (.ok menuNavInit) [.reset, .key .down, .key .confirm] = .ok m ∧
      ∃ pre inside m0 m1, [.reset, .key .down, .key .confirm] = pre ++ .key .confirm :: inside ∧
        run menuStep (.ok menuNavInit) pre = .ok m0 ∧ m0.currentState = 0 ∧
        menuStep (.ok m0) (.key .confirm) = .ok m1 ∧ m1.currentState = 0 + 1 ∧
        0 + 1 ≠ menuCallback ∧ Always menuStep (Inside 0) (.ok m1) inside ∧
        run menuStep (.ok m1) inside = .ok m := by
  obtain ⟨m, hm, hlevel⟩ : ∃ m, run menuStep (.ok menuNavInit)
      [.reset, .key .down, .key .confirm] = .ok m ∧ 0 < m.menuLevel := ⟨_, rfl, by decide⟩
  exact ⟨m, hm, reachable_entered hm hlevel⟩

/-! ## the position is found again -/

/-- **Exit and return.**  From any reachable menu `m0`.

A submenu is entered, any events follow that stay in it and in the menus under it, and in `m2` its
exit is selected.  The confirm key then pushes the cancel key, any other keys may be processed
before it, and after it the menu of `m0` is on the screen with its item and its cursor line.

A callback that is no exit is opened and any keys are given to it; when it gives the screen back,
the menu of `m0` is on it, all positions as they were. -/
theorem exit_returns (es : List MenuEvent) (m0 : MenuNav)
    (h0 : run menuStep (.ok menuNavInit) es = .ok m0) :
    (∀ m1 m2 inside others, m0.currentState + 1 ≠ menuCallback →
      menuStep (.ok m0) (.key .confirm) = .ok m1 → m1.currentState = m0.currentState + 1 →
      Always menuStep (Inside m0.currentState) (.ok m1) inside →
      run menuStep (.ok m1) inside = .ok m2 → m2.currentState = m0.currentState + 1 →
      m2.selects .exitAction →
      (∀ e ∈ others, e = .otherKey ∨ ∃ role, role ≠ .cancel ∧ e = .key role) →
      ∃ m3 m4, menuStep (.ok m2) (.key .confirm) = .ok m3 ∧ m3.pushed = .cancel :: m2.pushed ∧
        run menuStep (.ok m3) (others ++ [.key .cancel]) = .ok m4 ∧
        m4.currentState = m0.currentState ∧
        m4.position m0.currentState = m0.position m0.currentState) ∧
    (∀ f m1 m2 m3 keys role, ¬ isExit f → m0.currentState ≠ menuCallback → m0.selects f →
      menuStep (.ok m0) (.key .confirm) = .ok m1 →
      Always menuStep InCallback (.ok m1) keys → run menuStep (.ok m1) keys = .ok m2 →
      menuStep (.ok m2) (.key role) = .ok m3 → m3.currentState ≠ menuCallback →
      m3.currentState = m0.currentState ∧
        ∀ i ≤ m0.currentState, m3.position i = m0.position i) := by
  have hinv0 := inv_of_run inv_init h0
  constructor
  · intro m1 m2 inside others hlevel he1 hc1 hin hr2 hc2 hsel hothers
    have hinv1 := inv_of_ok hinv0 he1
    have hinv2 := inv_of_run hinv1 hr2
    obtain ⟨mc, k, T, it, he3, hp, h, ho, hf⟩ :=
      confirm_selected hinv2 (by rw [hc2]; exact hlevel) hsel
    rw [hc2] at h ho
    have h3 := h.render .exitAction k
    have ho3 := ho.render .exitAction k
    have hx : isExit .exitAction := Or.inl rfl
    refine ⟨_, { renderCallback mc .exitAction k with currentState := m0.currentState }, he3,
      congrArg (Role.cancel :: ·) hp, ?_, rfl, ?_⟩
    · rw [run_append, exit_waits h3 ho3 hf hx hothers]
      exact exit_leaves h3 ho3 hf hx
    · -- the positions up to the parent's go unchanged through the exit, the run and the entry
      have hm0 : m0.currentState ≤ m0.menuLevel := by
        obtain ⟨n, T', h', hc' | ⟨k', it', ho'⟩⟩ := hinv0
        · rw [menuLevel_menu h' hc', hc']
        · have hcur := inv_of_ok ⟨n, T', h', Or.inr ⟨k', it', ho'⟩⟩ he1
          obtain ⟨n1, T1, h1, hc1' | ⟨k1, it1, ho1⟩⟩ := hcur
          · have hle := h1.le
            rw [hc1', ho'.current] at hc1
            unfold menuCallback at hc1
            omega
          · exact absurd (hc1.symm.trans ho1.current) hlevel
      have hm2 : m0.currentState ≤ m2.menuLevel := by
        unfold MenuNav.menuLevel
        rw [hc2, if_neg hlevel]
        exact Nat.le_succ _
      have p3 := confirm_below hinv2 he3 m0.currentState hm2
      have p2 := inside_position hinv1 hin hr2 m0.currentState le_rfl
      have p1 := confirm_below hinv0 he1 m0.currentState hm0
      exact p3.trans (p2.trans p1)
  · intro f m1 m2 m3 keys role hx hm hsel he1 hin hr2 he3 hc3
    obtain ⟨mc, k, T, it, he, -, h, ho, hf⟩ := confirm_selected hinv0 hm hsel
    rw [he] at he1
    cases he1
    have h1 := h.render f k
    have ho1 := ho.render f k
    have hm0 : m0.menuLevel = m0.currentState := by
      unfold MenuNav.menuLevel
      rw [if_neg hm]
    have hpos := confirm_below hinv0 he
    rw [hm0] at hpos
    have hm2 := callback_run h1 ho1 hf hx hin hr2
    subst hm2
    rcases callback_step h1 ho1 hf hx he3 with rfl | rfl
    · exact absurd ho1.current hc3
    · exact ⟨rfl, hpos⟩

/-- the exit of the system menu, and its first item -/
theorem exit_returns_system :
    (∃ m3 m4, m3.pushed = [.cancel] ∧
      run menuStep (.ok m3) [.key .down, .otherKey, .key .cancel] = .ok m4 ∧
      m4.currentState = 0 ∧ m4.position 0 = (0, 0)) ∧
    ∃ m3, run menuStep (.ok menuNavInit) [.reset, .key .confirm, .key .confirm, .key .up] = .ok m3 ∧
      m3.currentState = 1 ∧ m3.position 1 = (0, 0) := by
  have hkeys : ∀ e ∈ [MenuEvent.key .down, .otherKey],
      e = .otherKey ∨ ∃ role, role ≠ .cancel ∧ e = .key role := by
    intro e he
    rcases List.mem_cons.1 he with rfl | he
    · exact Or.inr ⟨.down, nofun, rfl⟩
    · exact Or.inl (List.mem_singleton.1 he)
  constructor
  · obtain ⟨m3, m4, -, hp, hr, hc, hpos⟩ := (exit_returns [.reset] _ rfl).1 _ _ [.key .up]
      [.key .down, .otherKey] (by decide) rfl rfl ⟨Nat.zero_lt_one, Nat.zero_lt_one⟩ rfl rfl
      ⟨.system, .call .exitAction, rfl, rfl, rfl⟩ hkeys
    exact ⟨m3, m4, hp, hr, hc, hpos⟩
  · obtain ⟨hc, hpos⟩ := (exit_returns [.reset, .key .confirm] _ rfl).2 .systemUniversal _ _ _ [] .up
      (by intro h; rcases h with h | h <;> cases h) (by decide)
      ⟨.system, .call .systemUniversal, rfl, rfl, rfl⟩ rfl rfl rfl rfl (by decide)
    exact ⟨_, rfl, hc, hpos 1 le_rfl⟩

end MenuFirmware
