import MenuFirmware.Lib.Run
import MenuFirmware.Menu.Scroll

/-!
# The menu never leaves its arrays

Menus `0 … n` are open one above the other; on top of them may be a callback.

* `Window`        the lines on the screen are items of the menu;
* `Opened`        the menus `0 … n` are open, `T j` being the table of level `j`;
* `CallbackOpen`  an item of the menu `n` has the screen;
* `Outcome`       what an event does to the screen: it stays, goes to a menu or to a callback;
* `scrollMenu_proceeds`, `callback_cases`, `menuReset_home`  keys and resets, without a fault but
                  for the exit of the home menu, which pops once too often;
* `menuStep_ok`, `menuStep_fault`  every event has one of these outcomes, or faults there;
* `navSafe_iff`   a run is safe iff the cancel key never comes while that exit has the screen.
-/

set_option linter.unusedSectionVars false
set_option linter.unusedVariables false

namespace MenuFirmware
open Runs

/-! ## what is to hold -/

/-- no fault so far, and the levels are the indices -/
def NavSafe : Except Fault MenuNav → Prop
  | .ok m => ∀ i < menuLevelCount, (m.states i).level = i
  | .error _ => False

/-- the item of the current callback is the exit of the home menu -/
def HomeExitOpen (m : MenuNav) : Prop :=
  m.currentState = menuCallback ∧ (m.states menuCallback).currentItem = some (.home, 3)

/-- the cancel key does not come while the exit of the home menu has the screen -/
def NotHomeExit : Except Fault MenuNav → MenuEvent → Prop
  | .ok m, .key .cancel => ¬ HomeExitOpen m
  | _, _ => True

/-! ## the invariant -/

structure Window (t : Table) (s : MenuState) : Prop where
  idx : s.currentItemIdx < t.items.length
  line : s.cursorLine ≤ s.currentItemIdx
  lines : s.cursorLine < oledLines
  fits : s.currentItemIdx - s.cursorLine + min t.items.length oledLines ≤ t.items.length

structure Opened (m : MenuNav) (n : Nat) (T : Nat → Table) : Prop where
  home : T 0 = .home
  root : (m.states 0).prevState = none
  level : ∀ i < menuLevelCount, (m.states i).level = i
  window : ∀ j ≤ n, Window (T j) (m.states j)
  prev : ∀ j < n, (m.states (j + 1)).prevState = some j
  item : ∀ j < n, ∃ k it, (m.states j).currentItem = some (T j, k) ∧ (T j).items[k]? = some it ∧
    it.submenu = some (T (j + 1))

/-- the item `it` of the menu `n` has the screen -/
structure CallbackOpen (m : MenuNav) (n : Nat) (t : Table) (k : Nat) (it : MenuItem) : Prop where
  current : m.currentState = menuCallback
  prev : (m.states menuCallback).prevState = some n
  item : (m.states n).currentItem = some (t, k)
  shown : (m.states menuCallback).currentItem = some (t, k)
  found : t.items[k]? = some it
  callback : it.renderCallback ≠ none

def MenuInv (m : MenuNav) : Prop :=
  ∃ n T, Opened m n T ∧ (m.currentState = n ∨ ∃ k it, CallbackOpen m n (T n) k it)

/-- the call succeeds and keeps the invariant -/
def Fine (r : Except Fault MenuNav) : Prop := ∃ m, r = .ok m ∧ MenuInv m

/-- a menu has the screen -/
def AtMenu (m : MenuNav) : Prop := ∃ n T, Opened m n T ∧ m.currentState = n

/-- an event ended in a menu, and called no render callback -/
def OnMenu (m m' : MenuNav) : Prop := AtMenu m' ∧ m'.rendered = m.rendered

/-- the callback `f` has the screen and is called for `column` -/
def AtCallback (m : MenuNav) (f : Callback) (column : Nat) : Prop :=
  ∃ n T k it, Opened m n T ∧ CallbackOpen m n (T n) k it ∧ it.renderCallback = some f ∧
    (m.states menuCallback).currentItemIdx = column

/-- an event opened the callback of the item `k` of a table -/
def OnCallback (m m' : MenuNav) : Prop :=
  ∃ f k, AtCallback m' f k ∧ m'.rendered = (f, k) :: m.rendered ∧
    ∃ (t : Table) (it : MenuItem), t.items[k]? = some it ∧ it.renderCallback = some f

/-- from a menu: the call succeeds and ends in a menu or in a callback -/
def Proceeds (m : MenuNav) (r : Except Fault MenuNav) : Prop :=
  ∃ m', r = .ok m' ∧ (OnMenu m m' ∨ OnCallback m m')

theorem AtMenu.inv {m : MenuNav} (h : AtMenu m) : MenuInv m := by
  obtain ⟨n, T, ho, hc⟩ := h
  exact ⟨n, T, ho, Or.inl hc⟩

theorem AtCallback.inv {m : MenuNav} {f : Callback} {column : Nat} (h : AtCallback m f column) :
    MenuInv m := by
  obtain ⟨n, T, k, it, h, ho, -⟩ := h
  exact ⟨n, T, h, Or.inr ⟨k, it, ho⟩⟩

theorem Opened.depth {m : MenuNav} {n : Nat} {T : Nat → Table} (h : Opened m n T) :
    ∀ j ≤ n, (T j).depth = j := by
  intro j
  induction j with
  | zero =>
    intro _
    rw [h.home]
    rfl
  | succ j ih =>
    intro hj
    obtain ⟨k, it, _, hit, hsub⟩ := h.item j (by omega)
    rw [submenu_depth (List.mem_of_getElem? hit) hsub, ih (by omega)]

/-- the callback state is above all menus -/
theorem Opened.le {m : MenuNav} {n : Nat} {T : Nat → Table} (h : Opened m n T) : n ≤ 3 := by
  have hd := h.depth n le_rfl
  have hle := depth_le (T n)
  omega

/-- only the states of the open menus matter -/
theorem Opened.congr {m m' : MenuNav} {n : Nat} {T : Nat → Table} (h : Opened m n T)
    (hl : ∀ i < menuLevelCount, (m'.states i).level = i)
    (hs : ∀ j ≤ n, m'.states j = m.states j) : Opened m' n T := by
  refine ⟨h.home, ?_, hl, ?_, ?_, ?_⟩
  · rw [hs 0 (Nat.zero_le n)]
    exact h.root
  · intro j hj
    rw [hs j hj]
    exact h.window j hj
  · intro j hj
    rw [hs (j + 1) hj]
    exact h.prev j hj
  · intro j hj
    rw [hs j (by omega)]
    exact h.item j hj

theorem Opened.mono {m : MenuNav} {n k : Nat} {T : Nat → Table} (h : Opened m n T) (hk : k ≤ n) :
    Opened m k T :=
  ⟨h.home, h.root, h.level, fun j hj => h.window j (by omega), fun j hj => h.prev j (by omega),
    fun j hj => h.item j (by omega)⟩

/-! ## looking at the current menu -/

theorem ok_bind {α β : Type} (x : α) (f : α → Except Fault β) : (Except.ok x >>= f) = f x := rfl

theorem state_of_lt (m : MenuNav) {i : Nat} (h : i < menuLevelCount) :
    m.state i = .ok (m.states i) := if_pos h

theorem itemAt_of {t : Table} {k : Nat} {it : MenuItem} (h : t.items[k]? = some it) :
    itemAt t k = .ok it := by
  unfold itemAt
  rw [h]

section
variable {m : MenuNav} {n : Nat} {T : Nat → Table} (h : Opened m n T) (hc : m.currentState = n)
include h hc

theorem cur_eq : m.cur = .ok (m.states n) := by
  have hn := h.le
  unfold MenuNav.cur
  rw [hc]
  exact state_of_lt m (by unfold menuLevelCount; omega)

theorem cur_level : (m.states n).level = n := by
  have hn := h.le
  exact h.level n (by unfold menuLevelCount; omega)

theorem prev_eq {k : Nat} (hk : n = k + 1) : m.prev = .ok (m.states k) := by
  have hn := h.le
  subst hk
  unfold MenuNav.prev
  rw [cur_eq h hc, ok_bind, h.prev k (by omega)]
  exact state_of_lt m (by unfold menuLevelCount; omega)

/-- the item that the current menu was opened from -/
theorem previousItem_eq (hn : n ≠ 0) :
    ∃ it, m.previousItem = .ok it ∧ it.submenu = some (T n) := by
  obtain ⟨k, rfl⟩ := Nat.exists_eq_succ_of_ne_zero hn
  have hle := h.le
  obtain ⟨i, it, hcur, hit, hsub⟩ := h.item k (by omega)
  refine ⟨it, ?_, hsub⟩
  have hk : k < menuLevelCount := by unfold menuLevelCount; omega
  unfold MenuNav.previousItem
  rw [prev_eq h hc rfl, ok_bind, h.level k hk, state_of_lt m hk, ok_bind]
  unfold MenuState.item
  rw [hcur]
  exact itemAt_of hit

theorem items_eq : m.items = .ok (T n) := by
  unfold MenuNav.items
  rw [cur_eq h hc, ok_bind, cur_level h hc]
  by_cases hn : n ≠ menuLevel1
  · obtain ⟨it, hit, hsub⟩ := previousItem_eq h hc hn
    rw [if_pos hn, hit, ok_bind, hsub]
  · have h0 : n = 0 := not_not.1 hn
    rw [if_neg hn, h0, h.home]

theorem maxOptions_eq : m.maxOptions = .ok (T n).items.length := by
  unfold MenuNav.maxOptions
  rw [cur_eq h hc, ok_bind, cur_level h hc]
  by_cases hn : n ≠ menuLevel1
  · obtain ⟨it, hit, hsub⟩ := previousItem_eq h hc hn
    rw [if_pos hn, hit, ok_bind]
    unfold MenuItem.submenuLength
    rw [hsub]
  · have h0 : n = 0 := not_not.1 hn
    rw [if_neg hn, h0, h.home]

end

/-- the lines on the screen are a view of the menu -/
theorem window_iff_shows {t : Table} {s : MenuState} :
    Window t s ↔ ∃ v : ScrollView t.items.length oledLines, Shows s v := by
  constructor
  · intro h
    obtain ⟨hi, hl, hl8, hf⟩ := h
    refine ⟨⟨s.currentItemIdx, s.currentItemIdx - s.cursorLine, hi, Nat.sub_le _ _, by omega, hf⟩,
      rfl, ?_⟩
    show s.cursorLine = s.currentItemIdx - (s.currentItemIdx - s.cursorLine)
    omega
  · intro h
    obtain ⟨v, hidx, hline⟩ := h
    have hsum := v.first_add_line
    refine ⟨?_, ?_, ?_, ?_⟩
    · rw [hidx]
      exact v.idx_lt
    · rw [hline, hidx]
      exact Nat.sub_le _ _
    · rw [hline]
      exact v.line_lt
    · have he : v.idx - v.line = v.first := by omega
      rw [hidx, hline, he]
      exact v.fits

theorem items_le (t : Table) : t.items.length ≤ 255 := by
  have hlen := (items_length t).2
  omega

theorem renderMenu_ok {m : MenuNav} {n : Nat} {T : Nat → Table} (h : Opened m n T)
    (hc : m.currentState = n) : renderMenu m = .ok () := by
  obtain ⟨v, hv⟩ := window_iff_shows.1 (h.window n le_rfl)
  have hfirst := hv.firstItem (items_le (T n))
  have hfit : (m.states n).firstItem + 0 + min (T n).items.length oledLines ≤
      (T n).items.length := by
    rw [hfirst]
    exact v.fits
  obtain ⟨rows, hrows, -⟩ := renderLines_some (T n).items (m.states n) 0 _ hfit
  unfold renderMenu
  rw [cur_eq h hc, ok_bind, items_eq h hc, ok_bind, maxOptions_eq h hc, ok_bind]
  exact (drawLines_ok_iff (T n) (m.states n) 0 _).2 (by rw [hrows]; rfl)

theorem pop_eq {m : MenuNav} {k : Nat} {T : Nat → Table} (h : Opened m (k + 1) T)
    (hc : m.currentState = k + 1) : m.pop = .ok { m with currentState := k } := by
  have hle := h.le
  unfold MenuNav.pop
  rw [prev_eq h hc rfl, ok_bind, h.level k (by unfold menuLevelCount; omega)]

/-- a menu that has the screen is drawn -/
theorem showCurrent_menu {m : MenuNav} {n : Nat} {T : Nat → Table} (h : Opened m n T)
    (hc : m.currentState = n) : showCurrent m = .ok m := by
  have hle := h.le
  unfold showCurrent
  rw [cur_eq h hc, ok_bind, cur_level h hc, if_pos (by unfold menuCallback; omega),
    renderMenu_ok h hc, ok_bind]

/-! ## keys in a menu -/

theorem Window_moveUp {t : Table} {s : MenuState} (h : Window t s) :
    Window t (moveUp s t.items.length) := by
  obtain ⟨v, hv⟩ := window_iff_shows.1 h
  exact window_iff_shows.2 ⟨v.up, shows_moveUp (items_le t) hv⟩

theorem Window_first (t : Table) (s : MenuState) (hi : s.currentItemIdx = 0)
    (hl : s.cursorLine = 0) : Window t s := by
  have hlen := items_length t
  refine ⟨by omega, by omega, by unfold oledLines; omega, ?_⟩
  rw [hi, hl]
  unfold oledLines
  omega

theorem Window_moveDown {t : Table} {s : MenuState} (h : Window t s) :
    Window t (moveDown s t.items.length) := by
  obtain ⟨v, hv⟩ := window_iff_shows.1 h
  exact window_iff_shows.2 ⟨v.down, shows_moveDown (items_le t) hv⟩

/-- what the arrow keys leave alone -/
theorem moveUp_frame (s : MenuState) (n : Nat) :
    (moveUp s n).prevState = s.prevState ∧ (moveUp s n).currentItem = s.currentItem ∧
      (moveUp s n).level = s.level := by
  unfold moveUp
  split_ifs <;> exact ⟨rfl, rfl, rfl⟩

theorem moveDown_frame (s : MenuState) (n : Nat) :
    (moveDown s n).prevState = s.prevState ∧ (moveDown s n).currentItem = s.currentItem ∧
      (moveDown s n).level = s.level := by
  unfold moveDown
  split_ifs <;> exact ⟨rfl, rfl, rfl⟩

theorem set_self (m : MenuNav) (i : Nat) (s : MenuState) : (m.set i s).states i = s :=
  Function.update_self ..

theorem set_of_ne (m : MenuNav) {i j : Nat} (s : MenuState) (h : j ≠ i) :
    (m.set i s).states j = m.states j :=
  Function.update_of_ne h ..

theorem set_level {m : MenuNav} {i : Nat} {s : MenuState} (hs : s.level = i)
    (h : ∀ j < menuLevelCount, (m.states j).level = j) :
    ∀ j < menuLevelCount, ((m.set i s).states j).level = j := by
  intro j hj
  by_cases e : j = i
  · rw [e, set_self, hs]
  · rw [set_of_ne m s e]
    exact h j hj

/-- a change of the current menu that keeps its place and its window -/
theorem Opened.set {m : MenuNav} {n : Nat} {T : Nat → Table} (h : Opened m n T) {s : MenuState}
    (hp : s.prevState = (m.states n).prevState) (hl : s.level = n) (hw : Window (T n) s) :
    Opened (m.set n s) n T := by
  refine ⟨h.home, ?_, set_level hl h.level, ?_, ?_, ?_⟩
  · by_cases e : 0 = n
    · rw [← e] at hp ⊢
      rw [set_self, hp]
      exact h.root
    · rw [set_of_ne m s e]
      exact h.root
  · intro j hj
    by_cases e : j = n
    · rw [e, set_self]
      exact hw
    · rw [set_of_ne m s e]
      exact h.window j hj
  · intro j hj
    by_cases e : j + 1 = n
    · rw [e, set_self, hp, ← e]
      exact h.prev j hj
    · rw [set_of_ne m s e]
      exact h.prev j hj
  · intro j hj
    rw [set_of_ne m s (by omega)]
    exact h.item j hj

/-- an arrow key -/
theorem arrow_proceeds {m : MenuNav} {n : Nat} {T : Nat → Table} (h : Opened m n T)
    (hc : m.currentState = n) {s : MenuState} (hp : s.prevState = (m.states n).prevState)
    (hl : s.level = (m.states n).level) (hw : Window (T n) s) :
    Proceeds m (showCurrent (m.set m.currentState s)) := by
  rw [hc]
  have ho := h.set hp (hl.trans (cur_level h hc)) hw
  exact ⟨_, showCurrent_menu ho hc, Or.inl ⟨⟨n, T, ho, hc⟩, rfl⟩⟩

theorem renderCallback_rendered (m : MenuNav) (f : Callback) (which : Nat) :
    (renderCallback m f which).rendered = (f, which) :: m.rendered := by
  cases f <;> rfl

theorem renderCallback_frame (m : MenuNav) (f : Callback) (which : Nat) :
    (renderCallback m f which).states = m.states ∧
      (renderCallback m f which).currentState = m.currentState := by
  cases f <;> exact ⟨rfl, rfl⟩

section
variable {m : MenuNav} {n k : Nat} {T : Nat → Table} {it : MenuItem} (h : Opened m n T)
  (ho : CallbackOpen m n (T n) k it)
include h ho

theorem cur_callback : m.cur = .ok (m.states menuCallback) := by
  unfold MenuNav.cur
  rw [ho.current]
  exact state_of_lt m (by decide)

theorem level_callback : (m.states menuCallback).level = menuCallback :=
  h.level menuCallback (by decide)

theorem prev_callback : m.prev = .ok (m.states n) := by
  have hle := h.le
  unfold MenuNav.prev
  rw [cur_callback h ho, ok_bind, ho.prev]
  exact state_of_lt m (by unfold menuLevelCount; omega)

theorem item_callback : (m.states n).item = .ok it := by
  unfold MenuState.item
  rw [ho.item]
  exact itemAt_of ho.found

theorem pop_callback : m.pop = .ok { m with currentState := n } := by
  have hle := h.le
  unfold MenuNav.pop
  rw [prev_callback h ho, ok_bind, h.level n (by unfold menuLevelCount; omega)]

theorem showCurrent_callback {f : Callback} (hf : it.renderCallback = some f) :
    showCurrent m = .ok (renderCallback m f (m.states menuCallback).currentItemIdx) := by
  unfold showCurrent
  rw [cur_callback h ho, ok_bind, level_callback h ho, if_neg (not_not.2 rfl),
    prev_callback h ho, ok_bind, item_callback h ho, ok_bind, hf]

end

theorem enter_eq {m : MenuNav} {n : Nat} {T : Nat → Table} (h : Opened m n T)
    (hc : m.currentState = n) {target : Nat} (ht : target < menuLevelCount) (ptr : ItemPtr)
    (item : Option ItemPtr) (idx : Nat) :
    m.enter target ptr item idx =
      .ok { (m.set n { m.states n with currentItem := some ptr }).set target
          (((m.set n { m.states n with currentItem := some ptr }).states target).setState (some n)
            item idx 0) with
        currentState := target } := by
  unfold MenuNav.enter
  rw [cur_eq h hc, ok_bind, hc]
  simp only [state_of_lt _ ht, ok_bind]
  rw [show (m.set n { m.states n with currentItem := some ptr }).currentState = n from hc]

/-- the current item of the current menu is of no consequence yet -/
theorem Opened.set_item {m : MenuNav} {n : Nat} {T : Nat → Table} (h : Opened m n T)
    (hc : m.currentState = n) (ptr : ItemPtr) :
    Opened (m.set n { m.states n with currentItem := some ptr }) n T := by
  obtain ⟨hi, hl, hl8, hf⟩ := h.window n le_rfl
  exact h.set rfl (cur_level h hc) ⟨hi, hl, hl8, hf⟩

/-- a render callback leaves the callback on the screen -/
theorem CallbackOpen.render {m : MenuNav} {n k : Nat} {t : Table} {it : MenuItem}
    (ho : CallbackOpen m n t k it) (f : Callback) (which : Nat) :
    CallbackOpen (renderCallback m f which) n t k it := by
  obtain ⟨hst, hcs⟩ := renderCallback_frame m f which
  exact ⟨hcs.trans ho.current, by rw [hst]; exact ho.prev, by rw [hst]; exact ho.item,
    by rw [hst]; exact ho.shown, ho.found, ho.callback⟩

theorem Opened.render {m : MenuNav} {n : Nat} {T : Nat → Table} (h : Opened m n T) (f : Callback)
    (which : Nat) : Opened (renderCallback m f which) n T := by
  obtain ⟨hst, -⟩ := renderCallback_frame m f which
  refine h.congr ?_ ?_
  · rw [hst]
    exact h.level
  · rw [hst]
    exact fun _ _ => rfl

/-- a callback gets the screen -/
theorem confirm_opens {m : MenuNav} {n : Nat} {T : Nat → Table} (h : Opened m n T)
    (hc : m.currentState = n) {k : Nat} {it : MenuItem} (hit : (T n).items[k]? = some it)
    {f : Callback} (hf : it.renderCallback = some f) :
    ∃ m0, (m.enter menuCallback (T n, k) (some (T n, k)) k >>= showCurrent)
        = .ok (renderCallback m0 f k) ∧ Opened m0 n T ∧ CallbackOpen m0 n (T n) k it ∧
      (m0.states menuCallback).currentItemIdx = k ∧ m0.rendered = m.rendered ∧
      m0.pushed = m.pushed := by
  have hle := h.le
  have hlt : menuCallback < menuLevelCount := by decide
  have hne : n ≠ menuCallback := by unfold menuCallback; omega
  have h1 := h.set_item hc (T n, k)
  rw [enter_eq h hc hlt, ok_bind]
  have hr : (m.set n { m.states n with currentItem := some (T n, k) }).rendered = m.rendered := rfl
  have hp : (m.set n { m.states n with currentItem := some (T n, k) }).pushed = m.pushed := rfl
  generalize hm1 : m.set n { m.states n with currentItem := some (T n, k) } = m1 at h1 hr hp ⊢
  have hcur : (m1.states n).currentItem = some (T n, k) := by
    rw [← hm1, set_self]
  generalize hs : (m1.states menuCallback).setState (some n) (some (T n, k)) k 0 = s
  have hsl : s.level = menuCallback := by
    rw [← hs]
    exact h1.level menuCallback hlt
  have h2 : Opened { m1.set menuCallback s with currentState := menuCallback } n T := by
    refine h1.congr (set_level hsl h1.level) fun j hj => ?_
    exact set_of_ne m1 s (by unfold menuCallback; omega)
  have hidx : ((m1.set menuCallback s).states menuCallback).currentItemIdx = k := by
    rw [set_self, ← hs]
    rfl
  have ho : CallbackOpen { m1.set menuCallback s with currentState := menuCallback } n (T n) k it := by
    refine ⟨rfl, ?_, ?_, ?_, hit, ?_⟩
    · show ((m1.set menuCallback s).states menuCallback).prevState = some n
      rw [set_self, ← hs]
      rfl
    · show ((m1.set menuCallback s).states n).currentItem = some (T n, k)
      rw [set_of_ne m1 s hne, hcur]
    · show ((m1.set menuCallback s).states menuCallback).currentItem = some (T n, k)
      rw [set_self, ← hs]
      rfl
    · rw [hf]
      exact Option.some_ne_none f
  have hshow := showCurrent_callback h2 ho hf
  rw [hidx] at hshow
  exact ⟨_, hshow, h2, ho, hidx, hr, hp⟩

theorem confirm_callback {m : MenuNav} {n : Nat} {T : Nat → Table} (h : Opened m n T)
    (hc : m.currentState = n) {k : Nat} {it : MenuItem} (hit : (T n).items[k]? = some it)
    {f : Callback} (hf : it.renderCallback = some f) :
    Proceeds m (m.enter menuCallback (T n, k) (some (T n, k)) k >>= showCurrent) := by
  obtain ⟨m0, he, h2, ho, hidx, hr, -⟩ := confirm_opens h hc hit hf
  refine ⟨_, he, Or.inr ⟨f, k, ⟨n, T, k, it, h2.render f k, ho.render f k, hf, ?_⟩, ?_, T n, it, hit,
    hf⟩⟩
  · rw [(renderCallback_frame m0 f k).1]
    exact hidx
  · rw [renderCallback_rendered, hr]

/-- a submenu is opened -/
theorem confirm_submenu {m : MenuNav} {n : Nat} {T : Nat → Table} (h : Opened m n T)
    (hc : m.currentState = n) {k : Nat} {it : MenuItem} (hit : (T n).items[k]? = some it)
    {t : Table} (hsub : it.submenu = some t) :
    Proceeds m (m.enter (n + 1) (T n, k) none 0 >>= showCurrent) := by
  -- a table with a submenu is not at the lowest level
  have hn : n + 1 ≤ 3 := by
    have hd := submenu_depth (List.mem_of_getElem? hit) hsub
    rw [h.depth n le_rfl] at hd
    have := depth_le t
    omega
  have hlt : n + 1 < menuLevelCount := by unfold menuLevelCount; omega
  have h1 := h.set_item hc (T n, k)
  rw [enter_eq h hc hlt, ok_bind]
  have hr : (m.set n { m.states n with currentItem := some (T n, k) }).rendered = m.rendered := rfl
  generalize hm1 : m.set n { m.states n with currentItem := some (T n, k) } = m1 at h1 hr ⊢
  have hcur : (m1.states n).currentItem = some (T n, k) := by
    rw [← hm1, set_self]
  generalize hs : (m1.states (n + 1)).setState (some n) none 0 0 = s
  have hsl : s.level = n + 1 := by
    rw [← hs]
    exact h1.level (n + 1) hlt
  have hold : ∀ j ≤ n, Function.update T (n + 1) t j = T j := fun j hj =>
    Function.update_of_ne (by omega) ..
  have h2 : Opened { m1.set (n + 1) s with currentState := n + 1 } (n + 1)
      (Function.update T (n + 1) t) := by
    refine ⟨?_, ?_, set_level hsl h1.level, ?_, ?_, ?_⟩
    · rw [hold 0 (Nat.zero_le n)]
      exact h1.home
    · show ((m1.set (n + 1) s).states 0).prevState = none
      rw [set_of_ne m1 s (by omega)]
      exact h1.root
    · intro j hj
      show Window _ ((m1.set (n + 1) s).states j)
      by_cases e : j = n + 1
      · rw [e, set_self, ← hs]
        exact Window_first _ _ rfl rfl
      · rw [set_of_ne m1 s e, hold j (by omega)]
        exact h1.window j (by omega)
    · intro j hj
      show ((m1.set (n + 1) s).states (j + 1)).prevState = some j
      by_cases e : j = n
      · rw [e, set_self, ← hs]
        rfl
      · rw [set_of_ne m1 s (by omega)]
        exact h1.prev j (by omega)
    · intro j hj
      rw [hold j (by omega)]
      show ∃ k it, ((m1.set (n + 1) s).states j).currentItem = _ ∧ _
      rw [set_of_ne m1 s (by omega)]
      by_cases e : j = n
      · subst e
        refine ⟨k, it, hcur, hit, ?_⟩
        rw [Function.update_self]
        exact hsub
      · rw [hold (j + 1) (by omega)]
        exact h1.item j (by omega)
  exact ⟨_, showCurrent_menu h2 rfl, Or.inl ⟨⟨n + 1, _, h2, rfl⟩, hr⟩⟩

theorem confirm_proceeds {m : MenuNav} {n : Nat} {T : Nat → Table} (h : Opened m n T)
    (hc : m.currentState = n) : Proceeds m (confirm m >>= showCurrent) := by
  obtain ⟨hi, -⟩ := h.window n le_rfl
  have hit := List.getElem?_eq_getElem hi
  generalize (T n).items[(m.states n).currentItemIdx] = it at hit
  unfold confirm
  rw [cur_eq h hc, ok_bind, items_eq h hc, ok_bind, itemAt_of hit, ok_bind, cur_level h hc]
  cases hr : it.renderCallback with
  | some f =>
    rw [Option.isSome_some, if_pos rfl]
    exact confirm_callback h hc hit hr
  | none =>
    rw [Option.isSome_none, if_neg Bool.false_ne_true]
    cases hsub : it.submenu with
    | some t =>
      rw [Option.isSome_some, if_pos rfl]
      exact confirm_submenu h hc hit hsub
    | none =>
      rw [Option.isSome_none, if_neg Bool.false_ne_true, ok_bind]
      exact ⟨m, showCurrent_menu h hc, Or.inl ⟨⟨n, T, h, hc⟩, rfl⟩⟩

/-- **A key in a menu.** -/
theorem scrollMenu_proceeds {m : MenuNav} {n : Nat} {T : Nat → Table} (h : Opened m n T)
    (hc : m.currentState = n) (role : Role) : Proceeds m (scrollMenu m role) := by
  unfold scrollMenu
  rw [cur_eq h hc, ok_bind]
  cases role with
  | up =>
    obtain ⟨hp, -, hl⟩ := moveUp_frame (m.states n) (T n).items.length
    simp only [maxOptions_eq h hc, ok_bind]
    exact arrow_proceeds h hc hp hl (Window_moveUp (h.window n le_rfl))
  | down =>
    obtain ⟨hp, -, hl⟩ := moveDown_frame (m.states n) (T n).items.length
    simp only [maxOptions_eq h hc, ok_bind]
    exact arrow_proceeds h hc hp hl (Window_moveDown (h.window n le_rfl))
  | confirm => exact confirm_proceeds h hc
  | cancel =>
    show Proceeds m (if (m.states n).level ≠ menuLevel1 then m.pop >>= showCurrent
      else Except.ok m >>= showCurrent)
    rw [cur_level h hc]
    by_cases hn : n ≠ menuLevel1
    · obtain ⟨k, rfl⟩ := Nat.exists_eq_succ_of_ne_zero hn
      rw [if_pos hn, pop_eq h hc, ok_bind]
      have hk : Opened { m with currentState := k } k T :=
        (h.mono (Nat.le_succ k)).congr h.level fun _ _ => rfl
      exact ⟨_, showCurrent_menu hk rfl, Or.inl ⟨⟨k, T, hk, rfl⟩, rfl⟩⟩
    · rw [if_neg hn, ok_bind]
      exact ⟨m, showCurrent_menu h hc, Or.inl ⟨⟨n, T, h, hc⟩, rfl⟩⟩

/-! ## keys in a callback -/

/-- the level that `Set_Exit` writes is the one that is there -/
theorem setExit_eq {m : MenuNav} {n k : Nat} {T : Nat → Table} {it : MenuItem}
    (h : Opened m n T) (ho : CallbackOpen m n (T n) k it) : setExit m = .ok m := by
  unfold setExit
  rw [cur_callback h ho, ok_bind, ho.current]
  have hs : ({ m.states menuCallback with level := 4 } : MenuState) = m.states menuCallback := by
    rw [← show (m.states menuCallback).level = 4 from level_callback h ho]
  rw [hs]
  unfold MenuNav.set
  rw [Function.update_eq_self]

/-- back in the menu that the callback was opened from -/
theorem Opened.back {m : MenuNav} {n : Nat} {T : Nat → Table} (h : Opened m n T) :
    Opened { m with currentState := n } n T :=
  h.congr h.level fun _ _ => rfl

/-- the exit callback calls `scrollMenu`, which leaves the callback -/
theorem scrollMenu_callback {m : MenuNav} {n k : Nat} {T : Nat → Table} {it : MenuItem}
    (h : Opened m n T) (ho : CallbackOpen m n (T n) k it) :
    scrollMenu m .cancel = .ok { m with currentState := n } := by
  unfold scrollMenu
  rw [cur_callback h ho, ok_bind]
  show (if (m.states menuCallback).level ≠ menuLevel1 then m.pop >>= showCurrent
    else Except.ok m >>= showCurrent) = _
  rw [level_callback h ho, if_pos (by decide), pop_callback h ho, ok_bind]
  exact showCurrent_menu h.back rfl

def isExit (f : Callback) : Prop := f = .exitAction ∨ f = .exit2MainMenu

/-- an exit stays until the cancel key comes -/
theorem btnHandleCallback_stays {m : MenuNav} {n k : Nat} {T : Nat → Table} {it : MenuItem}
    (h : Opened m n T) (ho : CallbackOpen m n (T n) k it) {f : Callback} (hf : isExit f) {role : Role}
    (hr : role ≠ .cancel) : btnHandleCallback m f role = .ok (false, m) := by
  have he : btnHandleCallback m f role = (setExit m >>= fun m => Except.ok (false, m)) := by
    rcases hf with rfl | rfl <;> cases role <;> first | rfl | exact absurd rfl hr
  rw [he, setExit_eq h ho, ok_bind]

/-- and goes back to its menu then -/
theorem btnHandleCallback_leaves {m : MenuNav} {n k : Nat} {T : Nat → Table} {it : MenuItem}
    (h : Opened m n T) (ho : CallbackOpen m n (T n) k it) {f : Callback} (hf : isExit f) :
    btnHandleCallback m f .cancel = .ok (true, { m with currentState := n }) := by
  have hleave : btnHandleCallback m f .cancel
      = (setExit m >>= fun m => scrollMenu m .cancel >>= fun m => Except.ok (true, m)) := by
    rcases hf with rfl | rfl <;> rfl
  rw [hleave, setExit_eq h ho, ok_bind, scrollMenu_callback h ho, ok_bind]

/-- the other callbacks leave the menu alone -/
theorem btnHandleCallback_other (m : MenuNav) {f : Callback} (hf : ¬ isExit f) (role : Role) :
    btnHandleCallback m f role = .ok (false, m) ∨ btnHandleCallback m f role = .ok (true, m) := by
  cases f with
  | exitAction => exact absurd (Or.inl rfl) hf
  | exit2MainMenu => exact absurd (Or.inr rfl) hf
  | select g => exact Or.inr (by cases role <;> rfl)
  | systemUniversal => exact Or.inr (by cases role <;> rfl)
  | statusPrint => exact Or.inr (by cases role <;> rfl)
  | networkIp => cases role <;> first | exact Or.inl rfl | exact Or.inr rfl
  | networkMac => cases role <;> first | exact Or.inl rfl | exact Or.inr rfl
  | gps => cases role <;> first | exact Or.inl rfl | exact Or.inr rfl
  | statusSynchPrint => cases role <;> first | exact Or.inl rfl | exact Or.inr rfl

/-- what the button callbacks do: stay, leave, or leave by the exit -/
theorem btnHandleCallback_cases {m : MenuNav} {n k : Nat} {T : Nat → Table} {it : MenuItem}
    (h : Opened m n T) (ho : CallbackOpen m n (T n) k it) (f : Callback) (role : Role) :
    (btnHandleCallback m f role = .ok (false, m)) ∨
    (¬ isExit f ∧ btnHandleCallback m f role = .ok (true, m)) ∨
    (isExit f ∧ role = .cancel ∧
      btnHandleCallback m f role = .ok (true, { m with currentState := n })) := by
  by_cases hf : isExit f
  · by_cases hr : role = .cancel
    · subst hr
      exact Or.inr (Or.inr ⟨hf, rfl, btnHandleCallback_leaves h ho hf⟩)
    · exact Or.inl (btnHandleCallback_stays h ho hf hr)
  · rcases btnHandleCallback_other m hf role with hb | hb
    · exact Or.inl hb
    · exact Or.inr (Or.inl ⟨hf, hb⟩)

theorem menuPollButtons_menu {m : MenuNav} {n : Nat} {T : Nat → Table} (h : Opened m n T)
    (hc : m.currentState = n) (role : Role) : menuPollButtons m role = scrollMenu m role := by
  have hle := h.le
  unfold menuPollButtons
  rw [cur_eq h hc, ok_bind, cur_level h hc, if_pos (by unfold menuCallback; omega)]

/-- what `menuPollButtons` does with a callback -/
def afterCallback (p : Bool × MenuNav) : Except Fault MenuNav :=
  if p.1 then do
    let m ← p.2.pop
    renderMenu m
    .ok m
  else .ok p.2

theorem menuPollButtons_callback {m : MenuNav} {n k : Nat} {T : Nat → Table} {it : MenuItem}
    (h : Opened m n T) (ho : CallbackOpen m n (T n) k it) {f : Callback}
    (hf : it.renderCallback = some f) (role : Role) :
    menuPollButtons m role = btnHandleCallback m f role >>= afterCallback := by
  have hb := item_callbacks (List.mem_of_getElem? ho.found)
  unfold menuPollButtons
  rw [cur_callback h ho, ok_bind, level_callback h ho, if_neg (not_not.2 rfl),
    prev_callback h ho, ok_bind, item_callback h ho, ok_bind, hb, hf]
  rfl

/-- the second pop, from a menu that is not the home menu -/
theorem afterCallback_menu {m : MenuNav} {k : Nat} {T : Nat → Table} (h : Opened m (k + 1) T)
    (hc : m.currentState = k + 1) : afterCallback (true, m) = .ok { m with currentState := k } := by
  have hk := (h.mono (Nat.le_succ k)).back
  show (m.pop >>= fun m => renderMenu m >>= fun _ => Except.ok m) = _
  rw [pop_eq h hc, ok_bind, renderMenu_ok hk rfl, ok_bind]

theorem afterCallback_callback {m : MenuNav} {n k : Nat} {T : Nat → Table} {it : MenuItem}
    (h : Opened m n T) (ho : CallbackOpen m n (T n) k it) :
    afterCallback (true, m) = .ok { m with currentState := n } := by
  show (m.pop >>= fun m => renderMenu m >>= fun _ => Except.ok m) = _
  rw [pop_callback h ho, ok_bind, renderMenu_ok h.back rfl, ok_bind]

/-- **The home exit.**  It pops to the home menu, and then once more. -/
theorem afterCallback_home {m : MenuNav} {T : Nat → Table} (h : Opened m 0 T)
    (hc : m.currentState = 0) : afterCallback (true, m) = .error .prevState := by
  show (m.pop >>= fun m => renderMenu m >>= fun _ => Except.ok m) = _
  unfold MenuNav.pop MenuNav.prev
  rw [cur_eq h hc, ok_bind, h.root]
  rfl

theorem homeExit_fault {m : MenuNav} (hinv : MenuInv m) (hx : HomeExitOpen m) :
    menuPollButtons m .cancel = .error .prevState := by
  obtain ⟨n, T, h, hc | ⟨k, it, ho⟩⟩ := hinv
  · have hle := h.le
    have hcur := hx.1
    rw [hc] at hcur
    unfold menuCallback at hcur
    omega
  · have hptr := ho.shown
    rw [hx.2] at hptr
    obtain ⟨htable, hk⟩ := Prod.mk.inj (Option.some.inj hptr)
    have hn : n = 0 := by
      have hd := h.depth n le_rfl
      rw [← htable] at hd
      exact hd.symm
    subst hn
    have hit := ho.found
    rw [h.home] at hit
    obtain ⟨f, hf⟩ := Option.ne_none_iff_exists'.1 ho.callback
    have hcall : f = .exit2MainMenu := by
      rw [(home_callback hit ho.callback).2] at hf
      exact (Option.some.inj hf).symm
    have hb : btnHandleCallback m f .cancel = .ok (true, { m with currentState := 0 }) := by
      rw [hcall]
      show (setExit m >>= fun m => scrollMenu m .cancel >>= fun m => Except.ok (true, m)) = _
      rw [setExit_eq h ho, ok_bind, scrollMenu_callback h ho, ok_bind]
    rw [menuPollButtons_callback h ho hf, hb, ok_bind]
    exact afterCallback_home h.back rfl

/-- **A key in a callback** but the exit of the home menu: it stays, or a menu gets the screen. -/
theorem callback_cases {m : MenuNav} {n k : Nat} {T : Nat → Table} {it : MenuItem}
    (h : Opened m n T) (ho : CallbackOpen m n (T n) k it) {f : Callback}
    (hf : it.renderCallback = some f) (role : Role) (hx : role = .cancel → ¬ HomeExitOpen m) :
    (menuPollButtons m role = .ok m ∧ btnHandleCallback m f role = .ok (false, m)) ∨
    ∃ m', menuPollButtons m role = .ok m' ∧ OnMenu m m' := by
  rw [menuPollButtons_callback h ho hf]
  rcases btnHandleCallback_cases h ho f role with hb | ⟨-, hb⟩ | ⟨-, rfl, hb⟩
  · rw [hb, ok_bind]
    exact Or.inl ⟨rfl, rfl⟩
  · rw [hb, ok_bind]
    exact Or.inr ⟨_, afterCallback_callback h ho, ⟨n, T, h.back, rfl⟩, rfl⟩
  · rw [hb, ok_bind]
    cases n with
    | succ n =>
      exact Or.inr ⟨_, afterCallback_menu h.back rfl,
        ⟨n, T, (h.back.mono (Nat.le_succ n)).back, rfl⟩, rfl⟩
    | zero =>
      have hit := ho.found
      have hshown := ho.shown
      rw [h.home] at hit hshown
      rw [(home_callback hit ho.callback).1] at hshown
      exact absurd ⟨ho.current, hshown⟩ (hx rfl)

/-! ## whole runs -/

theorem Opened_home {m : MenuNav} (hl : ∀ i < menuLevelCount, (m.states i).level = i)
    (hp : (m.states 0).prevState = none) (hi : (m.states 0).currentItemIdx = 0)
    (hline : (m.states 0).cursorLine = 0) : Opened m 0 fun _ => .home := by
  refine ⟨rfl, hp, hl, fun j hj => ?_, fun j hj => by omega, fun j hj => by omega⟩
  have h0 : j = 0 := by omega
  rw [h0]
  exact Window_first _ _ hi hline

theorem menuReset_home {m : MenuNav} (hl : ∀ i < menuLevelCount, (m.states i).level = i) :
    ∃ m', m.menuResetNoRenderMenu = .ok m' ∧ m'.currentState = 0 ∧ Opened m' 0 (fun _ => .home) ∧
      m'.rendered = m.rendered := by
  have hlt : menuLevel1 < menuLevelCount := by decide
  generalize hs : (m.states menuLevel1).setState none none 0 0 = s
  have hsl : s.level = menuLevel1 := by
    rw [← hs]
    exact hl menuLevel1 hlt
  have hself : (m.set menuLevel1 s).states 0 = s := set_self m menuLevel1 s
  refine ⟨{ m.set menuLevel1 s with currentState := menuLevel1 }, ?_, rfl, ?_, rfl⟩
  · unfold MenuNav.menuResetNoRenderMenu
    rw [state_of_lt m hlt, ok_bind, hs]
  · refine Opened_home (set_level hsl hl) ?_ ?_ ?_
    · show ((m.set menuLevel1 s).states 0).prevState = none
      rw [hself, ← hs]
      rfl
    · show ((m.set menuLevel1 s).states 0).currentItemIdx = 0
      rw [hself, ← hs]
      rfl
    · show ((m.set menuLevel1 s).states 0).cursorLine = 0
      rw [hself, ← hs]
      rfl

/-- what an event does to the screen -/
inductive Outcome (m m' : MenuNav) (e : MenuEvent) : Prop
  /-- a key went to a callback that keeps the screen, or there was none -/
  | stays (hm : m' = m) (hkey : ∀ role, e = .key role → ∃ f k, AtCallback m f k ∧
      btnHandleCallback m f role = .ok (false, m))
  | menu (h : OnMenu m m')
  | callback (hm : AtMenu m) (h : OnCallback m m')

theorem Outcome.inv {m m' : MenuNav} {e : MenuEvent} (h : Outcome m m' e) (hinv : MenuInv m) :
    MenuInv m' := by
  cases h with
  | stays hm hkey =>
    rw [hm]
    exact hinv
  | menu h => exact h.1.inv
  | callback hm h =>
    obtain ⟨f, k, hc, -⟩ := h
    exact hc.inv

/-- **One event** does not fault and has one of the outcomes, but for the exit of the home menu. -/
theorem menuStep_ok {m : MenuNav} (hinv : MenuInv m) (e : MenuEvent) (hg : NotHomeExit (.ok m) e) :
    ∃ m', menuStep (.ok m) e = .ok m' ∧ Outcome m m' e := by
  obtain ⟨n, T, h, hscreen⟩ := hinv
  obtain ⟨m0, he0, hc0, ho0, hr0⟩ := menuReset_home h.level
  have hreset : OnMenu m m0 := ⟨⟨0, _, ho0, hc0⟩, hr0⟩
  cases e with
  | otherKey => exact ⟨m, rfl, .stays rfl nofun⟩
  | resetNoRender => exact ⟨m0, he0, .menu hreset⟩
  | reset =>
    refine ⟨m0, ?_, .menu hreset⟩
    show m.menuReset = _
    unfold MenuNav.menuReset
    rw [he0, ok_bind, renderMenu_ok ho0 hc0, ok_bind]
  | key role =>
    rcases hscreen with hc | ⟨k, it, ho⟩
    · obtain ⟨m', he, hcases⟩ := scrollMenu_proceeds h hc role
      refine ⟨m', (menuPollButtons_menu h hc role).trans he, ?_⟩
      rcases hcases with hm | hcall
      · exact .menu hm
      · exact .callback ⟨n, T, h, hc⟩ hcall
    · obtain ⟨f, hf⟩ := Option.ne_none_iff_exists'.1 ho.callback
      have hx : role = .cancel → ¬ HomeExitOpen m := by
        rintro rfl
        exact hg
      rcases callback_cases h ho hf role hx with ⟨he, hb⟩ | ⟨m', he, hm⟩
      · refine ⟨m, he, .stays rfl ?_⟩
        rintro _ ⟨⟩
        exact ⟨f, _, ⟨n, T, k, it, h, ho, hf, rfl⟩, hb⟩
      · exact ⟨m', he, .menu hm⟩

theorem menuStep_fault {m : MenuNav} (hinv : MenuInv m) {e : MenuEvent}
    (hg : ¬ NotHomeExit (.ok m) e) : menuStep (.ok m) e = .error .prevState := by
  cases e with
  | otherKey => exact absurd trivial hg
  | reset => exact absurd trivial hg
  | resetNoRender => exact absurd trivial hg
  | key role =>
    cases role with
    | up => exact absurd trivial hg
    | down => exact absurd trivial hg
    | confirm => exact absurd trivial hg
    | cancel => exact homeExit_fault hinv (not_not.1 hg)

theorem navSafe_of_fine {r : Except Fault MenuNav} (h : Fine r) : NavSafe r := by
  obtain ⟨m, rfl, n, T, ho, -⟩ := h
  exact ho.level

theorem menuStep_fine (r : Except Fault MenuNav) (e : MenuEvent) (h : Fine r)
    (hg : NotHomeExit r e) : Fine (menuStep r e) := by
  obtain ⟨m, rfl, hinv⟩ := h
  obtain ⟨m', he, ho⟩ := menuStep_ok hinv e hg
  exact ⟨m', he, ho.inv hinv⟩

theorem menuStep_bad (r : Except Fault MenuNav) (e : MenuEvent) (h : Fine r)
    (hg : ¬ NotHomeExit r e) : ¬ NavSafe (menuStep r e) := by
  obtain ⟨m, rfl, hinv⟩ := h
  rw [menuStep_fault hinv hg]
  exact id

/-- **The menu.**  In every state of a run the pointers are followed and the arrays indexed safely
iff the cancel key never comes while the exit of the home menu has the screen. -/
theorem navSafe_iff (es : List MenuEvent) :
    Always menuStep NavSafe (.ok menuNavInit) es ↔ Along menuStep NotHomeExit (.ok menuNavInit) es :=
  Always_iff_Along (I := Fine) (fun _ h => navSafe_of_fine h) menuStep_fine menuStep_bad
    ⟨menuNavInit, rfl, 0, _, Opened_home (fun _ _ => rfl) rfl rfl rfl, Or.inl rfl⟩

/-- up to the exit of the home menu, and the cancel key that its render callback pushes -/
def homeExitRun : List MenuEvent := [.reset, .key .up, .key .confirm, .key .cancel]

theorem home_exit_pops_twice :
    (∃ m, run menuStep (.ok menuNavInit) (homeExitRun.take 3) = .ok m ∧ m.pushed = [.cancel]) ∧
    run menuStep (.ok menuNavInit) homeExitRun = .error .prevState ∧
    ¬ Always menuStep NavSafe (.ok menuNavInit) homeExitRun := by
  have h : run menuStep (.ok menuNavInit) homeExitRun = .error .prevState := rfl
  refine ⟨⟨_, rfl, rfl⟩, h, fun ha => ?_⟩
  have hlast := ha.last
  rw [h] at hlast
  exact hlast

end MenuFirmware
