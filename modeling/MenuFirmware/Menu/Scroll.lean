import MenuFirmware.Lib.ScrollView
import MenuFirmware.Lib.Trace
import MenuFirmware.Menu.State

/-!
# Scrolling a menu (`menu.c`)

The arrow keys move `current_item_idx` and `cursor_line` of a menu of up to 255 items; `renderMenu`
draws up to eight lines from the difference of the two on.

* `Shows s v`          the two fields of the state `s` are the view `v` of the list;
* `shows_moveUp`, `shows_moveDown`   the arrow keys are `ScrollView.up` and `ScrollView.down`;
* `renderLines`        the lines that are drawn, with the items that are read;
* `renderRows_view`    the rows of the view are what is drawn;
* `scrollMenu_window`  REFINEMENT, over every sequence of arrow keys from the opened menu: window and
                       cursor stay inside, no item past the end is read, the inverted line shows the
                       selected item.
-/

namespace MenuFirmware
open Runs

/-- a menu of 1 to 255 items -/
structure MenuList (α : Type) where
  items : List α
  pos : 0 < items.length
  le : items.length ≤ 255

inductive Arrow where
  | up
  | down
  deriving DecidableEq

/-- an arrow key in a menu of `n` items -/
def arrowStep (n : Nat) (s : MenuState) : Arrow → MenuState
  | .up => moveUp s n
  | .down => moveDown s n

/-- `first_item`, an `unsigned char` -/
def MenuState.firstItem (s : MenuState) : Nat := (s.currentItemIdx + 256 - s.cursorLine) % 256

section
variable {α : Type}

/-- `n` lines from the line `i` on: the item that is read, and whether its line is inverted; `none`
when an item past the end is read -/
def renderLines (items : List α) (s : MenuState) : Nat → Nat → Option (List (α × Bool))
  | _, 0 => some []
  | i, n + 1 => do
    let it ← items[s.firstItem + i]?
    let rest ← renderLines items s (i + 1) n
    some ((it, i == s.cursorLine) :: rest)

/-- `for(i=0; i<max_options && i<OLED_LINES; i++)` -/
def renderRows (items : List α) (s : MenuState) : Option (List (α × Bool)) :=
  renderLines items s 0 (min items.length oledLines)

/-- it reads the items that `drawLines` reads -/
theorem drawLines_ok_iff (t : Table) (s : MenuState) (i n : Nat) :
    drawLines t (s.firstItem + i) n = .ok () ↔ (renderLines t.items s i n).isSome = true := by
  induction n generalizing i with
  | zero => exact iff_of_true rfl rfl
  | succ n ih =>
    unfold drawLines renderLines itemAt
    cases hit : t.items[s.firstItem + i]? with
    | none => exact iff_of_false nofun nofun
    | some it =>
      show drawLines t (s.firstItem + i + 1) n = .ok () ↔ _
      rw [Nat.add_assoc, ih]
      cases hrest : renderLines t.items s (i + 1) n with
      | none => exact Iff.rfl
      | some rest => exact Iff.rfl

theorem renderLines_some (items : List α) (s : MenuState) (i n : Nat)
    (h : s.firstItem + i + n ≤ items.length) :
    ∃ rows, renderLines items s i n = some rows ∧ rows.length = n ∧
      ∀ j < n, rows[j]? = items[s.firstItem + (i + j)]?.map fun it => (it, i + j == s.cursorLine) := by
  induction n generalizing i with
  | zero => exact ⟨[], rfl, rfl, fun j hj => absurd hj (Nat.not_lt_zero j)⟩
  | succ n ih =>
    obtain ⟨rest, hrest, hlen, hget⟩ := ih (i + 1) (by omega)
    have hit : items[s.firstItem + i]? = some items[s.firstItem + i] :=
      List.getElem?_eq_getElem (by omega)
    refine ⟨(items[s.firstItem + i], i == s.cursorLine) :: rest, ?_, ?_, ?_⟩
    · unfold renderLines
      rw [hit, hrest]
      rfl
    · rw [List.length_cons, hlen]
    · intro j hj
      cases j with
      | zero =>
        rw [Nat.add_zero, hit]
        rfl
      | succ j =>
        have he : i + (j + 1) = i + 1 + j := by omega
        rw [List.getElem?_cons_succ, hget j (by omega), he]

end

/-! ## the view of a state -/

section
variable {n : Nat}

/-- the selected item and the line of the cursor are those of `v` -/
structure Shows (s : MenuState) (v : ScrollView n oledLines) : Prop where
  idx : s.currentItemIdx = v.idx
  line : s.cursorLine = v.line

theorem shows_moveUp (hn : n ≤ 255) {s : MenuState} {v : ScrollView n oledLines} (h : Shows s v) :
    Shows (moveUp s n) v.up := by
  obtain ⟨hidx, hline⟩ := h
  have hi := v.idx_lt
  have hl := v.first_add_line
  have hl8 := v.line_lt
  have hfirst := v.first_up
  have hup := v.idx_up
  have hupl := v.up.first_add_line
  unfold ScrollView.scrollTo at hfirst
  unfold moveUp
  rw [hidx, hline]
  unfold oledLines at *
  by_cases h0 : v.idx = 0
  · -- from the first item to the last one, on the last line or, in a short menu, on its own
    rw [if_pos h0] at hup
    have hmod : (n + 255) % 256 = n - 1 := by omega
    rw [if_neg (not_not.2 h0), hmod]
    by_cases hlong : 8 - 1 > n - 1
    · refine ⟨hup.symm, ?_⟩
      show (if 8 - 1 > n - 1 then n - 1 else 8 - 1) = v.up.line
      rw [if_pos hlong]
      split_ifs at hfirst <;> omega
    · refine ⟨hup.symm, ?_⟩
      show (if 8 - 1 > n - 1 then n - 1 else 8 - 1) = v.up.line
      rw [if_neg hlong]
      split_ifs at hfirst <;> omega
  · rw [if_neg h0] at hup
    rw [if_pos h0]
    by_cases hline0 : v.line = 0
    · rw [if_pos hline0]
      refine ⟨hup.symm, ?_⟩
      show v.line = v.up.line
      split_ifs at hfirst <;> omega
    · rw [if_neg hline0]
      refine ⟨hup.symm, ?_⟩
      show v.line - 1 = v.up.line
      split_ifs at hfirst <;> omega

theorem shows_moveDown (hn : n ≤ 255) {s : MenuState} {v : ScrollView n oledLines} (h : Shows s v) :
    Shows (moveDown s n) v.down := by
  obtain ⟨hidx, hline⟩ := h
  have hi := v.idx_lt
  have hl := v.first_add_line
  have hl8 := v.line_lt
  have hfirst := v.first_down
  have hdown := v.idx_down
  have hdownl := v.down.first_add_line
  unfold ScrollView.scrollTo at hfirst
  unfold moveDown
  rw [hidx, hline]
  unfold oledLines at *
  by_cases hlast : v.idx + 1 < n
  · rw [if_pos hlast] at hdown
    have hmod : (v.idx + 1) % 256 = v.idx + 1 := Nat.mod_eq_of_lt (by omega)
    rw [if_pos hlast, hmod]
    by_cases hend : v.line = 8 - 1
    · rw [if_pos hend]
      refine ⟨hdown.symm, ?_⟩
      show v.line = v.down.line
      split_ifs at hfirst <;> omega
    · rw [if_neg hend]
      refine ⟨hdown.symm, ?_⟩
      show (v.line + 1) % 256 = v.down.line
      split_ifs at hfirst <;> omega
  · rw [if_neg hlast] at hdown
    rw [if_neg hlast]
    refine ⟨hdown.symm, ?_⟩
    show 0 = v.down.line
    split_ifs at hfirst <;> omega

theorem Shows.firstItem (hn : n ≤ 255) {s : MenuState} {v : ScrollView n oledLines}
    (h : Shows s v) : s.firstItem = v.first := by
  have hi := v.idx_lt
  have hl := v.first_add_line
  unfold MenuState.firstItem
  rw [h.idx, h.line]
  omega

/-- the arrow keys on views -/
def viewStep (v : ScrollView n oledLines) : Arrow → ScrollView n oledLines
  | .up => v.up
  | .down => v.down

theorem shows_step (hn : n ≤ 255) (s : MenuState) (v : ScrollView n oledLines) (key : Arrow)
    (h : Shows s v) : Shows (arrowStep n s key) (viewStep v key) := by
  cases key with
  | up => exact shows_moveUp hn h
  | down => exact shows_moveDown hn h

end

/-- what is drawn are the rows of the view, the cursor inverted -/
theorem renderRows_view {α : Type} {items : List α} (hn : items.length ≤ 255) {s : MenuState}
    {v : ScrollView items.length oledLines} (h : Shows s v) :
    renderRows items s = some ((v.rows items).mapIdx fun i it => (it, i == v.line)) := by
  have hfirst := h.firstItem hn
  obtain ⟨rows, hrows, hlen, hget⟩ := renderLines_some items s 0 (min items.length oledLines)
    (by rw [hfirst, Nat.add_zero]; exact v.fits)
  refine hrows.trans (congrArg some (List.ext_getElem? fun i => ?_))
  rw [List.getElem?_mapIdx]
  by_cases hi : i < min items.length oledLines
  · rw [hget i hi, v.rows_getElem? items hi, Nat.zero_add, hfirst, h.line]
  · rw [List.getElem?_eq_none (by omega), List.getElem?_eq_none (by rw [v.rows_length rfl]; omega)]
    rfl

/-- **The window.**  In a menu of 1 to 255 items, after any arrow keys since it was opened: the
cursor is on a line of the screen and not below the selected item's place, the selected item and the
window are inside the menu, every item that `renderMenu` reads exists, the lines drawn are the items
from the first one shown on, and the inverted line is the one of the selected item. -/
theorem scrollMenu_window {α : Type} (l : MenuList α) (s : MenuState) (prev : Option Nat)
    (keys : List Arrow) :
    let t := run (arrowStep l.items.length) (s.setState prev none 0 0) keys
    t.cursorLine ≤ t.currentItemIdx ∧ t.currentItemIdx < l.items.length ∧
      t.cursorLine < oledLines ∧
      t.firstItem + min l.items.length oledLines ≤ l.items.length ∧
      ∃ rows, renderRows l.items t = some rows ∧
        rows.length = min l.items.length oledLines ∧
        (∀ i < rows.length, rows[i]? =
          l.items[t.firstItem + i]?.map fun it => (it, i == t.cursorLine)) ∧
        rows[t.cursorLine]? = l.items[t.currentItemIdx]?.map fun it => (it, true) := by
  intro t
  have hopen : Shows (s.setState prev none 0 0) (ScrollView.opened l.pos (by decide)) := ⟨rfl, rfl⟩
  have hrun : Shows t (run viewStep (ScrollView.opened l.pos (by decide)) keys) :=
    run_simulation (shows_step l.le) hopen keys
  generalize run viewStep (ScrollView.opened l.pos (by decide)) keys = v at hrun
  have hfirst := hrun.firstItem l.le
  have hlen : ((v.rows l.items).mapIdx fun i it => (it, i == v.line)).length =
      min l.items.length oledLines := List.length_mapIdx.trans (v.rows_length rfl)
  refine ⟨?_, ?_, ?_, ?_, _, renderRows_view l.le hrun, hlen, fun i hi => ?_, ?_⟩
  · rw [hrun.line, hrun.idx]
    exact Nat.sub_le _ _
  · rw [hrun.idx]
    exact v.idx_lt
  · rw [hrun.line]
    exact v.line_lt
  · rw [hfirst]
    exact v.fits
  · rw [List.getElem?_mapIdx, v.rows_getElem? l.items (hlen ▸ hi), hfirst, hrun.line]
  · rw [List.getElem?_mapIdx, hrun.line, v.rows_line, hrun.idx, beq_self_eq_true]

end MenuFirmware
