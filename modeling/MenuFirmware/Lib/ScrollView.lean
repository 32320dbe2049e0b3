import Mathlib.Data.List.Basic
import Mathlib.Data.Nat.ModEq

/-!
# A list behind a window

A list of `n` items, of which a window of `h` lines shows some, one of them selected.

* `ScrollView n h`     the selected item and the first one shown: the selected one is shown, and no
                       line lies behind the last item as long as there are items to fill it;
* `select`             select another item and move the window as little as possible;
* `up`, `down`         the neighbours, round the ends of the list;
* `rows`               the items shown; `rows_line`, the selected one is on the line `line`.
-/

/-- `idx` is selected, `first` is on the first line -/
structure ScrollView (n h : Nat) where
  idx : Nat
  first : Nat
  idx_lt : idx < n
  first_le : first ≤ idx
  shown : idx < first + h
  fits : first + min n h ≤ n

namespace ScrollView

section
variable {n h : Nat}

/-- the first line that shows the item `j` after the least movement from `first` -/
def scrollTo (h first j : Nat) : Nat :=
  if j < first then j else if first + h ≤ j then j + 1 - h else first

def select (v : ScrollView n h) (j : Nat) (hj : j < n) : ScrollView n h where
  idx := j
  first := scrollTo h v.first j
  idx_lt := hj
  first_le := by
    have hs := v.shown
    have hf := v.first_le
    unfold scrollTo
    split_ifs <;> omega
  shown := by
    have hs := v.shown
    have hf := v.first_le
    unfold scrollTo
    split_ifs <;> omega
  fits := by
    have hs := v.shown
    have hf := v.first_le
    have hfit := v.fits
    unfold scrollTo
    split_ifs <;> omega

/-- the first item, at the top -/
def opened (hn : 0 < n) (hh : 0 < h) : ScrollView n h where
  idx := 0
  first := 0
  idx_lt := hn
  first_le := Nat.le_refl 0
  shown := by omega
  fits := by omega

def up (v : ScrollView n h) : ScrollView n h :=
  v.select ((v.idx + (n - 1)) % n) (Nat.mod_lt _ (Nat.zero_lt_of_lt v.idx_lt))

def down (v : ScrollView n h) : ScrollView n h :=
  v.select ((v.idx + 1) % n) (Nat.mod_lt _ (Nat.zero_lt_of_lt v.idx_lt))

/-- the line of the selected item -/
def line (v : ScrollView n h) : Nat := v.idx - v.first

theorem first_add_line (v : ScrollView n h) : v.first + v.line = v.idx :=
  Nat.add_sub_of_le v.first_le

theorem line_lt (v : ScrollView n h) : v.line < h := by
  have hs := v.shown
  have hf := v.first_le
  unfold line
  omega

theorem line_lt_rows (v : ScrollView n h) : v.line < min n h := by
  have hs := v.line_lt
  have hi := v.idx_lt
  have hf := v.first_add_line
  omega

theorem idx_up (v : ScrollView n h) : v.up.idx = if v.idx = 0 then n - 1 else v.idx - 1 := by
  have hi := v.idx_lt
  show (v.idx + (n - 1)) % n = _
  by_cases h0 : v.idx = 0
  · rw [if_pos h0, h0, Nat.zero_add, Nat.mod_eq_of_lt (by omega)]
  · have he : v.idx + (n - 1) = (v.idx - 1) + n := by omega
    rw [if_neg h0, he, Nat.add_mod_right, Nat.mod_eq_of_lt (by omega)]

theorem idx_down (v : ScrollView n h) : v.down.idx = if v.idx + 1 < n then v.idx + 1 else 0 := by
  have hi := v.idx_lt
  show (v.idx + 1) % n = _
  by_cases hlast : v.idx + 1 < n
  · rw [if_pos hlast, Nat.mod_eq_of_lt hlast]
  · have he : v.idx + 1 = n := by omega
    rw [if_neg hlast, he, Nat.mod_self]

theorem first_up (v : ScrollView n h) : v.up.first = scrollTo h v.first v.up.idx := rfl
theorem first_down (v : ScrollView n h) : v.down.first = scrollTo h v.first v.down.idx := rfl

variable {α : Type*}

/-- the items shown, line by line -/
def rows (v : ScrollView n h) (items : List α) : List α := (items.drop v.first).take (min n h)

theorem rows_length (v : ScrollView n h) {items : List α} (hl : items.length = n) :
    (v.rows items).length = min n h := by
  have hf := v.fits
  unfold rows
  rw [List.length_take, List.length_drop]
  omega

theorem rows_getElem? (v : ScrollView n h) (items : List α) {i : Nat} (hi : i < min n h) :
    (v.rows items)[i]? = items[v.first + i]? := by
  unfold rows
  rw [List.getElem?_take_of_lt hi, List.getElem?_drop]

/-- the selected item is on its line -/
theorem rows_line (v : ScrollView n h) (items : List α) :
    (v.rows items)[v.line]? = items[v.idx]? := by
  rw [rows_getElem? v items v.line_lt_rows, first_add_line]

end

end ScrollView
