import Mathlib.Data.List.Flatten
import Mathlib.Data.List.GetD
import Mathlib.Logic.Function.Iterate
import MenuFirmware.Oled.Draw

/-!
# Strings across the panel (`OLED_ShowString`)

The index and the column have 8 bits.  A line is left behind column 120, which leaves room for a
character of 8 columns; one of the size 32 has 16.

* `drawnFrom`, `mem_drawn_calls`   the columns that are drawn, and those of a row of characters;
* `showStringLoop_running`, `showStringLoop_ended`   the loop while no zero is met, and at the zero;
* `nextColumn`, `column_linear`, `column_aligned`   where a character stands;
* `showsString_iff`      when a string is drawn as it should be.
-/

set_option linter.unusedSectionVars false
set_option linter.unusedVariables false

namespace MenuFirmware

/-! ## columns -/

/-- the columns of the data, from the position `c` on -/
def drawnFrom : Nat → List OledOp → List Nat
  | _, [] => []
  | _, .setPos x _ :: ops => drawnFrom x.toNat ops
  | c, .wrData _ :: ops => c :: drawnFrom (c + 1) ops
  | c, .wrData2 _ :: ops => c :: drawnFrom (c + 1) ops

def drawnColumns (ops : List OledOp) : List Nat := drawnFrom 0 ops

def glyphWidth (size : UInt8) : Nat := if size = 32 then 16 else 8

theorem mem_drawn_data (table : Nat → UInt8) (l : List Nat) (c col : Nat) (ops : List OledOp) :
    col ∈ drawnFrom c ((l.map fun i => .wrData (table i)) ++ ops) ↔
      (c ≤ col ∧ col < c + l.length) ∨ col ∈ drawnFrom (c + l.length) ops := by
  induction l generalizing c with
  | nil =>
    have hnone : ¬ (c ≤ col ∧ col < c + 0) := by omega
    exact (or_iff_right hnone).symm
  | cons i l ih =>
    show col ∈ c :: drawnFrom (c + 1) (l.map (fun i => OledOp.wrData (table i)) ++ ops) ↔ _
    have hlen : c + 1 + l.length = c + (i :: l).length := by
      rw [List.length_cons]
      omega
    rw [List.mem_cons, ih (c + 1), hlen]
    have hcol : col = c ∨ (c + 1 ≤ col ∧ col < c + (i :: l).length) ↔
        c ≤ col ∧ col < c + (i :: l).length := by
      rw [← hlen]
      omega
    rw [← or_assoc, hcol]

theorem mem_drawn_row (x y : UInt8) (n : Nat) (table : Nat → UInt8) (c col : Nat) (ops : List OledOp) :
    col ∈ drawnFrom c (glyphRow .wrData x y n table ++ ops) ↔
      (x.toNat ≤ col ∧ col < x.toNat + n) ∨ col ∈ drawnFrom (x.toNat + n) ops := by
  show col ∈ drawnFrom x.toNat (((List.range n).map fun i => OledOp.wrData (table i)) ++ ops) ↔ _
  rw [mem_drawn_data, List.length_range]

/-- a size with a table -/
def FontSize (size : UInt8) : Prop := size = 12 ∨ size = 16 ∨ size = 32

/-- all rows of a character have the same columns -/
theorem mem_drawn_char (font : OledFont) {x : UInt8} (hx : x ≤ 127) (y chr : UInt8) {size : UInt8}
    (hsize : FontSize size) (c col : Nat) (ops : List OledOp) :
    col ∈ drawnFrom c (oledShowChar font x y chr size ++ ops) ↔
      (x.toNat ≤ col ∧ col < x.toNat + glyphWidth size) ∨
        col ∈ drawnFrom (x.toNat + glyphWidth size) ops := by
  have hin : ¬ x > 127 := UInt8.not_lt.2 hx
  unfold oledShowChar showChar
  rw [if_neg hin]
  rcases hsize with rfl | rfl | rfl
  · exact mem_drawn_row x (y + 1) 8 _ c col ops
  · show col ∈ drawnFrom c (glyphRow .wrData x y 8 _ ++ glyphRow .wrData x (y + 1) 8 _ ++ ops) ↔
      (x.toNat ≤ col ∧ col < x.toNat + 8) ∨ col ∈ drawnFrom (x.toNat + 8) ops
    rw [List.append_assoc, mem_drawn_row, mem_drawn_row, ← or_assoc, or_self]
  · show col ∈ drawnFrom c (glyphRow .wrData x y 16 _ ++ glyphRow .wrData x (y + 1) 16 _ ++
        glyphRow .wrData x (y + 2) 16 _ ++ glyphRow .wrData x (y + 3) 16 _ ++ ops) ↔
      (x.toNat ≤ col ∧ col < x.toNat + 16) ∨ col ∈ drawnFrom (x.toNat + 16) ops
    rw [List.append_assoc, List.append_assoc, List.append_assoc, mem_drawn_row, mem_drawn_row,
      mem_drawn_row, mem_drawn_row, ← or_assoc, ← or_assoc, ← or_assoc, or_self, or_self, or_self]

/-- the columns of characters drawn one after the other -/
theorem mem_drawn_calls (font : OledFont) {size : UInt8} (hsize : FontSize size) (col : Nat)
    (l : List CharCall) (hl : ∀ d ∈ l, d.x ≤ 127) : ∀ c,
    col ∈ drawnFrom c (l.flatMap fun d => oledShowChar font d.x d.y d.chr size) ↔
      ∃ d ∈ l, d.x.toNat ≤ col ∧ col < d.x.toNat + glyphWidth size := by
  induction l with
  | nil =>
    intro c
    simp [drawnFrom]
  | cons d l ih =>
    intro c
    rw [List.flatMap_cons, mem_drawn_char font (hl d List.mem_cons_self) d.y d.chr hsize,
      ih fun d' hd' => hl d' (List.mem_cons_of_mem d hd')]
    simp

/-- no column is drawn behind the last one iff every character ends there at the latest -/
theorem drawn_le_iff (font : OledFont) {size : UInt8} (hsize : FontSize size) (l : List CharCall)
    (hl : ∀ d ∈ l, d.x ≤ 127) :
    (∀ col ∈ drawnColumns (l.flatMap fun d => oledShowChar font d.x d.y d.chr size), col ≤ 127) ↔
      ∀ d ∈ l, d.x.toNat + glyphWidth size ≤ 128 := by
  have hwidth : 0 < glyphWidth size := by
    unfold glyphWidth
    split
    · decide
    · decide
  constructor
  · intro h d hd
    have hlast := h (d.x.toNat + glyphWidth size - 1)
      ((mem_drawn_calls font hsize _ l hl 0).2 ⟨d, hd, by omega, by omega⟩)
    omega
  · intro h col hcol
    obtain ⟨d, hd, hlo, hhi⟩ := (mem_drawn_calls font hsize col l hl 0).1 hcol
    have hend := h d hd
    omega

/-! ## the loop -/

/-- the call made in a turn -/
def charCall (str : Nat → UInt8) (p : StrPos) : CharCall := ⟨p.x, p.y, str p.j.toNat⟩

section
variable (adv : UInt8) {str : Nat → UInt8}

theorem showStringLoop_cons {p : StrPos} (h : str p.j.toNat ≠ 0) (n : Nat) :
    showStringLoop adv str (n + 1) p =
      (charCall str p :: (showStringLoop adv str n (p.next adv)).1,
        (showStringLoop adv str n (p.next adv)).2) := if_neg h

theorem range_calls (p : StrPos) (n : Nat) :
    ((List.range (n + 1)).map fun i => charCall str ((StrPos.next adv)^[i] p)) =
      charCall str p ::
        (List.range n).map fun i => charCall str ((StrPos.next adv)^[i] (p.next adv)) := by
  rw [List.range_succ_eq_map, List.map_cons, List.map_map]
  rfl

/-- while no zero is met, every turn draws a character -/
theorem showStringLoop_running (n : Nat) : ∀ p : StrPos,
    (∀ i < n, str ((StrPos.next adv)^[i] p).j.toNat ≠ 0) →
    showStringLoop adv str n p =
      ((List.range n).map fun i => charCall str ((StrPos.next adv)^[i] p), false) := by
  induction n with
  | zero => exact fun p _ => rfl
  | succ n ih =>
    intro p h
    have hfirst : str p.j.toNat ≠ 0 := h 0 (Nat.succ_pos n)
    rw [showStringLoop_cons adv hfirst, range_calls,
      ih (p.next adv) fun i hi => h (i + 1) (Nat.succ_lt_succ hi)]

/-- at the zero it ends -/
theorem showStringLoop_ended (m d : Nat) : ∀ p : StrPos,
    (∀ i < m, str ((StrPos.next adv)^[i] p).j.toNat ≠ 0) →
    str ((StrPos.next adv)^[m] p).j.toNat = 0 →
    showStringLoop adv str (m + 1 + d) p =
      ((List.range m).map fun i => charCall str ((StrPos.next adv)^[i] p), true) := by
  induction m with
  | zero =>
    intro p _ hzero
    rw [Nat.zero_add, Nat.add_comm]
    exact if_pos hzero
  | succ m ih =>
    intro p h hzero
    have hfirst : str p.j.toNat ≠ 0 := h 0 (Nat.succ_pos m)
    have hfuel : m + 1 + 1 + d = m + 1 + d + 1 := by omega
    rw [hfuel, showStringLoop_cons adv hfirst, range_calls,
      ih (p.next adv) (fun i hi => h (i + 1) (Nat.succ_lt_succ hi)) hzero]

end

theorem next_j (adv : UInt8) (p : StrPos) : (p.next adv).j = p.j + 1 := by
  unfold StrPos.next
  split
  · rfl
  · rfl

/-- the index is one of 8 bits -/
theorem iterate_j (adv x y : UInt8) (k : Nat) :
    ((StrPos.next adv)^[k] ⟨x, y, 0⟩).j.toNat = k % 256 := by
  induction k with
  | zero => rfl
  | succ k ih =>
    rw [Function.iterate_succ_apply', next_j, UInt8.toNat_add, ih]
    show (k % 256 + 1) % 256 = _
    omega

/-! ## where a character stands -/

/-- the column of the next character -/
def nextColumn (adv x : Nat) : Nat := if x + adv > 120 then 0 else x + adv

theorem nextColumn_le (adv x : Nat) : nextColumn adv x ≤ 120 := by
  unfold nextColumn
  split
  · exact Nat.zero_le 120
  · omega

theorem column_le (adv : Nat) {x : Nat} (h : x ≤ 120) (k : Nat) : (nextColumn adv)^[k] x ≤ 120 := by
  cases k with
  | zero => exact h
  | succ k =>
    rw [Function.iterate_succ_apply']
    exact nextColumn_le adv _

theorem next_x {adv : UInt8} (hadv : adv.toNat ≤ 16) {p : StrPos} (hx : p.x.toNat ≤ 120) :
    (p.next adv).x.toNat = nextColumn adv.toNat p.x.toNat := by
  have hsum : (p.x + adv).toNat = p.x.toNat + adv.toNat := by
    rw [UInt8.toNat_add]
    omega
  have hgt : p.x + adv > 120 ↔ p.x.toNat + adv.toNat > 120 := by
    rw [gt_iff_lt, UInt8.lt_iff_toNat_lt, hsum]
    rfl
  unfold StrPos.next nextColumn
  by_cases h : p.x + adv > 120
  · rw [if_pos h, if_pos (hgt.1 h)]
    rfl
  · rw [if_neg h, if_neg fun h' => h (hgt.2 h')]
    exact hsum

theorem iterate_x {adv : UInt8} (hadv : adv.toNat ≤ 16) {x : UInt8} (hx : x.toNat ≤ 120) (y : UInt8)
    (k : Nat) : ((StrPos.next adv)^[k] ⟨x, y, 0⟩).x.toNat = (nextColumn adv.toNat)^[k] x.toNat := by
  induction k with
  | zero => rfl
  | succ k ih =>
    have hle := column_le adv.toNat hx k
    rw [Function.iterate_succ_apply', Function.iterate_succ_apply', next_x hadv (by omega), ih]

/-- on the first line -/
theorem column_linear {x k : Nat} (h : x + 16 * k ≤ 120) : (nextColumn 16)^[k] x = x + 16 * k := by
  induction k with
  | zero => rfl
  | succ k ih =>
    have hline : ¬ x + 16 * k + 16 > 120 := by omega
    rw [Function.iterate_succ_apply', ih (by omega)]
    exact (if_neg hline).trans (by omega)

/-- a start from which no line ends behind the last column -/
def Aligned (x : Nat) : Prop := x % 16 = 0 ∨ 8 < x % 16

theorem nextColumn_aligned {x : Nat} (h : Aligned x) : Aligned (nextColumn 16 x) := by
  unfold nextColumn Aligned at *
  split
  · exact Or.inl rfl
  · omega

theorem column_aligned {x : Nat} (h : Aligned x) (k : Nat) : Aligned ((nextColumn 16)^[k] x) := by
  induction k with
  | zero => exact h
  | succ k ih =>
    rw [Function.iterate_succ_apply']
    exact nextColumn_aligned ih

/-- when the first `n` characters of 16 columns stay on the panel -/
theorem columns_fit_iff {x : Nat} (hx : x ≤ 120) (n : Nat) :
    (∀ k < n, (nextColumn 16)^[k] x + 16 ≤ 128) ↔ Aligned x ∨ n + x / 16 ≤ 7 := by
  constructor
  · intro h
    by_contra hnot
    unfold Aligned at hnot
    -- the last place of the first line
    have hlast := h (7 - x / 16) (by omega)
    rw [column_linear (by omega)] at hlast
    omega
  · rintro (haligned | hshort) k hk
    · have hk' := column_aligned haligned k
      have hle := column_le 16 hx k
      unfold Aligned at hk'
      omega
    · rw [column_linear (by omega)]
      omega

/-! ## what is drawn -/

/-- the string `s` in memory -/
structure NulTerminated (str : Nat → UInt8) (s : List UInt8) : Prop where
  nonzero : (0 : UInt8) ∉ s
  chars : ∀ i < s.length, str i = s.getD i 0
  nul : str s.length = 0

theorem NulTerminated.ne_zero {str : Nat → UInt8} {s : List UInt8} (h : NulTerminated str s) {i : Nat}
    (hi : i < s.length) : str i ≠ 0 := by
  rw [h.chars i hi, List.getD_eq_getElem _ _ hi]
  intro hzero
  exact h.nonzero (hzero ▸ List.getElem_mem hi)

/-- the string is drawn: the loop ends, every character is drawn once and in its place, and no column
lies outside of the panel -/
structure ShowsString (font : OledFont) (x y : UInt8) (str : Nat → UInt8) (size : UInt8)
    (s : List UInt8) : Prop where
  ends : ∃ n, (showStringCalls x y str size n).2 = true
  inOrder : ∀ n, (showStringCalls x y str size n).1.map CharCall.chr = s.take n
  within : ∀ n, ∀ col ∈ drawnColumns (oledShowString font x y str size n), col ≤ 127

/-- the calls of the first `n` turns -/
def firstCalls (x y : UInt8) (str : Nat → UInt8) (size : UInt8) (n : Nat) : List CharCall :=
  (List.range n).map fun i => charCall str ((StrPos.next (stringAdvance size))^[i] ⟨x, y, 0⟩)

theorem stringAdvance_le (size : UInt8) : (stringAdvance size).toNat ≤ 16 := by
  unfold stringAdvance
  split
  · decide
  · decide

section
variable {x y size : UInt8} {str : Nat → UInt8} {s : List UInt8} (hs : NulTerminated str s)

include hs in
/-- the index comes back to the first character before it meets the end -/
theorem long_not_ended (hlen : 256 ≤ s.length) (n : Nat) :
    (showStringCalls x y str size n).2 = false := by
  unfold showStringCalls
  rw [showStringLoop_running]
  intro i hi
  rw [iterate_j]
  exact hs.ne_zero (Nat.lt_of_lt_of_le (Nat.mod_lt i (by decide)) hlen)

section
variable (hlen : s.length ≤ 255)
include hs hlen

theorem short_index {i : Nat} (hi : i < s.length) :
    str ((StrPos.next (stringAdvance size))^[i] ⟨x, y, 0⟩).j.toNat ≠ 0 := by
  rw [iterate_j, Nat.mod_eq_of_lt (by omega)]
  exact hs.ne_zero hi

theorem short_calls {n : Nat} (hn : n ≤ s.length) :
    showStringCalls x y str size n = (firstCalls x y str size n, false) :=
  showStringLoop_running _ n _ fun i hi => short_index hs hlen (Nat.lt_of_lt_of_le hi hn)

theorem short_ended (d : Nat) :
    showStringCalls x y str size (s.length + 1 + d) = (firstCalls x y str size s.length, true) := by
  apply showStringLoop_ended
  · exact fun i hi => short_index hs hlen hi
  · rw [iterate_j, Nat.mod_eq_of_lt (by omega)]
    exact hs.nul

/-- whatever the number of turns, a first part of the calls is made -/
theorem short_min (n : Nat) :
    (showStringCalls x y str size n).1 = firstCalls x y str size (min n s.length) := by
  by_cases hn : n ≤ s.length
  · rw [short_calls hs hlen hn, Nat.min_eq_left hn]
  · obtain ⟨d, hd⟩ := Nat.exists_eq_add_of_lt (Nat.lt_of_not_le hn)
    have hfuel : n = s.length + 1 + d := by omega
    rw [hfuel, short_ended hs hlen, Nat.min_eq_right (by omega)]

theorem firstCalls_chr {n : Nat} (hn : n ≤ s.length) :
    (firstCalls x y str size n).map CharCall.chr = s.take n := by
  unfold firstCalls
  rw [List.map_map]
  apply List.ext_getElem
  · rw [List.length_map, List.length_range, List.length_take, Nat.min_eq_left hn]
  · intro i h1 h2
    have hi : i < n := by rwa [List.length_map, List.length_range] at h1
    rw [List.getElem_map, List.getElem_range, List.getElem_take]
    show str ((StrPos.next (stringAdvance size))^[i] ⟨x, y, 0⟩).j.toNat = _
    rw [iterate_j, Nat.mod_eq_of_lt (by omega), hs.chars i (by omega), List.getD_eq_getElem]

end

section
variable (hx : x ≤ 120)
include hx

theorem firstCalls_x (n : Nat) : ∀ d ∈ firstCalls x y str size n, d.x ≤ 127 := by
  intro d hd
  obtain ⟨i, -, rfl⟩ := List.mem_map.1 hd
  have hx' : x.toNat ≤ 120 := UInt8.le_iff_toNat_le.1 hx
  rw [UInt8.le_iff_toNat_le]
  show ((StrPos.next (stringAdvance size))^[i] ⟨x, y, 0⟩).x.toNat ≤ 127
  rw [iterate_x (stringAdvance_le size) hx']
  exact Nat.le_trans (column_le _ hx' i) (by decide)

/-- when the first `n` characters stay on the panel -/
theorem firstCalls_fit_iff (n : Nat) :
    (∀ d ∈ firstCalls x y str size n, d.x.toNat + glyphWidth size ≤ 128) ↔
      (size = 32 → Aligned x.toNat ∨ n + x.toNat / 16 ≤ 7) := by
  have hx' : x.toNat ≤ 120 := UInt8.le_iff_toNat_le.1 hx
  have hcalls : (∀ d ∈ firstCalls x y str size n, d.x.toNat + glyphWidth size ≤ 128) ↔
      ∀ k < n, (nextColumn (stringAdvance size).toNat)^[k] x.toNat + glyphWidth size ≤ 128 := by
    unfold firstCalls
    rw [List.forall_mem_map]
    constructor
    · intro h k hk
      have hcall := h k (List.mem_range.2 hk)
      rwa [charCall, iterate_x (stringAdvance_le size) hx'] at hcall
    · intro h k hk
      rw [charCall, iterate_x (stringAdvance_le size) hx']
      exact h k (List.mem_range.1 hk)
  rw [hcalls]
  by_cases hsize : size = 32
  · have hadv : (stringAdvance size).toNat = 16 := by rw [hsize]; rfl
    have hwidth : glyphWidth size = 16 := if_pos hsize
    rw [hadv, hwidth, columns_fit_iff hx']
    exact ⟨fun h _ => h, fun h => h hsize⟩
  · have hwidth : glyphWidth size = 8 := if_neg hsize
    rw [hwidth]
    constructor
    · exact fun _ h => absurd h hsize
    · intro _ k _
      have hle := column_le (stringAdvance size).toNat hx' k
      omega

end

/-- a string is drawn as it should be iff it has less than 256 characters and, in the size 32, its
lines end on the panel or it does not come to the end of the first one -/
theorem showsString_iff (font : OledFont) (hs : NulTerminated str s) (hx : x ≤ 120)
    (hsize : FontSize size) :
    ShowsString font x y str size s ↔
      s.length ≤ 255 ∧ (size = 32 → Aligned x.toNat ∨ s.length + x.toNat / 16 ≤ 7) := by
  constructor
  · intro h
    have hlen : s.length ≤ 255 := by
      by_contra hlong
      obtain ⟨n, hn⟩ := h.ends
      rw [long_not_ended hs (by omega)] at hn
      exact Bool.false_ne_true hn
    have hcols := h.within s.length
    unfold oledShowString at hcols
    rw [short_min hs hlen, Nat.min_self, drawn_le_iff font hsize _ (firstCalls_x hx _),
      firstCalls_fit_iff hx] at hcols
    exact ⟨hlen, hcols⟩
  · rintro ⟨hlen, hfit⟩
    refine ⟨⟨s.length + 1, ?_⟩, ?_, ?_⟩
    · rw [← Nat.add_zero (s.length + 1), short_ended hs hlen]
    · intro n
      rw [short_min hs hlen, firstCalls_chr hs hlen (Nat.min_le_right n _)]
      by_cases hn : n ≤ s.length
      · rw [Nat.min_eq_left hn]
      · rw [Nat.min_eq_right (by omega), List.take_length, List.take_of_length_le (by omega)]
    · intro n
      unfold oledShowString
      rw [short_min hs hlen, drawn_le_iff font hsize _ (firstCalls_x hx _), firstCalls_fit_iff hx]
      intro h32
      rcases hfit h32 with haligned | hshort
      · exact Or.inl haligned
      · exact Or.inr (by omega)

end

def oneChar : Nat → UInt8 := fun i => if i = 0 then 0x41 else 0

theorem oneChar_string : NulTerminated oneChar [0x41] := by
  refine ⟨by decide, ?_, rfl⟩
  intro i hi
  replace hi : i < 1 := hi
  have hzero : i = 0 := by omega
  rw [hzero]
  rfl

def blankFont : OledFont := ⟨fun _ _ => 0, fun _ => 0, fun _ => 0⟩

/-- twelve times the letter A -/
def twelveChars : Nat → UInt8 := fun i => if i < 12 then 0x41 else 0

theorem twelveChars_string : NulTerminated twelveChars (List.replicate 12 0x41) := by
  refine ⟨by decide, ?_, rfl⟩
  intro i hi
  rw [List.length_replicate] at hi
  rw [List.getD_eq_getElem _ _ (by rw [List.length_replicate]; exact hi), List.getElem_replicate]
  exact if_pos hi

/-- in glyphs of 16 columns they go on in the next line -/
theorem showsString_iff_twelve :
    ShowsString blankFont 16 0 twelveChars 32 (List.replicate 12 0x41) :=
  (showsString_iff blankFont twelveChars_string (by decide) (Or.inr (Or.inr rfl))).2
    ⟨by decide, fun _ => Or.inl (Or.inl (by decide))⟩

/-- from column 120 on, the 16 columns leave the panel -/
theorem string_leaves : NulTerminated oneChar [0x41] ∧
    ¬ ShowsString blankFont 120 0 oneChar 32 [0x41] := by
  refine ⟨oneChar_string, fun h => ?_⟩
  have hcol : 128 ∈ drawnColumns (oledShowString blankFont 120 0 oneChar 32 1) := by decide
  exact absurd (h.within 1 128 hcol) (by decide)

end MenuFirmware
