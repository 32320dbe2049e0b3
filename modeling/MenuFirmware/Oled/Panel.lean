import MenuFirmware.Lib.Canvas
import MenuFirmware.Oled.Wrap

/-!
# What stands on the panel (`driver/oled/oled.c`)

The panel keeps eight pages of columns and writes a byte of data where its position is, which then
moves on by a column.  The first two columns of its memory are not seen: `OLED_Set_Pos` adds two to
the column, `OLED_Clear` does not.

* `Panel`, `Panel.byte`   the panel and the bytes it takes;
* `oledClear`, `receives_clear`   the clearing function, and the bytes of it;
* `charPatch`      where a character stands, and its dots;
* `paints_char`, `paints_char_2`   drawing it paints the patch, highlighted one with turned dots;
* `ScreenCall`     what the functions of the menus call;
* `paints_calls`   calls that stay on the panel paint their patches, one after the other.
-/

set_option linter.unusedSectionVars false
set_option linter.unusedVariables false

namespace MenuFirmware
open SerialIn Runs Canvas

/-! ## the panel -/

structure Panel where
  page : Nat
  column : Nat
  /-- the next command is the contrast -/
  contrastNext : Bool
  /-- the byte at a page and a column -/
  ram : Nat → Nat → UInt8

def Panel.command (p : Panel) (b : UInt8) : Panel :=
  if p.contrastNext then { p with contrastNext := false }
  else if b = 0x81 then { p with contrastNext := true }
  else if b &&& 0xf8 = 0xb0 then { p with page := (b &&& 0x07).toNat }
  else if b &&& 0xf0 = 0x00 then { p with column := p.column / 16 * 16 + (b &&& 0x0f).toNat }
  else if b &&& 0xf0 = 0x10 then { p with column := (b &&& 0x0f).toNat * 16 + p.column % 16 }
  else p

/-- a byte goes where the position is; no position behind column 131 is meant here -/
def Panel.data (p : Panel) (b : UInt8) : Panel :=
  { p with
    column := p.column + 1
    ram := fun row col => if row = p.page ∧ col = p.column then b else p.ram row col }

def Panel.byte (p : Panel) (b : Bool × UInt8) : Panel :=
  if b.1 = oledData then p.data b.2 else p.command b.2

theorem page_command : ∀ n < 8, (0xb0 + UInt8.ofNat n ≠ 0x81 ∧ (0xb0 + UInt8.ofNat n) &&& 0xf8 = 0xb0) ∧
    ((0xb0 + UInt8.ofNat n) &&& 0x07).toNat = n := by decide

theorem high_command : ∀ n < 128,
    (((((UInt8.ofNat n + 2) &&& 0xf0) >>> 4) ||| 0x10 ≠ 0x81 ∧
      ((((UInt8.ofNat n + 2) &&& 0xf0) >>> 4) ||| 0x10) &&& 0xf8 ≠ 0xb0) ∧
      ((((UInt8.ofNat n + 2) &&& 0xf0) >>> 4) ||| 0x10) &&& 0xf0 = 0x10) ∧
    (((((UInt8.ofNat n + 2) &&& 0xf0) >>> 4) ||| 0x10) &&& 0x0f).toNat = (n + 2) / 16 := by
  decide +kernel

theorem low_command : ∀ n < 128,
    (((UInt8.ofNat n + 2) &&& 0x0f ≠ 0x81 ∧ ((UInt8.ofNat n + 2) &&& 0x0f) &&& 0xf8 ≠ 0xb0) ∧
      ((UInt8.ofNat n + 2) &&& 0x0f) &&& 0xf0 = 0x00) ∧
    (((UInt8.ofNat n + 2) &&& 0x0f) &&& 0x0f).toNat = (n + 2) % 16 := by
  decide +kernel

theorem command_page {p : Panel} (hp : p.contrastNext = false) {n : Nat} (hn : n < 8) :
    p.byte (oledCmd, 0xb0 + UInt8.ofNat n) = { p with page := n } := by
  obtain ⟨⟨hcontrast, hpage⟩, hnum⟩ := page_command n hn
  show p.command _ = _
  unfold Panel.command
  rw [hp, if_neg Bool.false_ne_true, if_neg hcontrast, if_pos hpage, hnum]

theorem command_high {p : Panel} (hp : p.contrastNext = false) {x : UInt8} (hx : x.toNat < 128) :
    p.byte (oledCmd, (((x + 2) &&& 0xf0) >>> 4) ||| 0x10) =
      { p with column := (x.toNat + 2) / 16 * 16 + p.column % 16 } := by
  obtain ⟨⟨⟨hcontrast, hpage⟩, hhigh⟩, hnum⟩ := high_command x.toNat hx
  rw [UInt8.ofNat_toNat] at hcontrast hpage hhigh hnum
  have hnot : ¬ ((((x + 2) &&& 0xf0) >>> 4) ||| 0x10) &&& 0xf0 = 0x00 := by
    rw [hhigh]
    decide
  show p.command _ = _
  unfold Panel.command
  rw [hp, if_neg Bool.false_ne_true, if_neg hcontrast, if_neg hpage, if_neg hnot, if_pos hhigh, hnum]

theorem command_low {p : Panel} (hp : p.contrastNext = false) {x : UInt8} (hx : x.toNat < 128) :
    p.byte (oledCmd, (x + 2) &&& 0x0f) =
      { p with column := p.column / 16 * 16 + (x.toNat + 2) % 16 } := by
  obtain ⟨⟨⟨hcontrast, hpage⟩, hlow⟩, hnum⟩ := low_command x.toNat hx
  rw [UInt8.ofNat_toNat] at hcontrast hpage hlow hnum
  show p.command _ = _
  unfold Panel.command
  rw [hp, if_neg Bool.false_ne_true, if_neg hcontrast, if_neg hpage, if_pos hlow, hnum]

/-- the three commands of a position -/
theorem panel_setPos {p : Panel} (hp : p.contrastNext = false) {x y : UInt8} (hx : x.toNat < 128)
    (hy : y.toNat < 8) :
    run Panel.byte p (OledOp.setPos x y).bytes =
      { p with page := y.toNat, column := x.toNat + 2 } := by
  have hpage := command_page hp hy
  rw [UInt8.ofNat_toNat] at hpage
  have hrun : run Panel.byte p (OledOp.setPos x y).bytes =
      ((p.byte (oledCmd, 0xb0 + y)).byte (oledCmd, (((x + 2) &&& 0xf0) >>> 4) ||| 0x10)).byte
        (oledCmd, (x + 2) &&& 0x0f) := rfl
  have hcol : ((x.toNat + 2) / 16 * 16 + p.column % 16) / 16 * 16 + (x.toNat + 2) % 16 =
      x.toNat + 2 := by omega
  rw [hrun, hpage, command_high (show Panel.contrastNext { p with page := y.toNat } = false from hp) hx,
    command_low (show Panel.contrastNext { p with page := y.toNat, column := _ } = false from hp) hx,
    hcol]

/-! ## a row of bytes -/

/-- `n` bytes of a table, from the position on -/
theorem panel_row (table : Nat → UInt8) (p : Panel) (n : Nat) :
    run Panel.byte p (oledBytes ((List.range n).map fun i => .wrData (table i))) =
      { p with
        column := p.column + n
        ram := paint p.ram ⟨⟨p.page, 1, p.column, n⟩, fun _ j => table j⟩ } := by
  induction n with
  | zero =>
    have hnone : paint p.ram ⟨⟨p.page, 1, p.column, 0⟩, fun _ j => table j⟩ = p.ram := by
      funext row col
      refine paint_of_not (fun h => ?_) p.ram
      have hcol : p.column ≤ col ∧ col < p.column + 0 := h.2
      omega
    rw [hnone]
    rfl
  | succ n ih =>
    rw [List.range_succ, List.map_append, oledBytes_append, run_append, ih]
    show Panel.data _ (table n) = _
    unfold Panel.data
    congr 1
    funext row col
    unfold paint Box.Has
    by_cases hlast : row = p.page ∧ col = p.column + n
    · obtain ⟨rfl, rfl⟩ := hlast
      simp
    · have hbox : (p.page ≤ row ∧ row < p.page + 1) ∧ p.column ≤ col ∧ col < p.column + (n + 1) ↔
          (p.page ≤ row ∧ row < p.page + 1) ∧ p.column ≤ col ∧ col < p.column + n := by omega
      exact (if_neg hlast).trans (if_congr hbox.symm rfl rfl)

/-- bytes that paint patches on a panel that waits for data or a command -/
def Paints (bytes : List (Bool × UInt8)) (ps : List (Patch UInt8)) : Prop :=
  ∀ p : Panel, p.contrastNext = false →
    (run Panel.byte p bytes).contrastNext = false ∧
      (run Panel.byte p bytes).ram = run paint p.ram ps

/-- a drawing that leaves no command of two bytes half sent -/
def Complete (drawing : List (Bool × UInt8)) : Prop :=
  ∀ p : Panel, p.contrastNext = false → (run Panel.byte p drawing).contrastNext = false

theorem Paints.complete {bytes : List (Bool × UInt8)} {ps : List (Patch UInt8)} (h : Paints bytes ps) :
    Complete bytes := fun p hp => (h p hp).1

theorem Complete.append {a b : List (Bool × UInt8)} (ha : Complete a) (hb : Complete b) :
    Complete (a ++ b) := by
  intro p hp
  rw [run_append]
  exact hb _ (ha p hp)

theorem Paints.nil : Paints [] [] := fun p hp => ⟨hp, rfl⟩

theorem Paints.append {a b : List (Bool × UInt8)} {ps qs : List (Patch UInt8)} (ha : Paints a ps)
    (hb : Paints b qs) : Paints (a ++ b) (ps ++ qs) := by
  intro p hp
  obtain ⟨hready, hram⟩ := ha p hp
  rw [run_append, run_append, ← hram]
  exact hb _ hready

theorem Paints.flatMap {ι : Type} {l : List ι} {f : ι → List (Bool × UInt8)}
    {g : ι → List (Patch UInt8)} (h : ∀ i ∈ l, Paints (f i) (g i)) :
    Paints (l.flatMap f) (l.flatMap g) := by
  induction l with
  | nil => exact Paints.nil
  | cons i l ih =>
    rw [List.flatMap_cons, List.flatMap_cons]
    exact (h i List.mem_cons_self).append (ih fun k hk => h k (List.mem_cons_of_mem i hk))

theorem Paints.rows {bytes : List (Bool × UInt8)} {top left width n : Nat} {d : Nat → Nat → UInt8}
    (h : Paints bytes (patchRows top left width n d)) :
    Paints bytes [⟨⟨top, n, left, width⟩, d⟩] := by
  intro p hp
  obtain ⟨hready, hram⟩ := h p hp
  exact ⟨hready, by rw [hram, paint_rows]; rfl⟩

theorem paints_glyphRow {x y : UInt8} (hx : x.toNat < 128) (hy : y.toNat < 8) (n : Nat)
    (table : Nat → UInt8) :
    Paints (oledBytes (glyphRow .wrData x y n table))
      [⟨⟨y.toNat, 1, x.toNat + 2, n⟩, fun _ => table⟩] := by
  intro p hp
  unfold glyphRow
  rw [oledBytes_cons, run_append, panel_setPos hp hx hy, panel_row]
  exact ⟨hp, rfl⟩

/-! ## clearing -/

/-- the turn of `OLED_Clear` for a page -/
def oledClearPage (i : Nat) : List (Line × Bool) :=
  oledWrByte (0xb0 + UInt8.ofNat i) oledCmd ++ oledWrByte 0x00 oledCmd ++ oledWrByte 0x10 oledCmd ++
    (List.replicate 128 (oledWrByte 0 oledData)).flatten

def oledClear : List (Line × Bool) := (List.range 8).flatMap oledClearPage

def clearPageBytes (i : Nat) : List (Bool × UInt8) :=
  [(oledCmd, 0xb0 + UInt8.ofNat i), (oledCmd, 0x00), (oledCmd, 0x10)] ++
    List.replicate 128 (oledData, 0)

def clearBytes : List (Bool × UInt8) := (List.range 8).flatMap clearPageBytes

theorem sends_replicate {l : List (Line × Bool)} {b : Bool × UInt8} (h : Sends l [b]) (n : Nat) :
    Sends (List.replicate n l).flatten (List.replicate n b) := by
  induction n with
  | zero => exact Sends.nil
  | succ n ih => exact h.append ih

theorem sends_clear : Sends oledClear clearBytes := by
  have hpage : ∀ i, Sends (oledClearPage i) (clearPageBytes i) := fun i =>
    (((sends_wrByte _ oledCmd).append (sends_wrByte _ oledCmd)).append (sends_wrByte _ oledCmd)).append
      (sends_replicate (sends_wrByte 0 oledData) 128)
  have hall : ∀ l : List Nat, Sends (l.flatMap oledClearPage) (l.flatMap clearPageBytes) := by
    intro l
    induction l with
    | nil => exact Sends.nil
    | cons i l ih => exact (hpage i).append ih
  exact hall (List.range 8)

/-- the columns that are cleared begin with the two that are not seen -/
def clearPatch : Patch UInt8 := ⟨⟨0, 8, 0, 128⟩, fun _ _ => 0⟩

theorem oledBytes_zeros (l : List Nat) :
    oledBytes (l.map fun _ => .wrData 0) = List.replicate l.length (oledData, 0) := by
  induction l with
  | nil => rfl
  | cons i l ih =>
    rw [List.map_cons, oledBytes_cons, ih]
    rfl

theorem paints_clearPage {i : Nat} (hi : i < 8) :
    Paints (clearPageBytes i) [⟨⟨0 + i, 1, 0, 128⟩, fun _ _ => 0⟩] := by
  intro p hp
  have hpos : ∀ q : Panel, q.contrastNext = false →
      (q.byte (oledCmd, 0x00)).byte (oledCmd, 0x10) = { q with column := 0 } := by
    intro q hq
    have hlow : q.byte (oledCmd, 0x00) = { q with column := q.column / 16 * 16 + 0 } := by
      show q.command _ = _
      unfold Panel.command
      rw [hq, if_neg Bool.false_ne_true, if_neg (by decide), if_neg (by decide), if_pos (by decide)]
      rfl
    have hhigh : Panel.command { q with column := q.column / 16 * 16 + 0 } 0x10 =
        { q with column := 0 * 16 + (q.column / 16 * 16 + 0) % 16 } := by
      unfold Panel.command
      rw [hq, if_neg Bool.false_ne_true, if_neg (by decide), if_neg (by decide), if_neg (by decide),
        if_pos (by decide)]
      rfl
    have hzero : 0 * 16 + (q.column / 16 * 16 + 0) % 16 = 0 := by omega
    rw [hlow]
    show Panel.command _ 0x10 = _
    rw [hhigh, hzero]
  have hrow : List.replicate 128 (oledData, 0) =
      oledBytes ((List.range 128).map fun _ => .wrData 0) := by
    rw [oledBytes_zeros, List.length_range]
  unfold clearPageBytes
  rw [run_append, hrow]
  have hstart : run Panel.byte p [(oledCmd, 0xb0 + UInt8.ofNat i), (oledCmd, 0x00), (oledCmd, 0x10)] =
      { p with page := i, column := 0 } := by
    show ((p.byte (oledCmd, 0xb0 + UInt8.ofNat i)).byte (oledCmd, 0x00)).byte (oledCmd, 0x10) = _
    rw [command_page hp hi]
    exact hpos { p with page := i } hp
  rw [hstart, panel_row fun _ => 0, Nat.zero_add 128, Nat.zero_add i]
  exact ⟨hp, rfl⟩

theorem paints_clear : Paints clearBytes [clearPatch] := by
  refine Paints.rows (?_ : Paints _ (patchRows 0 0 128 8 _))
  unfold patchRows
  rw [← List.flatMap_pure_eq_map]
  exact Paints.flatMap fun i hi => paints_clearPage (List.mem_range.1 hi)

/-! ## a character -/

/-- the dots of a character: the byte of a page of it and a column -/
def charDots (font : OledFont) (chr size : UInt8) (i j : Nat) : UInt8 :=
  if size = 16 then font.f8x16 ((chr - 0x20).toNat * 16 + j + 8 * i)
  else if size = 12 then font.f6x8 (chr - 0x20).toNat j
  else font.f32x32 ((chr - 0x20).toNat * 64 + j + 16 * i)

/-- the pages and columns of a character -/
def charBox (x y size : UInt8) : Box :=
  if size = 16 then ⟨y.toNat, 2, x.toNat + 2, 8⟩
  else if size = 12 then ⟨(y + 1).toNat, 1, x.toNat + 2, 8⟩
  else ⟨y.toNat, 4, x.toNat + 2, 16⟩

/-- eight pages, and the columns that are seen -/
def OnPanel (b : Box) : Prop := b.top + b.height ≤ 8 ∧ b.left + b.width ≤ 130

instance : DecidablePred OnPanel := fun b => by
  unfold OnPanel
  infer_instance

def charPatch (font : OledFont) (x y chr size : UInt8) : Patch UInt8 :=
  ⟨charBox x y size, charDots font chr size⟩

/-- the rows of a character, from the page `y` on -/
theorem paints_glyphRows {x y : UInt8} {n : Nat} (hx : x.toNat < 128) (hy : y.toNat + n ≤ 8) (w : Nat)
    (d : Nat → Nat → UInt8) :
    Paints ((List.range n).flatMap fun i => oledBytes (glyphRow .wrData x (y + UInt8.ofNat i) w (d i)))
      [⟨⟨y.toNat, n, x.toNat + 2, w⟩, d⟩] := by
  refine Paints.rows (?_ : Paints _ (patchRows _ _ w n d))
  unfold patchRows
  rw [← List.flatMap_pure_eq_map]
  refine Paints.flatMap fun i hi => ?_
  have hlt : i < n := List.mem_range.1 hi
  have hpage : (y + UInt8.ofNat i).toNat = y.toNat + i := by
    rw [UInt8.toNat_add, UInt8.toNat_ofNat']
    omega
  have hrow := paints_glyphRow hx (show (y + UInt8.ofNat i).toNat < 8 by omega) w (d i)
  rw [hpage] at hrow
  exact hrow

theorem paints_char (font : OledFont) {x y size : UInt8} (hsize : FontSize size)
    (hon : OnPanel (charBox x y size)) (chr : UInt8) :
    Paints (oledBytes (oledShowChar font x y chr size)) [charPatch font x y chr size] := by
  unfold OnPanel at hon
  have hin : ∀ w, x.toNat + 2 + w ≤ 130 → 0 < w → ¬ x > 127 := fun w hw hpos =>
    UInt8.not_lt.2 (UInt8.le_iff_toNat_le.2 (show x.toNat ≤ 127 by omega))
  unfold oledShowChar showChar
  rcases hsize with rfl | rfl | rfl
  · have hcol : (y + 1).toNat + 1 ≤ 8 ∧ x.toNat + 2 + 8 ≤ 130 := hon
    rw [if_neg (hin 8 hcol.2 (by decide))]
    exact paints_glyphRow (by omega) (by omega) 8 _
  · have hcol : y.toNat + 2 ≤ 8 ∧ x.toNat + 2 + 8 ≤ 130 := hon
    have h := paints_glyphRows (x := x) (y := y) (n := 2) (by omega) hcol.1 8 (charDots font chr 16)
    have hrows : ((List.range 2).flatMap fun i =>
        oledBytes (glyphRow .wrData x (y + UInt8.ofNat i) 8 (charDots font chr 16 i))) =
        oledBytes (showGlyph .wrData 64 16 font x y (chr - 0x20).toNat 16) := by
      have hdots : charDots font chr 16 =
          fun i j => font.f8x16 ((chr - 0x20).toNat * 16 + j + 8 * i) := rfl
      simp [List.range_succ, showGlyph, oledBytes_append, hdots]
    rw [hrows] at h
    rw [if_neg (hin 8 hcol.2 (by decide))]
    exact h
  · have hcol : y.toNat + 4 ≤ 8 ∧ x.toNat + 2 + 16 ≤ 130 := hon
    have h := paints_glyphRows (x := x) (y := y) (n := 4) (by omega) hcol.1 16 (charDots font chr 32)
    have hrows : ((List.range 4).flatMap fun i =>
        oledBytes (glyphRow .wrData x (y + UInt8.ofNat i) 16 (charDots font chr 32 i))) =
        oledBytes (showGlyph .wrData 64 16 font x y (chr - 0x20).toNat 32) := by
      have hdots : charDots font chr 32 =
          fun i j => font.f32x32 ((chr - 0x20).toNat * 64 + j + 16 * i) := rfl
      simp [List.range_succ, showGlyph, oledBytes_append, hdots]
    rw [hrows] at h
    rw [if_neg (hin 16 hcol.2 (by decide))]
    exact h

/-! ## a highlighted character -/

/-- the tables with every dot turned -/
def OledFont.inverse (font : OledFont) : OledFont where
  f6x8 c i := ~~~font.f6x8 c i
  f8x16 i := ~~~font.f8x16 i
  f32x32 i := ~~~font.f32x32 i

theorem glyphRow_inverse (x y : UInt8) (n : Nat) (table : Nat → UInt8) :
    oledBytes (glyphRow .wrData2 x y n table) = oledBytes (glyphRow .wrData x y n fun i => ~~~table i) := by
  unfold glyphRow oledBytes
  rw [List.flatMap_cons, List.flatMap_cons, List.flatMap_map, List.flatMap_map]
  rfl

/-- the sizes in which a highlighted character has the columns of the plain one -/
def SmallSize (size : UInt8) : Prop := size = 12 ∨ size = 16

theorem showChar_inverse (font : OledFont) (x y chr : UInt8) {size : UInt8} (h : SmallSize size) :
    oledBytes (oledShowChar_2 font x y chr size) = oledBytes (oledShowChar font.inverse x y chr size) := by
  have hglyph : ∀ x y c, oledBytes (showGlyph .wrData2 32 8 font x y c size) =
      oledBytes (showGlyph .wrData 64 16 font.inverse x y c size) := by
    intro x y c
    rcases h with rfl | rfl
    · exact glyphRow_inverse x (y + 1) 8 _
    · show oledBytes (glyphRow .wrData2 x y 8 _ ++ glyphRow .wrData2 x (y + 1) 8 _) =
        oledBytes (glyphRow .wrData x y 8 _ ++ glyphRow .wrData x (y + 1) 8 _)
      rw [oledBytes_append, oledBytes_append, glyphRow_inverse, glyphRow_inverse]
      rfl
  unfold oledShowChar_2 oledShowChar showChar
  by_cases hx : x > 127
  · rw [if_pos hx, if_pos hx, hglyph]
  · rw [if_neg hx, if_neg hx, hglyph]

theorem SmallSize.font {size : UInt8} (h : SmallSize size) : FontSize size :=
  h.imp_right Or.inl

theorem paints_char_2 (font : OledFont) {x y size : UInt8} (hsize : SmallSize size)
    (hon : OnPanel (charBox x y size)) (chr : UInt8) :
    Paints (oledBytes (oledShowChar_2 font x y chr size)) [charPatch font.inverse x y chr size] := by
  rw [showChar_inverse font x y chr hsize]
  exact paints_char font.inverse hsize.font hon chr

/-! ## strings in a row -/

theorem next_row {p : StrPos} (h : p.x.toNat + 8 ≤ 120) : p.next 8 = ⟨p.x + 8, p.y, p.j + 1⟩ := by
  have hsum : (p.x + 8).toNat = p.x.toNat + 8 := by
    rw [UInt8.toNat_add]
    exact Nat.mod_eq_of_lt (show p.x.toNat + 8 < 256 by omega)
  have hno : ¬ p.x + 8 > 120 := UInt8.not_lt.2 (UInt8.le_iff_toNat_le.2 (by rw [hsum]; exact h))
  unfold StrPos.next
  rw [if_neg hno]

/-- a string that ends before the panel does stays in its row -/
theorem loop_row {str : Nat → UInt8} (n : Nat) : ∀ (p : StrPos) (m : Nat), p.j.toNat + m < 256 →
    (∃ k ≤ m, str (p.j.toNat + k) = 0) → p.x.toNat + 8 * m ≤ 128 →
    ∀ c ∈ (showStringLoop 8 str n p).1, c.y = p.y ∧ c.x.toNat + 8 ≤ 128 := by
  induction n with
  | zero => exact fun p m _ _ _ c hc => absurd hc List.not_mem_nil
  | succ n ih =>
    rintro p m hj ⟨k, hk, hzero⟩ hx c hc
    unfold showStringLoop at hc
    by_cases hend : str p.j.toNat = 0
    · rw [if_pos hend] at hc
      exact absurd hc List.not_mem_nil
    · rw [if_neg hend] at hc
      have hpos : k ≠ 0 := fun h0 => hend (by rwa [h0] at hzero)
      have hnext : (p.j + 1).toNat = p.j.toNat + 1 := by
        rw [UInt8.toNat_add]
        exact Nat.mod_eq_of_lt (show p.j.toNat + 1 < 256 by omega)
      rcases List.mem_cons.1 hc with rfl | hc
      · exact ⟨rfl, show p.x.toNat + 8 ≤ 128 by omega⟩
      · by_cases hone : m = 1
        · -- the character was the last one: the loop ends wherever the next would stand
          have hlast : str (p.next 8).j.toNat = 0 := by
            rw [next_j, hnext]
            have hk1 : k = 1 := by omega
            rwa [hk1] at hzero
          cases n with
          | zero => exact absurd hc List.not_mem_nil
          | succ n =>
            unfold showStringLoop at hc
            rw [if_pos hlast] at hc
            exact absurd hc List.not_mem_nil
        · have hrow : p.next 8 = ⟨p.x + 8, p.y, p.j + 1⟩ := next_row (by omega)
          have hcol : (p.x + 8).toNat = p.x.toNat + 8 := by
            rw [UInt8.toNat_add]
            exact Nat.mod_eq_of_lt (show p.x.toNat + 8 < 256 by omega)
          rw [hrow] at hc
          refine ih ⟨p.x + 8, p.y, p.j + 1⟩ (m - 1) ?_ ⟨k - 1, by omega, ?_⟩ ?_ c hc
          · show (p.j + 1).toNat + (m - 1) < 256
            omega
          · show str ((p.j + 1).toNat + (k - 1)) = 0
            rwa [hnext, show p.j.toNat + 1 + (k - 1) = p.j.toNat + k by omega]
          · show (p.x + 8).toNat + 8 * (m - 1) ≤ 128
            omega

/-! ## what the functions of the menus call -/

def ascii (c : Char) : UInt8 := UInt8.ofNat c.toNat

def chars (s : String) : List UInt8 := s.toList.map ascii

/-- a string literal -/
def literal (s : String) : Nat → UInt8 := fun i => (chars s).getD i 0

inductive ScreenCall where
  | clear
  | showChar (x y chr size : UInt8)
  | showString (x y : UInt8) (str : Nat → UInt8) (size : UInt8)
  | showString_2 (x y : UInt8) (str : Nat → UInt8) (size : UInt8)
  /-- the command for the contrast, and its value -/
  | contrast (level : UInt8)

/-- the index has 8 bits: a string that has not ended after so many turns never ends -/
def stringTurns : Nat := 256

def stringCalls (x y : UInt8) (str : Nat → UInt8) (size : UInt8) : List CharCall :=
  (showStringCalls x y str size stringTurns).1

/-- the highlighted string does not look at the size -/
def stringCalls_2 (x y : UInt8) (str : Nat → UInt8) : List CharCall :=
  (showStringLoop 8 str stringTurns ⟨x, y, 0⟩).1

def ScreenCall.pins (font : OledFont) : ScreenCall → List (Line × Bool)
  | .clear => oledClear
  | .showChar x y chr size => oledPins (oledShowChar font x y chr size)
  | .showString x y str size => oledPins (oledShowString font x y str size stringTurns)
  | .showString_2 x y str size => oledPins (oledShowString_2 font x y str size stringTurns)
  | .contrast level => oledWrByte 0x81 oledCmd ++ oledWrByte level oledCmd

def ScreenCall.bytes (font : OledFont) : ScreenCall → List (Bool × UInt8)
  | .clear => clearBytes
  | .showChar x y chr size => oledBytes (oledShowChar font x y chr size)
  | .showString x y str size => oledBytes (oledShowString font x y str size stringTurns)
  | .showString_2 x y str size => oledBytes (oledShowString_2 font x y str size stringTurns)
  | .contrast level => [(oledCmd, 0x81), (oledCmd, level)]

def ScreenCall.patches (font : OledFont) : ScreenCall → List (Patch UInt8)
  | .clear => [clearPatch]
  | .showChar x y chr size => [charPatch font x y chr size]
  | .showString x y str size =>
    (stringCalls x y str size).map fun c => charPatch font c.x c.y c.chr size
  | .showString_2 x y str size =>
    (stringCalls_2 x y str).map fun c => charPatch font.inverse c.x c.y c.chr size
  | .contrast _ => []

/-- the pages and columns that a call paints -/
def ScreenCall.boxes : ScreenCall → List Box
  | .clear => [clearPatch.box]
  | .showChar x y _ size => [charBox x y size]
  | .showString x y str size => (stringCalls x y str size).map fun c => charBox c.x c.y size
  | .showString_2 x y str size => (stringCalls_2 x y str).map fun c => charBox c.x c.y size
  | .contrast _ => []

theorem patches_box (font : OledFont) (calls : List ScreenCall) :
    (calls.flatMap (ScreenCall.patches font)).map Patch.box = calls.flatMap ScreenCall.boxes := by
  rw [List.map_flatMap]
  congr 1
  funext call
  cases call with
  | clear => rfl
  | showChar x y chr size => rfl
  | showString x y str size => exact List.map_map
  | showString_2 x y str size => exact List.map_map
  | contrast level => rfl

/-- every character has a font and stays on the panel -/
def ScreenCall.Fits : ScreenCall → Prop
  | .clear | .contrast _ => True
  | .showChar x y _ size => FontSize size ∧ OnPanel (charBox x y size)
  | .showString x y str size =>
    FontSize size ∧ ∀ c ∈ stringCalls x y str size, OnPanel (charBox c.x c.y size)
  | .showString_2 x y str size =>
    SmallSize size ∧ ∀ c ∈ stringCalls_2 x y str, OnPanel (charBox c.x c.y size)

instance : DecidablePred FontSize := fun size => by
  unfold FontSize
  infer_instance

instance : DecidablePred SmallSize := fun size => by
  unfold SmallSize
  infer_instance

instance : DecidablePred ScreenCall.Fits := fun call =>
  match call with
  | .clear | .contrast _ => instDecidableTrue
  | .showChar x y _ size => inferInstanceAs (Decidable (FontSize size ∧ OnPanel (charBox x y size)))
  | .showString x y str size => inferInstanceAs (Decidable
      (FontSize size ∧ ∀ c ∈ stringCalls x y str size, OnPanel (charBox c.x c.y size)))
  | .showString_2 x y str size => inferInstanceAs (Decidable
      (SmallSize size ∧ ∀ c ∈ stringCalls_2 x y str, OnPanel (charBox c.x c.y size)))

theorem sends_call (font : OledFont) (call : ScreenCall) : Sends (call.pins font) (call.bytes font) := by
  cases call with
  | clear => exact sends_clear
  | showChar x y chr size => exact sends_ops _
  | showString x y str size => exact sends_ops _
  | showString_2 x y str size => exact sends_ops _
  | contrast level => exact (sends_wrByte 0x81 oledCmd).append (sends_wrByte level oledCmd)

theorem paints_contrast (level : UInt8) : Paints [(oledCmd, 0x81), (oledCmd, level)] [] := by
  intro p hp
  have hrun : run Panel.byte p [(oledCmd, 0x81), (oledCmd, level)] =
      (p.command 0x81).command level := rfl
  have hfirst : p.command 0x81 = { p with contrastNext := true } := by
    unfold Panel.command
    rw [hp, if_neg Bool.false_ne_true, if_pos rfl]
  rw [hrun, hfirst]
  exact ⟨rfl, rfl⟩

/-- characters one after the other -/
theorem paints_string {font : OledFont} {size : UInt8} {cs : List CharCall}
    (draw : UInt8 → UInt8 → UInt8 → List OledOp)
    (h : ∀ c ∈ cs, Paints (oledBytes (draw c.x c.y c.chr)) [charPatch font c.x c.y c.chr size]) :
    Paints (oledBytes (cs.flatMap fun c => draw c.x c.y c.chr))
      (cs.map fun c => charPatch font c.x c.y c.chr size) := by
  rw [← List.flatMap_pure_eq_map]
  unfold oledBytes
  rw [List.flatMap_assoc]
  exact Paints.flatMap h

theorem paints_call (font : OledFont) {call : ScreenCall} (h : call.Fits) :
    Paints (call.bytes font) (call.patches font) := by
  cases call with
  | clear => exact paints_clear
  | showChar x y chr size => exact paints_char font h.1 h.2 chr
  | showString x y str size =>
    exact paints_string (fun x y chr => oledShowChar font x y chr size) fun c hc =>
      paints_char font h.1 (h.2 c hc) c.chr
  | showString_2 x y str size =>
    exact paints_string (fun x y chr => oledShowChar_2 font x y chr size) fun c hc =>
      paints_char_2 font h.1 (h.2 c hc) c.chr
  | contrast level => exact paints_contrast level

theorem paints_calls (font : OledFont) {calls : List ScreenCall} (h : ∀ call ∈ calls, call.Fits) :
    Paints (calls.flatMap (ScreenCall.bytes font)) (calls.flatMap (ScreenCall.patches font)) :=
  Paints.flatMap fun call hc => paints_call font (h call hc)

/-- the panel takes what the lines are set to as these bytes -/
theorem panel_pins (font : OledFont) (calls : List ScreenCall) {r : Rx} (hr : PanelReady r) :
    received r (calls.flatMap (ScreenCall.pins font)) = calls.flatMap (ScreenCall.bytes font) := by
  have hall : Sends (calls.flatMap (ScreenCall.pins font)) (calls.flatMap (ScreenCall.bytes font)) := by
    induction calls with
    | nil => exact Sends.nil
    | cons call calls ih => exact (sends_call font call).append ih
  exact (hall r hr).1

theorem panel_pins_message :
    received ⟨false, false, true, true, []⟩
      ([ScreenCall.clear, .showString 0 3 (literal "GOOD") 12].flatMap (ScreenCall.pins blankFont)) =
    [ScreenCall.clear, .showString 0 3 (literal "GOOD") 12].flatMap (ScreenCall.bytes blankFont) :=
  panel_pins blankFont _ ⟨rfl, rfl⟩

end MenuFirmware
