import MenuFirmware.Oled.Panel

/-!
# Texts in a row (`OLED_ShowString`, `OLED_ShowString_2`)

A string that ends before the panel does stands in one row, plain or highlighted.

* `Text`            a text and its place; `Text.patch`, what it looks like;
* `row_calls`       the characters of a string in a row;
* `Draws`           a call that paints the patch of a text; `draws_text`, `draws_char`;
* `ShowsPage`       the panel shows some texts and nothing else;
* `page_shown`      so it does when it was cleared and the texts were drawn.
-/

set_option linter.unusedSectionVars false

namespace MenuFirmware
open Runs Canvas

structure Text where
  x : UInt8
  y : UInt8
  text : List UInt8
  size : UInt8
  /-- drawn with `OLED_ShowString_2` -/
  highlighted : Bool

def Text.font (t : Text) (font : OledFont) : OledFont := if t.highlighted then font.inverse else font

/-- the characters of a text, side by side -/
def textDots (font : OledFont) (text : List UInt8) (size : UInt8) (i j : Nat) : UInt8 :=
  charDots font (text.getD (j / 8) 0) size i (j % 8)

def Text.patch (font : OledFont) (t : Text) : Patch UInt8 :=
  ⟨⟨(charBox t.x t.y t.size).top, (charBox t.x t.y t.size).height, t.x.toNat + 2,
    8 * t.text.length⟩, textDots (t.font font) t.text t.size⟩

/-- it ends where the panel does, or before -/
structure Text.Fits (t : Text) : Prop where
  size : SmallSize t.size
  nonzero : (0 : UInt8) ∉ t.text
  columns : t.x.toNat + 8 * t.text.length ≤ 128
  rows : (charBox t.x t.y t.size).top + (charBox t.x t.y t.size).height ≤ 8

/-! ## the calls of a string -/

theorem next_iterate {x : UInt8} {n : Nat} (hx : x.toNat + 8 * n ≤ 128) (y : UInt8) : ∀ k < n,
    ((StrPos.next 8)^[k] ⟨x, y, 0⟩) = ⟨x + UInt8.ofNat (8 * k), y, UInt8.ofNat k⟩ := by
  intro k
  induction k with
  | zero =>
    intro _
    show (⟨x, y, 0⟩ : StrPos) = ⟨x + 0, y, 0⟩
    rw [UInt8.add_zero]
  | succ k ih =>
    intro hk
    have hcol : (x + UInt8.ofNat (8 * k)).toNat = x.toNat + 8 * k := by
      rw [UInt8.toNat_add, UInt8.toNat_ofNat']
      omega
    have hstep : UInt8.ofNat (8 * (k + 1)) = UInt8.ofNat (8 * k) + 8 := by
      rw [Nat.mul_succ, UInt8.ofNat_add]
      rfl
    have hidx : UInt8.ofNat (k + 1) = UInt8.ofNat k + 1 := UInt8.ofNat_add k 1
    rw [Function.iterate_succ_apply', ih (by omega), next_row (by show _ + 8 ≤ 120; rw [hcol]; omega), hstep,
      hidx, ← UInt8.add_assoc]

/-- the calls for the characters of a string in a row -/
def rowCalls (x y : UInt8) (text : List UInt8) : List CharCall :=
  (List.range text.length).map fun k => ⟨x + UInt8.ofNat (8 * k), y, text.getD k 0⟩

section
variable {x y : UInt8} {str : Nat → UInt8} {text : List UInt8} (hs : NulTerminated str text)
  (hx : x.toNat + 8 * text.length ≤ 128)
include hs hx

theorem row_calls : stringCalls_2 x y str = rowCalls x y text := by
  have hlen : text.length ≤ 255 := by omega
  have hturns : stringTurns = text.length + 1 + (255 - text.length) := by
    show 256 = _
    omega
  have hended : showStringCalls x y str 12 (text.length + 1 + (255 - text.length)) =
      (firstCalls x y str 12 text.length, true) := short_ended hs hlen _
  rw [← hturns] at hended
  show (showStringCalls x y str 12 stringTurns).1 = _
  rw [hended]
  refine List.map_congr_left fun k hk => ?_
  have hk' : k < text.length := List.mem_range.1 hk
  have hchar : str k = text.getD k 0 := hs.chars k hk'
  have hnum : (UInt8.ofNat k).toNat = k := by
    rw [UInt8.toNat_ofNat']
    omega
  show charCall str ((StrPos.next 8)^[k] ⟨x, y, 0⟩) = _
  rw [next_iterate hx y k hk']
  show (⟨x + UInt8.ofNat (8 * k), y, str (UInt8.ofNat k).toNat⟩ : CharCall) = _
  rw [hnum, hchar]

theorem row_calls_small {size : UInt8} (hsize : SmallSize size) :
    stringCalls x y str size = rowCalls x y text := by
  rw [← row_calls hs hx]
  rcases hsize with rfl | rfl
  · rfl
  · rfl

end

/-! ## drawing a text -/

theorem charBox_small (x y : UInt8) {size : UInt8} (h : SmallSize size) :
    charBox x y size = ⟨(charBox x y size).top, (charBox x y size).height, x.toNat + 2, 8⟩ := by
  rcases h with rfl | rfl
  · rfl
  · rfl

theorem charBox_rows (x x' y : UInt8) {size : UInt8} (h : SmallSize size) :
    (charBox x y size).top = (charBox x' y size).top ∧
      (charBox x y size).height = (charBox x' y size).height := by
  rcases h with rfl | rfl
  · exact ⟨rfl, rfl⟩
  · exact ⟨rfl, rfl⟩

section
variable {t : Text} (h : t.Fits)
include h

/-- a character of a text -/
theorem text_char {k : Nat} (hk : k < t.text.length) :
    charBox (t.x + UInt8.ofNat (8 * k)) t.y t.size =
      ⟨(charBox t.x t.y t.size).top, (charBox t.x t.y t.size).height, t.x.toNat + 2 + 8 * k, 8⟩ := by
  have hcols := h.columns
  obtain ⟨htop, hheight⟩ := charBox_rows (t.x + UInt8.ofNat (8 * k)) t.x t.y h.size
  have hcol : (t.x + UInt8.ofNat (8 * k)).toNat + 2 = t.x.toNat + 2 + 8 * k := by
    rw [UInt8.toNat_add, UInt8.toNat_ofNat']
    omega
  rw [charBox_small _ _ h.size, htop, hheight, hcol]

theorem text_onPanel : ∀ c ∈ rowCalls t.x t.y t.text, OnPanel (charBox c.x c.y t.size) := by
  intro c hc
  obtain ⟨k, hk, rfl⟩ := List.mem_map.1 hc
  have hcols := h.columns
  have hk' : k < t.text.length := List.mem_range.1 hk
  rw [text_char h hk']
  refine ⟨h.rows, ?_⟩
  show t.x.toNat + 2 + 8 * k + 8 ≤ 130
  omega

/-- its characters are painted as the text -/
theorem paint_text (font : OledFont) (c : Nat → Nat → UInt8) :
    run paint c ((rowCalls t.x t.y t.text).map fun d => charPatch font d.x d.y d.chr t.size) =
      paint c ⟨(t.patch font).box, textDots font t.text t.size⟩ := by
  have hpieces : ((rowCalls t.x t.y t.text).map fun d => charPatch font d.x d.y d.chr t.size) =
      (List.range t.text.length).map fun k =>
        ⟨⟨(charBox t.x t.y t.size).top, (charBox t.x t.y t.size).height, t.x.toNat + 2 + 8 * k, 8⟩,
          charDots font (t.text.getD k 0) t.size⟩ := by
    unfold rowCalls
    rw [List.map_map]
    refine List.map_congr_left fun k hk => ?_
    show (⟨charBox (t.x + UInt8.ofNat (8 * k)) t.y t.size, _⟩ : Patch UInt8) = _
    rw [text_char h (List.mem_range.1 hk)]
  rw [hpieces]
  refine paint_columns c _ _ _ 8 (textDots font t.text t.size)
    (fun k => charDots font (t.text.getD k 0) t.size) t.text.length fun k _ i j hj => ?_
  have hdiv : (8 * k + j) / 8 = k := by omega
  have hmod : (8 * k + j) % 8 = j := by omega
  unfold textDots
  rw [hdiv, hmod]

end

/-- the call that draws a text -/
def Text.call (t : Text) (str : Nat → UInt8) : ScreenCall :=
  if t.highlighted then .showString_2 t.x t.y str t.size else .showString t.x t.y str t.size

/-- it paints the text -/
def Draws (call : ScreenCall) (t : Text) : Prop := ∀ font, Paints (call.bytes font) [t.patch font]

theorem draws_of_patches {t : Text} (h : t.Fits) {call : ScreenCall} (hfits : call.Fits)
    (hpatches : ∀ font, call.patches font =
      (rowCalls t.x t.y t.text).map fun d => charPatch (t.font font) d.x d.y d.chr t.size) :
    Draws call t := by
  intro font p hp
  obtain ⟨hready, hram⟩ := paints_call font hfits p hp
  refine ⟨hready, ?_⟩
  rw [hram, hpatches, paint_text h (t.font font) p.ram]
  rfl

theorem draws_text {t : Text} (h : t.Fits) {str : Nat → UInt8} (hs : NulTerminated str t.text) :
    Draws (t.call str) t := by
  unfold Text.call
  by_cases hhigh : t.highlighted = true
  · have hcalls := row_calls (y := t.y) hs h.columns
    rw [if_pos hhigh]
    refine draws_of_patches h ⟨h.size, ?_⟩ fun font => ?_
    · rw [hcalls]
      exact text_onPanel h
    · have hfont : t.font font = font.inverse := if_pos hhigh
      rw [hfont]
      show (stringCalls_2 t.x t.y str).map _ = _
      rw [hcalls]
  · have hcalls := row_calls_small (y := t.y) hs h.columns h.size
    rw [if_neg hhigh]
    refine draws_of_patches h ⟨h.size.font, ?_⟩ fun font => ?_
    · rw [hcalls]
      exact text_onPanel h
    · have hfont : t.font font = font := if_neg hhigh
      rw [hfont]
      show (stringCalls t.x t.y str t.size).map _ = _
      rw [hcalls]

/-- a character is a text -/
theorem draws_char {x y chr size : UInt8} (h : (Text.mk x y [chr] size false).Fits) :
    Draws (.showChar x y chr size) ⟨x, y, [chr], size, false⟩ := by
  have hcalls : rowCalls x y [chr] = [⟨x, y, chr⟩] := by
    show [(⟨x + 0, y, chr⟩ : CharCall)] = _
    rw [UInt8.add_zero]
  refine draws_of_patches h ⟨h.size.font, ?_⟩ fun font => ?_
  · exact text_onPanel h ⟨x, y, chr⟩ (by
      show _ ∈ rowCalls x y [chr]
      rw [hcalls]
      exact List.mem_cons_self)
  · show [charPatch font x y chr size] = (rowCalls x y [chr]).map _
    rw [hcalls]
    rfl

/-! ## a page -/

/-- the texts are on the panel, and nothing else in the columns that are cleared -/
def ShowsPage (font : OledFont) (ram : Nat → Nat → UInt8) (texts : List Text) : Prop :=
  Only ram clearPatch.box 0 (texts.map (Text.patch font))

/-- no two texts have a place in common -/
def TextsApart (texts : List Text) : Prop :=
  texts.Pairwise fun s t => ∀ font, (s.patch font).box.Apart (t.patch font).box

theorem paints_page (font : OledFont) {calls : List ScreenCall} {texts : List Text}
    (h : List.Forall₂ Draws calls texts) :
    Paints (calls.flatMap (ScreenCall.bytes font)) (texts.map (Text.patch font)) := by
  induction h with
  | nil => exact Paints.nil
  | cons hcall _ ih => exact (hcall font).append ih

theorem page_shown (font : OledFont) {calls : List ScreenCall} {texts : List Text}
    (h : List.Forall₂ Draws calls texts) (hap : TextsApart texts) {p : Panel}
    (hp : p.contrastNext = false) :
    (run Panel.byte p ((.clear :: calls).flatMap (ScreenCall.bytes font))).contrastNext = false ∧
      ShowsPage font (run Panel.byte p ((.clear :: calls).flatMap (ScreenCall.bytes font))).ram texts := by
  obtain ⟨hready, hram⟩ := (paints_clear.append (paints_page font h)) p hp
  refine ⟨hready, ?_⟩
  show Only (run Panel.byte p (clearBytes ++ calls.flatMap (ScreenCall.bytes font))).ram _ _ _
  rw [hram, run_append]
  refine only_run ?_ clearPatch.box 0 p.ram
  rw [List.pairwise_map]
  exact hap.imp fun hst => hst font

end MenuFirmware
