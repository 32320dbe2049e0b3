import MenuFirmware.Menu.Safety
import MenuFirmware.Menu.Titles

/-!
# A menu on the panel (`renderMenu`)

The lines of a menu stand on the pages of the panel, the selected one highlighted, and beside the title
of an item of a settings menu stands the letter of its status.

* `renderLine`, `renderMenuCalls`   what `renderMenu` draws;
* `lineTexts`, `menuTexts`          the texts of a line and of a menu;
* `renderMenu_draws`     a menu that has the screen is drawn as its texts;
* `renderMenu_shown`     and then nothing else is on the panel;
* `settingsTexts`        the texts of a menu that agrees with the settings.
-/

set_option linter.unusedSectionVars false

namespace MenuFirmware
open Runs Canvas

/-! ## drawing -/

/-- the letter of a status -/
def statusLetter (status : UInt8) : Option UInt8 :=
  if status = statusNone then none
  else if status = menuSet then some (ascii 'Y')
  else if status = menuReset then some (ascii 'N')
  else if status = nonOperate then some (ascii '-')
  else none

def statusCalls (j status : UInt8) : List ScreenCall :=
  match statusLetter status with
  | some chr => [.showChar 112 j chr 12]
  | none => []

/-- a turn of the loop: the item `k` on the line `i`; `j` is an `int` that is passed as a byte -/
def renderLine (l : Labels) (menu : Menu) (t : Table) (cursorLine i k : Nat) : List ScreenCall :=
  let j := UInt8.ofNat i - 1
  (if i = cursorLine then .showString_2 0 j (itemTitle l t k) 12
    else .showString 0 j (itemTitle l t k) 12) :: statusCalls j (itemStatus menu t k)

/-- nothing is drawn behind a pointer that is not there -/
def renderMenuCalls (l : Labels) (menu : Menu) (m : MenuNav) : List ScreenCall :=
  match m.cur, m.items, m.maxOptions with
  | .ok c, .ok t, .ok maxOptions =>
    .clear :: (List.range (min maxOptions oledLines)).flatMap fun i =>
      renderLine l menu t c.cursorLine i (c.firstItem + i)
  | _, _, _ => [.clear]

/-! ## the texts -/

/-- the texts on the line `i`: the title, and the letter -/
def lineTexts (i : Nat) (title : List UInt8) (highlighted : Bool) (letter : Option UInt8) : List Text :=
  ⟨0, UInt8.ofNat i - 1, title, 12, highlighted⟩ ::
    letter.toList.map fun chr => ⟨112, UInt8.ofNat i - 1, [chr], 12, false⟩

/-- the texts of a menu, where the items from `s.firstItem` on are shown -/
def menuTexts (l : Labels) (menu : Menu) (t : Table) (s : MenuState) : List Text :=
  (List.range (min t.items.length oledLines)).flatMap fun i =>
    lineTexts i (titleText (itemTitle l t (s.firstItem + i))) (i = s.cursorLine)
      (statusLetter (itemStatus menu t (s.firstItem + i)))

theorem page_of_line {i : Nat} (hi : i < oledLines) : (UInt8.ofNat i - 1 + 1).toNat = i := by
  have hlt : i < 8 := hi
  rw [UInt8.sub_add_cancel, UInt8.toNat_ofNat']
  omega

section
variable {i : Nat} (hi : i < oledLines) {title : List UInt8} (hlen : title.length ≤ titleLength)
include hi

/-- the page of a line -/
theorem lineTexts_page {highlighted : Bool} {letter : Option UInt8} :
    ∀ t ∈ lineTexts i title highlighted letter, ∀ font,
      (t.patch font).box.top = i ∧ (t.patch font).box.height = 1 := by
  intro t ht font
  rcases List.mem_cons.1 ht with rfl | ht
  · exact ⟨page_of_line hi, rfl⟩
  · obtain ⟨chr, -, rfl⟩ := List.mem_map.1 ht
    exact ⟨page_of_line hi, rfl⟩

include hlen

theorem lineTexts_fits (hnul : (0 : UInt8) ∉ title) (highlighted : Bool) {letter : Option UInt8}
    (hletter : ∀ chr ∈ letter, chr ≠ 0) : ∀ t ∈ lineTexts i title highlighted letter, t.Fits := by
  have hpage : (UInt8.ofNat i - 1 + 1).toNat + 1 ≤ 8 := by
    rw [page_of_line hi]
    exact hi
  intro t ht
  rcases List.mem_cons.1 ht with rfl | ht
  · refine ⟨Or.inl rfl, hnul, ?_, hpage⟩
    show 0 + 8 * title.length ≤ 128
    unfold titleLength at hlen
    omega
  · obtain ⟨chr, hchr, rfl⟩ := List.mem_map.1 ht
    refine ⟨Or.inl rfl, fun h0 => ?_, (by decide : 112 + 8 * 1 ≤ 128), hpage⟩
    exact hletter chr (Option.mem_toList.1 hchr) (List.mem_singleton.1 h0).symm

/-- the letter stands behind the title -/
theorem lineTexts_apart (highlighted : Bool) (letter : Option UInt8) :
    TextsApart (lineTexts i title highlighted letter) := by
  have hcol : 2 + 8 * title.length ≤ 114 := by
    unfold titleLength at hlen
    omega
  refine List.pairwise_cons.2 ⟨fun t ht font => ?_, ?_⟩
  · obtain ⟨chr, -, rfl⟩ := List.mem_map.1 ht
    exact Or.inr (Or.inl hcol)
  · cases letter with
    | none => exact List.Pairwise.nil
    | some chr => exact List.pairwise_singleton _ _

end

theorem statusLetter_ne {status : UInt8} : ∀ chr ∈ statusLetter status, chr ≠ 0 := by
  intro chr h
  have hsome : statusLetter status = some chr := h
  unfold statusLetter at hsome
  split_ifs at hsome
  all_goals cases hsome
  all_goals decide

/-! ## a menu is drawn -/

theorem forall₂_flatMap {α β ι : Type} {R : α → β → Prop} {f : ι → List α} {g : ι → List β}
    {l : List ι} (h : ∀ i ∈ l, List.Forall₂ R (f i) (g i)) :
    List.Forall₂ R (l.flatMap f) (l.flatMap g) := by
  induction l with
  | nil => exact List.Forall₂.nil
  | cons i l ih =>
    rw [List.flatMap_cons, List.flatMap_cons]
    exact List.rel_append (h i List.mem_cons_self) (ih fun k hk => h k (List.mem_cons_of_mem i hk))

/-- a line is drawn as its texts -/
theorem renderLine_draws {c : Config} {l : Labels} (hl : LabelsOf c l) (menu : Menu) {t : Table}
    {i k : Nat} (hi : i < oledLines) (hk : k < t.items.length) (cursorLine : Nat) :
    List.Forall₂ Draws (renderLine l menu t cursorLine i k)
      (lineTexts i (titleText (itemTitle l t k)) (i = cursorLine)
        (statusLetter (itemStatus menu t k))) := by
  obtain ⟨hstr, hlen⟩ := itemTitle_text hl hk
  have hfits := lineTexts_fits hi hlen hstr.nonzero (i = cursorLine)
    (@statusLetter_ne (itemStatus menu t k))
  refine List.Forall₂.cons ?_ ?_
  · have hdraws := draws_text (hfits _ List.mem_cons_self) hstr
    unfold Text.call at hdraws
    by_cases hcur : i = cursorLine
    · rw [if_pos (decide_eq_true hcur)] at hdraws
      rw [if_pos hcur]
      exact hdraws
    · rw [if_neg fun h => hcur (of_decide_eq_true h)] at hdraws
      rw [if_neg hcur]
      exact hdraws
  · unfold statusCalls
    unfold lineTexts at hfits
    cases hletter : statusLetter (itemStatus menu t k) with
    | none => exact List.Forall₂.nil
    | some chr =>
      rw [hletter] at hfits
      exact List.Forall₂.cons
        (draws_char (hfits _ (List.mem_cons_of_mem _ List.mem_cons_self))) List.Forall₂.nil

section
variable {m : MenuNav} {n : Nat} {T : Nat → Table} (h : Opened m n T) (hc : m.currentState = n)
  {c : Config} {l : Labels} (hl : LabelsOf c l) (menu : Menu)
include h hc hl

/-- the items on the lines are in the table -/
theorem line_item {i : Nat} (hi : i < min (T n).items.length oledLines) :
    (m.states n).firstItem + i < (T n).items.length := by
  obtain ⟨v, hv⟩ := window_iff_shows.1 (h.window n le_rfl)
  have hfirst := hv.firstItem (items_le (T n))
  have hfit := v.fits
  omega

theorem renderMenu_draws : ∃ calls, renderMenuCalls l menu m = .clear :: calls ∧
    List.Forall₂ Draws calls (menuTexts l menu (T n) (m.states n)) := by
  refine ⟨(List.range (min (T n).items.length oledLines)).flatMap fun i =>
    renderLine l menu (T n) (m.states n).cursorLine i ((m.states n).firstItem + i), ?_, ?_⟩
  · unfold renderMenuCalls
    rw [cur_eq h hc, items_eq h hc, maxOptions_eq h hc]
  · refine forall₂_flatMap fun i hi => ?_
    have hi' := List.mem_range.1 hi
    exact renderLine_draws hl menu (Nat.lt_of_lt_of_le hi' (Nat.min_le_right _ _))
      (line_item h hc hl hi') _

theorem renderMenu_complete (font : OledFont) :
    Complete ((renderMenuCalls l menu m).flatMap (ScreenCall.bytes font)) := by
  obtain ⟨calls, hcalls, hdraws⟩ := renderMenu_draws h hc hl menu
  rw [hcalls]
  exact paints_clear.complete.append (paints_page font hdraws).complete

theorem menuTexts_apart : TextsApart (menuTexts l menu (T n) (m.states n)) := by
  unfold TextsApart menuTexts
  rw [List.pairwise_flatMap]
  have hline : ∀ i ∈ List.range (min (T n).items.length oledLines), i < oledLines := fun i hi =>
    Nat.lt_of_lt_of_le (List.mem_range.1 hi) (Nat.min_le_right _ _)
  refine ⟨fun i hi => ?_, ?_⟩
  · obtain ⟨-, hlen⟩ := itemTitle_text hl (line_item h hc hl (List.mem_range.1 hi))
    exact lineTexts_apart (hline i hi) hlen _ _
  · refine List.Pairwise.imp_of_mem ?_ List.pairwise_lt_range
    intro i k hi hk hik s hs t ht font
    obtain ⟨htop, hheight⟩ := lineTexts_page (hline i hi) s hs font
    obtain ⟨htop', hheight'⟩ := lineTexts_page (hline k hk) t ht font
    refine Or.inl (Or.inl ?_)
    rw [htop, hheight, htop']
    exact hik

/-- the menu is on the panel, and nothing else -/
theorem renderMenu_shown (font : OledFont) {p : Panel} (hp : p.contrastNext = false) :
    let q := run Panel.byte p ((renderMenuCalls l menu m).flatMap (ScreenCall.bytes font))
    q.contrastNext = false ∧ ShowsPage font q.ram (menuTexts l menu (T n) (m.states n)) := by
  obtain ⟨calls, hcalls, hdraws⟩ := renderMenu_draws h hc hl menu
  intro q
  have hshown := page_shown font hdraws (menuTexts_apart h hc hl menu) hp
  rw [← hcalls] at hshown
  exact hshown

end

/-! ## the settings on a menu -/

/-- the texts of a menu with the titles and statuses of the settings -/
def settingsTexts (c : Config) (t : Table) (s : MenuState) : List Text :=
  (List.range (min t.items.length oledLines)).flatMap fun i =>
    lineTexts i (settingTitle c t (s.firstItem + i)) (i = s.cursorLine)
      (statusLetter (itemStatus (fun g : Group => c g) t (s.firstItem + i)))

theorem menuTexts_settings {m : MenuNav} {n : Nat} {T : Nat → Table} (h : Opened m n T)
    (hc : m.currentState = n) {c : Config} {l : Labels} (hl : LabelsOf c l) {menu : Menu}
    (hmenu : ∀ g : Group, menu g = c g) :
    menuTexts l menu (T n) (m.states n) = settingsTexts c (T n) (m.states n) := by
  have hgroups : menu = fun g : Group => c g := funext hmenu
  unfold menuTexts settingsTexts
  rw [hgroups]
  refine List.flatMap_congr fun i hi => ?_
  rw [titleText_setting hl (line_item h hc hl (List.mem_range.1 hi))]

end MenuFirmware
