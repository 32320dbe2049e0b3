import Mathlib.Data.List.Pairwise
import MenuFirmware.Oled.MainMeau

/-!
# The picture of the main screen

A screen that is drawn over again and again shows its texts, the delay that was drawn last, and what
was drawn last behind `STATUS`.

* `texts`, `delayPicture`, `fieldPatch`   the parts of the picture;
* `before_mem`, `behind_rows`             what else is painted lies in other places;
* `texts_shown`, `delay_shown`            a drawing leaves or renews the texts and the delay;
* `field_shown`                           a word behind `STATUS` leaves the places behind it.
-/

set_option linter.unusedSectionVars false
set_option linter.unusedVariables false

namespace MenuFirmware
open Runs Canvas

/-! ## the parts -/

def detailStatic : List ScreenCall :=
  [.showString 0 2 (literal " AVG: s") 16, .showChar 80 2 (ascii '.') 16,
    .showChar 96 2 (ascii 'm') 16, .showChar 104 2 (ascii 's') 16,
    .showString 0 4 (literal " JIT: s") 16, .showChar 80 4 (ascii '.') 16,
    .showChar 96 4 (ascii 'm') 16, .showChar 104 4 (ascii 's') 16]

def largeStatic : List ScreenCall :=
  [.showChar 84 0 (ascii 's') 32, .showChar 52 4 (ascii '.') 32, .showChar 84 4 (ascii 'm') 32,
    .showChar 100 4 (ascii 's') 32]

def staticCalls (mode : UInt8) : List ScreenCall :=
  if mode = 3 then detailStatic else if LargeMode mode then largeStatic else []

/-- where the digits stand, whatever they are -/
def digitBoxes (mode : UInt8) : List Box := (delayDigits mode delayNine).flatMap ScreenCall.boxes

def staticBoxes (mode : UInt8) : List Box := (staticCalls mode).flatMap ScreenCall.boxes

theorem delayDigits_boxes (mode : UInt8) (t : DelayText) :
    (delayDigits mode t).flatMap ScreenCall.boxes = digitBoxes mode := by
  unfold digitBoxes delayDigits
  split
  · rfl
  · split
    · rfl
    · rfl

/-- of texts and digits, what is known of the places they stand on -/
structure Layout (texts delay : List Box) : Prop where
  statics : texts.Pairwise Box.Apart
  digits : delay.Pairwise Box.Apart
  /-- a digit stands on a place of the texts, or apart from them -/
  place : ∀ d ∈ delay, ∀ b ∈ texts, b = d ∨ b.Apart d

theorem mainLayout (mode : UInt8) : Layout (staticBoxes mode) (digitBoxes mode) := by
  unfold staticBoxes staticCalls digitBoxes delayDigits
  by_cases h3 : mode = 3
  · rw [if_pos h3, if_pos h3]
    exact ⟨by decide, by decide, by decide⟩
  · rw [if_neg h3, if_neg h3]
    by_cases hlarge : LargeMode mode
    · rw [if_pos hlarge, if_pos hlarge]
      exact ⟨by decide, by decide, by decide⟩
    · rw [if_neg hlarge, if_neg hlarge]
      exact ⟨by decide, by decide, by decide⟩

/-- in the other modes no digit stands on a text -/
theorem large_layout {mode : UInt8} (h : mode ≠ 3) : ∀ d ∈ digitBoxes mode, d ∉ staticBoxes mode := by
  unfold staticBoxes staticCalls digitBoxes delayDigits
  rw [if_neg h, if_neg h]
  by_cases hlarge : LargeMode mode
  · rw [if_pos hlarge, if_pos hlarge]
    decide
  · rw [if_neg hlarge, if_neg hlarge]
    decide

theorem detail_rows : ∀ b ∈ staticBoxes 3 ++ digitBoxes 3, 2 ≤ b.top ∧ b.top + b.height ≤ 6 := by
  decide

section
variable (font : OledFont)

def staticPatches (mode : UInt8) : List (Patch UInt8) :=
  (staticCalls mode).flatMap (ScreenCall.patches font)

def digitPatches (mode : UInt8) (t : DelayText) : List (Patch UInt8) :=
  (delayDigits mode t).flatMap (ScreenCall.patches font)

/-- the texts that no digit stands on -/
def texts (mode : UInt8) : List (Patch UInt8) :=
  (staticPatches font mode).filter fun p => p.box ∉ digitBoxes mode

def blank (b : Box) : Patch UInt8 := ⟨b, fun _ _ => 0⟩

/-- the places of the digits: their characters, or what is there before they are drawn -/
def delayPicture (mode : UInt8) : Option DelayText → List (Patch UInt8)
  | some t => digitPatches font mode t
  | none =>
    (staticPatches font mode).filter (fun p => p.box ∈ digitBoxes mode) ++
      ((digitBoxes mode).filter fun b => b ∉ staticBoxes mode).map blank

theorem static_box {mode : UInt8} {p : Patch UInt8} (h : p ∈ staticPatches font mode) :
    p.box ∈ staticBoxes mode := by
  unfold staticBoxes
  rw [← patches_box font]
  exact List.mem_map_of_mem h

theorem digit_box {mode : UInt8} {t : DelayText} {p : Patch UInt8} (h : p ∈ digitPatches font mode t) :
    p.box ∈ digitBoxes mode := by
  rw [← delayDigits_boxes mode t, ← patches_box font]
  exact List.mem_map_of_mem h

/-- two patches of a list whose boxes are pairwise apart -/
theorem same_or_apart {ps : List (Patch UInt8)} (h : (ps.map Patch.box).Pairwise Box.Apart)
    {p q : Patch UInt8} (hp : p ∈ ps) (hq : q ∈ ps) : q = p ∨ q.box.Apart p.box := by
  have hsymm : Std.Symm fun a b : Patch UInt8 => a.box.Apart b.box := ⟨fun _ _ hap => hap.symm⟩
  rw [List.pairwise_map] at h
  by_cases heq : q = p
  · exact Or.inl heq
  · exact Or.inr (h.forall hq hp heq)

theorem static_apart {mode : UInt8} {p q : Patch UInt8} (hp : p ∈ staticPatches font mode)
    (hq : q ∈ staticPatches font mode) : q = p ∨ q.box.Apart p.box := by
  have h := (mainLayout mode).statics
  unfold staticBoxes at h
  rw [← patches_box font] at h
  exact same_or_apart h hp hq

theorem digit_apart {mode : UInt8} {t : DelayText} {p q : Patch UInt8}
    (hp : p ∈ digitPatches font mode t) (hq : q ∈ digitPatches font mode t) :
    q = p ∨ q.box.Apart p.box := by
  have h := (mainLayout mode).digits
  rw [← delayDigits_boxes mode t, ← patches_box font] at h
  exact same_or_apart h hp hq

/-! ## what else is painted -/

theorem InRows.patch {lo hi : Nat} {calls : List ScreenCall} (h : InRows lo hi calls)
    {q : Patch UInt8} (hq : q ∈ calls.flatMap (ScreenCall.patches font)) :
    lo ≤ q.box.top ∧ q.box.top + q.box.height ≤ hi := by
  have hbox : q.box ∈ calls.flatMap ScreenCall.boxes := by
    rw [← patches_box font]
    exact List.mem_map_of_mem hq
  obtain ⟨call, hcall, hb⟩ := List.mem_flatMap.1 hbox
  exact (h call hcall).2 q.box hb

variable {font} {env : MainEnv} (hends : ∃ k ≤ 8, env.behind k = 0)

include hends in
theorem before_mem {cleared : Bool} {q : Patch UInt8}
    (hq : q ∈ (beforeDelay env cleared).flatMap (ScreenCall.patches font)) :
    (q ∈ staticPatches font env.displayMode ∧ (cleared = true ∨ env.displayMode ≠ 3)) ∨
      (env.displayMode = 3 ∧ q.box.top + q.box.height ≤ 2) := by
  unfold beforeDelay at hq
  by_cases h3 : env.displayMode = 3
  · rw [if_pos h3, List.flatMap_append] at hq
    rcases List.mem_append.1 hq with hq | hq
    · by_cases hcl : cleared = true
      · rw [if_pos hcl, List.flatMap_append] at hq
        rcases List.mem_append.1 hq with hq | hq
        · exact Or.inr ⟨h3, (piece4Static_rows.patch font hq).2⟩
        · exact Or.inl ⟨hq, Or.inl hcl⟩
      · rw [if_neg hcl] at hq
        exact absurd hq List.not_mem_nil
    · exact Or.inr ⟨h3, ((piece4Dynamic_rows hends).patch font hq).2⟩
  · rw [if_neg h3] at hq
    exact Or.inl ⟨hq, Or.inr h3⟩

theorem static_before {cleared : Bool} (h : cleared = true ∨ env.displayMode ≠ 3) {p : Patch UInt8}
    (hp : p ∈ staticPatches font env.displayMode) :
    p ∈ (beforeDelay env cleared).flatMap (ScreenCall.patches font) := by
  unfold beforeDelay
  by_cases h3 : env.displayMode = 3
  · have hcl : cleared = true := h.resolve_right (not_not.2 h3)
    rw [if_pos h3, if_pos hcl, List.flatMap_append, List.flatMap_append]
    exact List.mem_append_left _ (List.mem_append_right _ hp)
  · rw [if_neg h3]
    exact hp

/-- what is painted on the line of the status and below -/
def Behind (font : OledFont) (m : MainMeau) (env : MainEnv) (q : Patch UInt8) : Prop :=
  env.displayMode = 3 ∧
    (q ∈ (page0Piece2DynamicDisplay m env.status).flatMap (ScreenCall.patches font) ∨ 7 ≤ q.box.top)

theorem behind_mem (m : MainMeau) {q : Patch UInt8}
    (hq : q ∈ (behindDelay m env).flatMap (ScreenCall.patches font)) : Behind font m env q := by
  unfold behindDelay at hq
  by_cases h3 : env.displayMode = 3
  · rw [if_pos h3, List.flatMap_append] at hq
    rcases List.mem_append.1 hq with hq | hq
    · exact ⟨h3, Or.inl hq⟩
    · exact ⟨h3, Or.inr ((piece1_rows m env).patch font hq).1⟩
  · rw [if_neg h3] at hq
    exact absurd hq List.not_mem_nil

theorem Behind.rows {m : MainMeau} {q : Patch UInt8} (h : Behind font m env q) :
    6 ≤ q.box.top := by
  rcases h.2 with hq | hq
  · exact ((piece2_rows m env.status).patch font hq).1
  · exact Nat.le_of_succ_le hq

/-- everything that is painted over the texts and the delay, with its place -/
theorem main_mem {m : MainMeau} {cleared : Bool} {q : Patch UInt8}
    (hq : q ∈ (mainCalls m env cleared).flatMap (ScreenCall.patches font)) :
    q ∈ (beforeDelay env cleared).flatMap (ScreenCall.patches font) ∨
      (env.status = 0 ∧ q ∈ digitPatches font env.displayMode (delayText env)) ∨
      Behind font m env q := by
  unfold mainCalls at hq
  rw [List.flatMap_append, List.flatMap_append] at hq
  rcases List.mem_append.1 hq with hq | hq
  · rcases List.mem_append.1 hq with hq | hq
    · exact Or.inl hq
    · by_cases hgood : env.status = 0
      · rw [if_pos hgood] at hq
        exact Or.inr (Or.inl ⟨hgood, hq⟩)
      · rw [if_neg hgood] at hq
        exact absurd hq List.not_mem_nil
  · exact Or.inr (Or.inr (behind_mem m hq))

/-! ## the texts and the delay -/

theorem delay_rows {b : Box} (h : b ∈ staticBoxes 3 ∨ b ∈ digitBoxes 3) :
    2 ≤ b.top ∧ b.top + b.height ≤ 6 := detail_rows b (List.mem_append.2 h)

/-- the lines of the detail mode above and below -/
theorem rows_apart {p q : Patch UInt8} (hp : p.box ∈ staticBoxes 3 ∨ p.box ∈ digitBoxes 3)
    (hq : q.box.top + q.box.height ≤ 2 ∨ 6 ≤ q.box.top) : q.box.Apart p.box := by
  obtain ⟨hlo, hhi⟩ := delay_rows hp
  unfold Box.Apart
  omega

include hends

theorem texts_shown (m : MainMeau) {cleared : Bool} {c : Nat → Nat → UInt8} {p : Patch UInt8}
    (hp : p ∈ texts font env.displayMode) (hc : Depicts c p ∨ cleared = true) :
    Depicts (run paint c ((mainCalls m env cleared).flatMap (ScreenCall.patches font))) p := by
  obtain ⟨hstatic, hnot⟩ := List.mem_filter.1 hp
  have hnodigit : p.box ∉ digitBoxes env.displayMode := of_decide_eq_true hnot
  refine shows_run ?_ fun q hq => ?_
  · by_cases hpaint : cleared = true ∨ env.displayMode ≠ 3
    · refine Or.inr ?_
      unfold mainCalls
      rw [List.flatMap_append, List.flatMap_append]
      exact List.mem_append_left _ (List.mem_append_left _ (static_before hpaint hstatic))
    · exact Or.inl (hc.resolve_right fun h => hpaint (Or.inl h))
  · rcases main_mem hq with hq | ⟨-, hq⟩ | hq
    · rcases before_mem hends hq with ⟨hq, -⟩ | ⟨h3, hq⟩
      · exact static_apart font hstatic hq
      · rw [h3] at hstatic
        exact Or.inr (rows_apart (Or.inl (static_box font hstatic)) (Or.inl hq))
    · have hplace := (mainLayout env.displayMode).place q.box (digit_box font hq) p.box
        (static_box font hstatic)
      rcases hplace with heq | hap
      · exact absurd (heq ▸ digit_box font hq) hnodigit
      · exact Or.inr hap.symm
    · rw [hq.1] at hstatic
      exact Or.inr (rows_apart (Or.inl (static_box font hstatic)) (Or.inr hq.rows))

omit hends in
/-- the delay is drawn, whatever was there -/
theorem delay_renewed (m : MainMeau) (cleared : Bool) (c : Nat → Nat → UInt8) (hgood : env.status = 0)
    {p : Patch UInt8} (hp : p ∈ digitPatches font env.displayMode (delayText env)) :
    Depicts (run paint c ((mainCalls m env cleared).flatMap (ScreenCall.patches font))) p := by
  have hsplit : (mainCalls m env cleared).flatMap (ScreenCall.patches font) =
      (beforeDelay env cleared).flatMap (ScreenCall.patches font) ++
        (digitPatches font env.displayMode (delayText env) ++
          (behindDelay m env).flatMap (ScreenCall.patches font)) := by
    unfold mainCalls digitPatches
    rw [if_pos hgood, List.flatMap_append, List.flatMap_append, List.append_assoc]
  rw [hsplit, run_append]
  refine shows_run (Or.inr (List.mem_append_left _ hp)) fun q hq => ?_
  rcases List.mem_append.1 hq with hq | hq
  · exact digit_apart font hp hq
  · have hbehind := behind_mem m hq
    rw [hbehind.1] at hp
    exact Or.inr (rows_apart (Or.inr (digit_box font hp)) (Or.inr hbehind.rows))

omit hends in
theorem delayPicture_box {mode : UInt8} {d : Option DelayText} {p : Patch UInt8}
    (hp : p ∈ delayPicture font mode d) : p.box ∈ digitBoxes mode := by
  cases d with
  | some t => exact digit_box font hp
  | none =>
    rcases List.mem_append.1 hp with hp | hp
    · exact of_decide_eq_true (List.mem_filter.1 hp).2
    · obtain ⟨b, hb, rfl⟩ := List.mem_map.1 hp
      exact (List.mem_filter.1 hb).1

/-- with another status it is left -/
theorem delay_left (m : MainMeau) {c : Nat → Nat → UInt8} (hstatus : env.status ≠ 0)
    {d : Option DelayText} {p : Patch UInt8} (hp : p ∈ delayPicture font env.displayMode d)
    (hc : Depicts c p) :
    Depicts (run paint c ((mainCalls m env false).flatMap (ScreenCall.patches font))) p := by
  have hbox := delayPicture_box hp
  refine shows_run (Or.inl hc) fun q hq => Or.inr ?_
  rcases main_mem hq with hq | ⟨hgood, -⟩ | hq
  · rcases before_mem hends hq with ⟨hq, hpaint⟩ | ⟨h3, hq⟩
    · have hmode : env.displayMode ≠ 3 := hpaint.resolve_left Bool.false_ne_true
      rcases (mainLayout env.displayMode).place p.box hbox q.box (static_box font hq) with heq | hap
      · exact absurd (heq ▸ static_box font hq) (large_layout hmode p.box hbox)
      · exact hap
    · rw [h3] at hbox
      exact rows_apart (Or.inr hbox) (Or.inl hq)
  · exact absurd hgood hstatus
  · rw [hq.1] at hbox
    exact rows_apart (Or.inr hbox) (Or.inr hq.rows)

/-- and on a cleared screen there is none -/
theorem delay_none (m : MainMeau) {c : Nat → Nat → UInt8} (hstatus : env.status ≠ 0)
    (hc : ∀ b ∈ digitBoxes env.displayMode, Depicts c (blank b)) {p : Patch UInt8}
    (hp : p ∈ delayPicture font env.displayMode none) :
    Depicts (run paint c ((mainCalls m env true).flatMap (ScreenCall.patches font))) p := by
  have hbox := delayPicture_box hp
  have hother : ∀ q ∈ (mainCalls m env true).flatMap (ScreenCall.patches font),
      q ∈ staticPatches font env.displayMode ∨ q.box.Apart p.box := by
    intro q hq
    rcases main_mem hq with hq | ⟨hgood, -⟩ | hq
    · rcases before_mem hends hq with ⟨hq, -⟩ | ⟨h3, hq⟩
      · exact Or.inl hq
      · rw [h3] at hbox
        exact Or.inr (rows_apart (Or.inr hbox) (Or.inl hq))
    · exact absurd hgood hstatus
    · rw [hq.1] at hbox
      exact Or.inr (rows_apart (Or.inr hbox) (Or.inr hq.rows))
  rcases List.mem_append.1 hp with hp | hp
  · have hstatic := (List.mem_filter.1 hp).1
    refine shows_run (Or.inr ?_) fun q hq => ?_
    · unfold mainCalls
      rw [List.flatMap_append, List.flatMap_append]
      exact List.mem_append_left _ (List.mem_append_left _ (static_before (Or.inl rfl) hstatic))
    · exact (hother q hq).elim (fun hq => static_apart font hstatic hq) Or.inr
  · obtain ⟨b, hb, rfl⟩ := List.mem_map.1 hp
    obtain ⟨hdigit, hnot⟩ := List.mem_filter.1 hb
    refine shows_run (Or.inl (hc b hdigit)) fun q hq => Or.inr ?_
    rcases hother q hq with hq | hap
    · rcases (mainLayout env.displayMode).place b hdigit q.box (static_box font hq) with heq | hap
      · exact absurd (heq ▸ static_box font hq) (of_decide_eq_true hnot)
      · exact hap
    · exact hap

end

/-! ## the line of the status -/

def fieldColumn (i : Nat) : UInt8 := UInt8.ofNat (72 + 8 * i)

def fieldBox (i : Nat) : Box := charBox (fieldColumn i) 5 12

/-- a place behind `STATUS`, with a character or still blank -/
def fieldPatch (font : OledFont) (i : Nat) : Option UInt8 → Patch UInt8
  | some chr => charPatch font (fieldColumn i) 5 chr 12
  | none => blank (fieldBox i)

theorem fieldPatch_box (font : OledFont) (i : Nat) (o : Option UInt8) :
    (fieldPatch font i o).box = fieldBox i := by
  cases o with
  | none => rfl
  | some chr => rfl

/-- the word that is drawn for a status -/
def statusWord (m : MainMeau) (status : UInt8) : List UInt8 :=
  if status = 1 then if m.blinkFlag then chars "ERROR" else chars "     "
  else if status = 0 then chars "GOOD"
  else if status = 2 then chars "INIT"
  else []

/-- a word that is drawn over others -/
def overField (word : List UInt8) (field : Nat → Option UInt8) : Nat → Option UInt8 := fun i =>
  word[i]?.or (field i)

theorem label_apart : ∀ b ∈ (ScreenCall.showString 0 5 (literal "  STATUS:") 12).boxes, ∀ i < 5,
    b.Apart (fieldBox i) := by decide

theorem fieldBoxes_apart : ∀ i < 5, ∀ j < 5, i ≠ j → (fieldBox i).Apart (fieldBox j) := by decide

theorem fieldBox_top : ∀ i < 5, (fieldBox i).top = 6 ∧ (fieldBox i).height = 1 := by decide

theorem statusWord_length (m : MainMeau) (status : UInt8) : (statusWord m status).length ≤ 5 := by
  unfold statusWord
  split
  · split
    · decide
    · decide
  · split
    · decide
    · split
      · decide
      · decide

/-- the patches of the line: the label, and the characters of the word -/
theorem piece2_patches (font : OledFont) (m : MainMeau) (status : UInt8) :
    (page0Piece2DynamicDisplay m status).flatMap (ScreenCall.patches font) =
      (ScreenCall.showString 0 5 (literal "  STATUS:") 12).patches font ++
        (List.range (statusWord m status).length).map fun i =>
          fieldPatch font i (some ((statusWord m status).getD i 0)) := by
  have hword : ∀ w ∈ ["ERROR", "     ", "GOOD", "INIT"], stringCalls 72 5 (literal w) 12 =
      (List.range (chars w).length).map fun i => ⟨fieldColumn i, 5, (chars w).getD i 0⟩ := by decide
  have hcall : ∀ w ∈ ["ERROR", "     ", "GOOD", "INIT"],
      [ScreenCall.showString 72 5 (literal w) 12].flatMap (ScreenCall.patches font) =
        (List.range (chars w).length).map fun i => fieldPatch font i (some ((chars w).getD i 0)) := by
    intro w hw
    rw [List.flatMap_singleton]
    show (stringCalls 72 5 (literal w) 12).map _ = _
    rw [hword w hw, List.map_map]
    rfl
  unfold page0Piece2DynamicDisplay statusWord
  rw [List.flatMap_cons]
  congr 1
  split
  · split
    · exact hcall "ERROR" (by decide)
    · exact hcall "     " (by decide)
  · split
    · exact hcall "GOOD" (by decide)
    · split
      · exact hcall "INIT" (by decide)
      · rfl

/-- a word leaves the places behind it as they were -/
theorem field_shown {font : OledFont} {env : MainEnv} (hends : ∃ k ≤ 8, env.behind k = 0) (m : MainMeau)
    (cleared : Bool) {c : Nat → Nat → UInt8} (h3 : env.displayMode = 3) {field : Nat → Option UInt8}
    {i : Nat} (hi : i < 5) (hc : Depicts c (fieldPatch font i (field i))) :
    Depicts (run paint c ((mainCalls m env cleared).flatMap (ScreenCall.patches font)))
      (fieldPatch font i (overField (statusWord m env.status) field i)) := by
  have hword : ∀ q ∈ (page0Piece2DynamicDisplay m env.status).flatMap (ScreenCall.patches font),
      q.box.Apart (fieldBox i) ∨ (i < (statusWord m env.status).length ∧
        q = fieldPatch font i (some ((statusWord m env.status).getD i 0))) := by
    intro q hq
    rw [piece2_patches] at hq
    rcases List.mem_append.1 hq with hq | hq
    · have hb : q.box ∈ (ScreenCall.showString 0 5 (literal "  STATUS:") 12).boxes := by
        have hmem := List.mem_map_of_mem (f := Patch.box)
          (List.mem_flatMap.2 ⟨_, List.mem_singleton.2 rfl, hq⟩)
        rw [patches_box font] at hmem
        obtain ⟨call, hcall, hbox⟩ := List.mem_flatMap.1 hmem
        rwa [List.mem_singleton.1 hcall] at hbox
      exact Or.inl (label_apart q.box hb i hi)
    · obtain ⟨j, hj, rfl⟩ := List.mem_map.1 hq
      have hjlen := List.mem_range.1 hj
      by_cases hij : j = i
      · subst hij
        exact Or.inr ⟨hjlen, rfl⟩
      · rw [fieldPatch_box]
        exact Or.inl (fieldBoxes_apart j (Nat.lt_of_lt_of_le hjlen (statusWord_length m _)) i hi hij)
  have htop := fieldBox_top i hi
  have hother : ∀ q ∈ (mainCalls m env cleared).flatMap (ScreenCall.patches font),
      q.box.Apart (fieldBox i) ∨
        q ∈ (page0Piece2DynamicDisplay m env.status).flatMap (ScreenCall.patches font) := by
    intro q hq
    have hrow : ∀ b : Box, b.top + b.height ≤ 6 ∨ 7 ≤ b.top → b.Apart (fieldBox i) := by
      intro b hb
      unfold Box.Apart
      omega
    rcases main_mem hq with hq | ⟨-, hq⟩ | hq
    · rcases before_mem hends hq with ⟨hq, -⟩ | ⟨-, hq⟩
      · rw [h3] at hq
        exact Or.inl (hrow _ (Or.inl (delay_rows (Or.inl (static_box font hq))).2))
      · exact Or.inl (hrow _ (Or.inl (by omega)))
    · rw [h3] at hq
      exact Or.inl (hrow _ (Or.inl (delay_rows (Or.inr (digit_box font hq))).2))
    · exact hq.2.elim Or.inr fun hlow => Or.inl (hrow _ (Or.inr hlow))
  unfold overField
  by_cases hlen : i < (statusWord m env.status).length
  · -- the character is drawn
    have hget : (statusWord m env.status)[i]? = some ((statusWord m env.status).getD i 0) := by
      rw [List.getElem?_eq_getElem hlen, List.getD_eq_getElem _ _ hlen]
    rw [hget, Option.some_or]
    refine shows_run (Or.inr ?_) fun q hq => ?_
    · unfold mainCalls behindDelay
      rw [if_pos h3, List.flatMap_append, List.flatMap_append, List.flatMap_append]
      refine List.mem_append_right _ (List.mem_append_left _ ?_)
      rw [piece2_patches]
      exact List.mem_append_right _ (List.mem_map.2 ⟨i, List.mem_range.2 hlen, rfl⟩)
    · rw [fieldPatch_box]
      rcases hother q hq with hap | hq
      · exact Or.inr hap
      · exact (hword q hq).elim Or.inr fun h => Or.inl h.2
  · rw [List.getElem?_eq_none (Nat.le_of_not_lt hlen), Option.none_or]
    refine shows_run (Or.inl hc) fun q hq => Or.inr ?_
    rw [fieldPatch_box]
    rcases hother q hq with hap | hq
    · exact hap
    · exact (hword q hq).elim id fun h => absurd h.1 hlen

/-! ## a cleared screen -/

theorem blank_shown {c : Nat → Nat → UInt8} (hc : Depicts c clearPatch) {b : Box}
    (hb : b.top + b.height ≤ 8 ∧ b.left + b.width ≤ 128) : Depicts c (blank b) := by
  refine hc.within fun row col hhas => ⟨?_, rfl⟩
  have hrow : (b.top ≤ row ∧ row < b.top + b.height) ∧ b.left ≤ col ∧ col < b.left + b.width := hhas
  show (0 ≤ row ∧ row < 0 + 8) ∧ 0 ≤ col ∧ col < 0 + 128
  omega

theorem digitBoxes_cleared (mode : UInt8) :
    ∀ b ∈ digitBoxes mode, b.top + b.height ≤ 8 ∧ b.left + b.width ≤ 128 := by
  unfold digitBoxes delayDigits
  split
  · decide
  · split
    · decide
    · decide

theorem fieldBoxes_cleared : ∀ i < 5, (fieldBox i).top + (fieldBox i).height ≤ 8 ∧
    (fieldBox i).left + (fieldBox i).width ≤ 128 := by decide

end MenuFirmware
