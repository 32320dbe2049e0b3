import MenuFirmware.Oled.Draw

/-!
# Highlighted text

A highlighted character should be the plain one with every pixel turned: the same positions, and the
complement of the data.  `OLED_ShowChar_2` was copied before the size 32 of `OLED_ShowChar` got its
16 columns.

* `InverseOf`            what the panel receives is the complement;
* `OledOp.turned`        the same on the calls of the driver;
* `showChar_turned`      the two functions agree for every size but 32;
* `showChar_bytes`       how much the panel receives for a character of that size;
* `inverse_iff`          when a character, and a string, is drawn as the inverse.
-/

set_option linter.unusedSectionVars false
set_option linter.unusedVariables false

namespace MenuFirmware
open SerialIn

/-- the same commands, and the complement of the data -/
def inverted (bytes : List (Bool × UInt8)) : List (Bool × UInt8) :=
  bytes.map fun p => if p.1 = oledData then (p.1, ~~~p.2) else p

def InverseOf (a b : List OledOp) : Prop :=
  ∀ r, PanelReady r → received r (oledPins b) = inverted (received r (oledPins a))

theorem inverted_append (k l : List (Bool × UInt8)) :
    inverted (k ++ l) = inverted k ++ inverted l := List.map_append

theorem inverted_length (bytes : List (Bool × UInt8)) : (inverted bytes).length = bytes.length :=
  List.length_map _

theorem inverseOf_iff (a b : List OledOp) : InverseOf a b ↔ oledBytes b = inverted (oledBytes a) := by
  constructor
  · intro h
    have hready : PanelReady ⟨false, false, true, true, []⟩ := ⟨rfl, rfl⟩
    have hsent := h _ hready
    rwa [(sends_ops b _ hready).1, (sends_ops a _ hready).1] at hsent
  · intro h r hr
    rw [(sends_ops b r hr).1, (sends_ops a r hr).1, h]

/-! ## turned calls -/

def OledOp.turned : OledOp → OledOp
  | .setPos x y => .setPos x y
  | .wrData dat => .wrData2 dat
  | .wrData2 dat => .wrData dat

theorem bytes_turned (op : OledOp) : op.turned.bytes = inverted op.bytes := by
  cases op with
  | setPos x y => rfl
  | wrData dat => rfl
  | wrData2 dat =>
    show [(oledData, dat)] = [(oledData, ~~~(~~~dat))]
    rw [UInt8.not_not]

theorem oledBytes_turned (ops : List OledOp) :
    oledBytes (ops.map OledOp.turned) = inverted (oledBytes ops) := by
  induction ops with
  | nil => rfl
  | cons op ops ih =>
    rw [List.map_cons, oledBytes_cons, oledBytes_cons, inverted_append, bytes_turned, ih]

theorem glyphRow_turned (x y : UInt8) (n : Nat) (table : Nat → UInt8) :
    (glyphRow .wrData x y n table).map OledOp.turned = glyphRow .wrData2 x y n table := by
  unfold glyphRow
  rw [List.map_cons, List.map_map]
  rfl

theorem showGlyph_turned (font : OledFont) (x y : UInt8) (c : Nat) {size : UInt8} (h : size ≠ 32) :
    (showGlyph .wrData 64 16 font x y c size).map OledOp.turned =
      showGlyph .wrData2 32 8 font x y c size := by
  unfold showGlyph
  by_cases h16 : size = 16
  · rw [if_pos h16, if_pos h16, List.map_append, glyphRow_turned, glyphRow_turned]
  · rw [if_neg h16, if_neg h16]
    by_cases h12 : size = 12
    · rw [if_pos h12, if_pos h12, glyphRow_turned]
    · rw [if_neg h12, if_neg h12, if_neg h, if_neg h]
      rfl

theorem showChar_turned (font : OledFont) (x y chr : UInt8) {size : UInt8} (h : size ≠ 32) :
    (oledShowChar font x y chr size).map OledOp.turned = oledShowChar_2 font x y chr size := by
  unfold oledShowChar oledShowChar_2 showChar
  by_cases hx : x > 127
  · rw [if_pos hx, if_pos hx]
    exact showGlyph_turned font 0 (y + 2) _ h
  · rw [if_neg hx, if_neg hx]
    exact showGlyph_turned font x y _ h

/-! ## the size 32 -/

section
variable {wr : UInt8 → OledOp} (hwr : ∀ dat, (wr dat).bytes.length = 1)
include hwr

theorem glyphRow_bytes (x y : UInt8) (n : Nat) (table : Nat → UInt8) :
    (oledBytes (glyphRow wr x y n table)).length = 3 + n := by
  have hdata : ∀ l : List Nat, (oledBytes (l.map fun i => wr (table i))).length = l.length := by
    intro l
    induction l with
    | nil => rfl
    | cons i l ih =>
      rw [List.map_cons, oledBytes_cons, List.length_append, hwr, ih, List.length_cons, Nat.add_comm]
  unfold glyphRow
  rw [oledBytes_cons, List.length_append, hdata, List.length_range]
  rfl

theorem showGlyph_bytes (stride cols : Nat) (font : OledFont) (x y : UInt8) (c : Nat) :
    (oledBytes (showGlyph wr stride cols font x y c 32)).length = 4 * (3 + cols) := by
  have h16 : (32 : UInt8) ≠ 16 := by decide
  have h12 : (32 : UInt8) ≠ 12 := by decide
  unfold showGlyph
  rw [if_neg h16, if_neg h12, if_pos rfl, oledBytes_append, oledBytes_append, oledBytes_append,
    List.length_append, List.length_append, List.length_append, glyphRow_bytes hwr,
    glyphRow_bytes hwr, glyphRow_bytes hwr, glyphRow_bytes hwr]
  omega

/-- four positions and four rows -/
theorem showChar_bytes (stride cols : Nat) (font : OledFont) (x y chr : UInt8) :
    (oledBytes (showChar wr stride cols font x y chr 32)).length = 4 * (3 + cols) := by
  unfold showChar
  by_cases hx : x > 127
  · rw [if_pos hx, showGlyph_bytes hwr]
  · rw [if_neg hx, showGlyph_bytes hwr]

end

theorem char_not_inverse (font : OledFont) (x y chr : UInt8) :
    ¬ InverseOf (oledShowChar font x y chr 32) (oledShowChar_2 font x y chr 32) := by
  rw [inverseOf_iff]
  intro h
  have hlen := congrArg List.length h
  unfold oledShowChar oledShowChar_2 at hlen
  rw [inverted_length, showChar_bytes fun dat => rfl, showChar_bytes fun dat => rfl] at hlen
  omega

theorem char_inverse (font : OledFont) (x y chr : UInt8) {size : UInt8} (h : size ≠ 32) :
    InverseOf (oledShowChar font x y chr size) (oledShowChar_2 font x y chr size) := by
  rw [inverseOf_iff, ← oledBytes_turned, showChar_turned font x y chr h]

/-! ## strings -/

theorem calls_turned (font : OledFont) {size : UInt8} (h : size ≠ 32) (l : List CharCall) :
    (l.flatMap fun c => oledShowChar font c.x c.y c.chr size).map OledOp.turned =
      l.flatMap fun c => oledShowChar_2 font c.x c.y c.chr size := by
  rw [List.map_flatMap]
  congr 1
  funext c
  exact showChar_turned font c.x c.y c.chr h

theorem string_inverse (font : OledFont) (x y : UInt8) (str : Nat → UInt8) {size : UInt8}
    (h : size ≠ 32) (n : Nat) :
    InverseOf (oledShowString font x y str size n) (oledShowString_2 font x y str size n) := by
  have hadv : stringAdvance size = 8 := if_neg h
  rw [inverseOf_iff, ← oledBytes_turned]
  unfold oledShowString oledShowString_2 showStringCalls
  rw [calls_turned font h, hadv]

theorem showStringLoop_empty (adv : UInt8) {str : Nat → UInt8} (h : str 0 = 0) (x y : UInt8)
    (n : Nat) : (showStringLoop adv str n ⟨x, y, 0⟩).1 = [] := by
  cases n with
  | zero => rfl
  | succ n => exact congrArg Prod.fst (if_pos h)

theorem showStringLoop_first (adv : UInt8) {str : Nat → UInt8} (h : str 0 ≠ 0) (x y : UInt8) :
    (showStringLoop adv str 1 ⟨x, y, 0⟩).1 = [⟨x, y, str 0⟩] := congrArg Prod.fst (if_neg h)

/-- a character is the inverse for every size but 32; so is a string, unless it is empty -/
theorem inverse_iff (font : OledFont) (x y size : UInt8) :
    (∀ chr, InverseOf (oledShowChar font x y chr size) (oledShowChar_2 font x y chr size) ↔
      size ≠ 32) ∧
    ∀ str, (∀ n, InverseOf (oledShowString font x y str size n)
      (oledShowString_2 font x y str size n)) ↔ size ≠ 32 ∨ str 0 = 0 := by
  constructor
  · intro chr
    constructor
    · intro h hsize
      rw [hsize] at h
      exact char_not_inverse font x y chr h
    · exact char_inverse font x y chr
  · intro str
    constructor
    · intro h
      by_cases hempty : str 0 = 0
      · exact Or.inr hempty
      · refine Or.inl fun hsize => ?_
        have hone := h 1
        rw [hsize] at hone
        unfold oledShowString oledShowString_2 showStringCalls at hone
        rw [showStringLoop_first _ hempty, showStringLoop_first _ hempty, List.flatMap_singleton,
          List.flatMap_singleton] at hone
        exact char_not_inverse font x y (str 0) hone
    · rintro (hsize | hempty) n
      · exact string_inverse font x y str hsize n
      · unfold oledShowString oledShowString_2 showStringCalls
        rw [showStringLoop_empty _ hempty, showStringLoop_empty _ hempty]
        intro r hr
        rfl

/-- the highlighted `A` of the size 32 lacks half of its columns -/
theorem inverse_fails : ¬ ∀ (font : OledFont) (x y chr size : UInt8), size ∈ [12, 16, 32] →
    InverseOf (oledShowChar font x y chr size) (oledShowChar_2 font x y chr size) := by
  intro h
  exact char_not_inverse ⟨fun _ _ => 0, fun _ => 0, fun _ => 0⟩ 0 0 0x41
    (h _ 0 0 0x41 32 (by decide))

end MenuFirmware
