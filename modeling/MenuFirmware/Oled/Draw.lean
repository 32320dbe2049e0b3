import MenuFirmware.Lib.SerialIn

/-!
# Drawing on the OLED (`driver/oled/oled.c`)

The driver sets four lines by hand; the panel takes bytes from them, commands and data.

* `oledWrByte`, `oledWrByte2`   a byte, and a byte with its bits turned;
* `OledOp`         what the drawing functions call: `OLED_Set_Pos` and the two functions above;
* `oledPins`, `Sends`   the writes to the lines, and the bytes that the panel receives from them;
* `sends_ops`      it receives three commands for a position, and the bytes of the data;
* `oledShowChar`, `oledShowChar_2`   a character, plain and highlighted;
* `oledShowString`, `oledShowString_2`   a string.
-/

set_option linter.unusedSectionVars false
set_option linter.unusedVariables false

namespace MenuFirmware
open SerialIn Runs

/-! ## bytes on the lines -/

def oledCmd : Bool := false
def oledData : Bool := true

/-- what `dat & 0x80` is in `n` turns of a loop that ends with `dat <<= 1` -/
def sdinBits : Nat → UInt8 → List Bool
  | 0, _ => []
  | n + 1, dat => (dat &&& 0x80 != 0) :: sdinBits n (dat <<< 1)

def wrBits (cmd : Bool) (bits : List Bool) : List (Line × Bool) :=
  [(.dc, cmd), (.cs, false)] ++ clockIn bits ++ [(.cs, true), (.dc, true)]

def oledWrByte (dat : UInt8) (cmd : Bool) : List (Line × Bool) := wrBits cmd (sdinBits 8 dat)

def oledWrByte2 (dat : UInt8) (cmd : Bool) : List (Line × Bool) :=
  wrBits cmd ((sdinBits 8 dat).map not)

def oledSetPos (x y : UInt8) : List (Line × Bool) :=
  oledWrByte (0xb0 + y) oledCmd ++ oledWrByte ((((x + 2) &&& 0xf0) >>> 4) ||| 0x10) oledCmd ++
    oledWrByte ((x + 2) &&& 0x0f) oledCmd

theorem sdinBits_eq (dat : UInt8) : sdinBits 8 dat = msb 8 dat.toNat := by
  have hall : ∀ n < 256, sdinBits 8 (UInt8.ofNat n) = msb 8 n := by decide +kernel
  have h := hall dat.toNat dat.toNat_lt
  rwa [UInt8.ofNat_toNat] at h

/-- a panel that is not selected and waits for a byte -/
def PanelReady (r : Rx) : Prop := r.cs = true ∧ r.bits = []

/-- commands and data that the panel receives -/
def received (r : Rx) (l : List (Line × Bool)) : List (Bool × UInt8) :=
  (words 8 r l).map fun p => (p.1, UInt8.ofNat (ofMsb p.2))

/-- writes to the lines that a panel receives as `bytes` -/
def Sends (l : List (Line × Bool)) (bytes : List (Bool × UInt8)) : Prop :=
  ∀ r, PanelReady r → received r l = bytes ∧ PanelReady (run (Rx.write 8) r l)

theorem Sends.nil : Sends [] [] := fun r hr => ⟨rfl, hr⟩

theorem Sends.append {k l : List (Line × Bool)} {a b : List (Bool × UInt8)} (hk : Sends k a)
    (hl : Sends l b) : Sends (k ++ l) (a ++ b) := by
  intro r hr
  obtain ⟨hfirst, hready⟩ := hk r hr
  obtain ⟨hsecond, hready'⟩ := hl _ hready
  rw [run_append]
  refine ⟨?_, hready'⟩
  unfold received at *
  rw [words_append, List.map_append, hfirst, hsecond]

theorem sends_wrBits (cmd : Bool) {bits : List Bool} (h : bits.length = 8) :
    Sends (wrBits cmd bits) [(cmd, UInt8.ofNat (ofMsb bits))] := by
  intro r hr
  have hne : bits ≠ [] := List.ne_nil_of_length_pos (by omega)
  have hlen : r.bits.length + bits.length = 8 := by rw [hr.2, h]; rfl
  obtain ⟨hwords, hbits⟩ := words_clockIn bits hne { r with dc := cmd, cs := false } rfl hlen
  have hopen : run (Rx.write 8) r [(.dc, cmd), (.cs, false)] = { r with dc := cmd, cs := false } := rfl
  have hsent : words 8 r (wrBits cmd bits) = [(cmd, bits)] := by
    unfold wrBits
    rw [words_append, words_append, hopen, hwords, hr.2]
    rfl
  refine ⟨?_, ?_⟩
  · unfold received
    rw [hsent]
    rfl
  · unfold wrBits
    rw [run_append]
    exact ⟨rfl, rfl⟩

theorem sends_wrByte (dat : UInt8) (cmd : Bool) : Sends (oledWrByte dat cmd) [(cmd, dat)] := by
  have hlen : (sdinBits 8 dat).length = 8 := rfl
  have hnum : UInt8.ofNat (ofMsb (sdinBits 8 dat)) = dat := by
    rw [sdinBits_eq, ofMsb_msb dat.toNat_lt, UInt8.ofNat_toNat]
  have h := sends_wrBits cmd hlen
  rwa [hnum] at h

/-- the panel receives the complement -/
theorem sends_wrByte2 (dat : UInt8) (cmd : Bool) : Sends (oledWrByte2 dat cmd) [(cmd, ~~~dat)] := by
  have hlen : ((sdinBits 8 dat).map not).length = 8 := rfl
  have hnum : UInt8.ofNat (ofMsb ((sdinBits 8 dat).map not)) = ~~~dat := by
    have hsum := ofMsb_not (sdinBits 8 dat)
    have hbits : (sdinBits 8 dat).length = 8 := rfl
    have hsize : UInt8.size = 256 := rfl
    have hlt := dat.toNat_lt
    rw [hbits, sdinBits_eq, ofMsb_msb dat.toNat_lt] at hsum
    rw [← UInt8.toNat_inj, UInt8.toNat_not, UInt8.toNat_ofNat', sdinBits_eq]
    omega
  have h := sends_wrBits cmd hlen
  rwa [hnum] at h

/-! ## what the drawing functions call -/

inductive OledOp where
  | setPos (x y : UInt8)
  | wrData (dat : UInt8)
  | wrData2 (dat : UInt8)
  deriving DecidableEq, Repr

def OledOp.pins : OledOp → List (Line × Bool)
  | .setPos x y => oledSetPos x y
  | .wrData dat => oledWrByte dat oledData
  | .wrData2 dat => oledWrByte2 dat oledData

def OledOp.bytes : OledOp → List (Bool × UInt8)
  | .setPos x y =>
    [(oledCmd, 0xb0 + y), (oledCmd, (((x + 2) &&& 0xf0) >>> 4) ||| 0x10),
      (oledCmd, (x + 2) &&& 0x0f)]
  | .wrData dat => [(oledData, dat)]
  | .wrData2 dat => [(oledData, ~~~dat)]

def oledPins (ops : List OledOp) : List (Line × Bool) := ops.flatMap OledOp.pins
def oledBytes (ops : List OledOp) : List (Bool × UInt8) := ops.flatMap OledOp.bytes

theorem oledBytes_cons (op : OledOp) (ops : List OledOp) :
    oledBytes (op :: ops) = op.bytes ++ oledBytes ops := rfl
theorem oledBytes_append (k l : List OledOp) : oledBytes (k ++ l) = oledBytes k ++ oledBytes l :=
  List.flatMap_append

theorem sends_pins (op : OledOp) : Sends op.pins op.bytes := by
  cases op with
  | setPos x y =>
    exact ((sends_wrByte _ oledCmd).append (sends_wrByte _ oledCmd)).append (sends_wrByte _ oledCmd)
  | wrData dat => exact sends_wrByte dat oledData
  | wrData2 dat => exact sends_wrByte2 dat oledData

theorem sends_ops (ops : List OledOp) : Sends (oledPins ops) (oledBytes ops) := by
  induction ops with
  | nil => exact Sends.nil
  | cons op ops ih => exact (sends_pins op).append ih

/-! ## a character -/

/-- the tables of `oledfont.h` -/
structure OledFont where
  f6x8 : Nat → Nat → UInt8
  f8x16 : Nat → UInt8
  f32x32 : Nat → UInt8

/-- a position and `n` bytes of a table from there on -/
def glyphRow (wr : UInt8 → OledOp) (x y : UInt8) (n : Nat) (table : Nat → UInt8) : List OledOp :=
  .setPos x y :: (List.range n).map fun i => wr (table i)

/-- a character of a table; for the size 32 it is found in steps of `stride` and has `cols` columns -/
def showGlyph (wr : UInt8 → OledOp) (stride cols : Nat) (font : OledFont) (x y : UInt8) (c : Nat)
    (size : UInt8) : List OledOp :=
  if size = 16 then
    glyphRow wr x y 8 (fun i => font.f8x16 (c * 16 + i)) ++
      glyphRow wr x (y + 1) 8 (fun i => font.f8x16 (c * 16 + i + 8))
  else if size = 12 then glyphRow wr x (y + 1) 8 (font.f6x8 c)
  else if size = 32 then
    glyphRow wr x y cols (fun i => font.f32x32 (c * stride + i)) ++
      glyphRow wr x (y + 1) cols (fun i => font.f32x32 (c * stride + i + cols)) ++
      glyphRow wr x (y + 2) cols (fun i => font.f32x32 (c * stride + i + cols * 2)) ++
      glyphRow wr x (y + 3) cols (fun i => font.f32x32 (c * stride + i + cols * 3))
  else []

def showChar (wr : UInt8 → OledOp) (stride cols : Nat) (font : OledFont) (x y chr size : UInt8) :
    List OledOp :=
  if x > 127 then showGlyph wr stride cols font 0 (y + 2) (chr - 0x20).toNat size
  else showGlyph wr stride cols font x y (chr - 0x20).toNat size

def oledShowChar : OledFont → UInt8 → UInt8 → UInt8 → UInt8 → List OledOp := showChar .wrData 64 16

/-- highlighted; the size 32 has another stride and half of the columns -/
def oledShowChar_2 : OledFont → UInt8 → UInt8 → UInt8 → UInt8 → List OledOp := showChar .wrData2 32 8

/-! ## a string -/

/-- a call of one of the functions that draw a character -/
structure CharCall where
  x : UInt8
  y : UInt8
  chr : UInt8
  deriving DecidableEq, Repr

/-- the variables of the loop over a string -/
structure StrPos where
  x : UInt8
  y : UInt8
  j : UInt8
  deriving DecidableEq, Repr

def StrPos.next (adv : UInt8) (p : StrPos) : StrPos :=
  if p.x + adv > 120 then ⟨0, p.y + 2, p.j + 1⟩ else ⟨p.x + adv, p.y, p.j + 1⟩

/-- at most `n` turns of the loop: the characters drawn, and whether it has come to the end -/
def showStringLoop (adv : UInt8) (str : Nat → UInt8) : Nat → StrPos → List CharCall × Bool
  | 0, _ => ([], false)
  | n + 1, p =>
    if str p.j.toNat = 0 then ([], true)
    else
      (⟨p.x, p.y, str p.j.toNat⟩ :: (showStringLoop adv str n (p.next adv)).1,
        (showStringLoop adv str n (p.next adv)).2)

def stringAdvance (size : UInt8) : UInt8 := if size = 32 then 16 else 8

def showStringCalls (x y : UInt8) (str : Nat → UInt8) (size : UInt8) (n : Nat) :
    List CharCall × Bool :=
  showStringLoop (stringAdvance size) str n ⟨x, y, 0⟩

def oledShowString (font : OledFont) (x y : UInt8) (str : Nat → UInt8) (size : UInt8) (n : Nat) :
    List OledOp :=
  (showStringCalls x y str size n).1.flatMap fun c => oledShowChar font c.x c.y c.chr size

def oledShowString_2 (font : OledFont) (x y : UInt8) (str : Nat → UInt8) (size : UInt8) (n : Nat) :
    List OledOp :=
  (showStringLoop 8 str n ⟨x, y, 0⟩).1.flatMap fun c => oledShowChar_2 font c.x c.y c.chr size

end MenuFirmware
