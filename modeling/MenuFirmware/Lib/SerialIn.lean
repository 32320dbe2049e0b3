import Mathlib.Algebra.Group.Nat.Defs
import MenuFirmware.Lib.Trace

/-!
# Words on a clocked serial line

A receiver is selected by a low level of `cs`.  It takes the level of `sdin` at every rising edge of
`sclk`; `w` bits are a word, which comes with the level that `dc` has at its last edge.

* `Rx.write`, `Rx.word`   what a write to one of the lines does to the receiver, and the word that is
                          complete with it;
* `words`                 the words that are received;
* `words_clockIn`         `w` bits on the line are received as one word;
* `msb`, `ofMsb`          the bits of a number, the highest first, and the number of such bits;
* `ofMsb_msb`, `ofMsb_not`   it is the number again, and what comes of it when every bit is turned.
-/

set_option linter.unusedSectionVars false
set_option linter.unusedVariables false

namespace SerialIn
open Runs

inductive Line where
  | sclk
  | sdin
  | dc
  | cs
  deriving DecidableEq, Repr

structure Rx where
  sclk : Bool
  sdin : Bool
  dc : Bool
  cs : Bool
  /-- the bits taken since the last word -/
  bits : List Bool
  deriving DecidableEq, Repr

def Rx.clock (w : Nat) (r : Rx) : Rx :=
  if r.cs = false ∧ r.sclk = false then
    { r with
      sclk := true
      bits := if r.bits.length + 1 = w then [] else r.bits ++ [r.sdin] }
  else { r with sclk := true }

/-- a receiver that is deselected forgets the bits it has -/
def Rx.write (w : Nat) (r : Rx) : Line × Bool → Rx
  | (.sclk, true) => r.clock w
  | (.sclk, false) => { r with sclk := false }
  | (.sdin, b) => { r with sdin := b }
  | (.dc, b) => { r with dc := b }
  | (.cs, b) => { r with cs := b, bits := if b then [] else r.bits }

def Rx.word (w : Nat) (r : Rx) : Line × Bool → Option (Bool × List Bool)
  | (.sclk, true) =>
    if (r.cs = false ∧ r.sclk = false) ∧ r.bits.length + 1 = w then some (r.dc, r.bits ++ [r.sdin])
    else none
  | _ => none

/-- the words received in the course of writes to the lines -/
def words (w : Nat) (r : Rx) (l : List (Line × Bool)) : List (Bool × List Bool) :=
  emitted (Rx.write w) (Rx.word w) r l

theorem words_append (w : Nat) (r : Rx) (k l : List (Line × Bool)) :
    words w r (k ++ l) = words w r k ++ words w (run (Rx.write w) r k) l := emitted_append _ _ r k l

/-- one bit: it is on the line when the clock rises -/
def clockBit (b : Bool) : List (Line × Bool) := [(.sclk, false), (.sdin, b), (.sclk, true)]

def clockIn (bits : List Bool) : List (Line × Bool) := bits.flatMap clockBit

theorem clockIn_cons (b : Bool) (bits : List Bool) :
    clockIn (b :: bits) = clockBit b ++ clockIn bits := rfl

section
variable {w : Nat} {r : Rx} (hcs : r.cs = false) (b : Bool)
include hcs

/-- a bit that is not the last of its word -/
theorem clockBit_more (h : r.bits.length + 1 ≠ w) :
    words w r (clockBit b) = [] ∧
      run (Rx.write w) r (clockBit b) = { r with sclk := true, sdin := b, bits := r.bits ++ [b] } := by
  have hrun : run (Rx.write w) r (clockBit b) = Rx.clock w { r with sclk := false, sdin := b } := rfl
  constructor
  · have hlast : Rx.word w { r with sclk := false, sdin := b } (.sclk, true) = none :=
      if_neg fun hword => h hword.2
    exact (emitted_cons_none rfl _).trans ((emitted_cons_none rfl _).trans (emitted_cons_none hlast _))
  · rw [hrun]
    unfold Rx.clock
    rw [if_pos ⟨hcs, rfl⟩, if_neg h]

/-- the last bit of a word -/
theorem clockBit_last (h : r.bits.length + 1 = w) :
    words w r (clockBit b) = [(r.dc, r.bits ++ [b])] ∧
      run (Rx.write w) r (clockBit b) = { r with sclk := true, sdin := b, bits := [] } := by
  have hrun : run (Rx.write w) r (clockBit b) = Rx.clock w { r with sclk := false, sdin := b } := rfl
  constructor
  · have hlast : Rx.word w { r with sclk := false, sdin := b } (.sclk, true) =
        some (r.dc, r.bits ++ [b]) := if_pos ⟨⟨hcs, rfl⟩, h⟩
    exact (emitted_cons_none rfl _).trans ((emitted_cons_none rfl _).trans (emitted_cons_some hlast _))
  · rw [hrun]
    unfold Rx.clock
    rw [if_pos ⟨hcs, rfl⟩, if_pos h]

end

/-- the rest of a word on the line: the word is received, and the next one can begin -/
theorem words_clockIn {w : Nat} (bits : List Bool) (hne : bits ≠ []) : ∀ r : Rx, r.cs = false →
    r.bits.length + bits.length = w → words w r (clockIn bits) = [(r.dc, r.bits ++ bits)] ∧
      (run (Rx.write w) r (clockIn bits)).bits = [] := by
  induction bits with
  | nil => exact absurd rfl hne
  | cons b rest ih =>
    intro r hcs hlen
    rw [List.length_cons] at hlen
    rw [clockIn_cons, words_append, run_append]
    by_cases hrest : rest = []
    · rw [hrest, List.length_nil] at hlen
      obtain ⟨hwords, hrun⟩ := clockBit_last hcs b (w := w) (by omega)
      rw [hwords, hrun, hrest]
      exact ⟨rfl, rfl⟩
    · have hpos : 0 < rest.length := List.length_pos_iff.2 hrest
      obtain ⟨hwords, hrun⟩ := clockBit_more hcs b (w := w) (by omega)
      rw [hwords, hrun, List.nil_append]
      have hlen' : (r.bits ++ [b]).length + rest.length = w := by
        rw [List.length_append, List.length_singleton]
        omega
      obtain ⟨hrestWords, hrestRun⟩ :=
        ih hrest { r with sclk := true, sdin := b, bits := r.bits ++ [b] } hcs hlen'
      refine ⟨?_, hrestRun⟩
      rw [hrestWords]
      show [(r.dc, r.bits ++ [b] ++ rest)] = _
      rw [List.append_assoc, List.singleton_append]

/-! ## numbers as bits -/

/-- the lowest `n` bits of `v`, the highest of them first -/
def msb : Nat → Nat → List Bool
  | 0, _ => []
  | n + 1, v => v.testBit n :: msb n v

def ofMsb (bits : List Bool) : Nat := bits.foldl (fun v b => 2 * v + b.toNat) 0

theorem foldl_msb (n v acc : Nat) :
    (msb n v).foldl (fun v b => 2 * v + b.toNat) acc = acc * 2 ^ n + v % 2 ^ n := by
  induction n generalizing acc with
  | zero => simp [msb, Nat.mod_one]
  | succ n ih =>
    show (msb n v).foldl _ (2 * acc + (v.testBit n).toNat) = _
    have hbit : v % 2 ^ (n + 1) = v % 2 ^ n + 2 ^ n * (v.testBit n).toNat := by
      rw [Nat.mod_pow_succ, Nat.toNat_testBit]
    rw [ih, hbit, Nat.add_mul, Nat.pow_succ, Nat.mul_comm 2 acc, Nat.mul_assoc, Nat.mul_comm 2 (2 ^ n),
      Nat.mul_comm (v.testBit n).toNat]
    omega

theorem ofMsb_msb {n v : Nat} (h : v < 2 ^ n) : ofMsb (msb n v) = v := by
  unfold ofMsb
  rw [foldl_msb, Nat.zero_mul, Nat.zero_add, Nat.mod_eq_of_lt h]

theorem foldl_not (bits : List Bool) (p q : Nat) :
    (bits.map not).foldl (fun v b => 2 * v + b.toNat) p + bits.foldl (fun v b => 2 * v + b.toNat) q =
      (p + q + 1) * 2 ^ bits.length - 1 := by
  induction bits generalizing p q with
  | nil => simp
  | cons b bits ih =>
    have hb : 2 * p + (!b).toNat + (2 * q + b.toNat) + 1 = (p + q + 1) * 2 := by
      cases b <;> simp <;> omega
    rw [List.map_cons, List.foldl_cons, List.foldl_cons, ih, hb, List.length_cons, Nat.pow_succ,
      Nat.mul_assoc, Nat.mul_comm 2]

/-- turned bits are the difference to the largest number -/
theorem ofMsb_not (bits : List Bool) : ofMsb (bits.map not) + ofMsb bits = 2 ^ bits.length - 1 := by
  have h := foldl_not bits 0 0
  rw [Nat.zero_add, Nat.one_mul] at h
  exact h

end SerialIn
