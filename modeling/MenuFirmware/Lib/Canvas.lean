import Mathlib.Data.List.Basic
import Mathlib.Data.List.Pairwise
import MenuFirmware.Lib.Run

/-!
# Pictures made of rectangles

A canvas has a value at every place of a grid.  A patch is a rectangle with what is drawn in it, and
painting it leaves the rest of the canvas alone.

* `Box`, `Box.Apart`     a rectangle, and two that have no place in common;
* `paint`, `Depicts`       a patch is painted, and a canvas that shows one;
* `Depicts.paint`          painting apart from a patch leaves it as it is;
* `shows_run`            after a list of patches a canvas shows what was painted, and what it had
                         shown before, where all others are apart from it;
* `paint_rows`, `paint_columns`   rows one below the other are a patch, and so are columns side by side;
* `Only`, `only_run`     patches that are painted into an empty rectangle are all there is in it.
-/

set_option linter.unusedSectionVars false

namespace Canvas
open Runs

/-- a rectangle of rows and columns -/
structure Box where
  top : Nat
  height : Nat
  left : Nat
  width : Nat
  deriving DecidableEq

def Box.Has (b : Box) (row col : Nat) : Prop :=
  (b.top ≤ row ∧ row < b.top + b.height) ∧ b.left ≤ col ∧ col < b.left + b.width

instance (b : Box) (row col : Nat) : Decidable (b.Has row col) := by
  unfold Box.Has
  infer_instance

theorem has_mk (top height left width row col : Nat) :
    (⟨top, height, left, width⟩ : Box).Has row col ↔
      (top ≤ row ∧ row < top + height) ∧ left ≤ col ∧ col < left + width := Iff.rfl

/-- one of them ends before the other begins -/
def Box.Apart (a b : Box) : Prop :=
  (a.top + a.height ≤ b.top ∨ b.top + b.height ≤ a.top) ∨
    a.left + a.width ≤ b.left ∨ b.left + b.width ≤ a.left

instance : DecidableRel Box.Apart := fun a b => by
  unfold Box.Apart
  infer_instance

theorem Box.Apart.symm {a b : Box} (h : a.Apart b) : b.Apart a := by
  unfold Box.Apart at *
  omega

theorem Box.Apart.not_has {a b : Box} (h : a.Apart b) {row col : Nat} (hb : b.Has row col) :
    ¬ a.Has row col := by
  unfold Box.Apart Box.Has at *
  omega

section
variable {β : Type*}

/-- a rectangle, and what is drawn at each row and column of it -/
structure Patch (β : Type*) where
  box : Box
  dots : Nat → Nat → β

def paint (c : Nat → Nat → β) (p : Patch β) : Nat → Nat → β := fun row col =>
  if p.box.Has row col then p.dots (row - p.box.top) (col - p.box.left) else c row col

def Depicts (c : Nat → Nat → β) (p : Patch β) : Prop :=
  ∀ row col, p.box.Has row col → c row col = p.dots (row - p.box.top) (col - p.box.left)

theorem paint_of_has {p : Patch β} {row col : Nat} (h : p.box.Has row col) (c : Nat → Nat → β) :
    paint c p row col = p.dots (row - p.box.top) (col - p.box.left) := if_pos h
theorem paint_of_not {p : Patch β} {row col : Nat} (h : ¬ p.box.Has row col) (c : Nat → Nat → β) :
    paint c p row col = c row col := if_neg h

theorem shows_paint (c : Nat → Nat → β) (p : Patch β) : Depicts (paint c p) p :=
  fun _ _ h => paint_of_has h c

theorem Depicts.paint {c : Nat → Nat → β} {p q : Patch β} (h : Depicts c p) (hq : q.box.Apart p.box) :
    Depicts (paint c q) p := by
  intro row col hp
  rw [paint_of_not (hq.not_has hp)]
  exact h row col hp

/-- a patch that lies within what is shown, with the same dots -/
theorem Depicts.within {c : Nat → Nat → β} {p q : Patch β} (h : Depicts c p)
    (hin : ∀ row col, q.box.Has row col → p.box.Has row col ∧
      p.dots (row - p.box.top) (col - p.box.left) = q.dots (row - q.box.top) (col - q.box.left)) :
    Depicts c q := by
  intro row col hq
  obtain ⟨hp, hdots⟩ := hin row col hq
  rw [h row col hp, hdots]

/-- a patch that was shown or is painted, where every other one is apart from it -/
theorem shows_run {ps : List (Patch β)} {p : Patch β} : ∀ {c : Nat → Nat → β},
    Depicts c p ∨ p ∈ ps → (∀ q ∈ ps, q = p ∨ q.box.Apart p.box) → Depicts (run Canvas.paint c ps) p := by
  induction ps with
  | nil =>
    intro c h _
    exact h.resolve_right List.not_mem_nil
  | cons q ps ih =>
    intro c h hap
    refine ih ?_ fun r hr => hap r (List.mem_cons_of_mem q hr)
    rcases hap q List.mem_cons_self with rfl | hq
    · exact Or.inl (shows_paint c q)
    · rcases h with h | h
      · exact Or.inl (h.paint hq)
      · rcases List.mem_cons.1 h with rfl | h
        · exact Or.inl (shows_paint c p)
        · exact Or.inr h

/-- places that no patch has -/
theorem run_outside {ps : List (Patch β)} {row col : Nat} : ∀ {c : Nat → Nat → β},
    (∀ p ∈ ps, ¬ p.box.Has row col) → run Canvas.paint c ps row col = c row col := by
  induction ps with
  | nil => exact fun _ => rfl
  | cons p ps ih =>
    intro c h
    rw [run_cons, ih fun q hq => h q (List.mem_cons_of_mem p hq),
      paint_of_not (h p List.mem_cons_self)]

theorem paint_empty (c : Nat → Nat → β) (top left width : Nat) (d : Nat → Nat → β) :
    Canvas.paint c ⟨⟨top, 0, left, width⟩, d⟩ = c := by
  funext row col
  refine paint_of_not (fun h => ?_) c
  have hrow : top ≤ row ∧ row < top + 0 := h.1
  omega

/-- one more row -/
theorem paint_below (c : Nat → Nat → β) (top height left width : Nat) (d : Nat → Nat → β) :
    Canvas.paint (Canvas.paint c ⟨⟨top, height, left, width⟩, d⟩)
        ⟨⟨top + height, 1, left, width⟩, fun _ => d height⟩ =
      Canvas.paint c ⟨⟨top, height + 1, left, width⟩, d⟩ := by
  funext row col
  unfold Canvas.paint Box.Has
  by_cases hcol : left ≤ col ∧ col < left + width
  · by_cases hlast : row = top + height
    · simp [hcol, hlast]
    · have hrow : (top ≤ row ∧ row < top + (height + 1)) ↔ (top ≤ row ∧ row < top + height) := by
        omega
      have hnot : ¬ (top + height ≤ row ∧ row < top + height + 1) := by omega
      exact (if_neg fun h => hnot h.1).trans (if_congr (and_congr_left' hrow.symm) rfl rfl)
  · simp [hcol]

/-- the rows of a patch, from the top -/
def patchRows (top left width n : Nat) (d : Nat → Nat → β) : List (Patch β) :=
  (List.range n).map fun i => ⟨⟨top + i, 1, left, width⟩, fun _ => d i⟩

theorem paint_rows (c : Nat → Nat → β) (top left width : Nat) (d : Nat → Nat → β) (n : Nat) :
    run Canvas.paint c (patchRows top left width n d) =
      Canvas.paint c ⟨⟨top, n, left, width⟩, d⟩ := by
  induction n with
  | zero => exact (paint_empty c top left width d).symm
  | succ n ih =>
    unfold patchRows at ih ⊢
    rw [List.range_succ, List.map_append, run_append, ih]
    exact paint_below c top n left width d

/-- one more piece on the right -/
theorem paint_right (c : Nat → Nat → β) (top height left width n : Nat) {d e : Nat → Nat → β}
    (h : ∀ i j, j < width → e i j = d i (width * n + j)) :
    Canvas.paint (Canvas.paint c ⟨⟨top, height, left, width * n⟩, d⟩)
        ⟨⟨top, height, left + width * n, width⟩, e⟩ =
      Canvas.paint c ⟨⟨top, height, left, width * (n + 1)⟩, d⟩ := by
  have hsum : width * (n + 1) = width * n + width := Nat.mul_succ width n
  funext row col
  by_cases hlast : (⟨top, height, left + width * n, width⟩ : Box).Has row col
  · have hall : (⟨top, height, left, width * (n + 1)⟩ : Box).Has row col := by
      rw [has_mk] at hlast ⊢
      omega
    have hcol : left + width * n ≤ col ∧ col < left + width * n + width := hlast.2
    have hj : width * n + (col - (left + width * n)) = col - left := by omega
    rw [paint_of_has hlast, paint_of_has hall]
    show e (row - top) (col - (left + width * n)) = d (row - top) (col - left)
    rw [h _ _ (by omega), hj]
  · rw [paint_of_not hlast]
    by_cases hfirst : (⟨top, height, left, width * n⟩ : Box).Has row col
    · have hall : (⟨top, height, left, width * (n + 1)⟩ : Box).Has row col := by
        rw [has_mk] at hfirst ⊢
        omega
      rw [paint_of_has hfirst, paint_of_has hall]
    · have hnone : ¬ (⟨top, height, left, width * (n + 1)⟩ : Box).Has row col := by
        rw [has_mk] at hlast hfirst ⊢
        omega
      rw [paint_of_not hfirst, paint_of_not hnone]

/-- pieces side by side -/
theorem paint_columns (c : Nat → Nat → β) (top height left width : Nat) (d : Nat → Nat → β)
    (e : Nat → Nat → Nat → β) (n : Nat)
    (h : ∀ k < n, ∀ i j, j < width → e k i j = d i (width * k + j)) :
    run Canvas.paint c
        ((List.range n).map fun k => ⟨⟨top, height, left + width * k, width⟩, e k⟩) =
      Canvas.paint c ⟨⟨top, height, left, width * n⟩, d⟩ := by
  induction n with
  | zero =>
    funext row col
    refine (paint_of_not (fun hin => ?_) c).symm
    have hcol : left ≤ col ∧ col < left + width * 0 := hin.2
    omega
  | succ n ih =>
    rw [List.range_succ, List.map_append, run_append, ih fun k hk => h k (Nat.lt_succ_of_lt hk)]
    exact paint_right c top height left width n (h n (Nat.lt_succ_self n))

/-- the patches are shown, and nothing else in a rectangle of `v` -/
structure Only (c : Nat → Nat → β) (b : Box) (v : β) (ps : List (Patch β)) : Prop where
  shown : ∀ p ∈ ps, Depicts c p
  rest : ∀ row col, b.Has row col → (∀ p ∈ ps, ¬ p.box.Has row col) → c row col = v

theorem only_run {ps : List (Patch β)} (hap : ps.Pairwise fun p q => p.box.Apart q.box) (b : Box)
    (v : β) (c : Nat → Nat → β) :
    Only (run Canvas.paint (Canvas.paint c ⟨b, fun _ _ => v⟩) ps) b v ps where
  shown := by
    intro p hp
    refine shows_run (Or.inr hp) fun q hq => ?_
    by_cases hqp : q = p
    · exact Or.inl hqp
    · have : Std.Symm fun p q : Patch β => p.box.Apart q.box := ⟨fun _ _ h => h.symm⟩
      exact Or.inr (hap.forall hq hp hqp)
  rest := by
    intro row col hb hout
    rw [run_outside hout]
    exact paint_of_has (p := ⟨b, fun _ _ => v⟩) hb c

end

end Canvas
