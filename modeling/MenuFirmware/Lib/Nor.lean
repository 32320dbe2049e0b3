import Mathlib.Data.List.Nodup
import Mathlib.Logic.Function.Basic

/-!
# NOR memory

A cell has an erased value `blank`; programming a cell combines its old value with the new one,
and a blank cell takes the new value as it is.  A memory is a function from addresses to cells.

* `program m l`         program the cells of the list `l` of pairs (address, value), in order;
* `erase m lo hi`       blank the cells from `lo` up to `hi`;
* `program_outside`     a cell that is not in the list keeps its value;
* `program_mem`         FRAME: with distinct addresses every cell of the list is programmed once;
* `program_take`        the same for a programming sequence cut off after `n` cells;
* `record`, `read`      a record of consecutive cells, and reading one back;
* `programAll`, `programAll_at`   several records, and what each of them is programmed to;
* `read_program_record` a blank record that no other part of the list touches reads back exactly.
-/

set_option linter.unusedSectionVars false
set_option linter.unusedVariables false

namespace Nor

/-- a memory cell that an erase blanks and that programming can only combine with -/
class Cell (β : Type*) where
  blank : β
  prog : β → β → β
  prog_blank : ∀ b, prog blank b = b

/-- bytes of a flash: erased to `0xFF`, programming clears bits -/
instance : Cell UInt8 where
  blank := 0xFF
  prog := fun old new => old &&& new
  prog_blank := fun b => by
    apply UInt8.toBitVec_inj.1
    show (255#8) &&& b.toBitVec = b.toBitVec
    rw [BitVec.and_comm]
    exact BitVec.and_allOnes

section
variable {β : Type*} [Cell β]
open Cell

abbrev Mem (β : Type*) := Nat → β

def programCell (m : Mem β) (p : Nat × β) : Mem β :=
  Function.update m p.1 (prog (m p.1) p.2)

def program (m : Mem β) (l : List (Nat × β)) : Mem β := l.foldl programCell m

def erase (m : Mem β) (lo hi : Nat) : Mem β := fun a => if lo ≤ a ∧ a < hi then blank else m a

theorem program_cons (m : Mem β) (p : Nat × β) (l : List (Nat × β)) :
    program m (p :: l) = program (programCell m p) l := rfl
theorem program_append (m : Mem β) (k l : List (Nat × β)) :
    program m (k ++ l) = program (program m k) l := by
  simp [program, List.foldl_append]

theorem programCell_self (m : Mem β) (p : Nat × β) :
    programCell m p p.1 = prog (m p.1) p.2 := by simp [programCell]
theorem programCell_of_ne (m : Mem β) (p : Nat × β) (a : Nat) (h : a ≠ p.1) :
    programCell m p a = m a := by simp [programCell, h]

theorem erase_inside (m : Mem β) (lo hi a : Nat) (h : lo ≤ a ∧ a < hi) :
    erase m lo hi a = blank := if_pos h

theorem program_outside (m : Mem β) (l : List (Nat × β)) (a : Nat) (h : a ∉ l.map Prod.fst) :
    program m l a = m a := by
  induction l generalizing m with
  | nil => rfl
  | cons p l ih =>
    rw [List.map_cons, List.mem_cons, not_or] at h
    rw [program_cons, ih _ h.2, programCell_of_ne m p a h.1]

theorem program_mem (m : Mem β) (l : List (Nat × β)) (a : Nat) (b : β) (h : (a, b) ∈ l)
    (hd : (l.map Prod.fst).Nodup) : program m l a = prog (m a) b := by
  induction l generalizing m with
  | nil => cases h
  | cons p l ih =>
    rw [List.map_cons, List.nodup_cons] at hd
    rw [program_cons]
    rcases List.mem_cons.1 h with rfl | h
    · rw [program_outside _ l a hd.1, programCell_self m (a, b)]
    · have hne : a ≠ p.1 := by
        rintro rfl
        exact hd.1 (List.mem_map.2 ⟨_, h, rfl⟩)
      rw [ih _ h hd.2, programCell_of_ne m p a hne]

/-- programming that changes no cell -/
theorem program_eq_self (m : Mem β) (l : List (Nat × β)) (h : ∀ p ∈ l, prog (m p.1) p.2 = m p.1) :
    program m l = m := by
  induction l with
  | nil => rfl
  | cons p l ih =>
    have hp : programCell m p = m := by
      unfold programCell
      rw [h p List.mem_cons_self, Function.update_eq_self]
    rw [program_cons, hp]
    exact ih fun q hq => h q (List.mem_cons_of_mem p hq)

/-- a sequence cut off after `n` cells: the cells before the cut are programmed, the others not -/
theorem program_take (m : Mem β) (l : List (Nat × β)) (n i a : Nat) (b : β)
    (hi : l[i]? = some (a, b)) (hd : (l.map Prod.fst).Nodup) :
    program m (l.take n) a = if i < n then prog (m a) b else m a := by
  obtain ⟨hlt, he⟩ := List.getElem?_eq_some_iff.1 hi
  by_cases h : i < n
  · rw [if_pos h]
    have hin : (a, b) ∈ l.take n := by
      rw [← he, List.mem_take_iff_getElem]
      exact ⟨i, by omega, rfl⟩
    exact program_mem m _ _ _ hin ((List.take_sublist n l).map Prod.fst |>.nodup hd)
  · rw [if_neg h]
    apply program_outside
    intro hmem
    rw [List.map_take, List.mem_take_iff_getElem] at hmem
    obtain ⟨j, hj, e⟩ := hmem
    have hi' : i < (l.map Prod.fst).length := by rwa [List.length_map]
    have e' : (l.map Prod.fst)[j] = (l.map Prod.fst)[i] := by rw [e, List.getElem_map, he]
    have hji : j = i := (List.Nodup.getElem_inj_iff hd).1 e'
    omega

/-! ## records of consecutive cells -/

/-- the cells of a record at `a` -/
def record (a : Nat) (bs : List β) : List (Nat × β) := bs.mapIdx fun i b => (a + i, b)

/-- the `n` cells from `a` on -/
def read (m : Mem β) (a n : Nat) : Fin n → β := fun i => m (a + i)

theorem record_length (a : Nat) (bs : List β) : (record a bs).length = bs.length := by
  simp [record]
theorem record_nil (a : Nat) : record a ([] : List β) = [] := rfl
theorem record_cons (a : Nat) (b : β) (bs : List β) :
    record a (b :: bs) = (a, b) :: record (a + 1) bs := by
  simp [record, List.mapIdx_cons, Nat.add_assoc, Nat.add_comm 1]
theorem record_fst (a : Nat) (bs : List β) :
    (record a bs).map Prod.fst = List.range' a bs.length := by
  induction bs generalizing a with
  | nil => rfl
  | cons b bs ih => rw [record_cons, List.map_cons, ih, List.length_cons, List.range'_succ]

theorem record_append (a : Nat) (x y : List β) :
    record a (x ++ y) = record a x ++ record (a + x.length) y := by
  induction x generalizing a with
  | nil => rfl
  | cons b x ih =>
    rw [List.cons_append, record_cons, ih, record_cons, List.cons_append, List.length_cons,
      Nat.add_assoc, Nat.add_comm 1]

theorem mem_record (a : Nat) (bs : List β) (p : Nat × β) :
    p ∈ record a bs ↔ ∃ i, ∃ h : i < bs.length, p = (a + i, bs[i]) := by
  unfold record
  rw [List.mem_mapIdx]
  constructor
  · rintro ⟨i, h, rfl⟩
    exact ⟨i, h, rfl⟩
  · rintro ⟨i, h, rfl⟩
    exact ⟨i, h, rfl⟩

theorem record_nodup (a : Nat) (bs : List β) : ((record a bs).map Prod.fst).Nodup := by
  rw [record_fst]
  exact List.nodup_range'

theorem mem_record_fst (a x : Nat) (bs : List β) :
    x ∈ (record a bs).map Prod.fst ↔ a ≤ x ∧ x < a + bs.length := by
  rw [record_fst, List.mem_range'_1]

/-- the first `k` cells from `a` on can be programmed without a change iff each of them can -/
theorem program_range_eq_self (m : Mem β) (a k : Nat) (f : Nat → β) :
    program m (record a ((List.range k).map f)) = m ↔ ∀ j < k, prog (m (a + j)) (f j) = m (a + j) := by
  have hmem : ∀ p, p ∈ record a ((List.range k).map f) ↔ ∃ j < k, p = (a + j, f j) := by
    intro p
    rw [mem_record]
    constructor
    · rintro ⟨j, hj, rfl⟩
      rw [List.getElem_map, List.getElem_range]
      exact ⟨j, by simpa using hj, rfl⟩
    · rintro ⟨j, hj, rfl⟩
      exact ⟨j, by simpa using hj, by rw [List.getElem_map, List.getElem_range]⟩
  constructor
  · intro h j hj
    rw [← program_mem m _ _ _ ((hmem _).2 ⟨j, hj, rfl⟩) (record_nodup a _), h]
  · intro h
    apply program_eq_self
    intro p hp
    obtain ⟨j, hj, rfl⟩ := (hmem p).1 hp
    exact h j hj

theorem record_ofFn (a : Nat) {n : Nat} (f : Fin n → β) :
    record a (List.ofFn f) = List.ofFn fun i => (a + i.1, f i) := by
  apply List.ext_getElem
  · simp [record]
  · intro i h1 h2
    simp [record]

theorem mem_record_ofFn (a : Nat) {n : Nat} (f : Fin n → β) (i : Fin n) :
    (a + i.1, f i) ∈ record a (List.ofFn f) := by
  rw [record_ofFn]
  exact List.mem_ofFn.2 ⟨i, rfl⟩

/-- a blank record that a sequence with distinct addresses contains reads back exactly -/
theorem read_program_record (m : Mem β) (l : List (Nat × β)) (a : Nat) {n : Nat} (f : Fin n → β)
    (hd : (l.map Prod.fst).Nodup) (hsub : record a (List.ofFn f) ⊆ l)
    (hb : ∀ i : Fin n, m (a + i) = blank) : read (program m l) a n = f := by
  funext i
  show program m l (a + i) = f i
  rw [program_mem m l (a + i) (f i) (hsub (mem_record_ofFn a f i)) hd, hb i, prog_blank]

/-! ## several records -/

/-- records programmed one after the other -/
def programAll (m : Mem β) (l : List (Nat × List β)) : Mem β :=
  l.foldl (fun m p => program m (record p.1 p.2)) m

/-- two stretches of cells, each with its length, that do not meet -/
def Apart (p q : Nat × Nat) : Prop := p.1 + p.2 ≤ q.1 ∨ q.1 + q.2 ≤ p.1

instance instDecidableApart (p q : Nat × Nat) : Decidable (Apart p q) :=
  inferInstanceAs (Decidable (_ ∨ _))

/-- where the records of a list stand and how long they are -/
def extents (l : List (Nat × List β)) : List (Nat × Nat) := l.map fun p => (p.1, p.2.length)

theorem programAll_cons (m : Mem β) (p : Nat × List β) (l : List (Nat × List β)) :
    programAll m (p :: l) = programAll (program m (record p.1 p.2)) l := rfl

theorem programAll_outside (m : Mem β) (l : List (Nat × List β)) {x : Nat}
    (h : ∀ q ∈ extents l, x < q.1 ∨ q.1 + q.2 ≤ x) : programAll m l x = m x := by
  induction l generalizing m with
  | nil => rfl
  | cons p l ih =>
    have hp : x < p.1 ∨ p.1 + p.2.length ≤ x := h _ List.mem_cons_self
    rw [programAll_cons, ih _ fun q hq => h q (List.mem_cons_of_mem _ hq)]
    apply program_outside
    rw [mem_record_fst]
    omega

theorem program_record_at (m : Mem β) (a : Nat) (bs : List β) {i : Nat} (hi : i < bs.length) :
    program m (record a bs) (a + i) = prog (m (a + i)) bs[i] :=
  program_mem m _ _ _ ((mem_record a bs _).2 ⟨i, hi, rfl⟩) (record_nodup a bs)

/-- records that are apart do not touch one another -/
theorem programAll_at {l : List (Nat × List β)} {a : Nat} {bs : List β} (h : (a, bs) ∈ l)
    (hd : (extents l).Pairwise Apart) {i : Nat} (hi : i < bs.length) (m : Mem β) :
    programAll m l (a + i) = prog (m (a + i)) bs[i] := by
  induction l generalizing m with
  | nil => cases h
  | cons p l ih =>
    obtain ⟨hfirst, hrest⟩ := List.pairwise_cons.1 hd
    rw [programAll_cons]
    rcases List.mem_cons.1 h with rfl | hmem
    · rw [programAll_outside, program_record_at m a bs hi]
      intro q hq
      have hapart : a + bs.length ≤ q.1 ∨ q.1 + q.2 ≤ a := hfirst q hq
      omega
    · have hin : (a, bs.length) ∈ extents l := List.mem_map.2 ⟨_, hmem, rfl⟩
      have hapart : p.1 + p.2.length ≤ a ∨ a + bs.length ≤ p.1 := hfirst _ hin
      rw [ih hmem hrest, program_outside]
      rw [mem_record_fst]
      omega

end

end Nor
