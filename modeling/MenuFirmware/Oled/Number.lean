import MenuFirmware.Oled.Draw

/-!
# Numbers (`OLED_ShowNum`)

The digits of a number are taken with powers of ten, the highest first, and leading zeros are left
blank.  The powers have 32 bits: the tenth is not what it should be any more, and the 32nd is zero.

* `oledPow`, `oledPow_toNat`   a power in 32 bits;
* `oledShowNum`            the function, which divides by the powers;
* `numCells`               digits in their places, with the leading zeros blank;
* `showNumLoop_eq`         what is drawn are the digits that the divisions give;
* `numCells_inj`           other digits look different;
* `digitOf_eq_iff`         when a division gives the digit;
* `showsNum_iff`           when a number is drawn as it should be;
* `oledShowNum_reads`      what is drawn then is read as the number.
-/

set_option linter.unusedSectionVars false
set_option linter.unusedVariables false

namespace MenuFirmware

def oledPow (m : UInt8) : Nat → UInt32
  | 0 => 1
  | n + 1 => oledPow m n * m.toUInt32

/-- the digit that a division gives -/
def digitOf (num : UInt32) (k : Nat) : UInt8 := (num / oledPow 10 k % 10).toUInt8

def numColumn (x size : UInt8) (t : Nat) : UInt8 := x + UInt8.ofNat (size.toNat / 2 * t)

/-- one turn of the loop: the new `enshow` and the character drawn, or a division by zero -/
def showNumStep (x y : UInt8) (num : UInt32) (len : Nat) (size : UInt8) (t : Nat) (enshow : Bool) :
    Option (Bool × CharCall) :=
  if oledPow 10 (len - t - 1) = 0 then none
  else if enshow = false ∧ t < len - 1 then
    if digitOf num (len - t - 1) = 0 then some (false, ⟨numColumn x size t, y, 0x20⟩)
    else some (true, ⟨numColumn x size t, y, digitOf num (len - t - 1) + 0x30⟩)
  else some (enshow, ⟨numColumn x size t, y, digitOf num (len - t - 1) + 0x30⟩)

def showNumLoop (x y : UInt8) (num : UInt32) (len : Nat) (size : UInt8) :
    Nat → Nat → Bool → Option (List CharCall)
  | 0, _, _ => some []
  | n + 1, t, enshow =>
    (showNumStep x y num len size t enshow).bind fun p =>
      (showNumLoop x y num len size n (t + 1) p.1).map fun l => p.2 :: l

def showNumCalls (x y : UInt8) (num : UInt32) (len size : UInt8) : Option (List CharCall) :=
  showNumLoop x y num len.toNat size len.toNat 0 false

def oledShowNum (font : OledFont) (x y : UInt8) (num : UInt32) (len size : UInt8) :
    Option (List OledOp) :=
  (showNumCalls x y num len size).map fun l =>
    l.flatMap fun c => oledShowChar font c.x c.y c.chr size

/-! ## what is to be drawn -/

def decDigit (num : UInt32) (k : Nat) : UInt8 := UInt8.ofNat (num.toNat / 10 ^ k % 10)

/-- the digits of the first `t` places are zero -/
def LeadZeros (d : Nat → UInt8) (len t : Nat) : Prop := ∀ s < t, d (len - 1 - s) = 0

instance instDecidableLeadZeros (d : Nat → UInt8) (len t : Nat) : Decidable (LeadZeros d len t) :=
  inferInstanceAs (Decidable (∀ s < t, _))

theorem leadZeros_succ (d : Nat → UInt8) (len t : Nat) :
    LeadZeros d len (t + 1) ↔ LeadZeros d len t ∧ d (len - 1 - t) = 0 := by
  constructor
  · intro h
    exact ⟨fun s hs => h s (Nat.lt_succ_of_lt hs), h t (Nat.lt_succ_self t)⟩
  · rintro ⟨h, hlast⟩ s hs
    by_cases hst : s = t
    · rw [hst, hlast]
    · exact h s (by omega)

/-- a place that is left blank: not the last one -/
def BlankAt (d : Nat → UInt8) (len t : Nat) : Prop := t + 1 < len ∧ LeadZeros d len (t + 1)

instance instDecidableBlankAt (d : Nat → UInt8) (len t : Nat) : Decidable (BlankAt d len t) :=
  inferInstanceAs (Decidable (_ ∧ _))

def numCell (d : Nat → UInt8) (x y : UInt8) (len : Nat) (size : UInt8) (t : Nat) : CharCall :=
  ⟨numColumn x size t, y, if BlankAt d len t then 0x20 else d (len - 1 - t) + 0x30⟩

/-- the lowest `len` digits, right-aligned and without leading zeros -/
def numCells (d : Nat → UInt8) (x y : UInt8) (len : Nat) (size : UInt8) : List CharCall :=
  (List.range' 0 len).map (numCell d x y len size)

/-! ## the loop -/

section
variable {x y : UInt8} {num : UInt32} {len : Nat} {size : UInt8}

theorem showNumStep_zero {t : Nat} {enshow : Bool} (h : oledPow 10 (len - t - 1) = 0) :
    showNumStep x y num len size t enshow = none := if_pos h

/-- a turn draws the cell and keeps track of the leading zeros -/
theorem showNumStep_some {t : Nat} {enshow : Bool} (ht : t < len)
    (h : oledPow 10 (len - t - 1) ≠ 0) (hshow : enshow = true ↔ ¬ LeadZeros (digitOf num) len t) :
    ∃ enshow', showNumStep x y num len size t enshow =
        some (enshow', numCell (digitOf num) x y len size t) ∧
      (t + 1 < len → (enshow' = true ↔ ¬ LeadZeros (digitOf num) len (t + 1))) := by
  have hexp : len - t - 1 = len - 1 - t := by omega
  unfold showNumStep numCell
  rw [if_neg h, hexp, leadZeros_succ]
  by_cases hlead : enshow = false ∧ t < len - 1
  · rw [if_pos hlead]
    have hzeros : LeadZeros (digitOf num) len t := by
      by_contra hnot
      rw [hshow.2 hnot] at hlead
      exact Bool.noConfusion hlead.1
    by_cases hdigit : digitOf num (len - 1 - t) = 0
    · have hblank : BlankAt (digitOf num) len t :=
        ⟨by omega, (leadZeros_succ _ _ _).2 ⟨hzeros, hdigit⟩⟩
      refine ⟨false, ?_, fun _ => ?_⟩
      · rw [if_pos hdigit, if_pos hblank]
      · simp [hzeros, hdigit]
    · have hblank : ¬ BlankAt (digitOf num) len t :=
        fun hb => hdigit ((leadZeros_succ _ _ _).1 hb.2).2
      refine ⟨true, ?_, fun _ => ?_⟩
      · rw [if_neg hdigit, if_neg hblank]
      · simp [hdigit]
  · rw [if_neg hlead]
    have hoff : t + 1 < len → enshow = true := by
      intro hlt
      rw [← Bool.not_eq_false]
      exact fun hoff => hlead ⟨hoff, by omega⟩
    have hblank : ¬ BlankAt (digitOf num) len t :=
      fun hb => hshow.1 (hoff hb.1) ((leadZeros_succ _ _ _).1 hb.2).1
    refine ⟨enshow, by rw [if_neg hblank], fun hlt => ?_⟩
    have hnot := hshow.1 (hoff hlt)
    simp [hoff hlt, hnot]

/-- the loop draws the digits that the divisions give, unless a power is zero -/
theorem showNumLoop_eq (n : Nat) : ∀ (t : Nat) (enshow : Bool), t + n = len →
    (n ≠ 0 → (enshow = true ↔ ¬ LeadZeros (digitOf num) len t)) →
    showNumLoop x y num len size n t enshow =
      if ∀ k < n, oledPow 10 k ≠ 0 then
        some ((List.range' t n).map (numCell (digitOf num) x y len size))
      else none := by
  induction n with
  | zero =>
    intro t enshow _ _
    have hnone : ∀ k < 0, oledPow 10 k ≠ 0 := fun k hk => absurd hk (Nat.not_lt_zero k)
    rw [if_pos hnone]
    rfl
  | succ n ih =>
    intro t enshow hlen hshow
    have hexp : len - t - 1 = n := by omega
    unfold showNumLoop
    by_cases hzero : oledPow 10 n = 0
    · have hnot : ¬ ∀ k < n + 1, oledPow 10 k ≠ 0 := fun hall => hall n (Nat.lt_succ_self n) hzero
      rw [showNumStep_zero (by rw [hexp]; exact hzero), if_neg hnot]
      rfl
    · have hpow : oledPow 10 (len - t - 1) ≠ 0 := by rwa [hexp]
      have hsome : ∃ enshow', showNumStep x y num len size t enshow =
            some (enshow', numCell (digitOf num) x y len size t) ∧
          (t + 1 < len → (enshow' = true ↔ ¬ LeadZeros (digitOf num) len (t + 1))) :=
        showNumStep_some (by omega) hpow (hshow (Nat.succ_ne_zero n))
      obtain ⟨enshow', hstep, hshow'⟩ := hsome
      have hiff : (∀ k < n + 1, oledPow 10 k ≠ 0) ↔ ∀ k < n, oledPow 10 k ≠ 0 := by
        constructor
        · exact fun hall k hk => hall k (by omega)
        · intro hall k hk
          by_cases hkn : k = n
          · rw [hkn]
            exact hzero
          · exact hall k (by omega)
      rw [hstep, Option.bind_some, ih (t + 1) enshow' (by omega) fun hn => hshow' (by omega)]
      by_cases hall : ∀ k < n, oledPow 10 k ≠ 0
      · rw [if_pos hall, if_pos (hiff.2 hall), List.range'_succ]
        rfl
      · rw [if_neg hall, if_neg fun h => hall (hiff.1 h)]
        rfl

end

/-! ## digits and characters -/

theorem digit_ne_space {b : UInt8} (hb : b.toNat < 10) : b + 0x30 ≠ 0x20 := by
  intro heq
  have hnat := congrArg UInt8.toNat heq
  rw [UInt8.toNat_add] at hnat
  replace hnat : (b.toNat + 0x30) % 256 = 0x20 := hnat
  omega

/-- other digits look different -/
theorem numCells_inj {d d' : Nat → UInt8} (hd : ∀ k, (d k).toNat < 10) (hd' : ∀ k, (d' k).toNat < 10)
    (x y : UInt8) (len : Nat) (size : UInt8) :
    numCells d x y len size = numCells d' x y len size ↔ ∀ k < len, d k = d' k := by
  constructor
  · intro h k hk
    have hcell : numCell d x y len size (len - 1 - k) = numCell d' x y len size (len - 1 - k) :=
      List.map_inj_left.1 h (len - 1 - k) (List.mem_range'_1.2 ⟨Nat.zero_le _, by omega⟩)
    have hchr := congrArg CharCall.chr hcell
    have hback : len - 1 - (len - 1 - k) = k := by omega
    unfold numCell at hchr
    rw [hback] at hchr
    by_cases hblank : BlankAt d len (len - 1 - k)
    · have hzero := ((leadZeros_succ _ _ _).1 hblank.2).2
      by_cases hblank' : BlankAt d' len (len - 1 - k)
      · have hzero' := ((leadZeros_succ _ _ _).1 hblank'.2).2
        rw [hback] at hzero hzero'
        rw [hzero, hzero']
      · rw [if_pos hblank, if_neg hblank'] at hchr
        exact absurd hchr.symm (digit_ne_space (hd' k))
    · rw [if_neg hblank] at hchr
      by_cases hblank' : BlankAt d' len (len - 1 - k)
      · rw [if_pos hblank'] at hchr
        exact absurd hchr (digit_ne_space (hd k))
      · rw [if_neg hblank'] at hchr
        exact (UInt8.add_left_inj 0x30).1 hchr
  · intro h
    apply List.map_congr_left
    intro t ht
    have hlt : t < len := by
      have hrange := (List.mem_range'_1.1 ht).2
      omega
    have hblank : BlankAt d len t ↔ BlankAt d' len t := by
      apply and_congr_right
      intro hlast
      apply forall₂_congr
      intro s hs
      rw [h (len - 1 - s) (by omega)]
    unfold numCell
    rw [h (len - 1 - t) (by omega)]
    by_cases hb : BlankAt d len t
    · rw [if_pos hb, if_pos (hblank.1 hb)]
    · rw [if_neg hb, if_neg fun hb' => hb (hblank.2 hb')]

/-! ## the powers -/

theorem oledPow_toNat (m : UInt8) (n : Nat) : (oledPow m n).toNat = m.toNat ^ n % 0x100000000 := by
  induction n with
  | zero => rfl
  | succ n ih =>
    show (oledPow m n * m.toUInt32).toNat = _
    rw [UInt32.toNat_mul, ih, UInt8.toNat_toUInt32, Nat.pow_succ]
    exact Nat.mod_mul_mod _ _ _

theorem oledPow_ten (k : Nat) : (oledPow 10 k).toNat = 10 ^ k % 0x100000000 := oledPow_toNat 10 k

theorem digitOf_toNat (num : UInt32) (k : Nat) :
    (digitOf num k).toNat = num.toNat / (10 ^ k % 0x100000000) % 10 := by
  unfold digitOf
  rw [UInt32.toNat_toUInt8, UInt32.toNat_mod, UInt32.toNat_div, oledPow_ten]
  exact Nat.mod_eq_of_lt (Nat.lt_of_lt_of_le (Nat.mod_lt _ (by decide)) (by decide))

theorem decDigit_toNat (num : UInt32) (k : Nat) :
    (decDigit num k).toNat = num.toNat / 10 ^ k % 10 := by
  unfold decDigit
  rw [UInt8.toNat_ofNat']
  exact Nat.mod_eq_of_lt (Nat.lt_of_lt_of_le (Nat.mod_lt _ (by decide)) (by decide))

theorem ten_pow_lt {k : Nat} (hk : k < 10) : 10 ^ k < 0x100000000 :=
  Nat.lt_of_le_of_lt (Nat.pow_le_pow_right (by decide) (Nat.le_of_lt_succ hk))
    (show 10 ^ 9 < 0x100000000 by decide)

theorem ten_pow_ge {k : Nat} (hk : 10 ≤ k) : 0x100000000 ≤ 10 ^ k :=
  Nat.le_trans (show 0x100000000 ≤ 10 ^ 10 by decide) (Nat.pow_le_pow_right (by decide) hk)

/-- a division by a power that is not zero gives the digit, up to the tenth always -/
theorem digitOf_eq_iff (num : UInt32) (k : Nat) :
    oledPow 10 k ≠ 0 ∧ digitOf num k = decDigit num k ↔
      (10 ≤ k → num.toNat % (10 * (10 ^ k % 0x100000000)) < 10 ^ k % 0x100000000) := by
  rw [Ne, ← UInt32.toNat_inj, oledPow_ten, ← UInt8.toNat_inj, digitOf_toNat, decDigit_toNat]
  show 10 ^ k % 0x100000000 ≠ 0 ∧ _ ↔ _
  by_cases hk : 10 ≤ k
  · have hbig : num.toNat / 10 ^ k = 0 :=
      Nat.div_eq_of_lt (Nat.lt_of_lt_of_le num.toNat_lt (ten_pow_ge hk))
    rw [hbig, Nat.zero_mod, Nat.mul_comm 10, ← Nat.mod_mul_right_div_self]
    generalize 10 ^ k % 0x100000000 = p
    constructor
    · rintro ⟨hne, hdiv⟩ _
      exact (Nat.div_eq_zero_iff_lt (Nat.pos_of_ne_zero hne)).1 hdiv
    · intro hlt
      exact ⟨Nat.ne_of_gt (Nat.lt_of_le_of_lt (Nat.zero_le _) (hlt hk)), Nat.div_eq_of_lt (hlt hk)⟩
  · have hlt := ten_pow_lt (Nat.lt_of_not_le hk)
    rw [Nat.mod_eq_of_lt hlt]
    have hpos : 10 ^ k ≠ 0 := Nat.ne_of_gt (Nat.pow_pos (by decide))
    exact ⟨fun _ h => absurd h hk, fun _ => ⟨hpos, rfl⟩⟩

/-! ## when a number is drawn as it should be -/

theorem showNumCalls_eq (x y : UInt8) (num : UInt32) (len size : UInt8) :
    showNumCalls x y num len size = if ∀ k < len.toNat, oledPow 10 k ≠ 0 then
      some (numCells (digitOf num) x y len.toNat size) else none := by
  apply showNumLoop_eq len.toNat 0 false (Nat.zero_add _)
  intro _
  have hnone : LeadZeros (digitOf num) len.toNat 0 := fun s hs => absurd hs (Nat.not_lt_zero s)
  simp [hnone]

theorem digits_iff (x y : UInt8) (num : UInt32) (len size : UInt8) :
    showNumCalls x y num len size = some (numCells (decDigit num) x y len.toNat size) ↔
      ∀ k, 10 ≤ k → k < len.toNat →
        num.toNat % (10 * (10 ^ k % 0x100000000)) < 10 ^ k % 0x100000000 := by
  have hdigit : ∀ k, (digitOf num k).toNat < 10 := by
    intro k
    rw [digitOf_toNat]
    exact Nat.mod_lt _ (by decide)
  have hdec : ∀ k, (decDigit num k).toNat < 10 := by
    intro k
    rw [decDigit_toNat]
    exact Nat.mod_lt _ (by decide)
  have hall : (∀ k, 10 ≤ k → k < len.toNat →
      num.toNat % (10 * (10 ^ k % 0x100000000)) < 10 ^ k % 0x100000000) ↔
      ∀ k < len.toNat, oledPow 10 k ≠ 0 ∧ digitOf num k = decDigit num k := by
    constructor
    · exact fun h k hk => (digitOf_eq_iff num k).2 fun h10 => h k h10 hk
    · exact fun h k h10 hk => (digitOf_eq_iff num k).1 (h k hk) h10
  rw [hall, showNumCalls_eq]
  by_cases hpow : ∀ k < len.toNat, oledPow 10 k ≠ 0
  · rw [if_pos hpow, Option.some_inj, numCells_inj hdigit hdec]
    exact ⟨fun h k hk => ⟨hpow k hk, h k hk⟩, fun h k hk => (h k hk).2⟩
  · rw [if_neg hpow]
    constructor
    · intro h
      cases h
    · exact fun h => absurd (fun k hk => (h k hk).1) hpow

/-- the number is drawn: nothing is divided by zero, the last digits stand in their places, and every
divisor is the power that it should be -/
structure ShowsNum (x y : UInt8) (num : UInt32) (len size : UInt8) : Prop where
  divides : (showNumCalls x y num len size).isSome
  digits : showNumCalls x y num len size = some (numCells (decDigit num) x y len.toNat size)
  powers : ∀ k < len.toNat, (oledPow 10 k).toNat = 10 ^ k

/-- all of it holds up to ten places; behind that, the digits alone are right as long as no division
by a power that was cut off to 32 bits gives a digit -/
theorem showsNum_iff (x y : UInt8) (num : UInt32) (len size : UInt8) :
    (ShowsNum x y num len size ↔ len ≤ 10) ∧
      (showNumCalls x y num len size = some (numCells (decDigit num) x y len.toNat size) ↔
        ∀ k, 10 ≤ k → k < len.toNat →
          num.toNat % (10 * (10 ^ k % 0x100000000)) < 10 ^ k % 0x100000000) := by
  refine ⟨?_, digits_iff x y num len size⟩
  rw [UInt8.le_iff_toNat_le]
  show _ ↔ len.toNat ≤ 10
  constructor
  · intro h
    by_contra hlong
    have hten := h.powers 10 (by omega)
    rw [oledPow_ten] at hten
    revert hten
    decide
  · intro hlen
    have hdigits : showNumCalls x y num len size =
        some (numCells (decDigit num) x y len.toNat size) :=
      (digits_iff x y num len size).2 fun k h10 hk => absurd hk (by omega)
    refine ⟨by rw [hdigits]; rfl, hdigits, ?_⟩
    intro k hk
    rw [oledPow_ten, Nat.mod_eq_of_lt (ten_pow_lt (by omega))]

/-- with eleven places the largest number gets a digit in front of its first one -/
theorem longNumber_fails : ¬ ShowsNum 0 0 4294967295 11 16 := by
  intro h
  have hlimit := (digits_iff 0 0 4294967295 11 16).1 h.digits 10 (Nat.le_refl 10) (by decide)
  revert hlimit
  decide

/-! ## reading a number -/

/-- a blank place counts as a zero -/
def cellDigit (c : CharCall) : Nat := if c.chr = 0x20 then 0 else c.chr.toNat - 0x30

def readCells (l : List CharCall) : Nat := l.foldl (fun v c => 10 * v + cellDigit c) 0

theorem cellDigit_numCell (num : UInt32) (x y : UInt8) (len : Nat) (size : UInt8) (t : Nat) :
    cellDigit (numCell (decDigit num) x y len size t) = num.toNat / 10 ^ (len - 1 - t) % 10 := by
  rw [← decDigit_toNat]
  have hlt : (decDigit num (len - 1 - t)).toNat < 10 := by
    rw [decDigit_toNat]
    exact Nat.mod_lt _ (by decide)
  unfold cellDigit numCell
  by_cases hblank : BlankAt (decDigit num) len t
  · rw [if_pos hblank, if_pos rfl, ((leadZeros_succ _ _ _).1 hblank.2).2]
    rfl
  · have hchr : (decDigit num (len - 1 - t) + 0x30).toNat =
        (decDigit num (len - 1 - t)).toNat + 0x30 := by
      rw [UInt8.toNat_add]
      exact Nat.mod_eq_of_lt (show _ + 0x30 < 256 by omega)
    rw [if_neg hblank, if_neg (digit_ne_space hlt), hchr, Nat.add_sub_cancel]

theorem foldl_numCells (num : UInt32) (x y : UInt8) (len : Nat) (size : UInt8) (n : Nat) :
    ∀ t v, t + n = len → ((List.range' t n).map (numCell (decDigit num) x y len size)).foldl
      (fun v c => 10 * v + cellDigit c) v = v * 10 ^ n + num.toNat % 10 ^ n := by
  induction n with
  | zero =>
    intro t v _
    simp [Nat.mod_one]
  | succ n ih =>
    intro t v hlen
    have hexp : len - 1 - t = n := by omega
    rw [List.range'_succ, List.map_cons, List.foldl_cons, ih (t + 1) _ (by omega), cellDigit_numCell,
      hexp, Nat.mod_pow_succ, Nat.add_mul, Nat.pow_succ, Nat.mul_comm 10 v, Nat.mul_assoc,
      Nat.mul_comm 10 (10 ^ n), Nat.mul_comm (num.toNat / 10 ^ n % 10)]
    omega

/-- the cells are the number without the digits that have no place -/
theorem readCells_numCells (num : UInt32) (x y : UInt8) (len : Nat) (size : UInt8) :
    readCells (numCells (decDigit num) x y len size) = num.toNat % 10 ^ len := by
  unfold readCells numCells
  rw [foldl_numCells num x y len size len 0 0 (Nat.zero_add len), Nat.zero_mul, Nat.zero_add]

theorem oledShowNum_reads (font : OledFont) (x y : UInt8) (num : UInt32) {len : UInt8}
    (h : len ≤ 10) (size : UInt8) :
    ∃ l, oledShowNum font x y num len size =
        some (l.flatMap fun c => oledShowChar font c.x c.y c.chr size) ∧
      readCells l = num.toNat % 10 ^ len.toNat := by
  refine ⟨numCells (decDigit num) x y len.toNat size, ?_, readCells_numCells _ _ _ _ _⟩
  have hten : len.toNat ≤ 10 := UInt8.le_iff_toNat_le.1 h
  unfold oledShowNum
  rw [(digits_iff x y num len size).2 fun k h10 hk => absurd hk (by omega)]
  rfl

end MenuFirmware
