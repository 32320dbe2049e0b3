import MenuFirmware.Flash.Romflash

/-!
# Calls of the HAL that are refused

What a call of `romflash.c` has done is a matter of the HAL calls that it makes: the bytes up to the
first one that is refused are programmed, and the control register is left open behind it.

* `acceptedCalls`      how many of the next calls the HAL takes before it refuses one;
* `AllAccepted`        it takes all of them;
* `pagesWriteLoop_spec`  memory and number of calls after a write, whatever the HAL returns;
* `romflashPagesWrite_prog`  the same of the loop with its index: it ends, and an initial part of the
                       buffer is programmed, all of it exactly when the call returns `TRUE`;
* `romflashPagesWrite_idle`  when a write fails and changes nothing;
* `romflashCleanPages_locked_iff`, `romflashPagesWrite_locked_iff`, `romflashByteWrite_locked_iff`
                       the register is locked again iff no call has been refused.
-/

namespace MenuFirmware
open Nor

/-- of the `len` calls from the `n`-th on, those before the first refusal -/
def acceptedCalls (hal : Nat → HalStatus) : Nat → Nat → Nat
  | _, 0 => 0
  | n, len + 1 => if hal n = .ok then acceptedCalls hal (n + 1) len + 1 else 0

/-- the number of the call after a write of `len` bytes that begins with the `n`-th -/
def nextCall (hal : Nat → HalStatus) : Nat → Nat → Nat
  | n, 0 => n
  | n, len + 1 => if hal n = .ok then nextCall hal (n + 1) len else n + 1

/-- the HAL takes the `len` calls from the `n`-th on -/
def AllAccepted (hal : Nat → HalStatus) (n len : Nat) : Prop := ∀ j < len, hal (n + j) = .ok

section
variable (hal : Nat → HalStatus)

theorem acceptedCalls_ok {n : Nat} (h : hal n = .ok) (len : Nat) :
    acceptedCalls hal n (len + 1) = acceptedCalls hal (n + 1) len + 1 := if_pos h
theorem acceptedCalls_refused {n : Nat} (h : hal n ≠ .ok) (len : Nat) :
    acceptedCalls hal n (len + 1) = 0 := if_neg h
theorem nextCall_ok {n : Nat} (h : hal n = .ok) (len : Nat) :
    nextCall hal n (len + 1) = nextCall hal (n + 1) len := if_pos h
theorem nextCall_refused {n : Nat} (h : hal n ≠ .ok) (len : Nat) :
    nextCall hal n (len + 1) = n + 1 := if_neg h

theorem allAccepted_zero (n : Nat) : AllAccepted hal n 0 := fun j hj => absurd hj (Nat.not_lt_zero j)

theorem allAccepted_succ (n len : Nat) :
    AllAccepted hal n (len + 1) ↔ hal n = .ok ∧ AllAccepted hal (n + 1) len := by
  have hadd : ∀ j, n + 1 + j = n + (j + 1) := fun j => by omega
  constructor
  · refine fun h => ⟨h 0 (Nat.succ_pos len), fun j hj => ?_⟩
    rw [hadd]
    exact h (j + 1) (Nat.succ_lt_succ hj)
  · rintro ⟨h0, h⟩ j hj
    cases j with
    | zero => exact h0
    | succ j => exact hadd j ▸ h j (Nat.lt_of_succ_lt_succ hj)

theorem allAccepted_one (n : Nat) : AllAccepted hal n 1 ↔ hal n = .ok := by
  rw [allAccepted_succ]
  exact and_iff_left (allAccepted_zero hal (n + 1))

theorem allAccepted_add (n k l : Nat) :
    AllAccepted hal n (k + l) ↔ AllAccepted hal n k ∧ AllAccepted hal (n + k) l := by
  induction k generalizing n with
  | zero => rw [Nat.zero_add, Nat.add_zero, and_iff_right (allAccepted_zero hal n)]
  | succ k ih =>
    rw [Nat.add_right_comm, allAccepted_succ, ih, allAccepted_succ, and_assoc, Nat.add_right_comm,
      Nat.add_assoc n k 1]

theorem acceptedCalls_le (n len : Nat) : acceptedCalls hal n len ≤ len := by
  induction len generalizing n with
  | zero => exact Nat.le_refl 0
  | succ len ih =>
    by_cases h : hal n = .ok
    · rw [acceptedCalls_ok hal h]
      exact Nat.succ_le_succ (ih (n + 1))
    · rw [acceptedCalls_refused hal h]
      exact Nat.zero_le _

theorem acceptedCalls_eq_iff (n len : Nat) :
    acceptedCalls hal n len = len ↔ AllAccepted hal n len := by
  induction len generalizing n with
  | zero => exact iff_of_true rfl (allAccepted_zero hal n)
  | succ len ih =>
    rw [allAccepted_succ]
    by_cases h : hal n = .ok
    · rw [acceptedCalls_ok hal h, Nat.add_right_cancel_iff, ih, and_iff_right h]
    · rw [acceptedCalls_refused hal h]
      exact iff_of_false (Nat.succ_ne_zero len).symm fun e => h e.1

theorem acceptedCalls_allAccepted {n len : Nat} (h : AllAccepted hal n len) :
    acceptedCalls hal n len = len := (acceptedCalls_eq_iff hal n len).2 h

theorem nextCall_allAccepted {n len : Nat} (h : AllAccepted hal n len) :
    nextCall hal n len = n + len := by
  induction len generalizing n with
  | zero => rfl
  | succ len ih =>
    obtain ⟨h0, h⟩ := (allAccepted_succ hal n len).1 h
    rw [nextCall_ok hal h0, ih h]
    omega

end

/-! ## what a write has done -/

/-- whatever the HAL returns -/
theorem pagesWriteLoop_spec (fl : Flash) (addr : Nat) (buf : List UInt8)
    (hl : fl.locked = false) :
    (pagesWriteLoop fl addr buf).2.mem =
        program fl.mem (record addr (buf.take (acceptedCalls fl.hal fl.calls buf.length))) ∧
      (pagesWriteLoop fl addr buf).2.calls = nextCall fl.hal fl.calls buf.length ∧
      (pagesWriteLoop fl addr buf).2.hal = fl.hal ∧
      ((pagesWriteLoop fl addr buf).2.locked = true ↔
        AllAccepted fl.hal fl.calls buf.length) := by
  induction buf generalizing fl addr with
  | nil => exact ⟨rfl, rfl, rfl, fun _ => allAccepted_zero _ _, fun _ => rfl⟩
  | cons b buf ih =>
    rw [List.length_cons, allAccepted_succ]
    by_cases h : fl.hal fl.calls = .ok
    · obtain ⟨hm, hc, hh, hlock⟩ := ih { fl with
        mem := FlashOp.apply fl.mem (.program addr b)
        calls := fl.calls + 1
        done := fl.done ++ [.program addr b] } (addr + 1) hl
      rw [pagesWriteLoop_ok fl addr b buf hl h, acceptedCalls_ok _ h, nextCall_ok _ h,
        List.take_succ_cons, record_cons, program_cons]
      exact ⟨hm, hc, hh, by rw [hlock, and_iff_right h]⟩
    · rw [pagesWriteLoop_refused fl addr b buf hl h, acceptedCalls_refused _ h,
        nextCall_refused _ h]
      refine ⟨rfl, rfl, rfl, fun e => ?_, fun e => absurd e.1 h⟩
      exact absurd (hl.symm.trans e) Bool.false_ne_true

theorem romflashPagesWrite_spec (fl : Flash) (addr : Nat) (buf : List UInt8) :
    (romflashPagesWrite fl addr buf).2.mem =
        program fl.mem (record addr (buf.take (acceptedCalls fl.hal fl.calls buf.length))) ∧
      (romflashPagesWrite fl addr buf).2.calls = nextCall fl.hal fl.calls buf.length ∧
      (romflashPagesWrite fl addr buf).2.hal = fl.hal ∧
      ((romflashPagesWrite fl addr buf).2.locked = true ↔
        AllAccepted fl.hal fl.calls buf.length) :=
  pagesWriteLoop_spec (halFlashUnlock fl) addr buf rfl

/-- the register is locked again behind a success only -/
theorem pagesWriteLoop_locked (fl : Flash) (addr : Nat) (buf : List UInt8) (hl : fl.locked = false) :
    (pagesWriteLoop fl addr buf).2.locked = (pagesWriteLoop fl addr buf).1 := by
  induction buf generalizing fl addr with
  | nil => rfl
  | cons b buf ih =>
    by_cases h : fl.hal fl.calls = .ok
    · rw [pagesWriteLoop_ok fl addr b buf hl h]
      exact ih _ (addr + 1) hl
    · rw [pagesWriteLoop_refused fl addr b buf hl h]
      exact hl

theorem romflashPagesWrite_true_iff (fl : Flash) (addr : Nat) (buf : List UInt8) :
    (romflashPagesWrite fl addr buf).1 = true ↔
      acceptedCalls fl.hal fl.calls buf.length = buf.length := by
  have hlocked : (romflashPagesWrite fl addr buf).2.locked = (romflashPagesWrite fl addr buf).1 :=
    pagesWriteLoop_locked (halFlashUnlock fl) addr buf rfl
  rw [← hlocked, (romflashPagesWrite_spec fl addr buf).2.2.2, acceptedCalls_eq_iff]

/-- a write that fails and changes nothing -/
theorem romflashPagesWrite_idle (fl : Flash) (addr : Nat) (buf : List UInt8) :
    ((romflashPagesWrite fl addr buf).1 = false ∧ (romflashPagesWrite fl addr buf).2.mem = fl.mem) ↔
      acceptedCalls fl.hal fl.calls buf.length < buf.length ∧
        program fl.mem (record addr (buf.take (acceptedCalls fl.hal fl.calls buf.length)))
          = fl.mem := by
  have hle := acceptedCalls_le fl.hal fl.calls buf.length
  rw [← Bool.not_eq_true, romflashPagesWrite_true_iff, (romflashPagesWrite_spec fl addr buf).1]
  exact and_congr_left fun _ => ⟨fun h => Nat.lt_of_le_of_ne hle h, fun h => Nat.ne_of_lt h⟩

/-- **A write**, whatever the HAL returns: the loop ends, an initial part of the buffer is programmed,
it is the whole buffer exactly when the call reports success, and the flash is locked again exactly
then. -/
theorem romflashPagesWrite_prog (fl : Flash) (addr : Nat) (buf : List UInt8)
    (h : buf.length ≤ 65535) :
    ∃ k ≤ buf.length, ∃ r : Bool × Flash,
      (∀ turns, buf.length < turns →
        pagesWriteIndexed (halFlashUnlock fl) addr buf 0 turns = some r) ∧
      r.2.mem = program fl.mem (record addr (buf.take k)) ∧
      (r.1 = true ↔ k = buf.length) ∧ r.2.locked = r.1 :=
  ⟨acceptedCalls fl.hal fl.calls buf.length, acceptedCalls_le fl.hal fl.calls buf.length,
    romflashPagesWrite fl addr buf, fun _ ht => pagesWriteIndexed_eq fl addr h ht,
    (romflashPagesWrite_spec fl addr buf).1, romflashPagesWrite_true_iff fl addr buf,
    pagesWriteLoop_locked (halFlashUnlock fl) addr buf rfl⟩

/-- the second call of the HAL fails -/
def secondRefused : Flash := ⟨fun _ => 0xFF, true, fun n => if n = 1 then .error else .ok, 0, []⟩

theorem romflashPagesWrite_prog_refused :
    ∃ r : Bool × Flash,
      pagesWriteIndexed (halFlashUnlock secondRefused) 0x081C0000 [0x12, 0x34, 0x56] 0 4 = some r ∧
      r.2.locked = r.1 := by
  obtain ⟨_, _, r, hr, -, -, hl⟩ :=
    romflashPagesWrite_prog secondRefused 0x081C0000 [0x12, 0x34, 0x56] (by decide)
  exact ⟨r, hr 4 (by decide), hl⟩

/-! ## one call -/

theorem halFlashOp_ok (fl : Flash) (o : FlashOp) (hl : fl.locked = false)
    (h : fl.hal fl.calls = .ok) :
    halFlashOp fl o = (.ok, { fl with mem := o.apply fl.mem, calls := fl.calls + 1,
                                      done := fl.done ++ [o] }) := by
  unfold halFlashOp
  rw [hl, if_neg Bool.false_ne_true, h]

theorem halFlashOp_refused (fl : Flash) (o : FlashOp) (hl : fl.locked = false)
    (h : fl.hal fl.calls ≠ .ok) :
    halFlashOp fl o = (fl.hal fl.calls, { fl with calls := fl.calls + 1 }) := by
  unfold halFlashOp
  rw [hl, if_neg Bool.false_ne_true]
  cases hr : fl.hal fl.calls with
  | ok => exact absurd hr h
  | error => rw [← hl]
  | busy => rw [← hl]
  | timeout => rw [← hl]

theorem romflashCleanPages_spec (fl : Flash) (addr : Nat) (hs : getSector addr ≠ flashSectorNull) :
    (romflashCleanPages fl addr).2.mem =
        (if fl.hal fl.calls = .ok then FlashOp.apply fl.mem (.erase (getSector addr)) else fl.mem) ∧
      (romflashCleanPages fl addr).2.calls = fl.calls + 1 ∧
      (romflashCleanPages fl addr).2.hal = fl.hal ∧
      ((romflashCleanPages fl addr).2.locked = true ↔ fl.hal fl.calls = .ok) := by
  unfold romflashCleanPages
  rw [if_neg hs]
  by_cases h : fl.hal fl.calls = .ok
  · rw [halFlashOp_ok (halFlashUnlock fl) _ rfl h, if_pos h]
    exact ⟨rfl, rfl, rfl, fun _ => h, fun _ => rfl⟩
  · have hop := halFlashOp_refused (halFlashUnlock fl) (.erase (getSector addr)) rfl h
    rw [if_neg h]
    rcases hr : halFlashOp (halFlashUnlock fl) (.erase (getSector addr)) with ⟨r, fl1⟩
    rw [hr] at hop
    obtain ⟨rfl, rfl⟩ := Prod.mk.inj hop
    change fl.hal fl.calls ≠ .ok at h
    cases hc : (halFlashUnlock fl).hal (halFlashUnlock fl).calls with
    | ok => exact absurd hc h
    | error => exact ⟨rfl, rfl, rfl, fun e => absurd e Bool.false_ne_true, fun e => absurd e h⟩
    | busy => exact ⟨rfl, rfl, rfl, fun e => absurd e Bool.false_ne_true, fun e => absurd e h⟩
    | timeout => exact ⟨rfl, rfl, rfl, fun e => absurd e Bool.false_ne_true, fun e => absurd e h⟩

/-! ## the register -/

theorem romflashCleanPages_locked_iff (fl : Flash) (addr : Nat) :
    (romflashCleanPages fl addr).2.locked = true ↔
      getSector addr = flashSectorNull ∨ fl.hal fl.calls = .ok := by
  by_cases hs : getSector addr = flashSectorNull
  · rw [romflashCleanPages_null fl addr hs]
    exact ⟨fun _ => Or.inl hs, fun _ => rfl⟩
  · rw [(romflashCleanPages_spec fl addr hs).2.2.2, or_iff_right hs]

theorem romflashPagesWrite_locked_iff (fl : Flash) (addr : Nat) (buf : List UInt8) :
    (romflashPagesWrite fl addr buf).2.locked = true ↔ AllAccepted fl.hal fl.calls buf.length :=
  (romflashPagesWrite_spec fl addr buf).2.2.2

/-- one byte is a write of a buffer of one byte -/
theorem romflashByteWrite_eq (fl : Flash) (addr : Nat) (dat : UInt8) :
    romflashByteWrite fl addr dat = romflashPagesWrite fl addr [dat] := by
  show romflashByteWrite fl addr dat = pagesWriteLoop (halFlashUnlock fl) addr [dat]
  unfold romflashByteWrite
  rw [pagesWriteLoop]
  rcases halFlashOp (halFlashUnlock fl) (.program addr dat) with ⟨r, fl1⟩
  cases r with
  | ok => rfl
  | error => rfl
  | busy => rfl
  | timeout => rfl

theorem romflashByteWrite_locked_iff (fl : Flash) (addr : Nat) (dat : UInt8) :
    (romflashByteWrite fl addr dat).2.locked = true ↔ fl.hal fl.calls = .ok := by
  rw [romflashByteWrite_eq, romflashPagesWrite_locked_iff]
  exact allAccepted_one fl.hal fl.calls

end MenuFirmware
