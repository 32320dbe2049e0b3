import Mathlib.Data.Nat.Bitwise
import MenuFirmware.App.EventManage
import MenuFirmware.Input.Key

/-!
# The key scan (`key.c`)

`key_Scan` runs the debouncer on the three key pins and turns a release into a navigation event,
unless a long press was answered since the press: then the release only clears the flag `key_3s`.

* `keyScan`            the function of the source, with the calls it makes;
* `KeyResult.code_nor`, `code_reset`   the bit tests on the value of `GetKey`;
* `keyScan_null`, `keyScan_key`, `keyScan_reset`, `keyScan_nor`   what it does, answer by answer;
* `scan_flag`          in every run, `key_3s` says whether the key that is pressed has been
                       reported as a long press;
* `keyScan_one_event`  over every run: one navigation event at the release of a press without a
                       long press, for the pressed key, and none otherwise.
-/

namespace MenuFirmware
open Runs Debounce

/-! ## the code -/

def MODE_ON : UInt8 := 0
def MODE_KEY : UInt8 := 5

def CNT_DOWN : UInt16 := 300

/-- `GPIO_PIN_10`, `GPIO_PIN_11`, `GPIO_PIN_12`: does the pin read `GPIO_PIN_RESET`? -/
structure Pins where
  pin10 : Bool
  pin11 : Bool
  pin12 : Bool
  deriving DecidableEq

def getScanCode (p : Pins) : UInt8 :=
  if p.pin10 then 0x04 else if p.pin11 then 0x05 else if p.pin12 then 0x06 else NO_CODE

/-- the calls that `key_Scan` makes -/
inductive KeyCall where
  | setCntDown (cnt : UInt16)
  | setWorkMode (mode : UInt8)
  | pushEvtEvtPar (event para : UInt8)
  | setButtonNum (ch : Char)
  deriving DecidableEq

structure ScanState where
  key : KeyState
  key3s : Bool

def scanInit : ScanState := ⟨keyParInit, false⟩

/-- the calls at the release of a key -/
def releaseCalls (event : UInt8) : List KeyCall :=
  [.setCntDown CNT_DOWN, .setWorkMode MODE_KEY, .pushEvtEvtPar event MODE_KEY]

/-- `key_Scan` once `GetKey` has left the state `key` and returned `tmp` -/
def keyHandle (s : ScanState) (key : KeyState) (tmp : UInt16) : ScanState × List KeyCall :=
  if tmp = NULL_KEY then ({ s with key := key }, [])
  else if tmp &&& NOR_KEY ≠ 0 then
    if s.key3s = false then
      if tmp = 0x8004 then ({ s with key := key }, releaseCalls evKeyUP)
      else if tmp = 0x8005 then ({ s with key := key }, releaseCalls evKeyDown)
      else if tmp = 0x8006 then ({ s with key := key }, releaseCalls evKeyConfirm)
      else ({ s with key := key }, [])
    else (⟨key, false⟩, [])
  else if tmp &&& RESET_KEY ≠ 0 then
    (⟨key, true⟩, [.setButtonNum 'd', .setCntDown 120, .pushEvtEvtPar evRst 0xff])
  else ({ s with key := key }, [])

def keyScan (s : ScanState) (p : Pins) : ScanState × List KeyCall :=
  keyHandle s (keyStep s.key (getScanCode p)) (keyAnswer s.key (getScanCode p)).code

def scanStep (s : ScanState) (p : Pins) : ScanState := (keyScan s p).1

/-- the state after the scans `ps` -/
def scanRun (ps : List Pins) : ScanState := run scanStep scanInit ps

/-! ## the answers as 16-bit values -/

theorem toNat_key (k : UInt8) : (KeyResult.key k).code.toNat = k.toNat := UInt8.toNat_toUInt16 k

theorem toNat_reset (k : UInt8) : (KeyResult.reset k).code.toNat = 2 ^ 14 + k.toNat := by
  have hk := k.toNat_lt
  show (RESET_KEY + k.toUInt16).toNat = _
  rw [UInt16.toNat_add, UInt8.toNat_toUInt16, show RESET_KEY.toNat = 2 ^ 14 from rfl]
  exact Nat.mod_eq_of_lt (by omega)

theorem toNat_nor (k : UInt8) : (KeyResult.nor k).code.toNat = 2 ^ 15 + k.toNat := by
  have hk := k.toNat_lt
  show (NOR_KEY + k.toUInt16).toNat = _
  rw [UInt16.toNat_add, UInt8.toNat_toUInt16, show NOR_KEY.toNat = 2 ^ 15 from rfl]
  exact Nat.mod_eq_of_lt (by omega)

/-- a single bit that is set, in a value that has it as its highest one -/
theorem and_bit_ne_zero {a b : UInt16} {i : Nat} (hb : b.toNat = 2 ^ i) (h1 : 2 ^ i ≤ a.toNat)
    (h2 : a.toNat < 2 ^ (i + 1)) : a &&& b ≠ 0 := by
  intro h
  have h0 : a.toNat &&& b.toNat = 0 := by rw [← UInt16.toNat_and, h, UInt16.toNat_zero]
  rw [hb, Nat.and_two_pow, Nat.testBit_of_two_pow_le_and_two_pow_add_one_gt h1 h2] at h0
  simp at h0

theorem and_bit_eq_zero {a b : UInt16} {i : Nat} (hb : b.toNat = 2 ^ i) (h : a.toNat < 2 ^ i) :
    a &&& b = 0 := by
  rw [← UInt16.toNat_inj, UInt16.toNat_and, hb, Nat.and_two_pow, Nat.testBit_lt_two_pow h]
  simp

theorem code_eq_null_iff (r : KeyResult) : r.code = NULL_KEY ↔ r = .null := by
  constructor
  · intro h
    have hn : r.code.toNat = 65535 := by rw [h]; rfl
    cases r with
    | null => rfl
    | key k => have := k.toNat_lt; rw [toNat_key] at hn; omega
    | reset k => have := k.toNat_lt; rw [toNat_reset] at hn; omega
    | nor k => have := k.toNat_lt; rw [toNat_nor] at hn; omega
  · intro h
    rw [h]
    rfl

theorem code_nor (k : UInt8) : (KeyResult.nor k).code &&& NOR_KEY ≠ 0 := by
  have hk := k.toNat_lt
  refine and_bit_ne_zero (i := 15) rfl ?_ ?_
  · rw [toNat_nor]
    omega
  · rw [toNat_nor]
    omega

theorem code_reset (k : UInt8) :
    (KeyResult.reset k).code &&& NOR_KEY = 0 ∧ (KeyResult.reset k).code &&& RESET_KEY ≠ 0 := by
  have hk := k.toNat_lt
  refine ⟨and_bit_eq_zero (i := 15) rfl ?_, and_bit_ne_zero (i := 14) rfl ?_ ?_⟩
  · rw [toNat_reset]
    omega
  · rw [toNat_reset]
    omega
  · rw [toNat_reset]
    omega

theorem code_key (k : UInt8) :
    (KeyResult.key k).code &&& NOR_KEY = 0 ∧ (KeyResult.key k).code &&& RESET_KEY = 0 := by
  have hk := k.toNat_lt
  refine ⟨and_bit_eq_zero (i := 15) rfl ?_, and_bit_eq_zero (i := 14) rfl ?_⟩
  · rw [toNat_key]
    omega
  · rw [toNat_key]
    omega

theorem code_nor_eq_iff (k j : UInt8) :
    (KeyResult.nor k).code = (KeyResult.nor j).code ↔ k = j := by
  rw [← UInt16.toNat_inj, toNat_nor, toNat_nor, ← UInt8.toNat_inj]
  omega

/-! ## what a scan does -/

theorem keyScan_key_state (s : ScanState) (p : Pins) :
    (keyScan s p).1.key = keyStep s.key (getScanCode p) := by
  unfold keyScan keyHandle
  split_ifs <;> rfl

theorem keyScan_null {s : ScanState} {p : Pins}
    (h : keyAnswer s.key (getScanCode p) = .null) :
    (keyScan s p).1.key3s = s.key3s ∧ (keyScan s p).2 = [] := by
  unfold keyScan keyHandle
  rw [h, if_pos ((code_eq_null_iff _).2 rfl)]
  exact ⟨rfl, rfl⟩

theorem keyScan_key {s : ScanState} {p : Pins} {k : UInt8}
    (h : keyAnswer s.key (getScanCode p) = .key k) :
    (keyScan s p).1.key3s = s.key3s ∧ (keyScan s p).2 = [] := by
  have hnull : (KeyResult.key k).code ≠ NULL_KEY := fun hn => by
    cases (code_eq_null_iff _).1 hn
  unfold keyScan keyHandle
  rw [h, if_neg hnull, if_neg (not_not.2 (code_key k).1), if_neg (not_not.2 (code_key k).2)]
  exact ⟨rfl, rfl⟩

theorem keyScan_reset {s : ScanState} {p : Pins} {k : UInt8}
    (h : keyAnswer s.key (getScanCode p) = .reset k) :
    (keyScan s p).1.key3s = true ∧
      (keyScan s p).2 = [.setButtonNum 'd', .setCntDown 120, .pushEvtEvtPar evRst 0xff] := by
  have hnull : (KeyResult.reset k).code ≠ NULL_KEY := fun hn => by
    cases (code_eq_null_iff _).1 hn
  unfold keyScan keyHandle
  rw [h, if_neg hnull, if_neg (not_not.2 (code_reset k).1), if_pos (code_reset k).2]
  exact ⟨rfl, rfl⟩

/-- the event of a key -/
def navEvent (k : UInt8) : UInt8 :=
  if k = 4 then evKeyUP else if k = 5 then evKeyDown else evKeyConfirm

theorem keyScan_nor {s : ScanState} {p : Pins} {k : UInt8}
    (h : keyAnswer s.key (getScanCode p) = .nor k) (hk : k = 4 ∨ k = 5 ∨ k = 6) :
    (keyScan s p).1.key3s = false ∧
      (keyScan s p).2 = if s.key3s = true then [] else releaseCalls (navEvent k) := by
  have hnull : (KeyResult.nor k).code ≠ NULL_KEY := fun hn => by
    cases (code_eq_null_iff _).1 hn
  unfold keyScan keyHandle
  rw [h, if_neg hnull, if_pos (code_nor k)]
  by_cases h3 : s.key3s = true
  · rw [if_neg (by rw [h3]; decide), if_pos h3]
    exact ⟨rfl, rfl⟩
  · have h3' : s.key3s = false := Bool.eq_false_iff.2 h3
    rw [if_pos h3', if_neg h3]
    have h4 : (0x8004 : UInt16) = (KeyResult.nor 4).code := rfl
    have h5 : (0x8005 : UInt16) = (KeyResult.nor 5).code := rfl
    have h6 : (0x8006 : UInt16) = (KeyResult.nor 6).code := rfl
    simp only [h4, h5, h6, code_nor_eq_iff]
    rcases hk with rfl | rfl | rfl
    · exact ⟨h3', rfl⟩
    · exact ⟨h3', rfl⟩
    · exact ⟨h3', rfl⟩

/-! ## runs -/

/-- the scan codes of the scans `ps` -/
def codes (ps : List Pins) : List UInt8 := ps.map getScanCode

theorem scanRun_snoc (ps : List Pins) (p : Pins) :
    scanRun (ps ++ [p]) = scanStep (scanRun ps) p := run_snoc ..

theorem codes_snoc (ps : List Pins) (p : Pins) : codes (ps ++ [p]) = codes ps ++ [getScanCode p] :=
  List.map_append

theorem scanRun_key (ps : List Pins) : (scanRun ps).key = keyRun (codes ps) := by
  induction ps using List.reverseRecOn with
  | nil => rfl
  | append_singleton ps p ih =>
    rw [scanRun_snoc, codes_snoc, keyRun_snoc, ← ih]
    exact keyScan_key_state (scanRun ps) p

theorem getScanCode_mem (p : Pins) :
    getScanCode p = 4 ∨ getScanCode p = 5 ∨ getScanCode p = 6 ∨ getScanCode p = NO_CODE := by
  unfold getScanCode
  split_ifs
  · exact Or.inl rfl
  · exact Or.inr (Or.inl rfl)
  · exact Or.inr (Or.inr (Or.inl rfl))
  · exact Or.inr (Or.inr (Or.inr rfl))

theorem pressedKey_mem (ps : List Pins) :
    (scanRun ps).key.pressedKey = 4 ∨ (scanRun ps).key.pressedKey = 5 ∨
      (scanRun ps).key.pressedKey = 6 ∨ (scanRun ps).key.pressedKey = NO_CODE := by
  induction ps using List.reverseRecOn with
  | nil => exact Or.inr (Or.inr (Or.inr rfl))
  | append_singleton ps p ih =>
    have hk : (scanRun (ps ++ [p])).key = keyStep (scanRun ps).key (getScanCode p) := by
      rw [scanRun_snoc]
      exact keyScan_key_state (scanRun ps) p
    rw [hk]
    rcases keyStep_pressed (scanRun ps).key (getScanCode p) with h | h | h
    · rw [h]
      exact ih
    · rw [h]
      exact getScanCode_mem p
    · exact Or.inr (Or.inr (Or.inr h))

theorem scan_inv (ps : List Pins) :
    KeyInv (codes ps) (keyAnswers (codes ps)) (scanRun ps).key := by
  rw [scanRun_key]
  exact keyInv_run (codes ps)

/-- a key that is released is one of the three -/
theorem release_key (ps : List Pins) {c k : UInt8} (hr : keyAnswer (scanRun ps).key c = .nor k) :
    k = 4 ∨ k = 5 ∨ k = 6 := by
  obtain ⟨hp, hne, -⟩ := (scan_inv ps).release_backed hr
  rcases pressedKey_mem ps with h | h | h | h
  · exact Or.inl (hp.symm.trans h)
  · exact Or.inr (Or.inl (hp.symm.trans h))
  · exact Or.inr (Or.inr (hp.symm.trans h))
  · exact absurd (hp.symm.trans h) hne

/-- the key that is pressed after the scans `ps`, with the number of its long presses -/
def heldKey (ps : List Pins) : Option (UInt8 × Nat) :=
  (keyAnswers (codes ps)).foldl KeyResult.held none

theorem heldKey_snoc (ps : List Pins) (p : Pins) :
    heldKey (ps ++ [p]) = (keyAnswer (scanRun ps).key (getScanCode p)).held (heldKey ps) := by
  unfold heldKey
  rw [codes_snoc, keyAnswers_snoc, List.foldl_append, scanRun_key]
  rfl

/-- `key_3s` says that the key that is pressed has been reported as a long press -/
theorem scan_flag (ps : List Pins) :
    (scanRun ps).key3s = true ↔ ∃ k n, heldKey ps = some (k, n + 1) := by
  induction ps using List.reverseRecOn with
  | nil => exact iff_of_false (by decide) fun ⟨_, _, h⟩ => by cases h
  | append_singleton ps p ih =>
    have hinv := scan_inv ps
    rw [heldKey_snoc, scanRun_snoc]
    show (keyScan (scanRun ps) p).1.key3s = true ↔ _
    cases hr : keyAnswer (scanRun ps).key (getScanCode p) with
    | null =>
      rw [(keyScan_null hr).1]
      exact ih
    | key k =>
      rw [(keyScan_key hr).1, ih]
      have hnone : heldKey ps = none := (hinv.idle (hinv.press_backed hr).2.1).held
      rw [hnone]
      exact iff_of_false (fun ⟨_, _, h⟩ => by cases h) fun ⟨_, _, h⟩ => by cases h
    | reset k =>
      rw [(keyScan_reset hr).1]
      obtain ⟨hp, hne⟩ := hinv.reset_pressed hr
      obtain ⟨n, hn⟩ := hinv.busy (hp ▸ hne)
      have hsome : heldKey ps = some ((scanRun ps).key.pressedKey, n) := hn.held
      rw [hsome]
      exact iff_of_true rfl ⟨_, n, rfl⟩
    | nor k =>
      rw [(keyScan_nor hr (release_key ps hr)).1]
      exact iff_of_false Bool.false_ne_true fun ⟨_, _, h⟩ => by cases h

/-! ## one event a press -/

def isNavEvent (event : UInt8) : Bool :=
  event = evKeyUP || event = evKeyDown || event = evKeyConfirm || event = evKeyCancal

/-- the navigation events among the calls -/
def navEvents (calls : List KeyCall) : List UInt8 :=
  calls.filterMap fun
    | .pushEvtEvtPar event _ => if isNavEvent event then some event else none
    | _ => none

theorem navEvents_release (k : UInt8) : navEvents (releaseCalls (navEvent k)) = [navEvent k] := by
  have hn : isNavEvent (navEvent k) = true := by
    unfold navEvent
    split_ifs <;> rfl
  simp [navEvents, releaseCalls, hn]

/-- **One event a press.**  After any scans `ps`, at the next scan: a release of `k` answers the
last press, which was of `k`; the scan pushes the one navigation event of `k` if no long press was
answered in between, and none otherwise.  A scan that answers no release pushes none. -/
theorem keyScan_one_event (ps : List Pins) (p : Pins) :
    (∀ k, keyAnswer (scanRun ps).key (getScanCode p) = .nor k →
      ∃ pre mid, keyAnswers (codes ps) = pre ++ .key k :: mid ∧
        (∀ r ∈ mid, r = .null ∨ r = .reset k) ∧ (k = 4 ∨ k = 5 ∨ k = 6) ∧
        navEvents (keyScan (scanRun ps) p).2 = if .reset k ∈ mid then [] else [navEvent k]) ∧
      ((∀ k, keyAnswer (scanRun ps).key (getScanCode p) ≠ .nor k) →
        navEvents (keyScan (scanRun ps) p).2 = []) := by
  have hinv := scan_inv ps
  constructor
  · intro k hr
    obtain ⟨hp, hne, -⟩ := hinv.release_backed hr
    have hk := release_key ps hr
    obtain ⟨n, hn⟩ := hinv.busy (hp ▸ hne)
    rw [hp] at hn
    obtain ⟨pre, mid, hrs, -, hmid, hcount⟩ := hn.since_press
    refine ⟨pre, mid, hrs, hmid, hk, ?_⟩
    rw [(keyScan_nor hr hk).2]
    have hheld : heldKey ps = some (k, n) := hn.held
    by_cases hlong : (scanRun ps).key3s = true
    · obtain ⟨j, m, hj⟩ := (scan_flag ps).1 hlong
      rw [hheld] at hj
      cases hj
      have hmem : KeyResult.reset k ∈ mid := List.count_pos_iff.1 (by omega)
      rw [if_pos hlong, if_pos hmem]
      rfl
    · have hmem : KeyResult.reset k ∉ mid := by
        intro hmem
        have hpos := List.count_pos_iff.2 hmem
        rw [hcount] at hpos
        obtain ⟨m, rfl⟩ := Nat.exists_eq_succ_of_ne_zero hpos.ne'
        exact hlong ((scan_flag ps).2 ⟨k, m, hheld⟩)
      rw [if_neg hlong, if_neg hmem, navEvents_release]
  · intro hno
    cases hr : keyAnswer (scanRun ps).key (getScanCode p) with
    | null =>
      rw [(keyScan_null hr).2]
      rfl
    | key k =>
      rw [(keyScan_key hr).2]
      rfl
    | reset k =>
      rw [(keyScan_reset hr).2]
      rfl
    | nor k => exact absurd hr (hno k)

end MenuFirmware
