import MenuFirmware.Input.Scan

/-!
# Long presses of a held key (`key.c`)

While a key stays pressed, every scan that confirms it counts `KeyPressCount` up by one, and the
count 50 answers a long press.  The count has 16 bits and starts over.

* `holds`              the scans that confirm the pressed key since its press;
* `pressed_run`        the count and the number of long presses, from the number of such scans;
* `oneLongPress_iff`   at most one long press (and one `evRst`) between a press and its release, iff
                       fewer than 65585 scans confirm the key in between.
-/

namespace MenuFirmware
open Runs Debounce

/-! ## a press and what follows it -/

/-- the last of the scans `pre` answers the press of `k` -/
def PressOf (pre : List UInt8) (k : UInt8) : Prop :=
  ∃ cs c, pre = cs ++ [c] ∧ keyAnswer (keyRun cs) c = .key k

/-- the answers to the scans `mid` after the scans `pre` -/
def answersAfter (pre mid : List UInt8) : List KeyResult := outputs keyStep keyAnswer (keyRun pre) mid

/-- no press and no release is answered in `mid` -/
def StillPressed (pre mid : List UInt8) : Prop := ∀ r ∈ answersAfter pre mid, r.isEdge = false

def KeyResult.isLong : KeyResult → Bool
  | .reset _ => true
  | _ => false

/-- the long presses answered in `mid` -/
def longs (pre mid : List UInt8) : Nat := (answersAfter pre mid).countP KeyResult.isLong

/-- the scans of `mid` that confirm `k`: the last three scans are `k`, as at an earlier instant, and
no other value was stable in between -/
def holds (k : UInt8) : List UInt8 → List UInt8 → Nat
  | _, [] => 0
  | pre, c :: mid => (if Backed 3 (pre ++ [c]) k then 1 else 0) + holds k (pre ++ [c]) mid

theorem keyRun_append (pre mid : List UInt8) :
    keyRun (pre ++ mid) = run keyStep (keyRun pre) mid := run_append ..

theorem answersAfter_snoc (pre mid : List UInt8) (c : UInt8) :
    answersAfter pre (mid ++ [c]) =
      answersAfter pre mid ++ [keyAnswer (keyRun (pre ++ mid)) c] := by
  rw [keyRun_append]
  exact outputs_snoc ..

theorem longs_snoc (pre mid : List UInt8) (c : UInt8) :
    longs pre (mid ++ [c]) =
      longs pre mid + if (keyAnswer (keyRun (pre ++ mid)) c).isLong = true then 1 else 0 := by
  unfold longs
  rw [answersAfter_snoc, List.countP_append, List.countP_singleton]

theorem holds_snoc (k : UInt8) (pre mid : List UInt8) (c : UInt8) :
    holds k pre (mid ++ [c]) =
      holds k pre mid + if Backed 3 (pre ++ mid ++ [c]) k then 1 else 0 := by
  induction mid generalizing pre with
  | nil => simp [holds]
  | cons d mid ih =>
    have he : pre ++ [d] ++ mid ++ [c] = pre ++ (d :: mid) ++ [c] := by simp
    rw [List.cons_append, holds, ih, holds, he]
    omega

/-! ## one scan while a key is pressed -/

theorem KeyInv.pressed_scan {cs : List UInt8} {rs : List KeyResult} {s : KeyState}
    (h : KeyInv cs rs s) {c k : UInt8} (hp : s.pressedKey = k) (hk : k ≠ NO_CODE)
    (hedge : (keyAnswer s c).isEdge = false) :
    (keyStep s c).pressedKey = k ∧
      ((Backed 3 (cs ++ [c]) k ∧ (keyStep s c).keyPressCount = s.keyPressCount + 1 ∧
          keyAnswer s c = if s.keyPressCount + 1 = 50 then .reset k else .null) ∨
        (¬ Backed 3 (cs ++ [c]) k ∧ (keyStep s c).keyPressCount = s.keyPressCount ∧
          keyAnswer s c = .null)) := by
  have hb : s.pressedKey ≠ NO_CODE := hp ▸ hk
  have hlast := h.last (Or.inr hb)
  rcases h.scan c with ⟨hno, hr, -, hkey, hcount⟩ | ⟨hst, hmove⟩
  · exact ⟨hkey.trans hp, Or.inr ⟨fun hbk => hno k hbk.1, hcount, hr⟩⟩
  · generalize keyStep s c = t, keyAnswer s c = r at hmove hedge
    cases hmove with
    | rest _ hn => exact absurd hn hb
    | press _ hn _ => exact absurd hn hb
    | release _ _ _ => cases hedge
    | noted hne _ =>
      refine ⟨hp, Or.inr ⟨fun hbk => ?_, rfl, rfl⟩⟩
      obtain ⟨hsk, hlk⟩ := (backed_snoc cs c k).1 hbk
      have hck : k = c := hsk.head (by decide)
      exact hne (hck ▸ LastStable.unique hlk hlast)
    | hold hc hkc he =>
      have he' : c = s.preKeyCode := he
      have hck : c = k := (show s.pressedKey = c from hkc).symm.trans hp
      subst hck
      refine ⟨hp, Or.inl ⟨(backed_snoc cs c c).2 ⟨hst, ?_⟩, rfl, rfl⟩⟩
      rwa [← he'] at hlast

/-! ## the run after a press -/

/-- the long presses in `h` confirming scans: after 49 of them, and again every 65536 -/
def longsOf (h : Nat) : Nat := (h + 65487) / 65536

theorem longsOf_zero : longsOf 0 = 0 := Nat.div_eq_of_lt (by omega)

theorem longsOf_succ (h : Nat) :
    longsOf (h + 1) = longsOf h + if (h + 1 + 1) % 65536 = 50 then 1 else 0 := by
  unfold longsOf
  split_ifs <;> omega

theorem press_state {pre : List UInt8} {k : UInt8} (h : PressOf pre k) :
    (keyRun pre).pressedKey = k ∧ k ≠ NO_CODE ∧ (keyRun pre).keyPressCount = 1 := by
  obtain ⟨cs, c, rfl, hk⟩ := h
  have hinv := keyInv_run cs
  obtain ⟨rfl, hp, hne, hback⟩ := hinv.press_backed hk
  rw [keyRun_snoc]
  rcases hinv.scan k with ⟨hno, -⟩ | ⟨-, hmove⟩
  · exact absurd hback.1 (hno k)
  · rw [hk] at hmove
    generalize keyStep (keyRun cs) k = t, hr : KeyResult.key k = r at hmove
    cases hmove with
    | press _ _ _ => exact ⟨rfl, hne, rfl⟩
    | hold _ hn _ => exact absurd (hn.symm.trans hp) hne
    | rest _ _ => cases hr
    | noted _ _ => cases hr
    | release _ _ _ => cases hr

/-- While `k` stays pressed: the count is the number of confirming scans plus one, modulo 2^16, and
the number of long presses follows. -/
theorem pressed_run {pre mid : List UInt8} {k : UInt8} (hpress : PressOf pre k)
    (hstill : StillPressed pre mid) :
    (keyRun (pre ++ mid)).pressedKey = k ∧
      (keyRun (pre ++ mid)).keyPressCount.toNat = (holds k pre mid + 1) % 65536 ∧
      longs pre mid = longsOf (holds k pre mid) := by
  obtain ⟨hp, hk, hcount⟩ := press_state hpress
  induction mid using List.reverseRecOn with
  | nil =>
    rw [List.append_nil]
    have h0 : holds k pre [] = 0 := rfl
    rw [hcount, h0]
    exact ⟨hp, rfl, longsOf_zero.symm⟩
  | append_singleton mid c ih =>
    unfold StillPressed at hstill
    rw [answersAfter_snoc] at hstill
    obtain ⟨hkey, hc, hl⟩ := ih fun r hr => hstill r (List.mem_append_left _ hr)
    have hedge := hstill _ (List.mem_append_right _ (List.mem_singleton.2 rfl))
    rw [← List.append_assoc, keyRun_snoc, longs_snoc, holds_snoc, hl]
    obtain ⟨hkey', hscan⟩ := (keyInv_run (pre ++ mid)).pressed_scan hkey hk hedge
    refine ⟨hkey', ?_⟩
    rcases hscan with ⟨hb, hc', hr⟩ | ⟨hb, hc', hr⟩
    · have hadd : ((keyRun (pre ++ mid)).keyPressCount + 1).toNat =
          (holds k pre mid + 1 + 1) % 65536 := by
        have h1 : (1 : UInt16).toNat = 1 := rfl
        rw [UInt16.toNat_add, hc, h1]
        exact Nat.mod_add_mod (holds k pre mid + 1) 65536 1
      rw [if_pos hb, hc', hr, longsOf_succ, hadd]
      refine ⟨rfl, ?_⟩
      by_cases h50 : (keyRun (pre ++ mid)).keyPressCount + 1 = 50
      · have h50' : (holds k pre mid + 1 + 1) % 65536 = 50 := by rw [← hadd, h50]; rfl
        rw [if_pos h50, if_pos h50']
        rfl
      · have hne : (holds k pre mid + 1 + 1) % 65536 ≠ 50 := fun h =>
          h50 (UInt16.toNat_inj.1 (hadd.trans h))
        have hnl : KeyResult.null.isLong ≠ true := Bool.false_ne_true
        rw [if_neg h50, if_neg hne, if_neg hnl]
    · have hnl : KeyResult.null.isLong ≠ true := Bool.false_ne_true
      rw [if_neg hb, hc', hr, hc, if_neg hnl]
      refine ⟨rfl, ?_⟩
      rw [Nat.add_zero, Nat.add_zero]

/-! ## the events -/

/-- the calls that push `evRst` in the scans `mid` after the scans `pre` -/
def rsts (pre mid : List Pins) : Nat :=
  ((outputs scanStep (fun s p => (keyScan s p).2) (scanRun pre) mid).map fun calls =>
    calls.count (.pushEvtEvtPar evRst 0xff)).sum

theorem scanRun_append (pre mid : List Pins) :
    scanRun (pre ++ mid) = run scanStep (scanRun pre) mid := run_append ..

/-- a scan pushes `evRst` when it answers a long press -/
theorem keyScan_rst (ps : List Pins) (p : Pins) :
    (keyScan (scanRun ps) p).2.count (.pushEvtEvtPar evRst 0xff) =
      if (keyAnswer (scanRun ps).key (getScanCode p)).isLong = true then 1 else 0 := by
  cases hr : keyAnswer (scanRun ps).key (getScanCode p) with
  | null =>
    rw [(keyScan_null hr).2]
    rfl
  | key k =>
    rw [(keyScan_key hr).2]
    rfl
  | reset k =>
    rw [(keyScan_reset hr).2]
    rfl
  | nor k =>
    have hk := release_key ps hr
    rw [(keyScan_nor hr hk).2]
    by_cases h3 : (scanRun ps).key3s = true
    · rw [if_pos h3]
      rfl
    · rw [if_neg h3]
      rcases hk with rfl | rfl | rfl <;> rfl

theorem rsts_eq_longs (pre mid : List Pins) : rsts pre mid = longs (codes pre) (codes mid) := by
  induction mid using List.reverseRecOn with
  | nil => rfl
  | append_singleton mid p ih =>
    have hs : rsts pre (mid ++ [p]) = rsts pre mid +
        (keyScan (scanRun (pre ++ mid)) p).2.count (.pushEvtEvtPar evRst 0xff) := by
      unfold rsts
      rw [outputs_snoc, List.map_append, List.sum_append, scanRun_append]
      rfl
    have hc : codes pre ++ codes mid = codes (pre ++ mid) := List.map_append.symm
    rw [hs, keyScan_rst, ih, codes_snoc, longs_snoc, hc, ← scanRun_key]

/-! ## at most one long press -/

/-- between a press and its release at most one long press, and one `evRst` -/
def OneLongPress (ps : List Pins) : Prop :=
  ∀ pre mid post k, ps = pre ++ (mid ++ post) → PressOf (codes pre) k →
    StillPressed (codes pre) (codes mid) → longs (codes pre) (codes mid) ≤ 1 ∧ rsts pre mid ≤ 1

/-- between a press and its release fewer than 65585 scans confirm the pressed key -/
def HeldBriefly (ps : List Pins) : Prop :=
  ∀ pre mid post k, ps = pre ++ (mid ++ post) → PressOf (codes pre) k →
    StillPressed (codes pre) (codes mid) → holds k (codes pre) (codes mid) < 65585

/-- **Exactness.**  A run answers at most one long press for each press, and queues at most one
`evRst`, iff no key is confirmed by 65585 scans between its press and its release. -/
theorem oneLongPress_iff (ps : List Pins) : OneLongPress ps ↔ HeldBriefly ps := by
  constructor
  · intro h pre mid post k hps hpress hstill
    have hl := (h pre mid post k hps hpress hstill).1
    rw [(pressed_run hpress hstill).2.2] at hl
    unfold longsOf at hl
    omega
  · intro h pre mid post k hps hpress hstill
    have hh := h pre mid post k hps hpress hstill
    have hl : longs (codes pre) (codes mid) ≤ 1 := by
      rw [(pressed_run hpress hstill).2.2]
      unfold longsOf
      omega
    exact ⟨hl, (rsts_eq_longs pre mid).trans_le hl⟩

/-! ## a key that is held without a bounce -/

theorem stable_replicate (n : Nat) (k : UInt8) : Stable 3 (List.replicate (n + 3) k) k :=
  ⟨List.replicate n k, List.replicate_append_replicate⟩

theorem holds_replicate (k : UInt8) (m n : Nat) :
    holds k (List.replicate (m + 3) k) (List.replicate n k) = n := by
  induction n generalizing m with
  | zero => rfl
  | succ n ih =>
    have hb : Backed 3 (List.replicate (m + 3) k ++ [k]) k := by
      refine (backed_snoc _ k k).2 ⟨?_, (stable_replicate m k).lastStable (by decide)⟩
      rw [← List.replicate_succ']
      exact stable_replicate (m + 1) k
    have hn : List.replicate (n + 1) k = k :: List.replicate n k := rfl
    rw [hn, holds, if_pos hb, ← List.replicate_succ', Nat.add_right_comm m 3 1, ih, Nat.add_comm]

/-- scanning the pressed key again and again answers neither a press nor a release -/
theorem stillPressed_replicate {pre : List UInt8} {k : UInt8} (hp : (keyRun pre).pressedKey = k)
    (hk : k ≠ NO_CODE) (n : Nat) : StillPressed pre (List.replicate n k) := by
  induction n generalizing pre with
  | zero => exact fun r hr => absurd hr List.not_mem_nil
  | succ n ih =>
    have hinv := keyInv_run pre
    have hedge : (keyAnswer (keyRun pre) k).isEdge = false := by
      cases hr : keyAnswer (keyRun pre) k with
      | null => rfl
      | reset _ => rfl
      | key j => exact absurd (hp.symm.trans (hinv.press_backed hr).2.1) hk
      | nor j =>
        obtain ⟨hj, -, hne, -⟩ := hinv.release_backed hr
        exact absurd (hp.symm.trans hj) hne
    have hnext : (keyRun (pre ++ [k])).pressedKey = k := by
      rw [keyRun_snoc]
      exact (hinv.pressed_scan hp hk hedge).1
    intro r hr
    have hcons : answersAfter pre (List.replicate (n + 1) k) =
        keyAnswer (keyRun pre) k :: answersAfter (pre ++ [k]) (List.replicate n k) := by
      unfold answersAfter
      rw [List.replicate_succ, outputs_cons, keyRun_snoc]
    rw [hcons] at hr
    rcases List.mem_cons.1 hr with rfl | hr
    · exact hedge
    · exact ih hnext r hr

/-- the first key, held for 65589 scans, is reported as a long press twice -/
theorem heldKey_reported_twice : ¬ OneLongPress (List.replicate 65589 ⟨true, false, false⟩) := by
  intro h
  have hcode : ∀ n, codes (List.replicate n ⟨true, false, false⟩) = List.replicate n 4 :=
    fun n => List.map_replicate
  have hpress : PressOf (List.replicate (1 + 3) 4) 4 := ⟨[4, 4, 4], 4, rfl, by decide⟩
  obtain ⟨hp, hk, -⟩ := press_state hpress
  have hstill := stillPressed_replicate hp hk 65585
  have hl := (h (List.replicate (1 + 3) ⟨true, false, false⟩)
    (List.replicate 65585 ⟨true, false, false⟩) [] 4
    (by rw [List.append_nil, List.replicate_append_replicate])
    (by rw [hcode]; exact hpress) (by rw [hcode, hcode]; exact hstill)).1
  rw [hcode, hcode, (pressed_run hpress hstill).2.2, holds_replicate] at hl
  unfold longsOf at hl
  omega

end MenuFirmware
