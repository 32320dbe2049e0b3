import MenuFirmware.Lib.Debounce
import MenuFirmware.Lib.Trace

/-!
# The key debouncer (`key.c`)

`GetKey` filters the scan codes by three equal samples, wants two such instants before it answers,
and answers a press, a long press or a release.

* `getKey`             the function of the source, with its scan code as an argument;
* `keyStable_move`     what the part behind the filter can do, in five moves;
* `Session`            the grammar of the answers: a press, long presses of it, its release;
* `KeyInv`, `keyInv_run`   buffer, last stable value and session of every run;
* `getKey_alternates`  over every run: presses and releases alternate and match, each is backed by
                       two stable instants, a scan that bounces changes nothing.
-/

namespace MenuFirmware
open Runs Debounce

/-! ## the code -/

def NULL_KEY : UInt16 := 0xffff
def NOR_KEY : UInt16 := 0x8000
def RESET_KEY : UInt16 := 0x4000

/-- no key, as a scan code and as a key -/
def NO_CODE : UInt8 := 0xff

/-- what `GetKey` returns -/
inductive KeyResult where
  | null
  /-- the press of `k` -/
  | key (k : UInt8)
  /-- the long press of `k` -/
  | reset (k : UInt8)
  /-- the release of `k` -/
  | nor (k : UInt8)
  deriving DecidableEq

/-- the 16-bit value that is returned -/
def KeyResult.code : KeyResult → UInt16
  | .null => NULL_KEY
  | .key k => k.toUInt16
  | .reset k => RESET_KEY + k.toUInt16
  | .nor k => NOR_KEY + k.toUInt16

structure KeyState where
  /-- `SCodeBuf[0]`, `[1]`, `[2]`, the newest first -/
  sCode0 : UInt8
  sCode1 : UInt8
  sCode2 : UInt8
  preKeyCode : UInt8
  pressedKey : UInt8
  keyPressCount : UInt16
  deriving DecidableEq

def keyParInit : KeyState where
  sCode0 := NO_CODE
  sCode1 := NO_CODE
  sCode2 := NO_CODE
  preKeyCode := NO_CODE
  pressedKey := NO_CODE
  keyPressCount := 0

/-- the shift of `SCodeBuf` -/
def keyShift (s : KeyState) (scan : UInt8) : KeyState :=
  { s with sCode0 := scan, sCode1 := s.sCode0, sCode2 := s.sCode1 }

/-- `GetKey` once the last three scan codes are all `ch` -/
def keyStable (s : KeyState) (ch : UInt8) : KeyState × KeyResult :=
  if ch = NO_CODE then
    if s.pressedKey = NO_CODE then
      ({ s with preKeyCode := NO_CODE, keyPressCount := 0 }, .null)
    else if s.preKeyCode ≠ NO_CODE then
      ({ s with preKeyCode := NO_CODE }, .null)
    else
      ({ s with keyPressCount := 0, pressedKey := NO_CODE }, .nor s.pressedKey)
  else if s.pressedKey = NO_CODE then
    if ch = s.preKeyCode then
      ({ s with pressedKey := ch, keyPressCount := 1 }, .key ch)
    else ({ s with preKeyCode := ch }, .null)
  else if ch = s.preKeyCode then
    if s.pressedKey = ch then
      ({ s with keyPressCount := s.keyPressCount + 1 },
        if s.keyPressCount + 1 = 50 then .reset ch else .null)
    else
      -- another key, and the release of the old one has not been answered yet
      ({ s with keyPressCount := 0, preKeyCode := NO_CODE, pressedKey := NO_CODE },
        .nor s.pressedKey)
  else ({ s with preKeyCode := ch }, .null)

def getKey (s : KeyState) (scan : UInt8) : KeyState × KeyResult :=
  let t := keyShift s scan
  if t.sCode1 ≠ t.sCode0 ∨ t.sCode2 ≠ t.sCode0 then (t, .null)
  else keyStable t t.sCode0

def keyStep (s : KeyState) (scan : UInt8) : KeyState := (getKey s scan).1
def keyAnswer (s : KeyState) (scan : UInt8) : KeyResult := (getKey s scan).2

/-- the state, and the answers, after the scan codes `cs` -/
def keyRun (cs : List UInt8) : KeyState := run keyStep keyParInit cs
def keyAnswers (cs : List UInt8) : List KeyResult := outputs keyStep keyAnswer keyParInit cs

theorem keyRun_snoc (cs : List UInt8) (c : UInt8) :
    keyRun (cs ++ [c]) = keyStep (keyRun cs) c := run_snoc ..
theorem keyAnswers_snoc (cs : List UInt8) (c : UInt8) :
    keyAnswers (cs ++ [c]) = keyAnswers cs ++ [keyAnswer (keyRun cs) c] := outputs_snoc ..

/-! ## what a scan can do -/

/-- the moves of `keyStable`, with the state and the answer they lead to -/
inductive KeyMove (s : KeyState) (ch : UInt8) : KeyState → KeyResult → Prop
  /-- no key, and none is pressed -/
  | rest : ch = NO_CODE → s.pressedKey = NO_CODE →
      KeyMove s ch { s with preKeyCode := NO_CODE, keyPressCount := 0 } .null
  /-- a stable value that differs from the last one is only noted -/
  | noted : ch ≠ s.preKeyCode → (ch = NO_CODE → s.pressedKey ≠ NO_CODE) →
      KeyMove s ch { s with preKeyCode := ch } .null
  | press : ch ≠ NO_CODE → s.pressedKey = NO_CODE → ch = s.preKeyCode →
      KeyMove s ch { s with pressedKey := ch, keyPressCount := 1 } (.key ch)
  | hold : ch ≠ NO_CODE → s.pressedKey = ch → ch = s.preKeyCode →
      KeyMove s ch { s with keyPressCount := s.keyPressCount + 1 }
        (if s.keyPressCount + 1 = 50 then .reset ch else .null)
  | release : s.pressedKey ≠ NO_CODE → s.pressedKey ≠ ch → ch = s.preKeyCode →
      KeyMove s ch { s with keyPressCount := 0, preKeyCode := NO_CODE, pressedKey := NO_CODE }
        (.nor s.pressedKey)

theorem keyStable_move (s : KeyState) (ch : UInt8) :
    KeyMove s ch (keyStable s ch).1 (keyStable s ch).2 := by
  unfold keyStable
  by_cases hc : ch = NO_CODE
  · rw [if_pos hc]
    by_cases hp : s.pressedKey = NO_CODE
    · rw [if_pos hp]
      exact .rest hc hp
    · rw [if_neg hp]
      by_cases hpre : s.preKeyCode ≠ NO_CODE
      · rw [if_pos hpre, ← hc]
        exact .noted (fun h => hpre (h ▸ hc)) fun _ => hc ▸ hp
      · rw [if_neg hpre]
        have hpre' : s.preKeyCode = NO_CODE := not_not.1 hpre
        show KeyMove s ch
          { s with keyPressCount := 0, preKeyCode := s.preKeyCode, pressedKey := NO_CODE }
          (.nor s.pressedKey)
        rw [hpre']
        exact .release hp (hc ▸ hp) (hc.trans hpre'.symm)
  · rw [if_neg hc]
    by_cases hp : s.pressedKey = NO_CODE
    · rw [if_pos hp]
      by_cases he : ch = s.preKeyCode
      · rw [if_pos he]
        exact .press hc hp he
      · rw [if_neg he]
        exact .noted he fun h => absurd h hc
    · rw [if_neg hp]
      by_cases he : ch = s.preKeyCode
      · rw [if_pos he]
        by_cases hk : s.pressedKey = ch
        · rw [if_pos hk]
          exact .hold hc hk he
        · rw [if_neg hk]
          exact .release hp hk he
      · rw [if_neg he]
        exact .noted he fun h => absurd h hc

theorem getKey_bounce {s : KeyState} {c : UInt8} (h : ¬ (s.sCode0 = c ∧ s.sCode1 = c)) :
    getKey s c = (keyShift s c, .null) := by
  unfold getKey
  refine if_pos ?_
  by_contra hn
  rw [not_or, not_not, not_not] at hn
  exact h hn

theorem getKey_stable {s : KeyState} {c : UInt8} (h0 : s.sCode0 = c) (h1 : s.sCode1 = c) :
    getKey s c = keyStable (keyShift s c) c := by
  unfold getKey
  refine if_neg ?_
  rw [not_or, not_not, not_not]
  exact ⟨h0, h1⟩

theorem KeyMove.buffer {s t : KeyState} {ch : UInt8} {r : KeyResult} (h : KeyMove s ch t r) :
    t.sCode0 = s.sCode0 ∧ t.sCode1 = s.sCode1 ∧ t.sCode2 = s.sCode2 := by
  cases h <;> exact ⟨rfl, rfl, rfl⟩

theorem KeyMove.pressedKey {s t : KeyState} {ch : UInt8} {r : KeyResult} (h : KeyMove s ch t r) :
    t.pressedKey = s.pressedKey ∨ t.pressedKey = ch ∨ t.pressedKey = NO_CODE := by
  cases h with
  | rest _ _ => exact Or.inl rfl
  | noted _ _ => exact Or.inl rfl
  | press _ _ _ => exact Or.inr (Or.inl rfl)
  | hold _ _ _ => exact Or.inl rfl
  | release _ _ _ => exact Or.inr (Or.inr rfl)

/-! ## the grammar of the answers -/

/-- the answers so far, and the key that is pressed with the number of its long presses -/
inductive Session : List KeyResult → Option (UInt8 × Nat) → Prop
  | nil : Session [] none
  | null {rs p} : Session rs p → Session (rs ++ [.null]) p
  | key {rs} (k) : Session rs none → Session (rs ++ [.key k]) (some (k, 0))
  | reset {rs k n} : Session rs (some (k, n)) → Session (rs ++ [.reset k]) (some (k, n + 1))
  | nor {rs k n} : Session rs (some (k, n)) → Session (rs ++ [.nor k]) none

/-- the key that is pressed, with the number of its long presses, after one more answer -/
def KeyResult.held (p : Option (UInt8 × Nat)) : KeyResult → Option (UInt8 × Nat)
  | .null => p
  | .key k => some (k, 0)
  | .reset _ => p.map fun q => (q.1, q.2 + 1)
  | .nor _ => none

theorem Session.held {rs : List KeyResult} {p : Option (UInt8 × Nat)} (h : Session rs p) :
    rs.foldl KeyResult.held none = p := by
  induction h with
  | nil => rfl
  | null _ ih => rw [List.foldl_append, ih]; rfl
  | key _ _ _ => rw [List.foldl_append]; rfl
  | reset _ ih => rw [List.foldl_append, ih]; rfl
  | nor _ _ => rw [List.foldl_append]; rfl

/-- presses and releases -/
def KeyResult.isEdge : KeyResult → Bool
  | .key _ => true
  | .nor _ => true
  | _ => false

/-- each of the keys `ks` pressed and released, one after the other -/
def taps (ks : List UInt8) : List KeyResult := ks.flatMap fun k => [.key k, .nor k]

theorem taps_snoc (ks : List UInt8) (k : UInt8) : taps (ks ++ [k]) = taps ks ++ [.key k, .nor k] := by
  simp [taps]

theorem Session.edges {rs : List KeyResult} {p : Option (UInt8 × Nat)} (h : Session rs p) :
    ∃ ks, rs.filter KeyResult.isEdge = taps ks ++ (p.map fun q => KeyResult.key q.1).toList := by
  induction h with
  | nil => exact ⟨[], rfl⟩
  | null _ ih =>
    obtain ⟨ks, hks⟩ := ih
    exact ⟨ks, by simp [KeyResult.isEdge, hks]⟩
  | key k _ ih =>
    obtain ⟨ks, hks⟩ := ih
    exact ⟨ks, by simp [KeyResult.isEdge, hks]⟩
  | reset _ ih =>
    obtain ⟨ks, hks⟩ := ih
    exact ⟨ks, by simp [KeyResult.isEdge, hks]⟩
  | @nor rs k n _ ih =>
    obtain ⟨ks, hks⟩ := ih
    exact ⟨ks ++ [k], by simp [KeyResult.isEdge, hks, taps_snoc]⟩

/-- the answers since the press of the key that is still pressed -/
theorem Session.since_press {rs : List KeyResult} {k : UInt8} {n : Nat}
    (h : Session rs (some (k, n))) :
    ∃ pre mid, rs = pre ++ .key k :: mid ∧ Session pre none ∧
      (∀ r ∈ mid, r = .null ∨ r = .reset k) ∧ mid.count (.reset k) = n := by
  generalize hp : some (k, n) = p at h
  induction h generalizing n with
  | nil => cases hp
  | nor _ _ => cases hp
  | null _ ih =>
    obtain ⟨pre, mid, rfl, hpre, hmid, hcount⟩ := ih hp
    refine ⟨pre, mid ++ [.null], by simp, hpre, ?_, by simpa using hcount⟩
    intro r hr
    rcases List.mem_append.1 hr with hr | hr
    · exact hmid r hr
    · exact Or.inl (List.mem_singleton.1 hr)
  | @key rs j hrs _ =>
    cases hp
    exact ⟨rs, [], rfl, hrs, fun r hr => absurd hr List.not_mem_nil, rfl⟩
  | @reset rs j m _ ih =>
    cases hp
    obtain ⟨pre, mid, rfl, hpre, hmid, hcount⟩ := ih rfl
    refine ⟨pre, mid ++ [.reset k], by simp, hpre, ?_, by simp [hcount]⟩
    intro r hr
    rcases List.mem_append.1 hr with hr | hr
    · exact hmid r hr
    · exact Or.inr (List.mem_singleton.1 hr)

/-! ## the invariant of every run -/

/-- the samples that `key_Par_Init` puts before the first scan -/
def keyPad : List UInt8 := [NO_CODE, NO_CODE, NO_CODE]

/-- scan codes `cs`, answers `rs`, state `s` -/
structure KeyInv (cs : List UInt8) (rs : List KeyResult) (s : KeyState) : Prop where
  buffer : [s.sCode2, s.sCode1, s.sCode0] <:+ keyPad ++ cs
  last : s.preKeyCode ≠ NO_CODE ∨ s.pressedKey ≠ NO_CODE → LastStable 3 cs s.preKeyCode
  count : s.pressedKey = NO_CODE → s.keyPressCount = 0
  idle : s.pressedKey = NO_CODE → Session rs none
  busy : s.pressedKey ≠ NO_CODE → ∃ n, Session rs (some (s.pressedKey, n))

theorem buffer_snoc {cs : List UInt8} {a b d : UInt8} (h : [a, b, d] <:+ keyPad ++ cs) (c : UInt8) :
    [b, d, c] <:+ keyPad ++ (cs ++ [c]) := by
  obtain ⟨t, ht⟩ := h
  refine ⟨t ++ [a], ?_⟩
  rw [← List.append_assoc, ← ht]
  simp

/-- three equal samples are three scans, unless they are `NO_CODE` and fewer scans were made -/
theorem stable_of_buffer {cs : List UInt8} {c : UInt8} (h : [c, c, c] <:+ keyPad ++ (cs ++ [c]))
    (hc : c ≠ NO_CODE ∨ 2 ≤ cs.length) : Stable 3 (cs ++ [c]) c := by
  by_cases hl : 2 ≤ cs.length
  · refine List.suffix_of_suffix_length_le h (List.suffix_append keyPad (cs ++ [c])) ?_
    rw [List.length_append, List.length_singleton]
    exact Nat.succ_le_succ hl
  · have hne : c ≠ NO_CODE := hc.resolve_right hl
    exfalso
    obtain ⟨t, ht⟩ := h
    rcases cs with _ | ⟨a, _ | ⟨b, cs⟩⟩
    · have ht' : t ++ [c, c, c] = [NO_CODE] ++ [NO_CODE, NO_CODE, c] := ht
      have he := List.append_inj_right' ht' rfl
      exact hne (List.cons.inj he).1
    · have ht' : t ++ [c, c, c] = [NO_CODE, NO_CODE] ++ [NO_CODE, a, c] := ht
      have he := List.append_inj_right' ht' rfl
      exact hne (List.cons.inj he).1
    · exact hl (Nat.le_add_left 2 _)

theorem buffer_of_stable {cs : List UInt8} {b d c w : UInt8}
    (h : [b, d, c] <:+ keyPad ++ (cs ++ [c])) (hw : Stable 3 (cs ++ [c]) w) :
    w = c ∧ d = c ∧ b = c := by
  have hw' : [w, w, w] <:+ keyPad ++ (cs ++ [c]) := List.IsSuffix.trans hw (List.suffix_append keyPad _)
  have he : [w, w, w] = [b, d, c] :=
    (List.suffix_of_suffix_length_le hw' h (Nat.le_refl 3)).eq_of_length rfl
  simp only [List.cons.injEq, and_true] at he
  exact ⟨he.2.2, he.2.1.symm.trans he.2.2, he.1.symm.trans he.2.2⟩

theorem keyInv_init : KeyInv [] [] keyParInit where
  buffer := List.suffix_rfl
  last := by
    intro h
    rcases h with h | h
    · exact absurd rfl h
    · exact absurd rfl h
  count := fun _ => rfl
  idle := fun _ => .nil
  busy := fun h => absurd rfl h

/-- a scan of a code that was scanned twice before is a move of `keyStable` -/
theorem keyStep_move {s : KeyState} {c : UInt8} (h : s.sCode0 = c ∧ s.sCode1 = c) :
    KeyMove (keyShift s c) c (keyStep s c) (keyAnswer s c) := by
  unfold keyStep keyAnswer
  rw [getKey_stable h.1 h.2]
  exact keyStable_move _ c

/-- A scan either changes nothing but the buffer and answers nothing, and then the last three scans
differ, or it is a move of `keyStable` at a stable code. -/
theorem KeyInv.scan {cs : List UInt8} {rs : List KeyResult} {s : KeyState} (h : KeyInv cs rs s)
    (c : UInt8) :
    ((∀ w, ¬ Stable 3 (cs ++ [c]) w) ∧ keyAnswer s c = .null ∧
        (keyStep s c).preKeyCode = s.preKeyCode ∧ (keyStep s c).pressedKey = s.pressedKey ∧
        (keyStep s c).keyPressCount = s.keyPressCount) ∨
      (Stable 3 (cs ++ [c]) c ∧ KeyMove (keyShift s c) c (keyStep s c) (keyAnswer s c)) := by
  have hbuf := buffer_snoc h.buffer c
  by_cases hf : s.sCode0 = c ∧ s.sCode1 = c
  · rw [hf.1, hf.2] at hbuf
    by_cases hc : c ≠ NO_CODE ∨ 2 ≤ cs.length
    · exact Or.inr ⟨stable_of_buffer hbuf hc, keyStep_move hf⟩
    · -- the samples of `key_Par_Init` are still in the buffer, nothing has been pressed
      rw [not_or, not_not] at hc
      have hno : ∀ v, ¬ LastStable 3 cs v := by
        intro v hv
        obtain ⟨pre, hpre, hs, -⟩ := hv
        have h3 := hs.length
        have hle := hpre.length_le
        omega
      have hidle : s.preKeyCode = NO_CODE ∧ s.pressedKey = NO_CODE := by
        by_contra hn
        exact hno _ (h.last (not_and_or.1 hn))
      refine Or.inl ⟨fun w hw => ?_, ?_⟩
      · have h3 := hw.length
        rw [List.length_append, List.length_singleton] at h3
        omega
      · have hp : (keyShift s c).pressedKey = NO_CODE := hidle.2
        have hrest : keyStable (keyShift s c) c =
            ({ keyShift s c with preKeyCode := NO_CODE, keyPressCount := 0 }, .null) := by
          unfold keyStable
          rw [if_pos hc.1, if_pos hp]
        unfold keyAnswer keyStep
        rw [getKey_stable hf.1 hf.2, hrest]
        exact ⟨rfl, hidle.1.symm, rfl, (h.count hidle.2).symm⟩
  · refine Or.inl ⟨fun w hw => ?_, ?_⟩
    · obtain ⟨-, h0, h1⟩ := buffer_of_stable hbuf hw
      exact hf ⟨h0, h1⟩
    · unfold keyAnswer keyStep
      rw [getKey_bounce hf]
      exact ⟨rfl, rfl, rfl, rfl⟩

theorem keyStep_buffer (s : KeyState) (c : UInt8) :
    (keyStep s c).sCode0 = c ∧ (keyStep s c).sCode1 = s.sCode0 ∧
      (keyStep s c).sCode2 = s.sCode1 := by
  by_cases hf : s.sCode0 = c ∧ s.sCode1 = c
  · exact (keyStep_move hf).buffer
  · unfold keyStep
    rw [getKey_bounce hf]
    exact ⟨rfl, rfl, rfl⟩

theorem keyStep_pressed (s : KeyState) (c : UInt8) :
    (keyStep s c).pressedKey = s.pressedKey ∨ (keyStep s c).pressedKey = c ∨
      (keyStep s c).pressedKey = NO_CODE := by
  by_cases hf : s.sCode0 = c ∧ s.sCode1 = c
  · exact (keyStep_move hf).pressedKey
  · unfold keyStep
    rw [getKey_bounce hf]
    exact Or.inl rfl

/-- after a release no key is pressed, and a scan that answers nothing keeps the one that is -/
theorem keyStep_answer (s : KeyState) (c : UInt8) :
    (∀ k, keyAnswer s c = .nor k → (keyStep s c).pressedKey = NO_CODE) ∧
      (keyAnswer s c = .null → (keyStep s c).pressedKey = s.pressedKey) := by
  by_cases hf : s.sCode0 = c ∧ s.sCode1 = c
  · have hmove := keyStep_move hf
    generalize keyStep s c = t, keyAnswer s c = r at hmove
    cases hmove with
    | rest _ _ => exact ⟨nofun, fun _ => rfl⟩
    | noted _ _ => exact ⟨nofun, fun _ => rfl⟩
    | press _ _ _ => exact ⟨nofun, nofun⟩
    | release _ _ _ => exact ⟨fun _ _ => rfl, nofun⟩
    | hold _ _ _ =>
      refine ⟨fun k hk => ?_, fun _ => rfl⟩
      split_ifs at hk
  · unfold keyStep keyAnswer
    rw [getKey_bounce hf]
    exact ⟨nofun, fun _ => rfl⟩

theorem keyInv_step {cs : List UInt8} {rs : List KeyResult} {s : KeyState} (h : KeyInv cs rs s)
    (c : UInt8) : KeyInv (cs ++ [c]) (rs ++ [keyAnswer s c]) (keyStep s c) := by
  have hbuf : [(keyStep s c).sCode2, (keyStep s c).sCode1, (keyStep s c).sCode0] <:+
      keyPad ++ (cs ++ [c]) := by
    obtain ⟨h0, h1, h2⟩ := keyStep_buffer s c
    rw [h0, h1, h2]
    exact buffer_snoc h.buffer c
  rcases h.scan c with ⟨hno, hr, hpre, hkey, hcount⟩ | ⟨hst, hmove⟩
  · rw [hr]
    refine ⟨hbuf, ?_, ?_, ?_, ?_⟩
    · rw [hpre, hkey]
      exact fun hb => (h.last hb).snoc c fun w hw => absurd hw (hno w)
    · rw [hkey, hcount]
      exact h.count
    · rw [hkey]
      exact fun hb => (h.idle hb).null
    · rw [hkey]
      intro hb
      obtain ⟨n, hn⟩ := h.busy hb
      exact ⟨n, hn.null⟩
  · generalize keyStep s c = t, keyAnswer s c = r at hmove hbuf
    have hlast := hst.lastStable (by decide)
    cases hmove with
    | rest hc hp =>
      refine ⟨hbuf, fun hb => ?_, fun _ => rfl, fun _ => (h.idle hp).null, fun hb => absurd hp hb⟩
      exact absurd (hb.resolve_left fun hn => hn rfl) fun hn => hn hp
    | noted hne hc =>
      refine ⟨hbuf, fun _ => hlast, h.count, fun hp => (h.idle hp).null, fun hp => ?_⟩
      obtain ⟨n, hn⟩ := h.busy hp
      exact ⟨n, hn.null⟩
    | press hc hp he =>
      have he' : c = s.preKeyCode := he
      refine ⟨hbuf, fun _ => ?_, fun hb => absurd hb hc, fun hb => absurd hb hc, fun _ => ?_⟩
      · show LastStable 3 (cs ++ [c]) s.preKeyCode
        rw [← he']
        exact hlast
      · exact ⟨0, .key c (h.idle hp)⟩
    | hold hc hp he =>
      have hp' : s.pressedKey = c := hp
      have he' : c = s.preKeyCode := he
      have hb : s.pressedKey ≠ NO_CODE := fun hb => hc (hp'.symm.trans hb)
      refine ⟨hbuf, fun _ => ?_, fun hn => absurd hn hb, fun hn => absurd hn hb, fun _ => ?_⟩
      · show LastStable 3 (cs ++ [c]) s.preKeyCode
        rw [← he']
        exact hlast
      · obtain ⟨n, hn⟩ := h.busy hb
        show ∃ n, Session (rs ++ [if s.keyPressCount + 1 = 50 then .reset c else .null])
          (some (s.pressedKey, n))
        by_cases h50 : s.keyPressCount + 1 = 50
        · rw [if_pos h50, ← hp']
          exact ⟨n + 1, hn.reset⟩
        · rw [if_neg h50]
          exact ⟨n, hn.null⟩
    | release hp hne he =>
      obtain ⟨n, hn⟩ := h.busy hp
      refine ⟨hbuf, fun hb => ?_, fun _ => rfl, fun _ => hn.nor, fun hb => absurd rfl hb⟩
      exact absurd (hb.resolve_left fun hn => hn rfl) fun hn => hn rfl

theorem keyInv_run (cs : List UInt8) : KeyInv cs (keyAnswers cs) (keyRun cs) := by
  induction cs using List.reverseRecOn with
  | nil => exact keyInv_init
  | append_singleton cs c ih =>
    rw [keyAnswers_snoc, keyRun_snoc]
    exact keyInv_step ih c

/-! ## presses and releases -/

theorem KeyInv.press_backed {cs : List UInt8} {rs : List KeyResult} {s : KeyState}
    (h : KeyInv cs rs s) {c k : UInt8} (hk : keyAnswer s c = .key k) :
    k = c ∧ s.pressedKey = NO_CODE ∧ k ≠ NO_CODE ∧ Backed 3 (cs ++ [c]) k := by
  rcases h.scan c with ⟨-, hr, -⟩ | ⟨hst, hmove⟩
  · rw [hr] at hk
    cases hk
  · rw [hk] at hmove
    generalize keyStep s c = t, hr : KeyResult.key k = r at hmove
    cases hmove with
    | press hc hp he =>
      have he' : c = s.preKeyCode := he
      cases hr
      refine ⟨rfl, hp, hc, (backed_snoc cs c c).2 ⟨hst, ?_⟩⟩
      have hl := h.last (Or.inl (he' ▸ hc))
      rwa [← he'] at hl
    | hold _ _ _ =>
      split_ifs at hr
    | rest _ _ => cases hr
    | noted _ _ => cases hr
    | release _ _ _ => cases hr

theorem KeyInv.release_backed {cs : List UInt8} {rs : List KeyResult} {s : KeyState}
    (h : KeyInv cs rs s) {c k : UInt8} (hk : keyAnswer s c = .nor k) :
    s.pressedKey = k ∧ k ≠ NO_CODE ∧ c ≠ k ∧ Backed 3 (cs ++ [c]) c := by
  rcases h.scan c with ⟨-, hr, -⟩ | ⟨hst, hmove⟩
  · rw [hr] at hk
    cases hk
  · rw [hk] at hmove
    generalize keyStep s c = t, hr : KeyResult.nor k = r at hmove
    cases hmove with
    | release hp hne he =>
      have he' : c = s.preKeyCode := he
      cases hr
      refine ⟨rfl, hp, fun h' => hne h'.symm, (backed_snoc cs c c).2 ⟨hst, ?_⟩⟩
      have hl := h.last (Or.inr hp)
      rwa [← he'] at hl
    | hold _ _ _ =>
      split_ifs at hr
    | rest _ _ => cases hr
    | noted _ _ => cases hr
    | press _ _ _ => cases hr

theorem KeyInv.reset_pressed {cs : List UInt8} {rs : List KeyResult} {s : KeyState}
    (h : KeyInv cs rs s) {c k : UInt8} (hk : keyAnswer s c = .reset k) :
    s.pressedKey = k ∧ k ≠ NO_CODE := by
  rcases h.scan c with ⟨-, hr, -⟩ | ⟨-, hmove⟩
  · rw [hr] at hk
    cases hk
  · rw [hk] at hmove
    generalize keyStep s c = t, hr : KeyResult.reset k = r at hmove
    cases hmove with
    | hold hc hp _ =>
      split_ifs at hr
      cases hr
      exact ⟨hp, hc⟩
    | rest _ _ => cases hr
    | noted _ _ => cases hr
    | press _ _ _ => cases hr
    | release _ _ _ => cases hr

theorem KeyInv.bounce {cs : List UInt8} {rs : List KeyResult} {s : KeyState} (h : KeyInv cs rs s)
    {c : UInt8} (hno : ∀ v, ¬ Stable 3 (cs ++ [c]) v) :
    keyAnswer s c = .null ∧ (keyStep s c).preKeyCode = s.preKeyCode ∧
      (keyStep s c).pressedKey = s.pressedKey ∧
      (keyStep s c).keyPressCount = s.keyPressCount := by
  rcases h.scan c with ⟨-, hr⟩ | ⟨hst, -⟩
  · exact hr
  · exact absurd hst (hno c)

/-- **The debouncer.**  After any scans `cs`, and for the next scan `c`: the presses and releases
answered so far are taps, one key after the other, the last one perhaps still pressed; a press of
`k` is backed by two instants stable at `k`, a release of `k` by two instants stable at one other
value; and a scan that leaves the last three scans unequal answers nothing and changes neither
`PreKeyCode` nor `PressedKey` nor `KeyPressCount`. -/
theorem getKey_alternates (cs : List UInt8) (c : UInt8) :
    (∃ ks held, (keyAnswers cs).filter KeyResult.isEdge =
        taps ks ++ (Option.map KeyResult.key held).toList) ∧
      (∀ k, keyAnswer (keyRun cs) c = .key k → Backed 3 (cs ++ [c]) k) ∧
      (∀ k, keyAnswer (keyRun cs) c = .nor k → ∃ v, v ≠ k ∧ Backed 3 (cs ++ [c]) v) ∧
      ((∀ v, ¬ Stable 3 (cs ++ [c]) v) → keyAnswer (keyRun cs) c = .null ∧
        (keyRun (cs ++ [c])).preKeyCode = (keyRun cs).preKeyCode ∧
        (keyRun (cs ++ [c])).pressedKey = (keyRun cs).pressedKey ∧
        (keyRun (cs ++ [c])).keyPressCount = (keyRun cs).keyPressCount) := by
  have h := keyInv_run cs
  refine ⟨?_, fun k hk => (h.press_backed hk).2.2.2, fun k hk => ?_, fun hno => ?_⟩
  · by_cases hp : (keyRun cs).pressedKey = NO_CODE
    · obtain ⟨ks, hks⟩ := (h.idle hp).edges
      exact ⟨ks, none, hks⟩
    · obtain ⟨n, hn⟩ := h.busy hp
      obtain ⟨ks, hks⟩ := hn.edges
      exact ⟨ks, some (keyRun cs).pressedKey, hks⟩
  · obtain ⟨-, -, hne, hb⟩ := h.release_backed hk
    exact ⟨c, hne, hb⟩
  · rw [keyRun_snoc]
    exact h.bounce hno

end MenuFirmware
