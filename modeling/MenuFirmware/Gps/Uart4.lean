import MenuFirmware.Gps.Nmea
import MenuFirmware.Lib.Run
import MenuFirmware.Serial.Receive

/-!
# Reception of the sentences (`uart4.c`)

Every byte goes into a buffer of 512; the idle interrupt copies what has come into an array of 500
on the stack, and splits it into lines in a second array of 500.

* `Uart4`                the receiver; `uart4GetRxBufDat` what it hands out;
* `delivered`            the bytes handed out of a burst: those behind the last full 512;
* `pollintGps`           the idle interrupt, byte by byte, on a stack that holds anything;
* `InBounds`             the copies of one idle interrupt stay inside their arrays;
* `BurstFits`            the condition on the burst and the stack under which they do;
* `gps_inBounds_iff`     over every run of bytes and idle interrupts the one is the other.
-/

set_option linter.unusedSectionVars false
set_option linter.unusedVariables false

namespace MenuFirmware
open Runs Delimited

/-! ## the receiver -/

def uart4RxBufNumber : Nat := 0x200

/-- the HAL is always armed with the slot at `rxcount`, and `busy` is never set -/
structure Uart4 where
  rxcount : Nat
  rxBuf : Nat → UInt8

def uart4Init : Uart4 := ⟨0, fun _ => 0⟩

/-- a byte on the line, and `UART4_RX_Deal` -/
def uart4RxDeal (u : Uart4) (b : UInt8) : Uart4 where
  rxcount := rbufNextPt u.rxcount 1 uart4RxBufNumber
  rxBuf := Function.update u.rxBuf u.rxcount b

def uart4GetRxBufDat (u : Uart4) : List UInt8 × Uart4 :=
  ((List.range u.rxcount).map u.rxBuf, { u with rxcount := 0 })

/-- what of a burst is handed out: the count has begun again at every 512th byte -/
def delivered (burst : List UInt8) : List UInt8 :=
  burst.drop (burst.length / uart4RxBufNumber * uart4RxBufNumber)

theorem delivered_length (burst : List UInt8) :
    (delivered burst).length = burst.length % uart4RxBufNumber := by
  unfold delivered uart4RxBufNumber
  rw [List.length_drop]
  omega

theorem delivered_snoc (burst : List UInt8) (b : UInt8) :
    delivered (burst ++ [b]) =
      if (delivered burst).length + 1 = uart4RxBufNumber then [] else delivered burst ++ [b] := by
  rw [delivered_length]
  unfold delivered
  rw [List.length_append, List.length_singleton]
  unfold uart4RxBufNumber
  by_cases h : burst.length % 512 + 1 = 512
  · have hq : (burst.length + 1) / 512 * 512 = burst.length + 1 := by omega
    rw [if_pos h]
    apply List.drop_eq_nil_of_le
    rw [List.length_append, List.length_singleton]
    omega
  · have hq : (burst.length + 1) / 512 * 512 = burst.length / 512 * 512 := by omega
    rw [if_neg h, hq, List.drop_append_of_le_length (by omega)]

/-- the receiver holds what it will hand out -/
def Uart4.HoldsBurst (u : Uart4) (burst : List UInt8) : Prop :=
  (uart4GetRxBufDat u).1 = delivered burst

theorem HoldsBurst_rxcount {u : Uart4} {burst : List UInt8} (h : u.HoldsBurst burst) :
    u.rxcount = (delivered burst).length := by
  rw [← h]
  show u.rxcount = ((List.range u.rxcount).map u.rxBuf).length
  rw [List.length_map, List.length_range]

theorem HoldsBurst_byte {u : Uart4} {burst : List UInt8} (h : u.HoldsBurst burst) (b : UInt8) :
    (uart4RxDeal u b).HoldsBurst (burst ++ [b]) := by
  have hcnt := HoldsBurst_rxcount h
  have hlt : u.rxcount < 512 := by
    rw [hcnt, delivered_length]
    exact Nat.mod_lt _ (by decide)
  have hnext : (uart4RxDeal u b).rxcount = (u.rxcount + 1) % 512 :=
    rbufNextPt_two_pow u.rxcount 1 9
  unfold Uart4.HoldsBurst
  show (List.range (uart4RxDeal u b).rxcount).map (uart4RxDeal u b).rxBuf = _
  rw [delivered_snoc, hnext, ← hcnt]
  unfold uart4RxBufNumber
  by_cases hw : u.rxcount + 1 = 512
  · rw [if_pos hw, hw]
    rfl
  · rw [if_neg hw, Nat.mod_eq_of_lt (by omega), List.range_succ, List.map_append, List.map_singleton,
      ← h]
    show _ ++ [Function.update u.rxBuf u.rxcount b u.rxcount] = (List.range u.rxcount).map u.rxBuf ++ [b]
    rw [Function.update_self]
    congr 1
    apply List.map_congr_left
    intro i hi
    exact Function.update_of_ne (Nat.ne_of_lt (List.mem_range.1 hi)) ..

/-! ## the idle interrupt -/

def newline : UInt8 := 0x0A

/-- what the locals of an idle interrupt hold before anything is written to them: `Gprmc_BUF` and
the memory behind it, up to where some NUL stands, and `usefullBuffer` at each call of the parser -/
structure GpsStack where
  gprmcBuf : Fin 500 → UInt8
  behind : List UInt8
  usefull : Nat → UInt8 × UInt8

structure GpsPoll where
  /-- `Gprmc_BUF` and the memory behind it -/
  mem : List UInt8
  gprmcLen : Nat
  /-- ghost: the greatest value that `Gprmc_Len` has had -/
  lenMax : Nat
  calls : Nat
  /-- `none` once the behaviour is undefined -/
  parse : Option GpsParse

/-- a call of the parser: `usefullBuffer` is what the stack holds -/
def parseCall (st : GpsStack) (s : GpsPoll) : Option GpsParse :=
  s.parse.bind fun p => parseGpsBuffer s.mem { p with usefull := st.usefull s.calls }

/-- the loop of `pollint_GPS`, for one byte of `GPS_Data` -/
def pollByte (st : GpsStack) (s : GpsPoll) (b : UInt8) : GpsPoll :=
  if b = newline then
    { s with gprmcLen := 0, lenMax := max s.lenMax (s.gprmcLen + 1), calls := s.calls + 1
             parse := parseCall st s }
  else
    { s with mem := s.mem.set s.gprmcLen b, gprmcLen := s.gprmcLen + 1
             lenMax := max s.lenMax (s.gprmcLen + 1) }

theorem pollByte_newline (st : GpsStack) (s : GpsPoll) :
    pollByte st s newline = { s with
      gprmcLen := 0, lenMax := max s.lenMax (s.gprmcLen + 1), calls := s.calls + 1
      parse := parseCall st s } := if_pos rfl

theorem pollByte_other (st : GpsStack) (s : GpsPoll) {b : UInt8} (h : b ≠ newline) :
    pollByte st s b = { s with
      mem := s.mem.set s.gprmcLen b, gprmcLen := s.gprmcLen + 1
      lenMax := max s.lenMax (s.gprmcLen + 1) } := if_neg h

def pollInit (st : GpsStack) (p : Option GpsParse) : GpsPoll :=
  ⟨List.ofFn st.gprmcBuf ++ st.behind, 0, 0, 0, p⟩

/-- `pollint_GPS` on the bytes handed out -/
def pollintGps (st : GpsStack) (data : List UInt8) (p : Option GpsParse) : GpsPoll :=
  run (pollByte st) (pollInit st p) data

/-! ## bounds -/

/-- `GPS_Data` takes the bytes, `Gprmc_Len` stays below 500, and the copies of the parser stay in
their arrays -/
def InBounds (st : GpsStack) (data : List UInt8) (p : Option GpsParse) : Prop :=
  data.length ≤ 500 ∧ (pollintGps st data p).lenMax < 500 ∧
    ∃ q, (pollintGps st data p).parse = some q ∧ CopiesFit q

/-- the sentence at the start of the memory has a comma, and the fields found in it fit -/
def SentenceFits (mem : List UInt8) : Prop :=
  isRmc mem = true → ∃ k, find comma 0 mem = some k ∧
    AllFit (List.range' 1 9) (fields comma 0 9 (mem.drop k))

/-- one more byte fits into the line, and a line that ends is a sentence whose fields fit -/
def ByteFits (s : GpsPoll) (b : UInt8) : Prop :=
  s.gprmcLen + 1 < 500 ∧ (b = newline → SentenceFits s.mem)

/-- a line stored from the start of the memory on -/
def overlay (line mem : List UInt8) : List UInt8 := line ++ mem.drop line.length

/-- the lines, each over what the ones before it have left: at most 498 bytes of a line that ends,
at most 499 of the last one, which does not; the fields of each sentence fit -/
def LinesFit : List UInt8 → List (List UInt8) → Prop
  | _, [] => True
  | _, [tail] => tail.length < 500
  | mem, line :: next :: rest =>
    line.length + 1 < 500 ∧ SentenceFits (overlay line mem) ∧ LinesFit (overlay line mem) (next :: rest)

/-- at most 500 bytes are handed out, and their lines fit -/
def BurstFits (st : GpsStack) (burst : List UInt8) : Prop :=
  burst.length % uart4RxBufNumber ≤ 500 ∧
    LinesFit (List.ofFn st.gprmcBuf ++ st.behind) ((delivered burst).splitOn newline)

/-- the parser stays in bounds iff the sentence fits -/
theorem parseGpsBuffer_fits_iff (mem : List UInt8) (p : GpsParse) :
    (∃ q, parseGpsBuffer mem p = some q ∧ CopiesFit q) ↔ CopiesFit p ∧ SentenceFits mem := by
  unfold parseGpsBuffer SentenceFits
  by_cases hr : isRmc mem = true
  · rw [if_pos hr]
    cases hk : find comma 0 mem with
    | none =>
      refine ⟨fun ⟨q, e, _⟩ => ?_, fun h => ?_⟩
      · cases e
      · obtain ⟨k, e, _⟩ := h.2 hr
        cases e
    | some k =>
      simp only [parseLoop_eq]
      refine (storeFields_fit_iff (noNul_fields _ _) p).trans (and_congr_right fun _ => ?_)
      exact ⟨fun h _ => ⟨k, rfl, h⟩, fun h => by
        obtain ⟨k', e, hfit⟩ := h hr
        cases e
        exact hfit⟩
  · rw [if_neg hr]
    exact ⟨fun ⟨q, e, hq⟩ => ⟨Option.some.inj e ▸ hq, fun e => absurd e hr⟩,
      fun h => ⟨p, rfl, h.1⟩⟩

/-- everything has been in bounds so far -/
def PollGood (s : GpsPoll) : Prop := s.lenMax < 500 ∧ ∃ q, s.parse = some q ∧ CopiesFit q

/-- **Step.**  A byte stays in bounds iff it fits. -/
theorem pollByte_good (st : GpsStack) (s : GpsPoll) (b : UInt8) :
    PollGood (pollByte st s b) ↔ PollGood s ∧ ByteFits s b := by
  have hmax : max s.lenMax (s.gprmcLen + 1) < 500 ↔ s.lenMax < 500 ∧ s.gprmcLen + 1 < 500 :=
    Nat.max_lt
  unfold PollGood ByteFits
  by_cases hb : b = newline
  · rw [hb, pollByte_newline]
    show max s.lenMax (s.gprmcLen + 1) < 500 ∧ (∃ q, parseCall st s = some q ∧ CopiesFit q) ↔ _
    rw [hmax]
    have hcall : (∃ q, parseCall st s = some q ∧ CopiesFit q) ↔
        (∃ q, s.parse = some q ∧ CopiesFit q) ∧ SentenceFits s.mem := by
      unfold parseCall
      cases s.parse with
      | none =>
        refine ⟨fun ⟨q, e, _⟩ => ?_, fun ⟨⟨q, e, _⟩, _⟩ => ?_⟩
        · cases e
        · cases e
      | some p =>
        have hp : CopiesFit { p with usefull := st.usefull s.calls } ↔ CopiesFit p := Iff.rfl
        rw [Option.bind_some, parseGpsBuffer_fits_iff, hp]
        exact and_congr_left fun _ => ⟨fun h => ⟨p, rfl, h⟩, fun ⟨q, e, hq⟩ => Option.some.inj e ▸ hq⟩
    rw [hcall]
    exact ⟨fun ⟨⟨h1, h2⟩, h3, h4⟩ => ⟨⟨h1, h3⟩, h2, fun _ => h4⟩,
      fun ⟨⟨h1, h3⟩, h2, h4⟩ => ⟨⟨h1, h2⟩, h3, h4 rfl⟩⟩
  · rw [pollByte_other st s hb]
    show max s.lenMax (s.gprmcLen + 1) < 500 ∧ (∃ q, s.parse = some q ∧ CopiesFit q) ↔ _
    rw [hmax]
    exact ⟨fun ⟨⟨h1, h2⟩, h3⟩ => ⟨⟨h1, h3⟩, h2, fun e => absurd e hb⟩,
      fun ⟨⟨h1, h3⟩, h2, _⟩ => ⟨⟨h1, h2⟩, h3⟩⟩

/-! ## the lines of a burst -/

theorem linesFit_head {mem line : List UInt8} {rest : List (List UInt8)}
    (h : LinesFit mem (line :: rest)) : line.length < 500 := by
  cases rest with
  | nil => exact h
  | cons next rest =>
    have hline := h.1
    omega

/-- the next byte of a line is stored behind it -/
theorem overlay_snoc {line mem : List UInt8} (h : line.length < mem.length) (b : UInt8) :
    (overlay line mem).set line.length b = overlay (line ++ [b]) mem := by
  have hlen : (line ++ [b]).length = line.length + 1 := List.length_append
  unfold overlay
  rw [List.set_append_right _ _ (Nat.le_refl _), Nat.sub_self, hlen, List.drop_eq_getElem_cons h,
    List.set_cons_zero, List.append_assoc, List.singleton_append]

theorem overlay_nil (mem : List UInt8) : overlay [] mem = mem := rfl

theorem overlay_length {line mem : List UInt8} (h : line.length ≤ mem.length) :
    (overlay line mem).length = mem.length := by
  unfold overlay
  rw [List.length_append, List.length_drop]
  omega

/-- every byte fits iff the lines do; `cur` is what has come of the first one -/
theorem along_linesFit (st : GpsStack) (s : GpsPoll) (cur mem data : List UInt8)
    (hlen : s.gprmcLen = cur.length) (hmem : s.mem = overlay cur mem) (hcur : cur.length < 500)
    (hbig : 500 ≤ mem.length) :
    Along (pollByte st) ByteFits s data ↔
      LinesFit mem ((data.splitOn newline).modifyHead (cur ++ ·)) := by
  induction data generalizing s cur mem with
  | nil =>
    rw [List.splitOn_nil, List.modifyHead_cons, List.append_nil]
    exact iff_of_true trivial hcur
  | cons b data ih =>
    obtain ⟨line, rest, hrest⟩ := List.exists_cons_of_ne_nil (List.splitOn_ne_nil newline data)
    show ByteFits s b ∧ Along (pollByte st) ByteFits (pollByte st s b) data ↔ _
    rw [List.splitOn_cons_eq_if_modifyHead]
    by_cases hb : b = newline
    · have hstep := pollByte_newline st s
      rw [← hb] at hstep
      have hsize : 500 ≤ (overlay cur mem).length := by
        rw [overlay_length (by omega)]
        exact hbig
      have hnext := ih (pollByte st s b) [] (overlay cur mem) (by rw [hstep]; rfl)
        (by rw [hstep]; exact hmem) (by decide) hsize
      rw [hnext, if_pos (beq_iff_eq.2 hb), List.modifyHead_cons, List.append_nil, hrest,
        List.modifyHead_cons, List.nil_append]
      unfold ByteFits
      rw [hlen, hmem]
      exact ⟨fun h => ⟨h.1.1, h.1.2 hb, h.2⟩, fun h => ⟨⟨h.1, fun _ => h.2.1⟩, h.2.2⟩⟩
    · have hstep := pollByte_other st s hb
      have hsnoc : (cur ++ [b]).length = cur.length + 1 := List.length_append
      have hfits : ByteFits s b ↔ cur.length + 1 < 500 := by
        unfold ByteFits
        rw [hlen]
        exact and_iff_left fun e => absurd e hb
      rw [hfits, if_neg fun e => hb (beq_iff_eq.1 e), List.modifyHead_modifyHead]
      by_cases hroom : cur.length + 1 < 500
      · have hnext := ih (pollByte st s b) (cur ++ [b]) mem (by rw [hstep, hsnoc, ← hlen])
          (by rw [hstep, hmem, hlen]; exact overlay_snoc (by omega) b) (by omega) hbig
        rw [hnext, hrest, List.modifyHead_cons, List.modifyHead_cons, List.append_assoc]
        exact and_iff_right hroom
      · refine ⟨fun h => absurd h.1 hroom, fun h => ?_⟩
        rw [hrest, List.modifyHead_cons] at h
        have hline := linesFit_head h
        simp only [Function.comp_apply, List.length_append, List.length_cons] at hline
        omega

/-- **One idle interrupt.** -/
theorem inBounds_iff (st : GpsStack) (burst : List UInt8) {p : GpsParse} (hp : CopiesFit p) :
    InBounds st (delivered burst) (some p) ↔ BurstFits st burst := by
  have hinit : PollGood (pollInit st (some p)) := ⟨show 0 < 500 by decide, p, rfl, hp⟩
  have hrun := run_iff_Along (pollByte_good st) (pollInit st (some p)) (delivered burst)
  have hsize : 500 ≤ (List.ofFn st.gprmcBuf ++ st.behind).length := by
    rw [List.length_append, List.length_ofFn]
    exact Nat.le_add_right ..
  have hlines := along_linesFit st (pollInit st (some p)) [] _ (delivered burst) rfl
    (overlay_nil _).symm (by decide) hsize
  obtain ⟨line, rest, hrest⟩ :=
    List.exists_cons_of_ne_nil (List.splitOn_ne_nil newline (delivered burst))
  unfold InBounds BurstFits
  rw [delivered_length]
  rw [hrest, List.modifyHead_cons, List.nil_append, ← hrest] at hlines
  exact and_congr_right fun _ => (hrun.trans (and_iff_right hinit)).trans hlines

/-! ## every run -/

inductive GpsRxEvent where
  | byte (b : UInt8)
  /-- the idle interrupt, with what its stack holds -/
  | idle (st : GpsStack)

structure GpsRx where
  uart : Uart4
  parse : Option GpsParse
  /-- ghost: the bytes since the last idle interrupt -/
  burst : List UInt8

def gpsRxStep (s : GpsRx) : GpsRxEvent → GpsRx
  | .byte b => { s with uart := uart4RxDeal s.uart b, burst := s.burst ++ [b] }
  | .idle st =>
    { uart := (uart4GetRxBufDat s.uart).2
      parse := (pollintGps st (uart4GetRxBufDat s.uart).1 s.parse).parse
      burst := [] }

def gpsRxInit : GpsRx := ⟨uart4Init, some gpsParseInit, []⟩

/-- an idle interrupt stays in bounds -/
def IdleInBounds (s : GpsRx) : GpsRxEvent → Prop
  | .byte _ => True
  | .idle st => InBounds st (uart4GetRxBufDat s.uart).1 s.parse

/-- the burst before an idle interrupt fits -/
def IdleFits (s : GpsRx) : GpsRxEvent → Prop
  | .byte _ => True
  | .idle st => BurstFits st s.burst

/-- the receiver holds the burst, and everything has been in bounds -/
structure GpsRxGood (s : GpsRx) : Prop where
  holds : s.uart.HoldsBurst s.burst
  parse : ∃ p, s.parse = some p ∧ CopiesFit p

theorem gpsRxInit_good : GpsRxGood gpsRxInit := by
  refine ⟨rfl, gpsParseInit, rfl, fun c hc => ?_⟩
  cases hc

theorem idleInBounds_iff {s : GpsRx} (h : GpsRxGood s) (e : GpsRxEvent) :
    IdleInBounds s e ↔ IdleFits s e := by
  cases e with
  | byte b => exact Iff.rfl
  | idle st =>
    obtain ⟨p, hp, hfit⟩ := h.parse
    show InBounds st (uart4GetRxBufDat s.uart).1 s.parse ↔ BurstFits st s.burst
    rw [h.holds, hp]
    exact inBounds_iff st s.burst hfit

theorem gpsRxStep_good {s : GpsRx} (h : GpsRxGood s) (e : GpsRxEvent) (he : IdleInBounds s e) :
    GpsRxGood (gpsRxStep s e) := by
  cases e with
  | byte b => exact ⟨HoldsBurst_byte h.holds b, h.parse⟩
  | idle st =>
    refine ⟨?_, he.2.2⟩
    show (List.range 0).map s.uart.rxBuf = delivered []
    rfl

/-- **Bounds.**  In every run of bytes and idle interrupts, whatever the stack holds, the copies of
all idle interrupts stay in bounds iff the burst before each of them fits. -/
theorem gps_inBounds_iff (es : List GpsRxEvent) :
    Along gpsRxStep IdleInBounds gpsRxInit es ↔ Along gpsRxStep IdleFits gpsRxInit es := by
  have hiff : ∀ (s : GpsRx) (e : GpsRxEvent), GpsRxGood s → (IdleInBounds s e ↔ IdleFits s e) :=
    fun _ e h => idleInBounds_iff h e
  have hstep : ∀ (s : GpsRx) (e : GpsRxEvent), GpsRxGood s → IdleInBounds s e →
      GpsRxGood (gpsRxStep s e) := fun _ e h he => gpsRxStep_good h e he
  exact Along_congr_of hiff hstep gpsRxInit_good es

def blankStack : GpsStack := ⟨fun _ => 0, [], fun _ => (0, 0)⟩

/-- a burst of 501 bytes -/
theorem gps_inBounds_long :
    ¬ Along gpsRxStep IdleInBounds gpsRxInit
      (List.replicate 501 (.byte 0x30) ++ [.idle blankStack]) := by
  intro h
  have hlast := ((Along_append ..).1 h).2.1.1
  revert hlast
  decide +kernel

end MenuFirmware
