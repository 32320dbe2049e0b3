import MenuFirmware.Ts.Start

/-!
# The driver of the multiplexer and short payloads

The first packet takes as many bytes as it has room for.  What a shorter payload is left with is
negative, and the driver waits for zero.

* `polls`            the driver, called again and again;
* `sends`            one stream of it;
* `sends_done`, `sends_stuck`   a payload that fills the first packet is sent within two polls; a
                     shorter one never is;
* `polls_video`, `polls_audio`   the driver follows its stream until nothing is left;
* `firstPacket_iff`  nothing else is copied, and the driver moves on, iff the payload fills the room
                     that the headers leave;
* `tsMux_ends_iff`   a run from the start comes to its end iff both payloads do.
-/

namespace MenuFirmware
open Memory

section
variable (mem : Nat → UInt8)

/-! ## one stream -/

/-- a stream as it is before its first packet -/
def begun (ts : WriteStream) (p : Nat) (n : Int) : WriteStream :=
  { ts with isStart := true, payload := p, payloadSize := n }

/-- the stream after `k` polls; the `i`th one finds `stack i` on the stack -/
def sends (stack : Nat → Nat → UInt8) (step : Int) (ts : WriteStream) : Nat → WriteStream
  | 0 => ts
  | k + 1 => (sendPart mem (stack k) step (sends stack step ts k)).1

theorem sendPart_first (stack : Nat → UInt8) (step : Int) {ts : WriteStream} (h : isMedia ts)
    (p : Nat) (n : Int) :
    (sendPart mem stack step (begun ts p n)).1.payloadSize = n - startRoom ts ∧
      (sendPart mem stack step (begun ts p n)).1.isStart = false := by
  have hlen : startLen stack { begun ts p n with isStart := false } = startRoom ts :=
    startLen_eq stack h
  refine ⟨?_, rfl⟩
  show n - (startLen stack { begun ts p n with isStart := false } : Nat) = n - startRoom ts
  rw [hlen]

theorem sendPart_rest (stack : Nat → UInt8) (step : Int) {ts : WriteStream} {r : Nat}
    (hs : ts.isStart = false) (hr : ts.payloadSize = r) :
    (sendPart mem stack step ts).1.payloadSize = 0 := by
  unfold sendPart
  rw [hs, if_neg Bool.false_ne_true, normal_stream mem r stack ts hr]

theorem sendPart_stuck (stack : Nat → UInt8) (step : Int) {ts : WriteStream}
    (hs : ts.isStart = false) (hneg : ts.payloadSize < 0) : sendPart mem stack step ts = (ts, []) := by
  unfold sendPart
  rw [hs, if_neg Bool.false_ne_true, normal_done mem stack (by omega)]

variable (stack : Nat → Nat → UInt8)

theorem sends_done (step : Int) {ts : WriteStream} (h : isMedia ts) (p : Nat) {n : Nat}
    (hn : startRoom ts ≤ n) :
    (sends mem stack step (begun ts p n) 1).payloadSize = (n - startRoom ts : Nat) ∧
      (sends mem stack step (begun ts p n) 2).payloadSize = 0 := by
  obtain ⟨hsize, hs⟩ := sendPart_first mem (stack 0) step h p n
  have hone : (sends mem stack step (begun ts p n) 1).payloadSize = (n - startRoom ts : Nat) := by
    show (sendPart mem (stack 0) step (begun ts p n)).1.payloadSize = _
    rw [hsize]
    omega
  exact ⟨hone, sendPart_rest mem (stack 1) step hs hone⟩

theorem sends_stuck (step : Int) {ts : WriteStream} (h : isMedia ts) (p : Nat) {n : Int}
    (hn : n < startRoom ts) (k : Nat) :
    (sends mem stack step (begun ts p n) (k + 1)).payloadSize < 0 ∧
      (sends mem stack step (begun ts p n) (k + 1)).isStart = false := by
  induction k with
  | zero =>
    obtain ⟨hsize, hs⟩ := sendPart_first mem (stack 0) step h p n
    refine ⟨?_, hs⟩
    show (sendPart mem (stack 0) step (begun ts p n)).1.payloadSize < 0
    omega
  | succ k ih =>
    show (sendPart mem (stack (k + 1)) step _).1.payloadSize < 0 ∧
      (sendPart mem (stack (k + 1)) step _).1.isStart = false
    rw [sendPart_stuck mem _ step ih.2 ih.1]
    exact ih

/-! ## the driver -/

variable (d : TsData)

/-- the driver after `k` polls -/
def polls (m : TsMux) : Nat → TsMux
  | 0 => m
  | k + 1 => (pollintTs d mem (stack k) (polls m k)).1

theorem polls_add (m : TsMux) (j k : Nat) :
    polls mem stack d m (j + k) =
      polls mem (fun i => stack (j + i)) d (polls mem stack d m j) k := by
  induction k with
  | zero => rfl
  | succ k ih =>
    show (pollintTs d mem (stack (j + k)) (polls mem stack d m (j + k))).1 = _
    rw [ih]
    rfl

variable {m : TsMux}

theorem pollintTs_video (stk : Nat → UInt8) (h : m.avState = .videoPacket) :
    (pollintTs d mem stk m).1 =
      { m with
        avState := if (sendPart mem stk 1500 m.tsStV).1.payloadSize = 0 then .auidoPacket
          else .videoPacket
        tsStV := (sendPart mem stk 1500 m.tsStV).1 } := by
  unfold pollintTs
  rw [h]

theorem pollintTs_audio (stk : Nat → UInt8) (h : m.avState = .auidoPacket) :
    (pollintTs d mem stk m).1 =
      { m with
        avState := if (sendPart mem stk 2160 m.tsStA).1.payloadSize = 0 then
          if m.testLoop = 1 then .endPacket else .startPacket else .auidoPacket
        tsStA := (sendPart mem stk 2160 m.tsStA).1 } := by
  unfold pollintTs
  rw [h]

/-- as long as something is left, the driver stays where it is -/
theorem polls_video (h : m.avState = .videoPacket) (k : Nat)
    (hleft : ∀ j < k, (sends mem stack 1500 m.tsStV (j + 1)).payloadSize ≠ 0) :
    polls mem stack d m k = { m with tsStV := sends mem stack 1500 m.tsStV k } := by
  induction k with
  | zero => rfl
  | succ k ih =>
    show (pollintTs d mem (stack k) (polls mem stack d m k)).1 = _
    have hpoll := pollintTs_video mem d (stack k)
      (m := { m with tsStV := sends mem stack 1500 m.tsStV k }) h
    rw [ih (fun j hj => hleft j (by omega)), hpoll]
    show TsMux.mk (if (sends mem stack 1500 m.tsStV (k + 1)).payloadSize = 0 then _ else _) _ _ _ _
      = _
    rw [if_neg (hleft k (by omega)), ← h]
    rfl

theorem polls_audio (h : m.avState = .auidoPacket) (k : Nat)
    (hleft : ∀ j < k, (sends mem stack 2160 m.tsStA (j + 1)).payloadSize ≠ 0) :
    polls mem stack d m k = { m with tsStA := sends mem stack 2160 m.tsStA k } := by
  induction k with
  | zero => rfl
  | succ k ih =>
    show (pollintTs d mem (stack k) (polls mem stack d m k)).1 = _
    have hpoll := pollintTs_audio mem d (stack k)
      (m := { m with tsStA := sends mem stack 2160 m.tsStA k }) h
    rw [ih (fun j hj => hleft j (by omega)), hpoll]
    show TsMux.mk (if (sends mem stack 2160 m.tsStA (k + 1)).payloadSize = 0 then _ else _) _ _ _ _
      = _
    rw [if_neg (hleft k (by omega)), ← h]
    rfl

/-- where nothing is left, it goes on -/
theorem polls_video_next (h : m.avState = .videoPacket) {k : Nat}
    (hleft : ∀ j < k, (sends mem stack 1500 m.tsStV (j + 1)).payloadSize ≠ 0)
    (hdone : (sends mem stack 1500 m.tsStV (k + 1)).payloadSize = 0) :
    polls mem stack d m (k + 1) =
      { m with avState := .auidoPacket, tsStV := sends mem stack 1500 m.tsStV (k + 1) } := by
  have hpoll := pollintTs_video mem d (stack k)
    (m := { m with tsStV := sends mem stack 1500 m.tsStV k }) h
  show (pollintTs d mem (stack k) (polls mem stack d m k)).1 = _
  rw [polls_video mem stack d h k hleft, hpoll]
  show TsMux.mk (if (sends mem stack 1500 m.tsStV (k + 1)).payloadSize = 0 then _ else _) _ _ _ _
    = _
  rw [if_pos hdone]
  rfl

/-- the state behind the audio -/
def nextState (m : TsMux) : AvState := if m.testLoop = 1 then .endPacket else .startPacket

theorem polls_audio_next (h : m.avState = .auidoPacket) {k : Nat}
    (hleft : ∀ j < k, (sends mem stack 2160 m.tsStA (j + 1)).payloadSize ≠ 0)
    (hdone : (sends mem stack 2160 m.tsStA (k + 1)).payloadSize = 0) :
    polls mem stack d m (k + 1) =
      { m with avState := nextState m, tsStA := sends mem stack 2160 m.tsStA (k + 1) } := by
  have hpoll := pollintTs_audio mem d (stack k)
    (m := { m with tsStA := sends mem stack 2160 m.tsStA k }) h
  show (pollintTs d mem (stack k) (polls mem stack d m k)).1 = _
  rw [polls_audio mem stack d h k hleft, hpoll]
  show TsMux.mk (if (sends mem stack 2160 m.tsStA (k + 1)).payloadSize = 0 then _ else _) _ _ _ _
    = _
  rw [if_pos hdone]
  rfl

/-- after how many polls a payload that fills the first packet is sent -/
theorem sends_first_done (step : Int) {ts : WriteStream} (h : isMedia ts) (p : Nat) {n : Nat}
    (hn : startRoom ts ≤ n) :
    ∃ k, (∀ j < k, (sends mem stack step (begun ts p n) (j + 1)).payloadSize ≠ 0) ∧
      (sends mem stack step (begun ts p n) (k + 1)).payloadSize = 0 := by
  obtain ⟨hone, htwo⟩ := sends_done mem stack step h p hn
  by_cases hfit : n = startRoom ts
  · exact ⟨0, fun j hj => absurd hj (Nat.not_lt_zero j), by rw [hone]; omega⟩
  · refine ⟨1, ?_, htwo⟩
    intro j hj
    obtain rfl : j = 0 := by omega
    rw [hone]
    omega

/-! ## what is expected of a payload -/

/-- the packet depends on nothing but the `n` bytes of the payload -/
def CopiesOnly (stk : Nat → UInt8) (ts : WriteStream) (n : Nat) : Prop :=
  ∀ mem' : Nat → UInt8, (∀ i < n, mem' (ts.payload + i) = mem (ts.payload + i)) →
    (mpegtsStartPacket mem' stk ts).2 = (mpegtsStartPacket mem stk ts).2

theorem copiesOnly_of_le (stk : Nat → UInt8) {ts : WriteStream} (h : isMedia ts) {n : Nat}
    (hn : startRoom ts ≤ n) : CopiesOnly mem stk ts n := by
  intro mem' hmem
  have hslice : slice mem' ts.payload (startRoom ts) = slice mem ts.payload (startRoom ts) :=
    slice_congr fun i hi => hmem i (by omega)
  rw [start_sent mem' stk h, start_sent mem stk h, hslice]

/-- the state in which the driver begins with the video -/
def atVideo (m : TsMux) (p n : Nat) : TsMux :=
  { m with avState := .videoPacket, tsStV := begun { m.tsStV with codecType := .video } p n }

def atAudio (m : TsMux) (p n : Nat) : TsMux :=
  { m with avState := .auidoPacket, tsStA := begun { m.tsStA with codecType := .audio } p n }

/-- the stream as the first packet finds it -/
def opened (ts : WriteStream) : WriteStream := { ts with isStart := false }

def StartRight (stk : Nat → UInt8) (ts : WriteStream) (n : Nat) : Prop :=
  CopiesOnly mem stk (opened ts) n ∧ 0 ≤ (mpegtsStartPacket mem stk (opened ts)).1.payloadSize

theorem startRight_iff (stk : Nat → UInt8) {ts : WriteStream} (h : isMedia ts) (p n : Nat) :
    StartRight mem stk (begun ts p n) n ↔ startRoom ts ≤ n := by
  have hlen : startLen stk (opened (begun ts p n)) = startRoom ts := startLen_eq stk h
  have hsize : (mpegtsStartPacket mem stk (opened (begun ts p n))).1.payloadSize =
      n - startRoom ts := by
    show (n : Int) - (startLen stk (opened (begun ts p n)) : Nat) = n - startRoom ts
    rw [hlen]
  constructor
  · intro hright
    have hpos := hright.2
    rw [hsize] at hpos
    omega
  · intro hn
    have hmedia : isMedia (opened (begun ts p n)) := h
    refine ⟨copiesOnly_of_le mem stk hmedia hn, ?_⟩
    rw [hsize]
    omega

def VideoRight (m : TsMux) (p n : Nat) : Prop :=
  StartRight mem (stack 0) (atVideo m p n).tsStV n ∧
    ∃ k, (polls mem stack d (atVideo m p n) k).avState = .auidoPacket ∧
      (polls mem stack d (atVideo m p n) k).tsStV.payloadSize = 0

def AudioRight (m : TsMux) (p n : Nat) : Prop :=
  StartRight mem (stack 0) (atAudio m p n).tsStA n ∧
    ∃ k, (polls mem stack d (atAudio m p n) k).avState = nextState m ∧
      (polls mem stack d (atAudio m p n) k).tsStA.payloadSize = 0

theorem videoRight_iff (m : TsMux) (p n : Nat) :
    VideoRight mem stack d m p n ↔ startRoom { m.tsStV with codecType := .video } ≤ n := by
  have hmedia : isMedia { m.tsStV with codecType := .video } := Or.inl rfl
  constructor
  · intro hright
    exact (startRight_iff mem (stack 0) hmedia p n).1 hright.1
  · intro hn
    obtain ⟨k, hleft, hdone⟩ := sends_first_done mem stack 1500 hmedia p hn
    refine ⟨(startRight_iff mem (stack 0) hmedia p n).2 hn, k + 1, ?_⟩
    rw [polls_video_next mem stack d (m := atVideo m p n) rfl hleft hdone]
    exact ⟨rfl, hdone⟩

theorem audioRight_iff (m : TsMux) (p n : Nat) :
    AudioRight mem stack d m p n ↔ startRoom { m.tsStA with codecType := .audio } ≤ n := by
  have hmedia : isMedia { m.tsStA with codecType := .audio } := Or.inr rfl
  constructor
  · intro hright
    exact (startRight_iff mem (stack 0) hmedia p n).1 hright.1
  · intro hn
    obtain ⟨k, hleft, hdone⟩ := sends_first_done mem stack 2160 hmedia p hn
    refine ⟨(startRight_iff mem (stack 0) hmedia p n).2 hn, k + 1, ?_⟩
    rw [polls_audio_next mem stack d (m := atAudio m p n) rfl hleft hdone]
    exact ⟨rfl, hdone⟩

theorem startRoom_video (ts : WriteStream) :
    startRoom { ts with codecType := .video } =
      if ts.payloadPts = avNoptsValue then 167 else 162 := by
  unfold startRoom
  rw [if_pos rfl]
  by_cases h : ts.payloadPts = avNoptsValue
  · have hno : ¬ hasPts { ts with codecType := .video } := not_not_intro h
    rw [if_pos h, if_neg hno]
  · have hpts : hasPts { ts with codecType := .video } := h
    rw [if_neg h, if_pos hpts]

theorem startRoom_audio (ts : WriteStream) :
    startRoom { ts with codecType := .audio } =
      if ts.payloadPts = avNoptsValue then 173 else 168 := by
  unfold startRoom
  rw [if_neg (show ¬ MediaType.audio = .video by decide)]
  by_cases h : ts.payloadPts = avNoptsValue
  · have hno : ¬ hasPts { ts with codecType := .audio } := not_not_intro h
    rw [if_pos h, if_neg hno]
  · have hpts : hasPts { ts with codecType := .audio } := h
    rw [if_neg h, if_pos hpts]

/-- a payload is handled right iff it fills the room that the headers leave -/
theorem firstPacket_iff (m : TsMux) (p n : Nat) :
    (VideoRight mem stack d m p n ↔
      (if m.tsStV.payloadPts = avNoptsValue then 167 else 162) ≤ n) ∧
    (AudioRight mem stack d m p n ↔
      (if m.tsStA.payloadPts = avNoptsValue then 173 else 168) ≤ n) := by
  rw [← startRoom_video, ← startRoom_audio]
  exact ⟨videoRight_iff mem stack d m p n, audioRight_iff mem stack d m p n⟩

/-! ## whole runs -/

theorem polls_short (h : m.avState = .videoPacket) {ts : WriteStream} (hm : isMedia ts) {p : Nat}
    {n : Int} (hts : m.tsStV = begun ts p n) (hn : n < startRoom ts) (k : Nat) :
    (polls mem stack d m k).avState = .videoPacket := by
  rw [polls_video mem stack d h k]
  · exact h
  · intro j _
    have hneg := (sends_stuck mem stack 1500 hm p hn j).1
    rw [hts]
    omega

theorem polls_short_audio (h : m.avState = .auidoPacket) {ts : WriteStream} (hm : isMedia ts)
    {p : Nat} {n : Int} (hts : m.tsStA = begun ts p n) (hn : n < startRoom ts) (k : Nat) :
    (polls mem stack d m k).avState = .auidoPacket := by
  rw [polls_audio mem stack d h k]
  · exact h
  · intro j _
    have hneg := (sends_stuck mem stack 2160 hm p hn j).1
    rw [hts]
    omega

/-- after the first poll the video begins -/
theorem polls_init : (polls mem stack d tsMuxInit 1) =
    { avState := .videoPacket
      tsStV := begun tsMuxInit.tsStV (d.packQuene 0).1 (toInt32 (d.packQuene 0).2)
      tsStA := begun tsMuxInit.tsStA d.mp2packt.1 (toInt32 d.mp2packt.2)
      testLoop := 1
      patPmtCc := 1 } := by
  have hloop : (0 : UInt32) + 1 = 1 := by decide
  have hcc : ((0 : UInt8) + 1) &&& 0xf = 1 := by decide
  show TsMux.mk _ _ _ ((0 : UInt32) + 1) (((0 : UInt8) + 1) &&& 0xf) = _
  rw [hloop, hcc]
  rfl

/-- the video is over, and the audio begins -/
theorem polls_toAudio (hv : 162 ≤ toInt32 (d.packQuene 0).2) :
    ∃ k m', polls mem stack d tsMuxInit (1 + (k + 1)) = m' ∧ m'.avState = .auidoPacket ∧
      m'.tsStA = begun tsMuxInit.tsStA d.mp2packt.1 (toInt32 d.mp2packt.2) ∧ m'.testLoop = 1 ∧
      ∀ j < 1 + (k + 1), (polls mem stack d tsMuxInit j).avState ≠ .endPacket := by
  obtain ⟨n, hn⟩ := Int.eq_ofNat_of_zero_le (show 0 ≤ toInt32 (d.packQuene 0).2 by omega)
  have hroom : startRoom tsMuxInit.tsStV ≤ n := by
    show 162 ≤ n
    omega
  obtain ⟨k, hleft, hdone⟩ := sends_first_done mem (fun i => stack (1 + i)) 1500 (Or.inl rfl)
    (d.packQuene 0).1 hroom
  rw [show (n : Int) = toInt32 (d.packQuene 0).2 from hn.symm] at hleft hdone
  refine ⟨k, _, rfl, ?_, ?_, ?_, ?_⟩
  iterate 3
    rw [polls_add, polls_init, polls_video_next mem _ d rfl hleft hdone]
  · intro j hj
    by_cases hzero : j = 0
    · subst hzero
      exact nofun
    · obtain ⟨i, rfl⟩ : ∃ i, j = 1 + i := ⟨j - 1, by omega⟩
      rw [polls_add, polls_init, polls_video mem _ d rfl i fun j' hj' => hleft j' (by omega)]
      exact nofun

/-- a run comes to its end iff both payloads fill their first packets -/
theorem tsMux_ends_iff : (∃ k, (polls mem stack d tsMuxInit k).avState = .endPacket) ↔
    162 ≤ toInt32 (d.packQuene 0).2 ∧ 168 ≤ toInt32 d.mp2packt.2 := by
  constructor
  · rintro ⟨k, hk⟩
    have hpos : 1 ≤ k := by
      by_contra h
      obtain rfl : k = 0 := by omega
      cases hk
    obtain ⟨i, rfl⟩ : ∃ i, k = 1 + i := ⟨k - 1, by omega⟩
    have hv : 162 ≤ toInt32 (d.packQuene 0).2 := by
      by_contra hshort
      rw [polls_add, polls_init, polls_short mem _ d rfl (Or.inl rfl) rfl
        (show _ < ((162 : Nat) : Int) by omega)] at hk
      cases hk
    refine ⟨hv, ?_⟩
    by_contra hshort
    obtain ⟨k', m', hm', hstate, ha, -, hbefore⟩ := polls_toAudio mem stack d hv
    by_cases hlt : 1 + i < 1 + (k' + 1)
    · exact hbefore _ hlt hk
    · obtain ⟨j, hj⟩ : ∃ j, 1 + i = 1 + (k' + 1) + j := ⟨i - (k' + 1), by omega⟩
      rw [hj, polls_add, hm', polls_short_audio mem _ d hstate (Or.inr rfl) ha
        (show _ < ((168 : Nat) : Int) by omega)] at hk
      cases hk
  · rintro ⟨hv, ha⟩
    obtain ⟨k, m', hm', hstate, hts, hloop, -⟩ := polls_toAudio mem stack d hv
    obtain ⟨n, hn⟩ := Int.eq_ofNat_of_zero_le (show 0 ≤ toInt32 d.mp2packt.2 by omega)
    have hroom : startRoom tsMuxInit.tsStA ≤ n := by
      show 168 ≤ n
      omega
    obtain ⟨j, hleft, hdone⟩ := sends_first_done mem (fun i => stack (1 + (k + 1) + i)) 2160
      (Or.inr rfl) d.mp2packt.1 hroom
    rw [show (n : Int) = toInt32 d.mp2packt.2 from hn.symm, ← hts] at hleft hdone
    refine ⟨1 + (k + 1) + (j + 1), ?_⟩
    rw [polls_add, hm', polls_audio_next mem _ d hstate hleft hdone]
    exact if_pos hloop

end

/-- a video of a single byte -/
def shortVideo : TsData := ⟨fun _ => (0, 1), (1, 400), [], []⟩

theorem firstPacket_short :
    ¬ VideoRight (fun _ => 0) (fun _ _ => 0) shortVideo tsMuxInit 0 1 := by
  rw [videoRight_iff]
  decide

end MenuFirmware
