import MenuFirmware.Ts.Poll

/-!
# The stream taken apart again

The driver sends its two payloads one after the other, between the tables and the end.  A receiver
sorts the packets by the number of their stream.

* `start_taken`        what a receiver makes of a first packet;
* `partsSent`, `stream_taken`   one stream: its packets give back header and payload, numbered;
* `pollsSent`          the packets of the driver, poll by poll;
* `tsMux_demultiplexed`   over the whole run, each stream comes back from the mixture.
-/

namespace MenuFirmware
open Memory

/-! ## the receiver -/

/-- the packets of one stream -/
def ofPid (pid : Nat) (ps : List (List UInt8)) : List TsPacket :=
  (ps.filterMap tsParse).filter fun d => d.pid = pid

/-- what they carry -/
def elementary (ds : List TsPacket) : List UInt8 := (ds.map TsPacket.payload).flatten

theorem ofPid_append (pid : Nat) (ps qs : List (List UInt8)) :
    ofPid pid (ps ++ qs) = ofPid pid ps ++ ofPid pid qs := by
  simp [ofPid]

section
variable {ps : List (List UInt8)} {ds : List TsPacket} {pid pid' : Nat}

theorem filterMap_of_map (h : ps.map tsParse = ds.map some) : ps.filterMap tsParse = ds := by
  have hid : ps.filterMap tsParse = (ps.map tsParse).filterMap id := by
    rw [List.filterMap_map]
    rfl
  rw [hid, h, List.filterMap_map]
  simp

theorem ofPid_self (h : ps.map tsParse = ds.map some) (hpid : ∀ d ∈ ds, d.pid = pid) :
    ofPid pid ps = ds := by
  unfold ofPid
  rw [filterMap_of_map h, List.filter_eq_self]
  intro d hd
  exact decide_eq_true (hpid d hd)

theorem ofPid_other (h : ps.map tsParse = ds.map some) (hpid : ∀ d ∈ ds, d.pid = pid')
    (hne : pid' ≠ pid) : ofPid pid ps = [] := by
  unfold ofPid
  rw [filterMap_of_map h, List.filter_eq_nil_iff]
  intro d hd
  rw [hpid d hd, decide_eq_true_iff]
  exact hne

end

/-! ## the first packet -/

/-- the bit that marks the first packet is not part of the number -/
theorem pid_marked (x : UInt8) : (x ||| 0x40).toNat % 32 = x.toNat % 32 := by
  rw [UInt8.toNat_or, show (32 : Nat) = 2 ^ 5 from rfl, Nat.or_mod_two_pow]
  exact Nat.or_zero _

section
variable (mem : Nat → UInt8)

theorem start_taken (stack : Nat → UInt8) {ts : WriteStream} (h : isMedia ts) :
    ∃ field, (mpegtsStartPacket mem stack ts).2.map tsParse =
      [some ⟨(ts.pid % 8192).toNat, ((ts.cc + 1) % 16).toNat, some field,
        pesHeader ts ++ slice mem ts.payload (startRoom ts)⟩] := by
  obtain ⟨b4, field, hhead, hfield⟩ : ∃ b4 field,
      startHead ts = [0x47, byteOf (ts.pid >>> (8 : Nat)) ||| 0x40, byteOf ts.pid,
        0x30 ||| byteOf (nextCc ts.cc), b4] ++ field ∧ field.length = b4.toNat := by
    by_cases hv : ts.codecType = .video
    · refine ⟨7, 0x50 :: writePcrBits (toInt64 (ts.payloadPts * 300)), ?_, rfl⟩
      unfold startHead
      rw [if_pos hv]
      rfl
    · refine ⟨1, [0x40], ?_, rfl⟩
      unfold startHead
      rw [if_neg hv]
      rfl
  have hroom := startCursor_room stack h
  have hlen : (startHead ts ++ pesHeader ts).length + startRoom ts = 188 := by
    rw [← (startCursor_written stack ts).2, hroom]
    rfl
  obtain ⟨haf, hpay, -⟩ := nextCc_adapted ts.cc
  obtain ⟨c, hc, hb, hcc⟩ := byteOf_nextCc ts.cc
  obtain ⟨-, hmod, -⟩ := flags_beside c hc 0x30 (by simp)
  have hcc' : ((ts.cc + 1) % 16).toNat = c := hcc
  refine ⟨field, ?_⟩
  rw [hhead, List.length_append, List.length_append] at hlen
  have hfull : field.length + (pesHeader ts ++ slice mem ts.payload (startRoom ts)).length = 183 := by
    rw [List.length_append, slice_length]
    have hfive : ([0x47, byteOf (ts.pid >>> (8 : Nat)) ||| 0x40, byteOf ts.pid,
      0x30 ||| byteOf (nextCc ts.cc), b4] : List UInt8).length = 5 := rfl
    omega
  rw [start_sent mem stack h, List.map_singleton, hhead, List.append_assoc,
    tsParse_adapted hfield hfull hpay haf, pid_marked, pid_bytes, hb, hmod, hcc']

/-! ## one stream -/

variable (stack : Nat → Nat → UInt8)

/-- the packets of the first `k` polls -/
def partsSent (step : Int) (ts : WriteStream) : Nat → List (List UInt8)
  | 0 => []
  | k + 1 => partsSent step ts k ++ (sendPart mem (stack k) step (sends mem stack step ts k)).2

/-- the packets `ds` are numbered on from those of `ts` -/
def Numbered (ts : WriteStream) (ds : List TsPacket) : Prop :=
  ∀ (i : Nat) (d : TsPacket), ds[i]? = some d →
    d.pid = (ts.pid % 8192).toNat ∧ d.cc = ((ts.cc + i + 1) % 16).toNat

theorem Numbered.pid {ts : WriteStream} {ds : List TsPacket} (h : Numbered ts ds) :
    ∀ p ∈ ds, p.pid = (ts.pid % 8192).toNat := by
  intro p hp
  obtain ⟨i, hi⟩ := List.mem_iff_getElem?.1 hp
  exact (h i p hi).1

/-- the packets behind the first one -/
def restOf (ts : WriteStream) (p room r : Nat) : List TsPacket :=
  (List.range (packetsFor r)).map
    (tsAt mem { ts with cc := nextCc ts.cc, payload := p + room } r)

theorem restOf_payload (ts : WriteStream) (p room r : Nat) :
    elementary (restOf mem ts p room r) = slice mem (p + room) r := by
  have hpay := slice_windows mem (p + room) 184 r (packetsFor r)
  have hmin : min (184 * packetsFor r) r = r := by
    unfold packetsFor
    omega
  rw [hmin] at hpay
  unfold elementary restOf
  rw [List.map_map]
  exact hpay

theorem numbered_cons {ts : WriteStream} {d : TsPacket} (hpid : d.pid = (ts.pid % 8192).toNat)
    (hcc : d.cc = ((ts.cc + 1) % 16).toNat) (p room r : Nat) :
    Numbered ts (d :: restOf mem ts p room r) := by
  intro i d' hd'
  cases i with
  | zero =>
    obtain rfl := Option.some.inj hd'
    refine ⟨hpid, ?_⟩
    rw [hcc]
    congr 2
    omega
  | succ i =>
    rw [List.getElem?_cons_succ] at hd'
    unfold restOf at hd'
    rw [List.getElem?_map, Option.map_eq_some_iff] at hd'
    obtain ⟨j, hj, rfl⟩ := hd'
    obtain ⟨hlt, hji⟩ := List.getElem?_eq_some_iff.1 hj
    rw [List.getElem_range] at hji
    subst hji
    refine ⟨rfl, ?_⟩
    show ((nextCc ts.cc + i + 1) % 16).toNat = _
    unfold nextCc
    omega

theorem partsSent_first (step : Int) {ts : WriteStream} (h : isMedia ts) (p : Nat) (n : Int) :
    ∃ field, (partsSent mem stack step (begun ts p n) 1).map tsParse =
      [some ⟨(ts.pid % 8192).toNat, ((ts.cc + 1) % 16).toNat, some field,
        pesHeader (begun ts p n) ++ slice mem p (startRoom ts)⟩] :=
  @start_taken mem (stack 0) { begun ts p n with isStart := false } h

/-- the rest goes out in one poll -/
theorem partsSent_rest (step : Int) {ts : WriteStream} (h : isMedia ts) (p : Nat) {n : Nat}
    (hn : startRoom ts ≤ n) :
    (sendPart mem (stack 1) step (sends mem stack step (begun ts p n) 1)).2.map tsParse =
      (restOf mem ts p (startRoom ts) (n - startRoom ts)).map some := by
  have hlen : startLen (stack 0) { begun ts p n with isStart := false } = startRoom ts :=
    startLen_eq (stack 0) h
  have hsize := (sends_done mem stack step h p hn).1
  have hall := normal_parsed mem (n - startRoom ts) (stack 1)
    (sends mem stack step (begun ts p n) 1) hsize
  show (mpegtsNormalPacket mem (stack 1) (sends mem stack step (begun ts p n) 1)).2.map tsParse = _
  rw [hall]
  unfold restOf
  rw [List.map_map]
  apply List.map_congr_left
  intro i _
  have hpay : (sends mem stack step (begun ts p n) 1).payload = p + startRoom ts :=
    congrArg (p + ·) hlen
  show some (TsPacket.mk _ _ _
    (slice mem ((sends mem stack step (begun ts p n) 1).payload + 184 * i) _)) = _
  rw [hpay]
  rfl

/-- a payload that fills its first packet comes back, behind its header, in numbered packets -/
theorem stream_taken (step : Int) {ts : WriteStream} (h : isMedia ts) (p : Nat) {n : Nat}
    (hn : startRoom ts ≤ n) :
    ∃ k ds, (∀ j < k, (sends mem stack step (begun ts p n) (j + 1)).payloadSize ≠ 0) ∧
      (sends mem stack step (begun ts p n) (k + 1)).payloadSize = 0 ∧
      (partsSent mem stack step (begun ts p n) (k + 1)).map tsParse = ds.map some ∧
      elementary ds = pesHeader (begun ts p n) ++ slice mem p n ∧ Numbered ts ds := by
  obtain ⟨hone, htwo⟩ := sends_done mem stack step h p hn
  obtain ⟨field, hfirst⟩ := partsSent_first mem stack step h p n
  have hall : ∀ r, startRoom ts + r = n → elementary
      (⟨(ts.pid % 8192).toNat, ((ts.cc + 1) % 16).toNat, some field,
        pesHeader (begun ts p n) ++ slice mem p (startRoom ts)⟩ ::
        restOf mem ts p (startRoom ts) r) = pesHeader (begun ts p n) ++ slice mem p n := by
    intro r hr
    show (pesHeader (begun ts p n) ++ slice mem p (startRoom ts)) ++ elementary _ = _
    rw [restOf_payload, List.append_assoc, ← slice_add, hr]
  by_cases hfit : n = startRoom ts
  · refine ⟨0, [_], fun j hj => absurd hj (Nat.not_lt_zero j), ?_, hfirst, hall 0 (by omega),
      numbered_cons mem rfl rfl p (startRoom ts) 0⟩
    rw [hone]
    omega
  · refine ⟨1, _ :: _, ?_, htwo, ?_, hall (n - startRoom ts) (by omega),
      numbered_cons mem rfl rfl p (startRoom ts) (n - startRoom ts)⟩
    · intro j hj
      obtain rfl : j = 0 := by omega
      rw [hone]
      omega
    · show (partsSent mem stack step (begun ts p n) 1 ++ _).map tsParse = _
      rw [List.map_append, hfirst, partsSent_rest mem stack step h p hn]
      rfl

/-! ## the driver -/

variable (d : TsData)

/-- the packets of the first `k` polls -/
def pollsSent (m : TsMux) : Nat → List (List UInt8)
  | 0 => []
  | k + 1 => pollsSent m k ++ (pollintTs d mem (stack k) (polls mem stack d m k)).2

theorem pollsSent_add (m : TsMux) (j k : Nat) :
    pollsSent mem stack d m (j + k) = pollsSent mem stack d m j ++
      pollsSent mem (fun i => stack (j + i)) d (polls mem stack d m j) k := by
  induction k with
  | zero => exact (List.append_nil _).symm
  | succ k ih =>
    show pollsSent mem stack d m (j + k) ++
      (pollintTs d mem (stack (j + k)) (polls mem stack d m (j + k))).2 = _
    rw [ih, polls_add, List.append_assoc]
    rfl

variable {m : TsMux}

/-- while the driver stays in a state, its packets are those of the stream -/
theorem pollsSent_parts {step : Int} {ts : WriteStream} {k : Nat}
    (h : ∀ j ≤ k, (pollintTs d mem (stack j) (polls mem stack d m j)).2 =
      (sendPart mem (stack j) step (sends mem stack step ts j)).2) :
    pollsSent mem stack d m (k + 1) = partsSent mem stack step ts (k + 1) := by
  induction k with
  | zero => exact congrArg ([] ++ ·) (h 0 (Nat.le_refl 0))
  | succ k ih =>
    show pollsSent mem stack d m (k + 1) ++ _ = partsSent mem stack step ts (k + 1) ++ _
    rw [ih fun j hj => h j (by omega), h (k + 1) (Nat.le_refl _)]

theorem pollsSent_video (h : m.avState = .videoPacket) {k : Nat}
    (hleft : ∀ j < k, (sends mem stack 1500 m.tsStV (j + 1)).payloadSize ≠ 0) :
    pollsSent mem stack d m (k + 1) = partsSent mem stack 1500 m.tsStV (k + 1) := by
  apply pollsSent_parts
  intro j hj
  rw [polls_video mem stack d h j fun i hi => hleft i (by omega)]
  unfold pollintTs
  rw [show ({ m with tsStV := sends mem stack 1500 m.tsStV j } : TsMux).avState = _ from h]

theorem pollsSent_audio (h : m.avState = .auidoPacket) {k : Nat}
    (hleft : ∀ j < k, (sends mem stack 2160 m.tsStA (j + 1)).payloadSize ≠ 0) :
    pollsSent mem stack d m (k + 1) = partsSent mem stack 2160 m.tsStA (k + 1) := by
  apply pollsSent_parts
  intro j hj
  rw [polls_audio mem stack d h j fun i hi => hleft i (by omega)]
  unfold pollintTs
  rw [show ({ m with tsStA := sends mem stack 2160 m.tsStA j } : TsMux).avState = _ from h]

/-- at the end nothing more is sent -/
theorem polls_end (h : m.avState = .endPacket) (k : Nat) :
    polls mem stack d m k = m ∧ pollsSent mem stack d m k = [] := by
  induction k with
  | zero => exact ⟨rfl, rfl⟩
  | succ k ih =>
    have hend : pollintTs d mem (stack k) m = (m, []) := by
      unfold pollintTs
      rw [h]
    show (pollintTs d mem (stack k) (polls mem stack d m k)).1 = m ∧
      pollsSent mem stack d m k ++ (pollintTs d mem (stack k) (polls mem stack d m k)).2 = []
    rw [ih.1, ih.2, hend]
    exact ⟨rfl, rfl⟩

/-! ## the whole run -/

/-- the tables are no packets of the two streams -/
def TablesApart : Prop :=
  ∀ pid, pid = 256 ∨ pid = 257 → ofPid pid (tables d 0) = []

/-- what the receiver has of a stream: the header, the payload, and counters without a gap -/
structure StreamReceived (ts : WriteStream) (data : Nat × Int) (ds : List TsPacket) : Prop where
  payload : elementary ds =
    pesHeader (loadStream ts data) ++ slice mem data.1 (toInt32 data.2).toNat
  counters : ∀ (i : Nat) (p : TsPacket), ds[i]? = some p → p.cc = i % 16

theorem streamReceived {ts : WriteStream} {data : Nat × Int} {ds : List TsPacket} {n : Nat}
    (hn : toInt32 data.2 = n) (hcc : ts.cc = 15)
    (hpay : elementary ds = pesHeader (begun ts data.1 n) ++ slice mem data.1 n)
    (hnum : Numbered ts ds) : StreamReceived mem ts data ds where
  payload := by
    unfold loadStream
    rw [hpay, hn]
    rfl
  counters i p hp := by
    have h := (hnum i p hp).2
    rw [hcc] at h
    omega

/-- a poll for the tables, `kv + 1` for the first stream, `ka + 1` for the second, and nothing more -/
theorem driver_sent {kv ka : Nat}
    (hleftv : ∀ j < kv, (sends mem (fun i => stack (1 + i)) 1500 (begun tsMuxInit.tsStV
      (d.packQuene 0).1 (toInt32 (d.packQuene 0).2)) (j + 1)).payloadSize ≠ 0)
    (hdonev : (sends mem (fun i => stack (1 + i)) 1500 (begun tsMuxInit.tsStV
      (d.packQuene 0).1 (toInt32 (d.packQuene 0).2)) (kv + 1)).payloadSize = 0)
    (hlefta : ∀ j < ka, (sends mem (fun i => stack (1 + (kv + 1) + i)) 2160 (begun tsMuxInit.tsStA
      d.mp2packt.1 (toInt32 d.mp2packt.2)) (j + 1)).payloadSize ≠ 0)
    (hdonea : (sends mem (fun i => stack (1 + (kv + 1) + i)) 2160 (begun tsMuxInit.tsStA
      d.mp2packt.1 (toInt32 d.mp2packt.2)) (ka + 1)).payloadSize = 0) (r : Nat) :
    (polls mem stack d tsMuxInit (1 + (kv + 1) + (ka + 1) + r)).avState = .endPacket ∧
      pollsSent mem stack d tsMuxInit (1 + (kv + 1) + (ka + 1) + r) =
        tables d 0 ++
          partsSent mem (fun i => stack (1 + i)) 1500 (begun tsMuxInit.tsStV (d.packQuene 0).1
            (toInt32 (d.packQuene 0).2)) (kv + 1) ++
          partsSent mem (fun i => stack (1 + (kv + 1) + i)) 2160 (begun tsMuxInit.tsStA d.mp2packt.1
            (toInt32 d.mp2packt.2)) (ka + 1) := by
  have hvideo := polls_video_next mem (fun i => stack (1 + i)) d (m := polls mem stack d tsMuxInit 1)
    (by rw [polls_init]) (k := kv) (by rw [polls_init]; exact hleftv) (by rw [polls_init]; exact hdonev)
  have haudio := polls_audio_next mem (fun i => stack (1 + (kv + 1) + i)) d
    (m := polls mem (fun i => stack (1 + i)) d (polls mem stack d tsMuxInit 1) (kv + 1))
    (by rw [hvideo]) (k := ka) (by rw [hvideo, polls_init]; exact hlefta)
    (by rw [hvideo, polls_init]; exact hdonea)
  have hvideoSent := pollsSent_video mem (fun i => stack (1 + i)) d
    (m := polls mem stack d tsMuxInit 1) (by rw [polls_init]) (k := kv)
    (by rw [polls_init]; exact hleftv)
  have haudioSent := pollsSent_audio mem (fun i => stack (1 + (kv + 1) + i)) d
    (m := polls mem (fun i => stack (1 + i)) d (polls mem stack d tsMuxInit 1) (kv + 1))
    (by rw [hvideo]) (k := ka) (by rw [hvideo, polls_init]; exact hlefta)
  have hend : (polls mem stack d tsMuxInit (1 + (kv + 1) + (ka + 1))).avState = .endPacket := by
    rw [polls_add mem stack d tsMuxInit (1 + (kv + 1)) (ka + 1), polls_add mem stack d tsMuxInit 1,
      haudio, hvideo, polls_init]
    rfl
  refine ⟨?_, ?_⟩
  · rw [polls_add, (polls_end mem _ d hend r).1]
    exact hend
  · rw [pollsSent_add, (polls_end mem _ d hend r).2, List.append_nil,
      pollsSent_add mem stack d tsMuxInit (1 + (kv + 1)) (ka + 1),
      pollsSent_add mem stack d tsMuxInit 1 (kv + 1), polls_add mem stack d tsMuxInit 1 (kv + 1),
      haudioSent, hvideoSent, hvideo, polls_init]
    rfl

/-- **The run comes back.**  From some poll on the driver is at its end, and what it has sent are the
tables, then packets from which the receiver gets both payloads, each behind its header, with no
packet missing. -/
theorem tsMux_demultiplexed (hv : 162 ≤ toInt32 (d.packQuene 0).2)
    (ha : 168 ≤ toInt32 d.mp2packt.2) (hapart : TablesApart d) :
    ∃ K, ∀ k, K ≤ k → (polls mem stack d tsMuxInit k).avState = .endPacket ∧
      (pollsSent mem stack d tsMuxInit k).take 2 = tables d 0 ∧
      StreamReceived mem tsMuxInit.tsStV (d.packQuene 0)
        (ofPid 256 (pollsSent mem stack d tsMuxInit k)) ∧
      StreamReceived mem tsMuxInit.tsStA d.mp2packt
        (ofPid 257 (pollsSent mem stack d tsMuxInit k)) := by
  obtain ⟨nv, hnv⟩ := Int.eq_ofNat_of_zero_le (show 0 ≤ toInt32 (d.packQuene 0).2 by omega)
  obtain ⟨na, hna⟩ := Int.eq_ofNat_of_zero_le (show 0 ≤ toInt32 d.mp2packt.2 by omega)
  have hroomv : startRoom tsMuxInit.tsStV ≤ nv := by
    show 162 ≤ nv
    omega
  have hrooma : startRoom tsMuxInit.tsStA ≤ na := by
    show 168 ≤ na
    omega
  obtain ⟨kv, dv, hleftv, hdonev, hsentv, hpayv, hnumv⟩ := stream_taken mem
    (fun i => stack (1 + i)) 1500 (show isMedia tsMuxInit.tsStV from Or.inl rfl) (d.packQuene 0).1 hroomv
  obtain ⟨ka, da, hlefta, hdonea, hsenta, hpaya, hnuma⟩ := stream_taken mem
    (fun i => stack (1 + (kv + 1) + i)) 2160 (show isMedia tsMuxInit.tsStA from Or.inr rfl)
    d.mp2packt.1 hrooma
  rw [show (nv : Int) = toInt32 (d.packQuene 0).2 from hnv.symm] at hleftv hdonev hsentv
  rw [show (na : Int) = toInt32 d.mp2packt.2 from hna.symm] at hlefta hdonea hsenta
  have hpidv : ∀ p ∈ dv, p.pid = 256 := hnumv.pid
  have hpida : ∀ p ∈ da, p.pid = 257 := hnuma.pid
  refine ⟨1 + (kv + 1) + (ka + 1), fun k hk => ?_⟩
  obtain ⟨r, rfl⟩ := Nat.exists_eq_add_of_le hk
  obtain ⟨hend, hsent⟩ := driver_sent mem stack d hleftv hdonev hlefta hdonea r
  rw [hsent]
  refine ⟨hend, ?_, ?_, ?_⟩
  · rw [List.append_assoc]
    rfl
  · rw [ofPid_append, ofPid_append, hapart 256 (Or.inl rfl), ofPid_self hsentv hpidv,
      ofPid_other hsenta hpida (by decide), List.nil_append, List.append_nil]
    exact streamReceived mem hnv rfl hpayv hnumv
  · rw [ofPid_append, ofPid_append, hapart 257 (Or.inr rfl), ofPid_other hsentv hpidv (by decide),
      ofPid_self hsenta hpida, List.nil_append, List.nil_append]
    exact streamReceived mem hna rfl hpaya hnuma

end

/-! ## the tables that are compiled in -/

/-- `PAT_DAT`: program 1 is in stream 0x1000 -/
def patDat : List UInt8 :=
  [0x47, 0x40, 0x0, 0x10, 0x0, 0x0, 0xb0, 0xd, 0x0, 0x1, 0xc1, 0x0, 0x0, 0x0,
    0x1, 0xf0, 0x0, 0x2a, 0xb1, 0x4, 0xb2] ++ List.replicate 167 0xff

/-- `PMT_DAT`: the video is in stream 0x100, the audio in stream 0x101 -/
def pmtDat : List UInt8 :=
  [0x47, 0x50, 0x0, 0x10, 0x0, 0x2, 0xb0, 0x17, 0x0, 0x1, 0xc1, 0x0, 0x0,
    0xe1, 0x0, 0xf0, 0x0, 0x1b, 0xe1, 0x0, 0xf0, 0x0, 0x3, 0xe1, 0x1, 0xf0, 0x0,
    0x4e, 0x59, 0x3d, 0x1e] ++ List.replicate 157 0xff

/-- the two tables, and payloads of 400 bytes each -/
def compiledIn : TsData := ⟨fun _ => (0, 400), (400, 400), patDat, pmtDat⟩

theorem compiledIn_apart : TablesApart compiledIn := by
  have hnone : ∀ pid ∈ [256, 257], (ofPid pid (tables compiledIn 0)).length = 0 := by
    decide +kernel
  intro pid hpid
  exact List.eq_nil_of_length_eq_zero (hnone pid (by simpa using hpid))

theorem tsMux_demultiplexed_compiledIn :
    ∃ K, ∀ k, K ≤ k →
      elementary (ofPid 256 (pollsSent (fun _ => 7) (fun _ _ => 0) compiledIn tsMuxInit k)) =
        pesHeader (loadStream tsMuxInit.tsStV (0, 400)) ++ slice (fun _ => 7) 0 400 := by
  obtain ⟨K, hK⟩ := tsMux_demultiplexed (fun _ => 7) (fun _ _ => 0) compiledIn (by decide) (by decide)
    compiledIn_apart
  exact ⟨K, fun k hk => (hK k hk).2.2.1.payload⟩

end MenuFirmware
