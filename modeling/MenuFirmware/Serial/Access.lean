import MenuFirmware.Serial.Mavlink

/-!
# What a frame can do to the registers

* `crcLoop_ends`     the checksum loops count a 16-bit length down, and compute the checksum;
* `terminates_iff`   the parser ends, unless the frame is consistent and its length field is 248 or
                     more;
* `parse_rejects`    a frame that is not well formed is refused and changes nothing; so is one
                     without a whole address;
* `access_right_iff`  where a read or a write succeeds iff it lies within its register file.
-/

namespace MenuFirmware
open Memory

/-! ## the loops -/

/-- `while(length--)` over the bytes from `pos` on; `none` is no end within `fuel` -/
def crcLoop (buf : Nat → UInt8) : Nat → UInt16 → Nat → UInt16 → Option UInt16
  | 0, _, _, _ => none
  | fuel + 1, crc, pos, length =>
    if length = 0 then some crc
    else crcLoop buf fuel (crcAccumulate crc (buf pos)) (pos + 1) (length - 1)

theorem crcLoop_ends (buf : Nat → UInt8) (n : Nat) : ∀ (crc : UInt16) (pos : Nat) (length : UInt16),
    length.toNat = n →
    crcLoop buf (n + 1) crc pos length = some (crcAccumulateBuffer crc (slice buf pos n)) := by
  induction n with
  | zero =>
    intro crc pos length h
    have hzero : length = 0 := UInt16.toNat_inj.1 h
    unfold crcLoop
    rw [if_pos hzero]
    rfl
  | succ n ih =>
    intro crc pos length h
    have hne : length ≠ 0 := by
      rintro rfl
      cases h
    have hnext : (length - 1).toNat = n := by
      have hle : (1 : UInt16) ≤ length := by
        rw [UInt16.le_iff_toNat_le, h]
        exact Nat.succ_le_succ (Nat.zero_le n)
      rw [UInt16.toNat_sub_of_le _ _ hle, h]
      rfl
    rw [crcLoop, if_neg hne, ih _ _ _ hnext, slice_succ]
    rfl

/-- the parser comes to an end, and so does every checksum that it or its replies compute -/
structure Terminates (stack : Nat → UInt8) (e : ConfigEnv) (src : Nat → UInt8) (length : Nat) :
    Prop where
  parser : ∃ fuel, (mavlinkParseConfig fuel stack e src length).isSome
  crc : ∀ (buf : Nat → UInt8) (crc : UInt16) (pos : Nat) (n : UInt16), ∃ fuel,
    crcLoop buf fuel crc pos n = some (crcAccumulateBuffer crc (slice buf pos n.toNat))

/-- the parser ends iff the frame is refused before the echo or shorter than 256 bytes -/
theorem terminates_iff (stack : Nat → UInt8) (e : ConfigEnv) (src : Nat → UInt8) (length : Nat) :
    Terminates stack e src length ↔ ¬ (src 0 = mavlinkStx ∧ src 3 = mavlinkSysid ∧
      length = (src 1).toNat + 8 ∧ 248 ≤ (src 1).toNat) := by
  constructor
  · rintro ⟨⟨fuel, hend⟩, -⟩ ⟨hstx, hsys, hlen, hlong⟩
    rw [mavlinkParseConfig_hangs stack e (by omega) hstx hsys hlen fuel] at hend
    cases hend
  · intro h
    refine ⟨?_, fun buf crc pos n => ⟨n.toNat + 1, crcLoop_ends buf n.toNat crc pos n rfl⟩⟩
    by_cases hshort : length ≤ 255
    · exact ⟨256, mavlinkParseConfig_ends stack e src hshort⟩
    · refine ⟨0, ?_⟩
      unfold mavlinkParseConfig
      by_cases hhead : src 0 = mavlinkStx ∧ src 3 = mavlinkSysid ∧ mavlinkMinPacketLen ≤ length
      · rw [if_pos hhead]
        by_cases hlen : lengthOk src length
        · have hlen' : length = (src 1).toNat + 8 := hlen
          exact absurd ⟨hhead.1, hhead.2.1, hlen', by omega⟩ h
        · rw [if_neg hlen]
          rfl
      · rw [if_neg hhead]
        rfl

/-- a consistent frame of 256 bytes -/
def longFrame : Nat → UInt8 := fun i => if i = 0 then 254 else if i = 1 then 248 else
  if i = 3 then 0x88 else 0

theorem longFrame_hangs : ¬ Terminates (fun _ => 0) blankEnv longFrame 256 := by
  rintro ⟨⟨fuel, hend⟩, -⟩
  have hlen : lengthOk longFrame 256 := by decide
  rw [mavlinkParseConfig_hangs _ _ (Nat.le_refl 256) rfl rfl hlen fuel] at hend
  cases hend

/-! ## what a result comes from -/

section
variable {fuel : Nat} {stack : Nat → UInt8} {e : ConfigEnv} {src : Nat → UInt8} {length : Nat}
  {r : ParseResult}

theorem parse_accepted (h : mavlinkParseConfig fuel stack e src length = some r)
    (ha : FrameAccepted src length) : length ≤ 255 ∧ ∃ out, r = configAccess stack e src out := by
  rcases parse_cases h with ⟨hno, -⟩ | ⟨-, hcase⟩
  · exact absurd ha hno
  · exact hcase

/-! ## refusals -/

theorem regLen_eq (hlen : 2 ≤ (src 1).toNat) : regLen src = (src 1).toNat - 2 := by
  have hb := (src 1).toNat_lt
  show ((src 1).toNat + 0x10000 - 2) % 0x10000 = _
  omega

/-- without a whole address the length wraps, to more than any file or packet holds -/
theorem regLen_wraps (hlen : (src 1).toNat < 2) : 65534 ≤ regLen src := by
  show 65534 ≤ ((src 1).toNat + 0x10000 - 2) % 0x10000
  omega

theorem configAccess_wstm (out : List UInt8) (h : src 5 = regWstm) :
    configAccess stack e src out = answerSet e (out ++ [UInt8.ofNat (regLen src)])
      (configUserRegSet e (regAddr src) (slice src 8 (regLen src))) := by
  unfold configAccess
  rw [h]
  rfl

theorem configAccess_wfpga (out : List UInt8) (h : src 5 = regWfpga) :
    configAccess stack e src out = answerSet e out
      (configFpgaRegSet e (regAddr src) (slice src 8 (regLen src))) := by
  unfold configAccess
  rw [h]
  rfl

theorem configUserRegSet_none {addr : Nat} {buf : List UInt8} (h : ¬ addr + buf.length ≤ 512) :
    configUserRegSet e addr buf = none := if_neg h

theorem configFpgaRegSet_none {addr : Nat} {buf : List UInt8} (h : ¬ addr + buf.length < 256) :
    configFpgaRegSet e addr buf = none := if_neg h

theorem configRegGet_none {regs buf : Nat → UInt8} {seq : UInt8} {addr n : Nat} (h : ¬ n ≤ 253) :
    configRegGet regs seq stack addr buf n = none := if_neg h

/-- one of the five operations -/
def isOperation (op : UInt8) : Prop :=
  op = regIgnore ∨ op = regWstm ∨ op = regRstm ∨ op = regWfpga ∨ op = regRfpga

theorem configAccess_unknown (out : List UInt8) (h : ¬ isOperation (src 5)) :
    (configAccess stack e src out).Refuses e := by
  unfold isOperation at h
  push Not at h
  unfold configAccess
  rw [if_neg h.1, if_neg h.2.1, if_neg h.2.2.1, if_neg h.2.2.2.1, if_neg h.2.2.2.2]
  exact ⟨rfl, rfl⟩

theorem configAccess_wrapped (out : List UInt8) (h : src 5 ≠ regIgnore)
    (hlen : (src 1).toNat < 2) : (configAccess stack e src out).Refuses e := by
  have hwrap := regLen_wraps hlen
  have hbuf : (slice src 8 (regLen src)).length = regLen src := slice_length src 8 _
  by_cases hop : isOperation (src 5)
  · rcases hop with h0 | h1 | h2 | h3 | h4
    · exact absurd h0 h
    · rw [configAccess_wstm out h1, configUserRegSet_none (by rw [hbuf]; omega)]
      exact ⟨rfl, rfl⟩
    · rw [configAccess_read (Or.inl h2), configRegGet_none (by omega)]
      exact ⟨rfl, rfl⟩
    · rw [configAccess_wfpga out h3, configFpgaRegSet_none (by rw [hbuf]; omega)]
      exact ⟨rfl, rfl⟩
    · rw [configAccess_read (Or.inr h4), configRegGet_none (by omega)]
      exact ⟨rfl, rfl⟩
  · exact configAccess_unknown out hop

/-- the checksum over header, payload and extra byte -/
def frameChecksum (src : Nat → UInt8) : UInt16 :=
  crcCalculate (slice src 1 5 ++ slice src 6 (src 1).toNat ++ [0x20])

theorem configCrc_frame (src : Nat → UInt8) : configCrc src = frameChecksum src := by
  unfold frameChecksum crcCalculate crcAccumulateBuffer
  rw [List.foldl_append, List.foldl_append]
  rfl

/-- what a frame must be -/
structure WellFormed (src : Nat → UInt8) (length : Nat) : Prop where
  stx : src 0 = 254
  sysid : src 3 = 0x88
  length : length = (src 1).toNat + 8
  low : src (6 + (src 1).toNat) = crcLow (frameChecksum src)
  high : src (6 + (src 1).toNat + 1) = crcHigh (frameChecksum src)
  operation : isOperation (src 5)

/-- a frame that is not well formed is refused and changes nothing; the same goes for a register
operation without a whole address -/
theorem parse_rejects (h : mavlinkParseConfig fuel stack e src length = some r) :
    (¬ WellFormed src length → r.status = .parFalse ∧ r.env = e) ∧
      (src 5 ≠ regIgnore → (src 1).toNat < 2 → r.status = .parFalse ∧ r.env = e) := by
  rcases parse_cases h with ⟨-, hrefuse⟩ | ⟨ha, -, out, rfl⟩
  · exact ⟨fun _ => hrefuse, fun _ _ => hrefuse⟩
  · refine ⟨fun hbad => ?_, fun hop hlen => configAccess_wrapped out hop hlen⟩
    apply configAccess_unknown
    intro hop
    have hcrc := ha.crc
    unfold crcOk at hcrc
    rw [configCrc_frame] at hcrc
    exact hbad ⟨ha.stx, ha.sysid, ha.length, hcrc.1, hcrc.2, hop⟩

end

/-- a write without an address, with the right checksum -/
def emptyWrite : Nat → UInt8 := fun i => [0xfe, 0, 0, 0x88, 0x23, 0x01, 67, 20].getD i 0

theorem parse_rejects_emptyWrite :
    ∃ r, mavlinkParseConfig 300 (fun _ => 0) blankEnv emptyWrite 8 = some r ∧
      r.status = .parFalse ∧ r.env = blankEnv := by
  have hrun : (mavlinkParseConfig 300 (fun _ => 0) blankEnv emptyWrite 8).isSome := by
    decide +kernel
  obtain ⟨r, hr⟩ := Option.isSome_iff_exists.1 hrun
  exact ⟨r, hr, (parse_rejects hr).2 (by decide) (by decide)⟩

/-! ## reads and writes -/

def isWrite (src : Nat → UInt8) : Prop := src 5 = regWstm ∨ src 5 = regWfpga

def isRead (src : Nat → UInt8) : Prop := src 5 = regRstm ∨ src 5 = regRfpga

/-- an operation on the registers of the STM32 -/
def onUserReg (src : Nat → UInt8) : Prop := src 5 = regWstm ∨ src 5 = regRstm

instance instDecidableOnUserReg (src : Nat → UInt8) : Decidable (onUserReg src) :=
  inferInstanceAs (Decidable (_ ∨ _))

/-- how long the register file is that a frame is about -/
def fileLen (src : Nat → UInt8) : Nat := if onUserReg src then regBufLen else fpgaRegBufLen

def fileOf (e : ConfigEnv) (src : Nat → UInt8) : Nat → UInt8 :=
  if onUserReg src then e.userReg else e.fpgaDatBuf

def otherFile (e : ConfigEnv) (src : Nat → UInt8) : Nat → UInt8 :=
  if onUserReg src then e.fpgaDatBuf else e.userReg

/-- the access lies within its register file -/
def inFile (src : Nat → UInt8) : Prop := regAddr src + regLen src ≤ fileLen src

/-- the reply does not depend on what lies behind the register file -/
def ReadsOnly (fuel : Nat) (stack : Nat → UInt8) (e : ConfigEnv) (src : Nat → UInt8) (length : Nat)
    (r : ParseResult) : Prop :=
  ∀ e' : ConfigEnv, e'.currentTxSeq = e.currentTxSeq →
    (∀ i < fileLen src, fileOf e' src i = fileOf e src i) →
    ∃ r', mavlinkParseConfig fuel stack e' src length = some r' ∧ r'.reply = r.reply

/-- nothing but the cells from the address on is changed -/
def WritesOnly (e : ConfigEnv) (src : Nat → UInt8) (r : ParseResult) : Prop :=
  otherFile r.env src = otherFile e src ∧
    ∀ i, i < regAddr src ∨ regAddr src + regLen src ≤ i → fileOf r.env src i = fileOf e src i

structure AccessRight (fuel : Nat) (stack : Nat → UInt8) (e : ConfigEnv) (src : Nat → UInt8)
    (length : Nat) (r : ParseResult) : Prop where
  succeeds : r.status = .parOk ↔ inFile src
  reads : isRead src → ReadsOnly fuel stack e src length r ∧ r.env.userReg = e.userReg ∧
    r.env.fpgaDatBuf = e.fpgaDatBuf
  writes : isWrite src → WritesOnly e src r

/-- reads are not checked against the file, unless their length has wrapped, and the last register
of the FPGA cannot be written -/
structure AccessFits (src : Nat → UInt8) : Prop where
  reads : isRead src → inFile src ∨ (src 1).toNat < 2
  writes : src 5 = regWfpga → regAddr src + regLen src ≠ 256

section
variable {fuel : Nat} {stack : Nat → UInt8} {e : ConfigEnv} {src : Nat → UInt8} {length : Nat}
  {r : ParseResult} {out : List UInt8}

theorem answerSet_status (e' : ConfigEnv) (rst : Option ConfigEnv) :
    (answerSet e' out rst).status = .parOk ↔ rst.isSome := by
  cases rst with
  | none => exact iff_of_false parFalse_ne nofun
  | some e'' => exact iff_of_true rfl rfl

theorem answerGet_status (e' : ConfigEnv) (rst : Option RegReply) :
    (answerGet e' out rst).status = .parOk ↔ rst.isSome := by
  cases rst with
  | none => exact iff_of_false parFalse_ne nofun
  | some reply => exact iff_of_true rfl rfl

theorem answerGet_reply (e' : ConfigEnv) (rst : Option RegReply) :
    (answerGet e' out rst).reply = rst := rfl

theorem answerGet_files (e' : ConfigEnv) (rst : Option RegReply) :
    (answerGet e' out rst).env.userReg = e'.userReg ∧
      (answerGet e' out rst).env.fpgaDatBuf = e'.fpgaDatBuf := by
  cases rst with
  | none => exact ⟨rfl, rfl⟩
  | some reply => exact ⟨rfl, rfl⟩

theorem fileOf_user (h : onUserReg src) (e' : ConfigEnv) :
    fileOf e' src = e'.userReg ∧ otherFile e' src = e'.fpgaDatBuf := ⟨if_pos h, if_pos h⟩

theorem fileOf_fpga (h : ¬ onUserReg src) (e' : ConfigEnv) :
    fileOf e' src = e'.fpgaDatBuf ∧ otherFile e' src = e'.userReg := ⟨if_neg h, if_neg h⟩

theorem not_onUserReg (h : src 5 = regWfpga ∨ src 5 = regRfpga) : ¬ onUserReg src := by
  unfold onUserReg
  rcases h with h | h
  · rw [h]
    decide
  · rw [h]
    decide

/-! ### writes -/

theorem configUserRegSet_isSome (addr : Nat) (buf : List UInt8) :
    (configUserRegSet e addr buf).isSome ↔ addr + buf.length ≤ 512 := by
  by_cases h : addr + buf.length ≤ 512
  · have hset : configUserRegSet e addr buf =
        some { e with userReg := memcpy e.userReg addr buf } := if_pos h
    rw [hset]
    exact iff_of_true rfl h
  · rw [configUserRegSet_none h]
    exact iff_of_false nofun h

theorem configFpgaRegSet_isSome (addr : Nat) (buf : List UInt8) :
    (configFpgaRegSet e addr buf).isSome ↔ addr + buf.length < 256 := by
  by_cases h : addr + buf.length < 256
  · have hset : configFpgaRegSet e addr buf =
        some { e with fpgaDatBuf := memcpy e.fpgaDatBuf addr buf } := if_pos h
    rw [hset]
    exact iff_of_true rfl h
  · rw [configFpgaRegSet_none h]
    exact iff_of_false nofun h

theorem memcpy_outside (m : Nat → UInt8) {addr i : Nat} {buf : List UInt8}
    (h : i < addr ∨ addr + buf.length ≤ i) : memcpy m addr buf i = m i := by
  rcases h with h | h
  · exact memcpy_below m buf h
  · exact memcpy_above m h

theorem writesOnly_wstm (h : src 5 = regWstm) :
    WritesOnly e src (configAccess stack e src out) := by
  have hfile := fileOf_user (Or.inl h : onUserReg src)
  have hbuf : (slice src 8 (regLen src)).length = regLen src := slice_length src 8 _
  unfold WritesOnly
  rw [(hfile _).1, (hfile _).1, (hfile _).2, (hfile _).2, configAccess_wstm out h]
  by_cases hfit : regAddr src + (slice src 8 (regLen src)).length ≤ 512
  · have hset : configUserRegSet e (regAddr src) (slice src 8 (regLen src)) =
        some { e with userReg := memcpy e.userReg (regAddr src) (slice src 8 (regLen src)) } :=
      if_pos hfit
    rw [hset]
    refine ⟨rfl, fun i hi => memcpy_outside e.userReg ?_⟩
    rw [hbuf]
    exact hi
  · rw [configUserRegSet_none hfit]
    exact ⟨rfl, fun i hi => rfl⟩

theorem writesOnly_wfpga (h : src 5 = regWfpga) :
    WritesOnly e src (configAccess stack e src out) := by
  have hfile := fileOf_fpga (not_onUserReg (Or.inl h))
  have hbuf : (slice src 8 (regLen src)).length = regLen src := slice_length src 8 _
  unfold WritesOnly
  rw [(hfile _).1, (hfile _).1, (hfile _).2, (hfile _).2, configAccess_wfpga out h]
  by_cases hfit : regAddr src + (slice src 8 (regLen src)).length < 256
  · have hset : configFpgaRegSet e (regAddr src) (slice src 8 (regLen src)) =
        some { e with fpgaDatBuf := memcpy e.fpgaDatBuf (regAddr src) (slice src 8 (regLen src)) } :=
      if_pos hfit
    rw [hset]
    refine ⟨rfl, fun i hi => memcpy_outside e.fpgaDatBuf ?_⟩
    rw [hbuf]
    exact hi
  · rw [configFpgaRegSet_none hfit]
    exact ⟨rfl, fun i hi => rfl⟩

/-! ### reads -/

theorem requested_eq (h : isRead src) (e' : ConfigEnv) : requested e' src = fileOf e' src := by
  unfold requested
  rcases h with h | h
  · rw [if_pos h, (fileOf_user (Or.inr h) e').1]
  · rw [(fileOf_fpga (not_onUserReg (Or.inr h)) e').1, h]
    rfl

/-- in a frame that the parser comes to the end of, an unwrapped length is small enough -/
theorem read_status (ha : FrameAccepted src length) (hshort : length ≤ 255) (h : isRead src) :
    (configAccess stack e src out).status = .parOk ↔ 2 ≤ (src 1).toNat := by
  have hlen : length = (src 1).toNat + 8 := ha.length
  rw [configAccess_read h, answerGet_status]
  by_cases hwrap : 2 ≤ (src 1).toNat
  · have hget : regLen src ≤ mavlinkMaxPayloadLen - mavlinkRegAddrBytes := by
      rw [regLen_eq hwrap]
      show (src 1).toNat - 2 ≤ 253
      omega
    unfold configRegGet
    rw [if_pos hget]
    exact iff_of_true rfl hwrap
  · have hlong : 65534 ≤ regLen src := regLen_wraps (by omega)
    rw [configRegGet_none (by omega)]
    exact iff_of_false nofun hwrap

theorem regBytes_congr {regs regs' : Nat → UInt8} (stk buf : Nat → UInt8) {addr n len : Nat}
    (hfit : addr + n ≤ len) (h : ∀ i < len, regs' i = regs i) :
    regBytes regs' stk buf addr n = regBytes regs stk buf addr n := by
  have hslice : slice regs' addr n = slice regs addr n :=
    slice_congr fun i hi => h (addr + i) (by omega)
  unfold regBytes
  rw [hslice]

/-- the reply is what the handler makes of it -/
theorem readsOnly_of (h : mavlinkParseConfig fuel stack e src length = some r)
    (hget : ∀ e' : ConfigEnv, e'.currentTxSeq = e.currentTxSeq →
      (∀ i < fileLen src, fileOf e' src i = fileOf e src i) → ∀ out',
      (configAccess stack e' src out').reply = (configAccess stack e src out').reply) :
    ReadsOnly fuel stack e src length r := by
  intro e' hseq hfile
  unfold mavlinkParseConfig at h ⊢
  split_ifs at h ⊢ with hhead hlen hcrc
  · obtain ⟨echo, hecho, rfl⟩ := Option.map_eq_some_iff.1 h
    rw [hecho]
    exact ⟨_, rfl, hget e' hseq hfile _⟩
  · obtain ⟨echo, hecho, rfl⟩ := Option.map_eq_some_iff.1 h
    rw [hecho]
    exact ⟨_, rfl, rfl⟩
  · obtain rfl := Option.some.inj h
    exact ⟨_, rfl, rfl⟩
  · obtain rfl := Option.some.inj h
    exact ⟨_, rfl, rfl⟩

theorem readsOnly_inFile (h : mavlinkParseConfig fuel stack e src length = some r)
    (hread : isRead src) (hin : inFile src) : ReadsOnly fuel stack e src length r := by
  apply readsOnly_of h
  intro e' hseq hfile out'
  have hbytes := regBytes_congr stack src hin hfile
  rw [configAccess_read hread, configAccess_read hread, answerGet_reply, answerGet_reply,
    requested_eq hread, requested_eq hread, hseq]
  unfold configRegGet
  rw [hbytes]

theorem readsOnly_wrapped (h : mavlinkParseConfig fuel stack e src length = some r)
    (hread : isRead src) (hwrap : (src 1).toNat < 2) : ReadsOnly fuel stack e src length r := by
  have hlong := regLen_wraps hwrap
  apply readsOnly_of h
  intro e' hseq hfile out'
  rw [configAccess_read hread, configAccess_read hread, answerGet_reply, answerGet_reply,
    configRegGet_none (by omega), configRegGet_none (by omega)]

/-! ### the condition -/

theorem fileLen_user (h : onUserReg src) : fileLen src = 512 := if_pos h

theorem fileLen_fpga (h : ¬ onUserReg src) : fileLen src = 256 := if_neg h

/-- a write succeeds where it fits, but for the last register of the FPGA -/
theorem write_status (h : isWrite src) : (configAccess stack e src out).status = .parOk ↔
    inFile src ∧ (src 5 = regWfpga → regAddr src + regLen src ≠ 256) := by
  have hbuf : (slice src 8 (regLen src)).length = regLen src := slice_length src 8 _
  unfold inFile
  rcases h with h | h
  · have hne : src 5 ≠ regWfpga := by
      rw [h]
      decide
    rw [configAccess_wstm out h, answerSet_status, configUserRegSet_isSome, hbuf,
      fileLen_user (Or.inl h)]
    exact ⟨fun hfit => ⟨hfit, fun hw => absurd hw hne⟩, fun hfit => hfit.1⟩
  · rw [configAccess_wfpga out h, answerSet_status, configFpgaRegSet_isSome, hbuf,
      fileLen_fpga (not_onUserReg (Or.inl h))]
    constructor
    · intro hlt
      exact ⟨by omega, fun _ => by omega⟩
    · rintro ⟨hle, hne⟩
      have := hne h
      omega

theorem inFile_unwrapped (h : inFile src) : 2 ≤ (src 1).toNat := by
  by_contra hlt
  have hlong : 65534 ≤ regLen src := regLen_wraps (by omega)
  have hmax : fileLen src ≤ 512 := by
    unfold fileLen
    split
    · exact Nat.le_refl 512
    · exact Nat.le_add_left 256 256
  unfold inFile at h
  omega

/-- an access that the parser answers is right iff a read lies within its file, or has a wrapped
length, and a write does not end with the last register of the FPGA -/
theorem access_right_iff (h : mavlinkParseConfig fuel stack e src length = some r)
    (ha : FrameAccepted src length) (hop : isRead src ∨ isWrite src) :
    AccessRight fuel stack e src length r ↔ AccessFits src := by
  obtain ⟨hshort, out, hr⟩ := parse_accepted h ha
  constructor
  · intro hright
    have hstatus := hright.succeeds
    refine ⟨fun hread => ?_, fun hw hlast => ?_⟩
    · rw [hr, read_status ha hshort hread] at hstatus
      by_cases hwrap : (src 1).toNat < 2
      · exact Or.inr hwrap
      · exact Or.inl (hstatus.1 (by omega))
    · have hin : inFile src := by
        unfold inFile
        rw [fileLen_fpga (not_onUserReg (Or.inl hw))]
        omega
      rw [hr, write_status (Or.inr hw)] at hstatus
      exact (hstatus.2 hin).2 hw hlast
  · intro hfits
    refine ⟨?_, fun hread => ?_, fun hwrite => ?_⟩
    · rcases hop with hread | hwrite
      · rw [hr, read_status ha hshort hread]
        rcases hfits.reads hread with hin | hwrap
        · exact iff_of_true (inFile_unwrapped hin) hin
        · exact iff_of_false (by omega) fun hin => absurd (inFile_unwrapped hin) (by omega)
      · rw [hr, write_status hwrite]
        exact ⟨fun hin => hin.1, fun hin => ⟨hin, hfits.writes⟩⟩
    · have henv : r.env.userReg = e.userReg ∧ r.env.fpgaDatBuf = e.fpgaDatBuf := by
        rw [hr, configAccess_read hread]
        exact answerGet_files e _
      rcases hfits.reads hread with hin | hwrap
      · exact ⟨readsOnly_inFile h hread hin, henv⟩
      · exact ⟨readsOnly_wrapped h hread hwrap, henv⟩
    · rw [hr]
      rcases hwrite with hw | hw
      · exact writesOnly_wstm hw
      · exact writesOnly_wfpga hw

end

/-- a read of one byte behind the registers of the STM32 -/
def farRead : Nat → UInt8 := fun i =>
  [0xfe, 3, 0, 0x88, 0x23, 0x02, 0x02, 0x00, 0, 15, 71].getD i 0

theorem farRead_accepted : FrameAccepted farRead 11 :=
  ⟨by decide, by decide, by decide, by decide +kernel⟩

theorem farRead_runs :
    ∃ r, mavlinkParseConfig 300 (fun _ => 0) blankEnv farRead 11 = some r ∧ r.status = .parOk := by
  have hrun : (mavlinkParseConfig 300 (fun _ => 0) blankEnv farRead 11).map ParseResult.status =
      some .parOk := by decide +kernel
  exact Option.map_eq_some_iff.1 hrun

theorem access_right_iff_farRead :
    ∃ r, mavlinkParseConfig 300 (fun _ => 0) blankEnv farRead 11 = some r ∧
      (AccessRight 300 (fun _ => 0) blankEnv farRead 11 r ↔ AccessFits farRead) := by
  obtain ⟨r, hr, -⟩ := farRead_runs
  exact ⟨r, hr, access_right_iff hr farRead_accepted (Or.inl (Or.inl rfl))⟩

/-- it is answered -/
theorem farRead_answered :
    ∃ r, mavlinkParseConfig 300 (fun _ => 0) blankEnv farRead 11 = some r ∧
      FrameAccepted farRead 11 ∧ ¬ AccessRight 300 (fun _ => 0) blankEnv farRead 11 r := by
  obtain ⟨r, hr, hok⟩ := farRead_runs
  refine ⟨r, hr, farRead_accepted, fun h => ?_⟩
  have hin : regAddr farRead + regLen farRead ≤ fileLen farRead := h.succeeds.1 hok
  exact absurd hin (by decide)

end MenuFirmware
