import MenuFirmware.Lib.Memory
import MenuFirmware.Serial.Decode

/-!
# Register access over mavlink (`config_env.c`)

A request names a register address and carries as many bytes as the access is long.  The reply to a
read is the header of the request, the register bytes and a checksum, which `Pack_mavlink_and_Send`
computes and places without regard to the header.

* `mavlinkParseConfig`   the parser, with the loop that echoes the frame;
* `mavlinkParseConfig_ends`, `mavlinkParseConfig_hangs`   that loop counts with 8 bits: it ends iff
                         the frame is shorter than 256 bytes;
* `FrameAccepted`, `parse_cases`   a result is a refusal, or the frame passes all checks and the result
                         comes from the switch over the kinds of access;
* `read_accepted`        an accepted read asks for at most 245 bytes, and is answered;
* `ChecksumFits`         the bytes that the checksum overwrites are what it writes, and the stack
                         behind the data holds the checksum that the parser computes;
* `reply_correct_iff`    the reply passes the parser and carries the register bytes, iff so.
-/

namespace MenuFirmware
open Memory

/-! ## the state and the replies -/

def mavlinkStx : UInt8 := 254
def mavlinkSysid : UInt8 := 0x88
def mavlinkTypeUart : UInt8 := 0x23
def mavlinkConfigExtraCrc : UInt8 := 0x20
def mavlinkMaxPayloadLen : Nat := 255
def mavlinkCoreHeaderLen : Nat := 5
def mavlinkRegAddrBytes : Nat := 2
def mavlinkNumHeaderBytes : Nat := mavlinkCoreHeaderLen + 1
def mavlinkNumChecksumBytes : Nat := 2
def mavlinkMinPacketLen : Nat := mavlinkNumHeaderBytes + mavlinkNumChecksumBytes
def regBufLen : Nat := 0x200
def fpgaRegBufLen : Nat := 0x100

def regIgnore : UInt8 := 0x00
def regWstm : UInt8 := 0x01
def regRstm : UInt8 := 0x02
def regWfpga : UInt8 := 0x03
def regRfpga : UInt8 := 0x04

/-- `UserReg` and `FPGADatBuf`, with what lies behind them; `current_tx_seq` -/
structure ConfigEnv where
  userReg : Nat → UInt8
  fpgaDatBuf : Nat → UInt8
  currentTxSeq : UInt8

/-- a buffer of the stack and how much of it is the reply -/
structure RegReply where
  buf : Nat → UInt8
  sumLen : Nat

/-- what goes out on the serial line; the branch for the network is commented out -/
def RegReply.sent (r : RegReply) : List UInt8 :=
  if r.buf 4 = mavlinkTypeUart then slice r.buf 0 r.sumLen else []

def packMavlinkAndSend (seq : UInt8) (src : Nat → UInt8) (len : UInt8) : RegReply where
  buf :=
    let buf := Function.update src 2 seq
    let checksum := crcCalculate (slice buf 1 (len.toNat + mavlinkCoreHeaderLen))
    Function.update (Function.update buf (len.toNat + 1) (crcLow checksum))
      (len.toNat + 2) (crcHigh checksum)
  sumLen := mavlinkNumHeaderBytes + mavlinkRegAddrBytes + len.toNat + mavlinkNumChecksumBytes

/-- the local array of a read: the header of the request, the register bytes, and the `stack` -/
def regBytes (regs stack buf : Nat → UInt8) (addr len : Nat) : Nat → UInt8 :=
  memcpy (memcpy stack 0 (slice buf 0 (mavlinkNumHeaderBytes + mavlinkRegAddrBytes)))
    (mavlinkNumHeaderBytes + mavlinkRegAddrBytes) (slice regs addr len)

/-- a read of the registers `regs`; nothing checks the address -/
def configRegGet (regs : Nat → UInt8) (seq : UInt8) (stack : Nat → UInt8) (addr : Nat)
    (buf : Nat → UInt8) (len : Nat) : Option RegReply :=
  if len ≤ mavlinkMaxPayloadLen - mavlinkRegAddrBytes then
    some (packMavlinkAndSend seq (regBytes regs stack buf addr len) (UInt8.ofNat len))
  else none

def configUserRegGet (e : ConfigEnv) := configRegGet e.userReg e.currentTxSeq
def configFpgaRegGet (e : ConfigEnv) := configRegGet e.fpgaDatBuf e.currentTxSeq

def configUserRegSet (e : ConfigEnv) (addr : Nat) (buf : List UInt8) : Option ConfigEnv :=
  if addr + buf.length ≤ regBufLen then some { e with userReg := memcpy e.userReg addr buf }
  else none

def configFpgaRegSet (e : ConfigEnv) (addr : Nat) (buf : List UInt8) : Option ConfigEnv :=
  -- the last register cannot be written
  if addr + buf.length < fpgaRegBufLen then
    some { e with fpgaDatBuf := memcpy e.fpgaDatBuf addr buf }
  else none

/-! ## the parser -/

inductive ParStatus where
  | parFalse
  | parOk
  | parIgnore
  deriving DecidableEq

structure ParseResult where
  status : ParStatus
  env : ConfigEnv
  /-- the bytes put on the serial line -/
  out : List UInt8
  reply : Option RegReply

/-- `for(i=0;i<length;i++) USART3_Putchar(buf[i])`; `i` has 8 bits, `none` is no end within `fuel` -/
def echoLoop (buf : Nat → UInt8) (length : Nat) : Nat → UInt8 → Option (List UInt8)
  | 0, _ => none
  | fuel + 1, i =>
    if i.toNat < length then (echoLoop buf length fuel (i + 1)).map (buf i.toNat :: ·) else some []

def lengthOk (buf : Nat → UInt8) (length : Nat) : Prop :=
  length = (buf 1).toNat + mavlinkNumHeaderBytes + mavlinkNumChecksumBytes

/-- the checksum before the extra byte -/
def plainCrc (buf : Nat → UInt8) : UInt16 :=
  crcAccumulateBuffer (crcCalculate (slice buf 1 mavlinkCoreHeaderLen))
    (slice buf mavlinkNumHeaderBytes (buf 1).toNat)

def configCrc (buf : Nat → UInt8) : UInt16 := crcAccumulate (plainCrc buf) mavlinkConfigExtraCrc

def crcOk (buf : Nat → UInt8) : Prop :=
  buf (mavlinkNumHeaderBytes + (buf 1).toNat) = crcLow (configCrc buf) ∧
  buf (mavlinkNumHeaderBytes + (buf 1).toNat + 1) = crcHigh (configCrc buf)

instance instDecidableLengthOk (buf : Nat → UInt8) (length : Nat) :
    Decidable (lengthOk buf length) := inferInstanceAs (Decidable (_ = _))

instance instDecidableCrcOk (buf : Nat → UInt8) : Decidable (crcOk buf) :=
  inferInstanceAs (Decidable (_ ∧ _))

def regAddr (buf : Nat → UInt8) : Nat := (buf 6).toNat * 0x100 + (buf 7).toNat

/-- `len -= MAVLINK_REG_ADDR_BYTES`, with 16 bits -/
def regLen (buf : Nat → UInt8) : Nat := ((buf 1).toNat + 0x10000 - mavlinkRegAddrBytes) % 0x10000

def answerSet (e : ConfigEnv) (out : List UInt8) (rst : Option ConfigEnv) : ParseResult :=
  { status := if rst.isSome then .parOk else .parFalse, env := rst.getD e, out := out, reply := none }

def answerGet (e : ConfigEnv) (out : List UInt8) (rst : Option RegReply) : ParseResult where
  status := if rst.isSome then .parOk else .parFalse
  env := if rst.isSome then { e with currentTxSeq := e.currentTxSeq + 1 } else e
  out := out ++ (rst.map RegReply.sent).getD []
  reply := rst

/-- the switch over the kinds of access -/
def configAccess (stack : Nat → UInt8) (e : ConfigEnv) (buf : Nat → UInt8) (out : List UInt8) :
    ParseResult :=
  let regBuf := slice buf (mavlinkNumHeaderBytes + mavlinkRegAddrBytes) (regLen buf)
  if buf 5 = regIgnore then { status := .parIgnore, env := e, out := out, reply := none }
  else if buf 5 = regWstm then
    answerSet e (out ++ [UInt8.ofNat (regLen buf)]) (configUserRegSet e (regAddr buf) regBuf)
  else if buf 5 = regRstm then
    answerGet e out (configUserRegGet e stack (regAddr buf) buf (regLen buf))
  else if buf 5 = regWfpga then answerSet e out (configFpgaRegSet e (regAddr buf) regBuf)
  else if buf 5 = regRfpga then
    answerGet e out (configFpgaRegGet e stack (regAddr buf) buf (regLen buf))
  else { status := .parFalse, env := e, out := out, reply := none }

/-- what the parser prints before it looks at the checksum -/
def echoed (buf : Nat → UInt8) (echo : List UInt8) : List UInt8 :=
  [crcLow (plainCrc buf), crcHigh (plainCrc buf)] ++ echo ++
    [crcLow (configCrc buf), crcHigh (configCrc buf)]

/-- `none` where the echo does not end within `fuel` -/
def mavlinkParseConfig (fuel : Nat) (stack : Nat → UInt8) (e : ConfigEnv) (src : Nat → UInt8)
    (length : Nat) : Option ParseResult :=
  if src 0 = mavlinkStx ∧ src 3 = mavlinkSysid ∧ mavlinkMinPacketLen ≤ length then
    if lengthOk src length then
      (echoLoop src length fuel 0).map fun echo =>
        if crcOk src then configAccess stack e src (echoed src echo)
        else { status := .parFalse, env := e, out := echoed src echo, reply := none }
    else some { status := .parFalse, env := e, out := [], reply := none }
  else some { status := .parFalse, env := e, out := [], reply := none }

/-! ## the echo -/

theorem echoLoop_ends {buf : Nat → UInt8} {length : Nat} (h : length ≤ 255) {fuel : Nat} {i : UInt8}
    (hi : i.toNat ≤ length) (hf : length - i.toNat < fuel) :
    echoLoop buf length fuel i = some (slice buf i.toNat (length - i.toNat)) := by
  induction fuel generalizing i with
  | zero => exact absurd hf (Nat.not_lt_zero _)
  | succ fuel ih =>
    unfold echoLoop
    by_cases hlt : i.toNat < length
    · have hnext : (i + 1).toNat = i.toNat + 1 := by
        rw [UInt8.toNat_add]
        exact Nat.mod_eq_of_lt (show i.toNat + 1 < 256 by omega)
      rw [if_pos hlt, ih (by omega) (by omega), hnext]
      show some (buf i.toNat :: slice buf (i.toNat + 1) (length - (i.toNat + 1))) = _
      rw [← slice_succ, show length - (i.toNat + 1) + 1 = length - i.toNat by omega]
    · rw [if_neg hlt, show length - i.toNat = 0 by omega]
      rfl

/-- a counter of 8 bits never reaches 256 -/
theorem echoLoop_diverges {buf : Nat → UInt8} {length : Nat} (h : 256 ≤ length) (fuel : Nat)
    (i : UInt8) : echoLoop buf length fuel i = none := by
  induction fuel generalizing i with
  | zero => rfl
  | succ fuel ih =>
    unfold echoLoop
    rw [if_pos (Nat.lt_of_lt_of_le i.toNat_lt h), ih]
    rfl

theorem mavlinkParseConfig_ends (stack : Nat → UInt8) (e : ConfigEnv) (src : Nat → UInt8)
    {length : Nat} (h : length ≤ 255) : (mavlinkParseConfig 256 stack e src length).isSome := by
  unfold mavlinkParseConfig
  rw [echoLoop_ends (i := 0) h (Nat.zero_le length) (Nat.lt_succ_of_le h)]
  split_ifs <;> rfl

/-- a frame of 256 bytes or more that passes the checks before the echo hangs the parser -/
theorem mavlinkParseConfig_hangs (stack : Nat → UInt8) (e : ConfigEnv) {src : Nat → UInt8}
    {length : Nat} (h : 256 ≤ length) (hstx : src 0 = mavlinkStx) (hsys : src 3 = mavlinkSysid)
    (hlen : lengthOk src length) (fuel : Nat) :
    mavlinkParseConfig fuel stack e src length = none := by
  unfold mavlinkParseConfig
  rw [if_pos ⟨hstx, hsys, Nat.le_trans (by decide) h⟩, if_pos hlen, echoLoop_diverges h]
  rfl

/-! ## accepted reads -/

/-- the registers that a read is about -/
def requested (e : ConfigEnv) (src : Nat → UInt8) : Nat → UInt8 :=
  if src 5 = regRstm then e.userReg else e.fpgaDatBuf

theorem configAccess_read {stack : Nat → UInt8} {e : ConfigEnv} {src : Nat → UInt8}
    {out : List UInt8} (hread : src 5 = regRstm ∨ src 5 = regRfpga) :
    configAccess stack e src out = answerGet e out
      (configRegGet (requested e src) e.currentTxSeq stack (regAddr src) src (regLen src)) := by
  unfold configAccess requested
  rcases hread with h | h
  · rw [h]
    rfl
  · rw [h]
    rfl

theorem parFalse_ne : ParStatus.parFalse ≠ .parOk := by decide

theorem answerGet_ok {e : ConfigEnv} {out : List UInt8} {rst : Option RegReply}
    (h : (answerGet e out rst).status = .parOk) : ∃ r, rst = some r := by
  cases rst with
  | none => exact absurd h parFalse_ne
  | some r => exact ⟨r, rfl⟩

/-- the frame passes all checks of the parser -/
structure FrameAccepted (src : Nat → UInt8) (length : Nat) : Prop where
  stx : src 0 = mavlinkStx
  sysid : src 3 = mavlinkSysid
  length : lengthOk src length
  crc : crcOk src

/-- the result is a refusal, and nothing is changed -/
def ParseResult.Refuses (r : ParseResult) (e : ConfigEnv) : Prop :=
  r.status = .parFalse ∧ r.env = e

/-- a result is a refusal, or comes from the switch over the kinds of access -/
theorem parse_cases {fuel : Nat} {stack : Nat → UInt8} {e : ConfigEnv} {src : Nat → UInt8}
    {length : Nat} {r : ParseResult} (h : mavlinkParseConfig fuel stack e src length = some r) :
    (¬ FrameAccepted src length ∧ r.Refuses e) ∨
      (FrameAccepted src length ∧ length ≤ 255 ∧ ∃ out, r = configAccess stack e src out) := by
  unfold mavlinkParseConfig at h
  by_cases hhead : src 0 = mavlinkStx ∧ src 3 = mavlinkSysid ∧ mavlinkMinPacketLen ≤ length
  · rw [if_pos hhead] at h
    by_cases hlen : lengthOk src length
    · rw [if_pos hlen] at h
      obtain ⟨echo, hecho, rfl⟩ := Option.map_eq_some_iff.1 h
      by_cases hcrc : crcOk src
      · rw [if_pos hcrc]
        refine Or.inr ⟨⟨hhead.1, hhead.2.1, hlen, hcrc⟩, ?_, _, rfl⟩
        by_contra hlong
        rw [echoLoop_diverges (by omega)] at hecho
        cases hecho
      · rw [if_neg hcrc]
        exact Or.inl ⟨fun ha => hcrc ha.crc, rfl, rfl⟩
    · rw [if_neg hlen] at h
      obtain rfl := Option.some.inj h
      exact Or.inl ⟨fun ha => hlen ha.length, rfl, rfl⟩
  · rw [if_neg hhead] at h
    obtain rfl := Option.some.inj h
    refine Or.inl ⟨fun ha => hhead ⟨ha.stx, ha.sysid, ?_⟩, rfl, rfl⟩
    have hlen : length = (src 1).toNat + 8 := ha.length
    show 8 ≤ length
    omega

/-- an accepted read has come to the end of its echo, and is answered -/
theorem read_accepted {fuel : Nat} {stack : Nat → UInt8} {e : ConfigEnv} {src : Nat → UInt8}
    {length : Nat} {r : ParseResult} (h : mavlinkParseConfig fuel stack e src length = some r)
    (hok : r.status = .parOk) (hread : src 5 = regRstm ∨ src 5 = regRfpga) :
    (src 1).toNat = regLen src + 2 ∧ regLen src ≤ 245 ∧
    r.reply = some (packMavlinkAndSend e.currentTxSeq
      (regBytes (requested e src) stack src (regAddr src) (regLen src))
      (UInt8.ofNat (regLen src))) := by
  rcases parse_cases h with ⟨-, hrefuse⟩ | ⟨ha, hshort, out, rfl⟩
  · exact absurd (hrefuse.1.symm.trans hok) parFalse_ne
  · rw [configAccess_read hread] at hok ⊢
    obtain ⟨rep, hrep⟩ := answerGet_ok hok
    have hget := hrep
    unfold configRegGet at hrep
    by_cases hn : regLen src ≤ mavlinkMaxPayloadLen - mavlinkRegAddrBytes
    · rw [if_pos hn] at hrep
      have hmod : regLen src = ((src 1).toNat + 0x10000 - 2) % 0x10000 := rfl
      have hlen : length = (src 1).toNat + 6 + 2 := ha.length
      have hn' : regLen src ≤ 253 := hn
      have hb := (src 1).toNat_lt
      refine ⟨by omega, by omega, ?_⟩
      rw [hget, ← hrep]
      rfl
    · rw [if_neg hn] at hrep
      exact absurd hrep (Option.some_ne_none _).symm

/-! ## the checksum of the reply -/

section
variable (b : Nat → UInt8) (n : Nat)

/-- the checksum that the sender computes, over all but the last two data bytes -/
def shortCrc : UInt16 := crcCalculate (slice b 1 (n + mavlinkCoreHeaderLen))

/-- the frame with that checksum written behind byte `n` -/
def sealed : Nat → UInt8 :=
  Function.update (Function.update b (n + 1) (crcLow (shortCrc b n))) (n + 2)
    (crcHigh (shortCrc b n))

/-- the frame with the damage done to its header only -/
def sealedHeader : Nat → UInt8 := fun i => if i < 8 then sealed b n i else b i

/-- the checksum that the parser computes over header and data -/
def frameCrc : UInt16 :=
  crcAccumulate (crcCalculate (slice (sealedHeader b n) 1 (n + 7))) mavlinkConfigExtraCrc

/-- the checksum falls on bytes that are equal to it, and behind the data stands the right one -/
structure ChecksumFits : Prop where
  /-- only a checksum over an empty read falls on the length byte -/
  len : n = 0 → crcLow (shortCrc b n) = 2
  low : 7 ≤ n → b (n + 1) = crcLow (shortCrc b n)
  high : 6 ≤ n → b (n + 2) = crcHigh (shortCrc b n)
  behindLow : b (n + 8) = crcLow (frameCrc b n)
  behindHigh : b (n + 9) = crcHigh (frameCrc b n)

variable {b n}

theorem sealed_of_ne {i : Nat} (h1 : i ≠ n + 1) (h2 : i ≠ n + 2) : sealed b n i = b i := by
  unfold sealed
  rw [Function.update_of_ne h2, Function.update_of_ne h1]

theorem sealed_low : sealed b n (n + 1) = crcLow (shortCrc b n) := by
  unfold sealed
  rw [Function.update_of_ne (Nat.succ_ne_self _).symm, Function.update_self]

theorem sealed_high : sealed b n (n + 2) = crcHigh (shortCrc b n) := Function.update_self ..

/-- where the data survives -/
theorem sealed_data_iff : (∀ i < n, sealed b n (8 + i) = b (8 + i)) ↔
    (7 ≤ n → b (n + 1) = crcLow (shortCrc b n)) ∧ (6 ≤ n → b (n + 2) = crcHigh (shortCrc b n)) := by
  constructor
  · intro h
    refine ⟨fun hn => ?_, fun hn => ?_⟩
    · have := h (n - 7) (by omega)
      rw [show 8 + (n - 7) = n + 1 by omega, sealed_low] at this
      exact this.symm
    · have := h (n - 6) (by omega)
      rw [show 8 + (n - 6) = n + 2 by omega, sealed_high] at this
      exact this.symm
  · intro h i hi
    by_cases h1 : 8 + i = n + 1
    · rw [h1, sealed_low, h.1 (by omega)]
    · by_cases h2 : 8 + i = n + 2
      · rw [h2, sealed_high, h.2 (by omega)]
      · exact sealed_of_ne h1 h2

/-- where the length byte survives -/
theorem sealed_length_iff (hb : (b 1).toNat = n + 2) :
    (sealed b n 1).toNat = n + 2 ↔ (n = 0 → crcLow (shortCrc b n) = 2) := by
  rcases Nat.eq_zero_or_pos n with rfl | hn
  · rw [show sealed b 0 1 = crcLow (shortCrc b 0) from sealed_low]
    constructor
    · intro h _
      exact UInt8.toNat_inj.1 h
    · intro h
      rw [h rfl]
      rfl
  · rw [sealed_of_ne (by omega) (by omega)]
    exact iff_of_true hb fun h => absurd h (Nat.ne_of_gt hn)

theorem configCrc_eq {buf : Nat → UInt8} (h : (buf 1).toNat = n + 2) :
    configCrc buf = crcAccumulate (crcCalculate (slice buf 1 (n + 7))) mavlinkConfigExtraCrc := by
  unfold configCrc plainCrc crcCalculate crcAccumulateBuffer
  rw [h, ← List.foldl_append, show n + 7 = 5 + (n + 2) by omega, slice_add buf 1 5 (n + 2)]
  rfl

theorem sealed_crc (hlen : (sealed b n 1).toNat = n + 2)
    (hdata : ∀ i < n, sealed b n (8 + i) = b (8 + i)) : configCrc (sealed b n) = frameCrc b n := by
  rw [configCrc_eq hlen]
  unfold frameCrc
  congr 2
  apply slice_congr
  intro j hj
  unfold sealedHeader
  by_cases h8 : 1 + j < 8
  · rw [if_pos h8]
  · rw [if_neg h8]
    have := hdata (j - 7) (by omega)
    rwa [show 8 + (j - 7) = 1 + j by omega] at this

end

/-- the reply passes the two checks of the parser and carries the register bytes from offset 8 on -/
structure RegReply.Correct (r : RegReply) (regs : Nat → UInt8) (addr n : Nat) : Prop where
  length : lengthOk r.buf r.sumLen
  crc : crcOk r.buf
  data : ∀ i < n, r.buf (8 + i) = regs (addr + i)

theorem sealed_correct_iff {b regs : Nat → UInt8} {addr n : Nat} (hb : (b 1).toNat = n + 2)
    (hregs : ∀ i < n, b (8 + i) = regs (addr + i)) :
    RegReply.Correct { buf := sealed b n, sumLen := n + 10 } regs addr n ↔ ChecksumFits b n := by
  have hcrc : (sealed b n 1).toNat = n + 2 → (∀ i < n, sealed b n (8 + i) = b (8 + i)) →
      (crcOk (sealed b n) ↔
        b (n + 8) = crcLow (frameCrc b n) ∧ b (n + 9) = crcHigh (frameCrc b n)) := by
    intro hlen hdata
    unfold crcOk
    rw [sealed_crc hlen hdata, hlen, show mavlinkNumHeaderBytes + (n + 2) = n + 8 by
      show 6 + (n + 2) = n + 8; omega, sealed_of_ne (by omega) (by omega),
      sealed_of_ne (by omega) (by omega)]
  constructor
  · intro h
    have hlen : (sealed b n 1).toNat = n + 2 := by
      have : n + 10 = (sealed b n 1).toNat + 6 + 2 := h.length
      omega
    have hdata : ∀ i < n, sealed b n (8 + i) = b (8 + i) :=
      fun i hi => (h.data i hi).trans (hregs i hi).symm
    obtain ⟨hlow, hhigh⟩ := sealed_data_iff.1 hdata
    obtain ⟨hb8, hb9⟩ := (hcrc hlen hdata).1 h.crc
    exact ⟨(sealed_length_iff hb).1 hlen, hlow, hhigh, hb8, hb9⟩
  · intro h
    have hlen := (sealed_length_iff hb).2 h.len
    have hdata := sealed_data_iff.2 ⟨h.low, h.high⟩
    refine ⟨?_, (hcrc hlen hdata).2 ⟨h.behindLow, h.behindHigh⟩, fun i hi => ?_⟩
    · show n + 10 = (sealed b n 1).toNat + 6 + 2
      rw [hlen]
    · exact (hdata i hi).trans (hregs i hi)

/-! ## the reply to a request -/

/-- the reply before its checksum -/
def unsealed (e : ConfigEnv) (stack src : Nat → UInt8) : Nat → UInt8 :=
  Function.update (regBytes (requested e src) stack src (regAddr src) (regLen src)) 2 e.currentTxSeq

theorem packMavlinkAndSend_eq (seq : UInt8) (src : Nat → UInt8) {n : Nat} (hn : n < 256) :
    packMavlinkAndSend seq src (UInt8.ofNat n) =
      { buf := sealed (Function.update src 2 seq) n, sumLen := n + 10 } := by
  have ht : (UInt8.ofNat n).toNat = n := UInt8.toNat_ofNat'.trans (Nat.mod_eq_of_lt hn)
  unfold packMavlinkAndSend
  rw [ht]
  show RegReply.mk _ (6 + 2 + n + 2) = _
  rw [show 6 + 2 + n + 2 = n + 10 by omega]
  rfl

theorem unsealed_length (e : ConfigEnv) (stack src : Nat → UInt8) :
    unsealed e stack src 1 = src 1 := by
  unfold unsealed regBytes
  rw [Function.update_of_ne (by decide), memcpy_below _ _ (by decide)]
  exact memcpy_slice_at stack src 0 0 (i := 1) (by decide)

theorem unsealed_data (e : ConfigEnv) (stack src : Nat → UInt8) {i : Nat} (hi : i < regLen src) :
    unsealed e stack src (8 + i) = requested e src (regAddr src + i) := by
  unfold unsealed regBytes
  rw [Function.update_of_ne (by omega)]
  exact memcpy_slice_at _ _ 8 (regAddr src) hi

/-- the reply to an accepted read is right iff its misplaced checksum does no damage and the stack
happens to hold the checksum that is missing -/
theorem reply_correct_iff {fuel : Nat} {stack : Nat → UInt8} {e : ConfigEnv} {src : Nat → UInt8}
    {length : Nat} {r : ParseResult} (h : mavlinkParseConfig fuel stack e src length = some r)
    (hok : r.status = .parOk) (hread : src 5 = regRstm ∨ src 5 = regRfpga) :
    ∃ reply, r.reply = some reply ∧
      (reply.Correct (requested e src) (regAddr src) (regLen src) ↔
        ChecksumFits (unsealed e stack src) (regLen src)) := by
  obtain ⟨hlen, hmax, hreply⟩ := read_accepted h hok hread
  refine ⟨_, hreply, ?_⟩
  rw [packMavlinkAndSend_eq _ _ (by omega)]
  apply sealed_correct_iff
  · exact (congrArg UInt8.toNat (unsealed_length e stack src)).trans hlen
  · intro i hi
    exact unsealed_data e stack src hi

def blankEnv : ConfigEnv := ⟨fun _ => 0, fun _ => 0, 0⟩

/-- a read of eight bytes from address 6 -/
def macRead : Nat → UInt8 := fun i =>
  [0xfe, 10, 0, 0x88, 0x23, 0x02, 0x00, 0x06, 0, 0, 0, 0, 0, 0, 0, 0, 34, 13].getD i 0

theorem reply_correct_iff_macRead :
    ∃ r, mavlinkParseConfig 300 (fun _ => 0) blankEnv macRead 18 = some r ∧
    ∃ reply, r.reply = some reply ∧
      (reply.Correct (requested blankEnv macRead) (regAddr macRead) (regLen macRead) ↔
        ChecksumFits (unsealed blankEnv (fun _ => 0) macRead) (regLen macRead)) := by
  have hrun : (mavlinkParseConfig 300 (fun _ => 0) blankEnv macRead 18).map ParseResult.status =
      some .parOk := by decide +kernel
  obtain ⟨r, hr, hok⟩ := Option.map_eq_some_iff.1 hrun
  exact ⟨r, hr, reply_correct_iff hr hok (Or.inl rfl)⟩

/-- the checksum lands on the second and third register byte -/
theorem macRead_damaged :
    ∃ r, mavlinkParseConfig 300 (fun _ => 0) blankEnv macRead 18 = some r ∧ r.status = .parOk ∧
    ∃ reply, r.reply = some reply ∧
      ¬ reply.Correct (requested blankEnv macRead) (regAddr macRead) (regLen macRead) := by
  have hrun : (mavlinkParseConfig 300 (fun _ => 0) blankEnv macRead 18).map
      (fun r => (r.status, r.reply.map fun reply => reply.buf 9)) =
        some (.parOk, some 124) := by decide +kernel
  obtain ⟨r, hr, hobs⟩ := Option.map_eq_some_iff.1 hrun
  obtain ⟨hok, hreply⟩ := Prod.mk.inj hobs
  obtain ⟨reply, hrep, hbuf⟩ := Option.map_eq_some_iff.1 hreply
  refine ⟨r, hr, hok, reply, hrep, fun h => ?_⟩
  have hdata := h.data 1 (by decide)
  exact absurd (hbuf.symm.trans hdata) (by decide)

end MenuFirmware
