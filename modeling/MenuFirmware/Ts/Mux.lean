import MenuFirmware.Lib.Memory

/-!
# The transport stream multiplexer (`tsmux.c`)

A payload leaves in packets of 188 bytes.  The first one carries the header of the elementary
packet, the others follow; the last one is filled up with an adaptation field.

* `WriteStream`          `MpegTSWriteStream`; the payload is an address in memory;
* `writePcrBits`, `writePts`   the clocks;
* `mpegtsStartPacket`    the first packet;
* `mpegtsNormalPacket`   the packets that follow, by recursion on what is left;
* `pollintTs`            the driver.

A number is truncated where it is stored in a byte (`byteOf`).  The buffer of a packet is a local
array: before the first store it holds what was on the stack.
-/

namespace MenuFirmware
open Memory

/-! ## streams and buffers -/

def tsPacketSize : Nat := 188

/-- `AV_NOPTS_VALUE`, the least number of 64 bits -/
def avNoptsValue : Int := -9223372036854775808

inductive MediaType where
  | unknown
  | video
  | audio
  | data
  | subtitle
  | attachment
  deriving DecidableEq

structure WriteStream where
  codecType : MediaType
  pid : Int
  cc : Int
  isStart : Bool
  payload : Nat
  payloadSize : Int
  payloadPts : Int

def byteOf (x : Int) : UInt8 := UInt8.ofInt x

/-- `(cc + 1) & 0xf` -/
def nextCc (cc : Int) : Int := (cc + 1) % 16

/-- a packet while it is written: the buffer and the pointer `q` into it -/
structure Cursor where
  buf : Nat → UInt8
  q : Nat

def Cursor.put (c : Cursor) (src : List UInt8) : Cursor :=
  ⟨memcpy c.buf c.q src, c.q + src.length⟩

/-- what stands before `q` -/
def Cursor.written (c : Cursor) : List UInt8 := slice c.buf 0 c.q

/-! ## clocks -/

/-- a product as it is kept in 64 bits -/
def toInt64 (x : Int) : Int := Int.bmod x 18446744073709551616

/-- base and extension of `pcr`, with six bits reserved between them -/
def writePcrBits (pcr : Int) : List UInt8 :=
  [byteOf (pcr.tdiv 300 >>> (25 : Nat)), byteOf (pcr.tdiv 300 >>> (17 : Nat)),
    byteOf (pcr.tdiv 300 >>> (9 : Nat)), byteOf (pcr.tdiv 300 >>> (1 : Nat)),
    byteOf (pcr.tdiv 300 * 128) ||| byteOf (pcr.tmod 300 >>> (8 : Nat)) ||| 0x7e,
    byteOf (pcr.tmod 300)]

/-- `x << 1 | 1`, in two bytes -/
def withMarker (x : Int) : List UInt8 := [byteOf ((x * 2 + 1) >>> (8 : Nat)), byteOf (x * 2 + 1)]

/-- 3, 15 and 15 bits of `pts`, each with a marker bit behind -/
def writePts (fourbits pts : Int) : List UInt8 :=
  [byteOf (fourbits * 16) ||| byteOf ((pts >>> (30 : Nat)) % 8 * 2) ||| 1] ++
    withMarker ((pts >>> (15 : Nat)) % 32768) ++ withMarker (pts % 32768)

/-! ## the adaptation field -/

def setAfFlag (pkt : Nat → UInt8) (flag : UInt8) : Nat → UInt8 :=
  if pkt 3 &&& 0x20 = 0 then
    -- no AF yet: 1 byte length, no flags
    memcpy pkt 3 [pkt 3 ||| 0x20, 1, 0 ||| flag]
  else Function.update pkt 5 (pkt 5 ||| flag)

def extendAf (pkt : Nat → UInt8) (size : Nat) : Nat → UInt8 :=
  Function.update pkt 4 (pkt 4 + UInt8.ofNat size)

def getTsPayloadStart (pkt : Nat → UInt8) : Nat :=
  if pkt 3 &&& 0x20 = 0 then 4 else 5 + (pkt 4).toNat

/-! ## the first packet -/

def startHeader (ts : WriteStream) : List UInt8 :=
  [0x47, byteOf (ts.pid >>> (8 : Nat)) ||| 0x40, byteOf ts.pid, 0x10 ||| byteOf (nextCc ts.cc)]

/-- the clock reference, in the packets of the video only -/
def addPcr (pkt : Nat → UInt8) (ts : WriteStream) : Nat → UInt8 :=
  if ts.codecType = .video then
    let flagged := setAfFlag pkt 0x10
    let bits := writePcrBits (toInt64 (ts.payloadPts * 300))
    extendAf (memcpy flagged (getTsPayloadStart flagged) bits) bits.length
  else pkt

def streamId (ts : WriteStream) : List UInt8 :=
  if ts.codecType = .video then [0xe0] else if ts.codecType = .audio then [0xc0] else []

def hasPts (ts : WriteStream) : Prop := ts.payloadPts ≠ avNoptsValue

instance instDecidableHasPts (ts : WriteStream) : Decidable (hasPts ts) :=
  inferInstanceAs (Decidable (_ ≠ _))

def pesHeaderLen (ts : WriteStream) : Int := if hasPts ts then 5 else 0

def pesFlags (ts : WriteStream) : UInt8 := if hasPts ts then 0x80 else 0

/-- 0 is "not given" -/
def pesLength (ts : WriteStream) : Int :=
  let len := ts.payloadSize + pesHeaderLen ts + 3
  if ts.codecType = .video then 0 else if len > 0xffff then 0 else len

def startCode : List UInt8 := [0x00, 0x00, 0x01]

def pesHeader (ts : WriteStream) : List UInt8 :=
  startCode ++ streamId ts ++
    [byteOf (pesLength ts >>> (8 : Nat)), byteOf (pesLength ts), 0x80, pesFlags ts,
      byteOf (pesHeaderLen ts)] ++
    (if hasPts ts then writePts (pesFlags ts >>> 6).toNat ts.payloadPts else [])

/-- the header of the first packet, in the local array `stack` -/
def startCursor (stack : Nat → UInt8) (ts : WriteStream) : Cursor :=
  let buf := addPcr (setAfFlag (memcpy stack 0 (startHeader ts)) 0x40) ts
  Cursor.put ⟨buf, getTsPayloadStart buf⟩ (pesHeader ts)

/-- the room that the header leaves -/
def startLen (stack : Nat → UInt8) (ts : WriteStream) : Nat :=
  tsPacketSize - (startCursor stack ts).q

/-- the room is filled, whatever the payload is long -/
def mpegtsStartPacket (mem stack : Nat → UInt8) (ts : WriteStream) :
    WriteStream × List (List UInt8) :=
  let len := startLen stack ts
  ({ ts with cc := nextCc ts.cc, payload := ts.payload + len, payloadSize := ts.payloadSize - len },
    [slice (memcpy (startCursor stack ts).buf (tsPacketSize - len) (slice mem ts.payload len))
      0 tsPacketSize])

/-! ## the packets that follow -/

def normalHeader (ts : WriteStream) : List UInt8 :=
  [0x47, byteOf (ts.pid >>> (8 : Nat)), byteOf ts.pid, 0x10 ||| byteOf (nextCc ts.cc)]

def normalHeaderLen : Nat := 4

def normalLen (ts : WriteStream) : Nat :=
  if ((tsPacketSize - normalHeaderLen : Nat) : Int) > ts.payloadSize then ts.payloadSize.toNat
  else tsPacketSize - normalHeaderLen

def stuffingLen (ts : WriteStream) : Nat := tsPacketSize - normalHeaderLen - normalLen ts

/-- an adaptation field that is there already is made longer -/
def growStuffing (buf : Nat → UInt8) (headerLen stuffing : Nat) : Nat → UInt8 :=
  let afcLen := (buf 4).toNat + 1
  let moved := memcpy buf (4 + afcLen + stuffing)
    (slice buf (4 + afcLen) (headerLen - (4 + afcLen)))
  memcpy (Function.update moved 4 (moved 4 + UInt8.ofNat stuffing)) (4 + afcLen)
    (List.replicate stuffing 0xff)

/-- an adaptation field of `stuffing` bytes: length, flags and filling, as far as there is room -/
def newStuffing (buf : Nat → UInt8) (headerLen stuffing : Nat) : Nat → UInt8 :=
  let moved := memcpy buf (4 + stuffing) (slice buf 4 (headerLen - 4))
  let field := memcpy moved 3 [moved 3 ||| 0x20, byteOf (stuffing - 1)]
  if 2 ≤ stuffing then memcpy field 5 (0x00 :: List.replicate (stuffing - 2) 0xff) else field

def addStuffing (buf : Nat → UInt8) (headerLen stuffing : Nat) : Nat → UInt8 :=
  if stuffing = 0 then buf
  else if buf 3 &&& 0x20 = 0 then newStuffing buf headerLen stuffing
  else growStuffing buf headerLen stuffing

/-- the array at the end of one pass of the loop -/
def normalBuf (mem buf : Nat → UInt8) (ts : WriteStream) : Nat → UInt8 :=
  memcpy (addStuffing (memcpy buf 0 (normalHeader ts)) normalHeaderLen (stuffingLen ts))
    (tsPacketSize - normalLen ts) (slice mem ts.payload (normalLen ts))

def normalNext (ts : WriteStream) : WriteStream :=
  { ts with
    cc := nextCc ts.cc
    payload := ts.payload + normalLen ts
    payloadSize := ts.payloadSize - normalLen ts }

theorem normalNext_lt {ts : WriteStream} (h : 0 < ts.payloadSize) :
    (normalNext ts).payloadSize.toNat < ts.payloadSize.toNat := by
  have hlen : 0 < normalLen ts := by
    unfold normalLen tsPacketSize normalHeaderLen
    split <;> omega
  show (ts.payloadSize - normalLen ts).toNat < ts.payloadSize.toNat
  omega

/-- `buf` is one array for all passes -/
def mpegtsNormalPacket (mem buf : Nat → UInt8) (ts : WriteStream) :
    WriteStream × List (List UInt8) :=
  if 0 < ts.payloadSize then
    let rest := mpegtsNormalPacket mem (normalBuf mem buf ts) (normalNext ts)
    (rest.1, slice (normalBuf mem buf ts) 0 tsPacketSize :: rest.2)
  else (ts, [])
termination_by ts.payloadSize.toNat
decreasing_by exact normalNext_lt ‹_›

/-! ## the driver -/

inductive AvState where
  | startPacket
  | videoPacket
  | auidoPacket
  | endPacket
  deriving DecidableEq

structure TsMux where
  avState : AvState
  tsStV : WriteStream
  tsStA : WriteStream
  testLoop : UInt32
  patPmtCc : UInt8

/-- the tables and payloads that are compiled in: where they stand and how long they are -/
structure TsData where
  packQuene : UInt32 → Nat × Int
  mp2packt : Nat × Int
  patDat : List UInt8
  pmtDat : List UInt8

/-- a number as it is kept in 32 bits -/
def toInt32 (x : Int) : Int := Int.bmod x 4294967296

def tsMuxInit : TsMux where
  avState := .startPacket
  tsStV := ⟨.video, 256, 15, false, 0, 0, 0⟩
  tsStA := ⟨.audio, 257, 15, false, 0, 0, 0⟩
  testLoop := 0
  patPmtCc := 0

/-- one poll of a stream; `step` is added to the time stamp behind the first packet -/
def sendPart (mem stack : Nat → UInt8) (step : Int) (ts : WriteStream) :
    WriteStream × List (List UInt8) :=
  if ts.isStart then
    let r := mpegtsStartPacket mem stack { ts with isStart := false }
    ({ r.1 with payloadPts := toInt64 (r.1.payloadPts + step) }, r.2)
  else mpegtsNormalPacket mem stack ts

/-- the tables carry a counter of their own -/
def tables (d : TsData) (cc : UInt8) : List (List UInt8) :=
  [d.patDat.set 3 (0x10 ||| cc), d.pmtDat.set 3 (0x10 ||| cc)]

def loadStream (ts : WriteStream) (data : Nat × Int) : WriteStream :=
  { ts with isStart := true, payload := data.1, payloadSize := toInt32 data.2 }

def pollintTs (d : TsData) (mem stack : Nat → UInt8) (m : TsMux) : TsMux × List (List UInt8) :=
  match m.avState with
  | .startPacket =>
    ({ avState := .videoPacket
       tsStV := loadStream m.tsStV (d.packQuene m.testLoop)
       tsStA := loadStream m.tsStA d.mp2packt
       testLoop := m.testLoop + 1
       patPmtCc := (m.patPmtCc + 1) &&& 0xf }, tables d m.patPmtCc)
  | .videoPacket =>
    let r := sendPart mem stack 1500 m.tsStV
    ({ m with
       avState := if r.1.payloadSize = 0 then .auidoPacket else .videoPacket
       tsStV := r.1 }, r.2)
  | .auidoPacket =>
    let r := sendPart mem stack 2160 m.tsStA
    ({ m with
       avState := if r.1.payloadSize = 0 then
         if m.testLoop = 1 then .endPacket else .startPacket else .auidoPacket
       tsStA := r.1 }, r.2)
  | .endPacket => (m, [])

end MenuFirmware
