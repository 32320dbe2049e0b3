import MenuFirmware.Eth.Queue

/-!
# Which frames are commands (`eth_irq_input`)

The receive interrupt looks at two bytes of the buffer and takes three others.  It looks at no
type, no header length and no frame length, so what it takes need not be a datagram at all.

* `CommandDatagram f`   the frame `f` is an IPv4 UDP datagram to port 0x5004 with a command in it;
* `payloadFrame f`      the first three bytes of its payload;
* `datagramsOf fs`      those of a list of frames;
* `rxBuffer f old`      a buffer with the frame in it;
* `asks_datagrams_iff`  when the interrupt finds in a buffer what some frames ask for;
* `asks_own_iff`        for which frames that is so where the buffer is their own.
-/

namespace MenuFirmware

/-! ## frames -/

/-- the byte at `i` -/
def byteAt (f : List UInt8) (i : Nat) : UInt8 := f.getD i 0

/-- the two bytes at `i`, the high one first -/
def be16At (f : List UInt8) (i : Nat) : Nat := (byteAt f i).toNat * 0x100 + (byteAt f (i + 1)).toNat

/-- the words of the IP header -/
def headerWords (f : List UInt8) : Nat := (byteAt f 14 &&& 0x0F).toNat

/-- where the UDP header begins -/
def udpIndex (f : List UInt8) : Nat := 14 + 4 * headerWords f

/-- an IPv4 UDP datagram to port 0x5004 with at least three bytes of payload, whole or its first
fragment -/
structure CommandDatagram (f : List UInt8) : Prop where
  etherType : be16At f 12 = 0x0800
  version : byteAt f 14 >>> 4 = 4
  headerWords_ge : 5 ≤ headerWords f
  fragmentOffset : be16At f 20 % 0x2000 = 0
  protocol : byteAt f 23 = 17
  dstPort : be16At f (udpIndex f + 2) = 0x5004
  totalLength : 4 * headerWords f + 8 + 3 ≤ be16At f 16
  udpLength : 8 + 3 ≤ be16At f (udpIndex f + 4)
  received : udpIndex f + 8 + 3 ≤ f.length

instance (f : List UInt8) : Decidable (CommandDatagram f) :=
  decidable_of_iff
    (be16At f 12 = 0x0800 ∧ byteAt f 14 >>> 4 = 4 ∧ 5 ≤ headerWords f ∧ be16At f 20 % 0x2000 = 0 ∧
      byteAt f 23 = 17 ∧ be16At f (udpIndex f + 2) = 0x5004 ∧ 4 * headerWords f + 8 + 3 ≤ be16At f 16 ∧
      8 + 3 ≤ be16At f (udpIndex f + 4) ∧ udpIndex f + 8 + 3 ≤ f.length)
    ⟨fun ⟨h1, h2, h3, h4, h5, h6, h7, h8, h9⟩ => ⟨h1, h2, h3, h4, h5, h6, h7, h8, h9⟩,
      fun ⟨h1, h2, h3, h4, h5, h6, h7, h8, h9⟩ => ⟨h1, h2, h3, h4, h5, h6, h7, h8, h9⟩⟩

/-- the first three bytes of the payload -/
def payloadFrame (f : List UInt8) : Frame :=
  ⟨byteAt f (udpIndex f + 8), byteAt f (udpIndex f + 9), byteAt f (udpIndex f + 10)⟩

/-- the commands of the datagrams among the frames `fs` -/
def datagramsOf (fs : List (List UInt8)) : List Frame :=
  fs.flatMap fun f => if CommandDatagram f then [payloadFrame f] else []

/-- a buffer with a frame in it, and behind it what was there before -/
def rxBuffer (f : List UInt8) (old : Nat → UInt8) : Nat → UInt8 := fun i => f.getD i (old i)

theorem rxBuffer_lt {f : List UInt8} {i : Nat} (old : Nat → UInt8) (h : i < f.length) :
    rxBuffer f old i = byteAt f i := by
  unfold rxBuffer byteAt
  rw [List.getD_eq_getElem _ _ h, List.getD_eq_getElem _ _ h]

theorem be16At_eq {f : List UInt8} {i : Nat} {a b : UInt8}
    (h : be16At f i = a.toNat * 0x100 + b.toNat) : byteAt f i = a ∧ byteAt f (i + 1) = b := by
  have h1 := (byteAt f i).toNat_lt
  have h2 := (byteAt f (i + 1)).toNat_lt
  have ha := a.toNat_lt
  have hb := b.toNat_lt
  unfold be16At at h
  exact ⟨UInt8.toNat_inj.1 (by omega), UInt8.toNat_inj.1 (by omega)⟩

/-! ## what the interrupt finds -/

/-- with 0x5004 at the fixed place the interrupt finds right iff exactly one of the frames is a
command datagram and begins with the bytes at the other place; without it, iff none is -/
theorem asks_datagrams_iff (buffer : Nat → UInt8) (fs : List (List UInt8)) :
    (asks buffer).map Command.frame = datagramsOf fs ↔
      if portAccepted buffer then datagramsOf fs = [(commandOf buffer).frame]
      else datagramsOf fs = [] := by
  unfold asks
  by_cases ha : portAccepted buffer = true
  · rw [if_pos ha, if_pos ha]
    exact eq_comm
  · rw [if_neg ha, if_neg ha]
    exact eq_comm

theorem datagramsOf_singleton (f : List UInt8) :
    datagramsOf [f] = if CommandDatagram f then [payloadFrame f] else [] := List.flatMap_singleton ..

/-- a datagram whose header is the shortest one stands where the interrupt looks -/
theorem portAccepted_of_datagram {f : List UInt8} (old : Nat → UInt8) (h : CommandDatagram f)
    (h5 : headerWords f = 5) :
    portAccepted (rxBuffer f old) = true ∧
      (commandOf (rxBuffer f old)).frame = payloadFrame f := by
  have hidx : udpIndex f = 34 := by
    unfold udpIndex
    rw [h5]
  have hlen := h.received
  have hport := h.dstPort
  rw [hidx] at hlen hport
  have hbytes : byteAt f 36 = 0x50 ∧ byteAt f 37 = 0x04 := be16At_eq hport
  refine ⟨?_, ?_⟩
  · unfold portAccepted
    rw [rxBuffer_lt old (by omega), rxBuffer_lt old (by omega), hbytes.1, hbytes.2]
    rfl
  · unfold commandOf payloadFrame
    rw [rxBuffer_lt old (by omega), rxBuffer_lt old (by omega), rxBuffer_lt old (by omega), hidx]

/-- **The layout.**  Where the buffer is the frame's own, a frame with 0x5004 at the fixed place is
handled right iff it is a command datagram whose IP header is the shortest one, or happens to repeat
its first payload bytes at the fixed place; any other frame is, iff it is no command datagram with a
longer IP header. -/
theorem asks_own_iff (f : List UInt8) (old : Nat → UInt8) :
    (asks (rxBuffer f old)).map Command.frame = datagramsOf [f] ↔
      if portAccepted (rxBuffer f old) then
        CommandDatagram f ∧
          (headerWords f = 5 ∨ (commandOf (rxBuffer f old)).frame = payloadFrame f)
      else ¬ (CommandDatagram f ∧ headerWords f ≠ 5) := by
  rw [asks_datagrams_iff, datagramsOf_singleton]
  by_cases hacc : portAccepted (rxBuffer f old) = true
  · rw [if_pos hacc, if_pos hacc]
    by_cases hd : CommandDatagram f
    · rw [if_pos hd, List.singleton_inj, and_iff_right hd]
      refine ⟨fun h => Or.inr h.symm, ?_⟩
      rintro (h5 | heq)
      · exact (portAccepted_of_datagram old hd h5).2.symm
      · exact heq.symm
    · rw [if_neg hd]
      exact iff_of_false (List.cons_ne_nil _ _).symm fun h => hd h.1
  · rw [if_neg hacc, if_neg hacc]
    by_cases hd : CommandDatagram f
    · rw [if_pos hd]
      refine iff_of_false (List.cons_ne_nil _ _) (not_not.2 ⟨hd, fun h5 => ?_⟩)
      exact hacc (portAccepted_of_datagram old hd h5).1
    · rw [if_neg hd]
      exact iff_of_true rfl fun h => hd h.1

end MenuFirmware
