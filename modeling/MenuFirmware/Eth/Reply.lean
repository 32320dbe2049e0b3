import MenuFirmware.Eth.Accept
import MenuFirmware.Eth.Wire

/-!
# The datagrams of `eth_send` (`udp_api.c`, `lwip.c`)

The replies do not go through the stack: `eth_send` writes the lengths, the identification and the
port of the last request into a prepared header, and `udp_ts_output` sends it with the data.  The
destination address in the header is learned from the ARP table while the link is marked unlinked.

* `UdpNet`            the network parameters, the header and `ip_id`;
* `parseDatagram`     what a host reads from a frame;
* `HeaderFor`         the header says what the parameters say; every step keeps it;
* `reply_parsed`      what is sent after any run is what was asked for;
* `learned_after`     which address the datagrams go to;
* `repeated_id`       which packets carry the identification of the one before.
-/

set_option linter.unusedSectionVars false

namespace MenuFirmware
open Memory Runs

/-! ## the code -/

/-- `NETIF_PAR` -/
structure NetifPar where
  ip : Vector UInt8 4
  mac : Vector UInt8 6
  port : UInt16

/-- `NETIF_REMOTE_PAR` -/
structure NetifRemotePar where
  ip : Vector UInt8 4
  port : UInt16
  mac : Vector UInt8 6
  /-- `NET_LINKED` -/
  link : Bool

structure UdpNet where
  par : NetifPar
  remote : NetifRemotePar
  /-- `netUdpPack` -/
  udpPack : Nat → UInt8
  ipId : UInt16
  dstpot : Port

/-- `U16_To_HexBuf` -/
def hexBuf (bin : UInt16) : List UInt8 := [(bin >>> 8).toUInt8, bin.toUInt8]

def udpHlen : UInt16 := 8
def ipHlen : UInt16 := 20
def linkHlen : UInt16 := 14

/-- `udp_pack_init`, write by write -/
def udpPackInit (s : UdpNet) : UdpNet :=
  let m := memcpy s.udpPack 34 (hexBuf s.par.port)
  let m := memcpy m 36 (hexBuf s.remote.port)
  let m := memcpy m 38 (hexBuf (1316 + udpHlen))
  let m := memcpy m 40 [0, 0]
  let m := memcpy m 14 [0x45, 0x00]
  let m := memcpy m 16 (hexBuf (1316 + udpHlen + ipHlen))
  let m := memcpy m 18 (hexBuf s.ipId)
  let m := memcpy m 20 (hexBuf 0x0000)
  let m := memcpy m 22 [0xFF, 0x11]
  let m := memcpy m 26 s.par.ip.toList
  let m := memcpy m 30 s.remote.ip.toList
  let m := memcpy m 24 [0, 0]
  let m := memcpy m 0 s.remote.mac.toList
  let m := memcpy m 6 s.par.mac.toList
  { s with udpPack := memcpy m 12 (hexBuf 0x0800) }

/-- `eth_send` up to the call of `udp_ts_output` -/
def ethSend (s : UdpNet) (dataLen : UInt16) : UdpNet :=
  let id := s.ipId + 1
  let m := memcpy s.udpPack 18 (hexBuf id)
  let m := memcpy m 38 (hexBuf (dataLen + udpHlen))
  let m := memcpy m 16 (hexBuf (dataLen + udpHlen + ipHlen))
  { s with udpPack := memcpy m 36 [s.dstpot.1, s.dstpot.2], ipId := id }

/-- `mPortBuf.tot_len` -/
def totLen (dataLen : UInt16) : UInt16 := dataLen + udpHlen + ipHlen + linkHlen

/-- the frame that `udp_ts_output` puts together for `eth_send` -/
def sentFrame (s : UdpNet) (data : Nat → UInt8) (dataLen : UInt16) : List UInt8 :=
  udpTsFrame (ethSend s dataLen).udpPack (totLen dataLen) dataLen data 0

def setRemoteLwipUdpLink (s : UdpNet) (link : Bool) : UdpNet :=
  { s with remote := { s.remote with link := link } }

/-- `ap_udp_set_mac` -/
def apUdpSetMac (s : UdpNet) (mac : Vector UInt8 6) : UdpNet :=
  { s with udpPack := memcpy s.udpPack 0 mac.toList }

/-- `remoteLwip_mac_conf`, called for every entry of the ARP table -/
def remoteLwipMacConf (s : UdpNet) (ip : Vector UInt8 4) (mac : Vector UInt8 6) : UdpNet :=
  if ip = s.remote.ip ∧ s.remote.link = false then
    apUdpSetMac { s with remote := { s.remote with link := true, mac := mac } } mac
  else s

def linkDownOccurred (regvalue : UInt32) : Bool := regvalue &&& 0x0004 != 0
def linkUpOccurred (regvalue : UInt32) : Bool := regvalue &&& 0x0001 != 0

/-- `Link_Callback` -/
def linkCallback (s : UdpNet) (regvalue : UInt32) : UdpNet :=
  let s := if linkDownOccurred regvalue then setRemoteLwipUdpLink s false else s
  if linkUpOccurred regvalue then setRemoteLwipUdpLink s true else s

inductive UdpEvent where
  /-- an entry of the ARP table -/
  | arp (ip : Vector UInt8 4) (mac : Vector UInt8 6)
  /-- the interrupt of the PHY, with its register -/
  | link (regvalue : UInt32)
  /-- a command is accepted from this port -/
  | request (port : Port)
  /-- the stack sends a packet of its own -/
  | stack
  | send (data : Nat → UInt8) (dataLen : UInt16)

def udpStep (s : UdpNet) : UdpEvent → UdpNet
  | .arp ip mac => remoteLwipMacConf s ip mac
  | .link regvalue => linkCallback s regvalue
  | .request port => { s with dstpot := port }
  | .stack => { s with ipId := s.ipId + 1 }
  | .send _ dataLen => ethSend s dataLen

/-- a card, its host at 192.168.0.190, and no address of the host yet -/
def cardNet : UdpNet where
  par := ⟨#v[192, 168, 0, 188], #v[0, 0x80, 0xE1, 0, 0, 0], 0x5004⟩
  remote := ⟨#v[192, 168, 0, 190], 0x5003, #v[0, 0, 0, 0, 0, 0], false⟩
  udpPack := fun _ => 0
  ipId := 0
  dstpot := (0, 0)

/-! ## what a host reads -/

structure Datagram where
  destMac : List UInt8
  srcMac : List UInt8
  id : Nat
  srcIp : List UInt8
  dstIp : List UInt8
  srcPort : Nat
  dstPort : Nat
  data : List UInt8
  deriving DecidableEq

/-- the `n` bytes at `i` -/
def bytesAt (f : List UInt8) (i n : Nat) : List UInt8 := (f.drop i).take n

/-- an Ethernet frame with an IPv4 packet without options, not a fragment, with a UDP datagram; the
checksums are the business of the MAC -/
def parseDatagram (f : List UInt8) : Option Datagram :=
  if be16At f 12 = 0x0800 ∧ byteAt f 14 = 0x45 ∧ be16At f 20 % 0x4000 = 0 ∧ byteAt f 23 = 17 ∧
      14 + be16At f 16 ≤ f.length ∧ 20 + be16At f 38 = be16At f 16 ∧ 8 ≤ be16At f 38 then
    some
      { destMac := bytesAt f 0 6
        srcMac := bytesAt f 6 6
        id := be16At f 18
        srcIp := bytesAt f 26 4
        dstIp := bytesAt f 30 4
        srcPort := be16At f 34
        dstPort := be16At f 36
        data := bytesAt f 42 (be16At f 38 - 8) }
  else none

/-! ## the header -/

/-- what stays in the header, and the address -/
structure HeaderFor (par : NetifPar) (mac : Vector UInt8 6) (ip : Vector UInt8 4) (m : Nat → UInt8) :
    Prop where
  destMac : slice m 0 6 = mac.toList
  srcMac : slice m 6 6 = par.mac.toList
  type : slice m 12 2 = [0x08, 0x00]
  version : slice m 14 2 = [0x45, 0x00]
  fragment : slice m 20 2 = [0x00, 0x00]
  protocol : slice m 22 2 = [0xFF, 0x11]
  srcIp : slice m 26 4 = par.ip.toList
  dstIp : slice m 30 4 = ip.toList
  srcPort : slice m 34 2 = hexBuf par.port

@[simp] theorem hexBuf_length (bin : UInt16) : (hexBuf bin).length = 2 := rfl

theorem udpPackInit_header (s : UdpNet) :
    HeaderFor s.par s.remote.mac s.remote.ip (udpPackInit s).udpPack := by
  constructor <;> unfold udpPackInit <;>
    simp (disch := simp) only [slice_memcpy_apart, slice_memcpy_at] <;> rfl

variable {par : NetifPar} {mac : Vector UInt8 6} {ip : Vector UInt8 4} {m : Nat → UInt8}

/-- the writes of `eth_send` are to the lengths, the identification and the port -/
theorem HeaderFor.ethSend {s : UdpNet} (h : HeaderFor par mac ip s.udpPack) (n : UInt16) :
    HeaderFor par mac ip (ethSend s n).udpPack := by
  unfold MenuFirmware.ethSend
  refine ⟨?_, ?_, ?_, ?_, ?_, ?_, ?_, ?_, ?_⟩ <;>
    simp (disch := simp) only [slice_memcpy_apart]
  · exact h.destMac
  · exact h.srcMac
  · exact h.type
  · exact h.version
  · exact h.fragment
  · exact h.protocol
  · exact h.srcIp
  · exact h.dstIp
  · exact h.srcPort

/-- `ap_udp_set_mac` -/
theorem HeaderFor.setMac (h : HeaderFor par mac ip m) (mac' : Vector UInt8 6) :
    HeaderFor par mac' ip (memcpy m 0 mac'.toList) := by
  refine ⟨slice_memcpy_at m 0 (by simp), ?_, ?_, ?_, ?_, ?_, ?_, ?_, ?_⟩ <;>
    rw [slice_memcpy_apart m (by simp)]
  · exact h.srcMac
  · exact h.type
  · exact h.version
  · exact h.fragment
  · exact h.protocol
  · exact h.srcIp
  · exact h.dstIp
  · exact h.srcPort

/-! ## the frame and its parts -/

theorem hexBuf_value (bin : UInt16) :
    ((bin >>> 8).toUInt8).toNat * 0x100 + bin.toUInt8.toNat = bin.toNat := by
  have h := bin.toNat_lt
  simp only [UInt16.toNat_toUInt8, UInt16.toNat_shiftRight]
  rw [show (8 : UInt16).toNat % 16 = 8 from rfl, Nat.shiftRight_eq_div_pow]
  omega

section
variable {i n : Nat}

theorem byteAt_header (m : Nat → UInt8) (rest : List UInt8) (h : i < n) :
    byteAt (slice m 0 n ++ rest) i = m i := by
  have hlen : i < (slice m 0 n).length := by rwa [slice_length]
  unfold byteAt
  rw [List.getD_append _ _ _ _ hlen, slice_getD m 0 h, Nat.zero_add]

theorem byteAt_of_slice (rest : List UInt8) {a b : UInt8} (h : i + 2 ≤ n) (hs : slice m i 2 = [a, b]) :
    byteAt (slice m 0 n ++ rest) i = a ∧ byteAt (slice m 0 n ++ rest) (i + 1) = b := by
  rw [byteAt_header m rest (by omega), byteAt_header m rest (by omega)]
  have h' : [m i, m (i + 1)] = [a, b] := hs
  obtain ⟨ha, hb⟩ := List.cons.inj h'
  exact ⟨ha, (List.cons.inj hb).1⟩

theorem be16At_of_slice (rest : List UInt8) {bin : UInt16} (h : i + 2 ≤ n)
    (hs : slice m i 2 = hexBuf bin) :
    be16At (slice m 0 n ++ rest) i = bin.toNat := by
  obtain ⟨ha, hb⟩ := byteAt_of_slice rest h hs
  unfold be16At
  rw [ha, hb, hexBuf_value]

theorem bytesAt_header (m : Nat → UInt8) (rest : List UInt8) {k : Nat} (h : i + k ≤ n) :
    bytesAt (slice m 0 n ++ rest) i k = slice m i k := by
  obtain ⟨l, rfl⟩ : ∃ l, n = i + (k + l) := ⟨n - i - k, by omega⟩
  unfold bytesAt
  rw [slice_add, slice_add, Nat.zero_add, List.append_assoc,
    List.drop_left' (slice_length m 0 i), List.append_assoc, List.take_left' (slice_length m i k)]

end

theorem ringBytes_slice (data : Nat → UInt8) {n : Nat} (h : n ≤ udpBufSize) :
    ringBytes data 0 n = slice data 0 n := by
  apply List.map_congr_left
  intro i hi
  have hlt : i < n := List.mem_range.1 hi
  rw [Nat.zero_add, Nat.mod_eq_of_lt (by omega)]

/-- while the frame fits a buffer, no length wraps -/
theorem totLen_toNat {n : UInt16} (h : n.toNat + 42 ≤ ethRxBufSize) :
    (n + udpHlen).toNat = n.toNat + 8 ∧ (n + udpHlen + ipHlen).toNat = n.toNat + 28 ∧
      (totLen n).toNat = n.toNat + 42 := by
  unfold ethRxBufSize at h
  have h1 : (n + udpHlen).toNat = n.toNat + 8 := by
    rw [UInt16.toNat_add, show udpHlen.toNat = 8 from rfl]
    omega
  have h2 : (n + udpHlen + ipHlen).toNat = n.toNat + 28 := by
    rw [UInt16.toNat_add, h1, show ipHlen.toNat = 20 from rfl]
    omega
  refine ⟨h1, h2, ?_⟩
  unfold totLen
  rw [UInt16.toNat_add, h2, show linkHlen.toNat = 14 from rfl]
  omega

theorem sentFrame_parts (s : UdpNet) (data : Nat → UInt8) {n : UInt16}
    (h : n.toNat + 42 ≤ ethRxBufSize) :
    sentFrame s data n = slice (ethSend s n).udpPack 0 42 ++ slice data 0 n.toNat := by
  have hring : n.toNat ≤ udpBufSize := by
    unfold ethRxBufSize at h
    unfold udpBufSize
    omega
  unfold sentFrame udpTsFrame
  rw [(totLen_toNat h).2.2, Nat.add_sub_cancel_left, ringBytes_slice data hring]

/-- the port of the last request as a number -/
def portNumber (port : Port) : Nat := port.1.toNat * 0x100 + port.2.toNat

/-- **What is sent.**  A host that gets the frame reads what the parameters, the last request and the
caller say. -/
theorem sentFrame_parsed {s : UdpNet} (h : HeaderFor par mac ip s.udpPack) (data : Nat → UInt8)
    {n : UInt16} (hn : n.toNat + 42 ≤ ethRxBufSize) :
    parseDatagram (sentFrame s data n) = some
      { destMac := mac.toList
        srcMac := par.mac.toList
        id := (s.ipId + 1).toNat
        srcIp := par.ip.toList
        dstIp := ip.toList
        srcPort := par.port.toNat
        dstPort := portNumber s.dstpot
        data := slice data 0 n.toNat } := by
  have hsend := h.ethSend n
  have hid : slice (ethSend s n).udpPack 18 2 = hexBuf (s.ipId + 1) := by
    unfold ethSend
    simp (disch := simp) only [slice_memcpy_apart]
    exact slice_memcpy_at _ _ (hexBuf_length _)
  have hudp : slice (ethSend s n).udpPack 38 2 = hexBuf (n + udpHlen) := by
    unfold ethSend
    simp (disch := simp) only [slice_memcpy_apart]
    exact slice_memcpy_at _ _ (hexBuf_length _)
  have htot : slice (ethSend s n).udpPack 16 2 = hexBuf (n + udpHlen + ipHlen) := by
    unfold ethSend
    simp (disch := simp) only [slice_memcpy_apart]
    exact slice_memcpy_at _ _ (hexBuf_length _)
  have hport : slice (ethSend s n).udpPack 36 2 = [s.dstpot.1, s.dstpot.2] := by
    unfold ethSend
    exact slice_memcpy_at _ _ rfl
  obtain ⟨h8, h28, -⟩ := totLen_toNat hn
  rw [sentFrame_parts s data hn]
  have hdata : bytesAt (slice (ethSend s n).udpPack 0 42 ++ slice data 0 n.toNat) 42 n.toNat =
      slice data 0 n.toNat := by
    unfold bytesAt
    rw [List.drop_left' (slice_length _ 0 42), List.take_of_length_le (by rw [slice_length])]
  have hlen : (slice (ethSend s n).udpPack 0 42 ++ slice data 0 n.toNat).length = 42 + n.toNat := by
    rw [List.length_append, slice_length, slice_length]
  have htype : be16At (slice (ethSend s n).udpPack 0 42 ++ slice data 0 n.toNat) 12 = 0x0800 :=
    be16At_of_slice (slice data 0 n.toNat) (by decide) (show _ = hexBuf 0x0800 from hsend.type)
  have hversion := (byteAt_of_slice (slice data 0 n.toNat) (show 14 + 2 ≤ 42 by decide)
    hsend.version).1
  have hfragment : be16At (slice (ethSend s n).udpPack 0 42 ++ slice data 0 n.toNat) 20 = 0 :=
    be16At_of_slice (slice data 0 n.toNat) (by decide) (show _ = hexBuf 0 from hsend.fragment)
  have hprotocol := (byteAt_of_slice (slice data 0 n.toNat) (show 22 + 2 ≤ 42 by decide)
    hsend.protocol).2
  have hports := byteAt_of_slice (slice data 0 n.toNat) (n := 42) (by decide) hport
  have htotal := (be16At_of_slice (slice data 0 n.toNat) (n := 42) (by decide) htot).trans h28
  have hudplen := (be16At_of_slice (slice data 0 n.toNat) (n := 42) (by decide) hudp).trans h8
  have hdst : be16At (slice (ethSend s n).udpPack 0 42 ++ slice data 0 n.toNat) 36 =
      portNumber s.dstpot := by
    unfold be16At portNumber
    rw [hports.1, hports.2]
  unfold parseDatagram
  rw [if_pos ⟨htype, hversion, by rw [hfragment], hprotocol, by rw [htotal, hlen]; omega,
    by rw [htotal, hudplen]; omega, by rw [hudplen]; omega⟩, hudplen, Nat.add_sub_cancel, hdata,
    bytesAt_header _ _ (by decide), bytesAt_header _ _ (by decide), bytesAt_header _ _ (by decide),
    bytesAt_header _ _ (by decide), hsend.destMac, hsend.srcMac, hsend.srcIp, hsend.dstIp,
    be16At_of_slice _ (by decide) hid, be16At_of_slice _ (by decide) hsend.srcPort, hdst]

/-! ## every run -/

/-- the register of the PHY moves the link only -/
theorem linkCallback_eq (s : UdpNet) (regvalue : UInt32) :
    linkCallback s regvalue = setRemoteLwipUdpLink s
      (linkUpOccurred regvalue || (!linkDownOccurred regvalue && s.remote.link)) := by
  unfold linkCallback setRemoteLwipUdpLink
  cases linkUpOccurred regvalue <;> cases linkDownOccurred regvalue <;> rfl

/-- an entry that is not the one waited for changes nothing -/
theorem remoteLwipMacConf_other {s : UdpNet} {ip' : Vector UInt8 4}
    (h : ip' ≠ s.remote.ip ∨ s.remote.link = true) (mac' : Vector UInt8 6) :
    remoteLwipMacConf s ip' mac' = s := by
  unfold remoteLwipMacConf
  refine if_neg fun hboth => ?_
  rcases h with h | h
  · exact h hboth.1
  · rw [h] at hboth
    exact Bool.false_ne_true hboth.2.symm

theorem remoteLwipMacConf_learns {s : UdpNet} (h : s.remote.link = false)
    (mac' : Vector UInt8 6) :
    remoteLwipMacConf s s.remote.ip mac' =
      { s with
        remote := { s.remote with link := true, mac := mac' }
        udpPack := memcpy s.udpPack 0 mac'.toList } := by
  unfold remoteLwipMacConf
  exact if_pos ⟨rfl, h⟩

/-- what an entry does, whichever it is -/
theorem remoteLwipMacConf_cases (s : UdpNet) (ip' : Vector UInt8 4) (mac' : Vector UInt8 6) :
    remoteLwipMacConf s ip' mac' = s ∨
      remoteLwipMacConf s ip' mac' =
        { s with
          remote := { s.remote with link := true, mac := mac' }
          udpPack := memcpy s.udpPack 0 mac'.toList } := by
  by_cases h : ip' = s.remote.ip ∧ s.remote.link = false
  · right
    rw [h.1]
    exact remoteLwipMacConf_learns h.2 mac'
  · left
    exact if_neg h

/-- the parameters stay, and the header goes with them -/
structure UdpInv (par : NetifPar) (ip : Vector UInt8 4) (s : UdpNet) : Prop where
  local_par : s.par = par
  remote_ip : s.remote.ip = ip
  header : HeaderFor par s.remote.mac ip s.udpPack

theorem udpStep_inv (s : UdpNet) (e : UdpEvent) (h : UdpInv par ip s) :
    UdpInv par ip (udpStep s e) := by
  cases e with
  | arp ip' mac' =>
    show UdpInv par ip (remoteLwipMacConf s ip' mac')
    rcases remoteLwipMacConf_cases s ip' mac' with hsame | hlearned
    · rw [hsame]
      exact h
    · rw [hlearned]
      exact ⟨h.local_par, h.remote_ip, h.header.setMac mac'⟩
  | link regvalue =>
    show UdpInv par ip (linkCallback s regvalue)
    rw [linkCallback_eq]
    exact ⟨h.local_par, h.remote_ip, h.header⟩
  | request port => exact ⟨h.local_par, h.remote_ip, h.header⟩
  | stack => exact ⟨h.local_par, h.remote_ip, h.header⟩
  | send data n => exact ⟨h.local_par, h.remote_ip, h.header.ethSend n⟩

theorem udpRun_inv (s : UdpNet) (es : List UdpEvent) :
    UdpInv s.par s.remote.ip (run udpStep (udpPackInit s) es) := by
  have hinit : UdpInv s.par s.remote.ip (udpPackInit s) := ⟨rfl, rfl, udpPackInit_header s⟩
  exact run_invariant udpStep_inv hinit es

/-- the events that take an identification -/
def UdpEvent.isPacket : UdpEvent → Bool
  | .stack => true
  | .send _ _ => true
  | _ => false

/-- the port of the last request -/
def lastRequest (port : Port) : List UdpEvent → Port
  | [] => port
  | .request port' :: es => lastRequest port' es
  | _ :: es => lastRequest port es

/-- neither an entry nor the link touches the port and the identification -/
theorem network_frame (s : UdpNet) (ip' : Vector UInt8 4) (mac' : Vector UInt8 6)
    (regvalue : UInt32) :
    (remoteLwipMacConf s ip' mac').dstpot = s.dstpot ∧
      (remoteLwipMacConf s ip' mac').ipId = s.ipId ∧
      (linkCallback s regvalue).dstpot = s.dstpot ∧ (linkCallback s regvalue).ipId = s.ipId := by
  rw [linkCallback_eq]
  rcases remoteLwipMacConf_cases s ip' mac' with h | h <;> rw [h] <;> exact ⟨rfl, rfl, rfl, rfl⟩

theorem udpRun_dstpot (s : UdpNet) (es : List UdpEvent) :
    (run udpStep s es).dstpot = lastRequest s.dstpot es := by
  induction es generalizing s with
  | nil => rfl
  | cons e es ih =>
    rw [run_cons, ih]
    cases e with
    | arp ip' mac' => exact congrArg (lastRequest · es) (network_frame s ip' mac' 0).1
    | link regvalue =>
      exact congrArg (lastRequest · es) (network_frame s s.remote.ip s.remote.mac regvalue).2.2.1
    | request port => rfl
    | stack => rfl
    | send data n => rfl

theorem udpStep_ipId (s : UdpNet) (e : UdpEvent) :
    (udpStep s e).ipId = s.ipId + if e.isPacket then 1 else 0 := by
  cases e with
  | arp ip' mac' =>
    exact (network_frame s ip' mac' 0).2.1.trans (UInt16.add_zero _).symm
  | link regvalue =>
    exact (network_frame s s.remote.ip s.remote.mac regvalue).2.2.2.trans (UInt16.add_zero _).symm
  | request port => exact (UInt16.add_zero _).symm
  | stack => rfl
  | send data n => rfl

/-- every packet takes one identification -/
theorem udpRun_ipId (s : UdpNet) (es : List UdpEvent) :
    (run udpStep s es).ipId = s.ipId + UInt16.ofNat (es.countP UdpEvent.isPacket) := by
  induction es generalizing s with
  | nil => exact (UInt16.add_zero _).symm
  | cons e es ih =>
    rw [run_cons, ih, udpStep_ipId, List.countP_cons, UInt16.ofNat_add, UInt16.add_assoc,
      UInt16.add_comm (UInt16.ofNat _)]
    by_cases h : e.isPacket = true
    · rw [if_pos h, if_pos h]
      rfl
    · rw [if_neg h, if_neg h]
      rfl

/-- **What is sent, over every run.**  The datagram that is sent after the events `es` reads as the
parameters, the last request, the count of the packets and the caller say. -/
theorem reply_parsed (s : UdpNet) (es : List UdpEvent) (data : Nat → UInt8) {n : UInt16}
    (hn : n.toNat + 42 ≤ ethRxBufSize) :
    parseDatagram (sentFrame (run udpStep (udpPackInit s) es) data n) = some
      { destMac := (run udpStep (udpPackInit s) es).remote.mac.toList
        srcMac := s.par.mac.toList
        id := (s.ipId.toNat + es.countP UdpEvent.isPacket + 1) % 2 ^ 16
        srcIp := s.par.ip.toList
        dstIp := s.remote.ip.toList
        srcPort := s.par.port.toNat
        dstPort := portNumber (lastRequest s.dstpot es)
        data := slice data 0 n.toNat } := by
  rw [sentFrame_parsed (udpRun_inv s es).header data hn, udpRun_ipId, udpRun_dstpot]
  have hid : ((udpPackInit s).ipId + UInt16.ofNat (es.countP UdpEvent.isPacket) + 1).toNat =
      (s.ipId.toNat + es.countP UdpEvent.isPacket + 1) % 2 ^ 16 := by
    rw [UInt16.toNat_add, UInt16.toNat_add, UInt16.toNat_ofNat', Nat.add_mod_mod, Nat.mod_add_mod]
    rfl
  rw [hid]
  rfl

/-- the host is known, and has sent a request -/
theorem reply_parsed_boot :
    parseDatagram (sentFrame (run udpStep (udpPackInit cardNet)
        [.arp #v[192, 168, 0, 190] #v[2, 0, 0, 0, 0, 7], .request (0x12, 0x34)]) (fun _ => 9) 3) =
      some
        { destMac := [2, 0, 0, 0, 0, 7]
          srcMac := [0, 0x80, 0xE1, 0, 0, 0]
          id := 1
          srcIp := [192, 168, 0, 188]
          dstIp := [192, 168, 0, 190]
          srcPort := 0x5004
          dstPort := 0x1234
          data := [9, 9, 9] } :=
  (reply_parsed cardNet _ (fun _ => 9) (n := 3) (by decide)).trans (by decide)

/-! ## the destination -/

/-- the events that end the time in which the address is learned -/
def UdpEvent.settles (ip : Vector UInt8 4) : UdpEvent → Bool
  | .arp ip' _ => ip' == ip
  | .link regvalue => linkUpOccurred regvalue
  | _ => false

/-- the link goes down, and does not come up at once -/
def UdpEvent.unlinks : UdpEvent → Bool
  | .link regvalue => linkDownOccurred regvalue && !linkUpOccurred regvalue
  | _ => false

def UdpEvent.entryMac : UdpEvent → Option (Vector UInt8 6)
  | .arp _ mac => some mac
  | _ => none

/-- the address in the first entry of `ip`, if the link does not come up before it -/
def firstEntry (ip : Vector UInt8 4) (es : List UdpEvent) : Option (Vector UInt8 6) :=
  (es.find? (·.settles ip)).bind UdpEvent.entryMac

/-- while the link is marked, no address is learned -/
theorem linked_step {s : UdpNet} (hl : s.remote.link = true) {e : UdpEvent}
    (h : e.unlinks = false) : (udpStep s e).remote = s.remote := by
  cases e with
  | arp ip' mac' =>
    show (remoteLwipMacConf s ip' mac').remote = s.remote
    rw [remoteLwipMacConf_other (Or.inr hl)]
  | link regvalue =>
    have hstays : (linkUpOccurred regvalue || (!linkDownOccurred regvalue && s.remote.link)) =
        s.remote.link := by
      unfold UdpEvent.unlinks at h
      rw [hl]
      cases hup : linkUpOccurred regvalue <;> cases hdown : linkDownOccurred regvalue <;>
        simp_all
    show (linkCallback s regvalue).remote = s.remote
    rw [linkCallback_eq, hstays]
    rfl
  | request port => rfl
  | stack => rfl
  | send data n => rfl

theorem linked_run {es : List UdpEvent} (h : ∀ e ∈ es, e.unlinks = false) {s : UdpNet}
    (hl : s.remote.link = true) : (run udpStep s es).remote = s.remote :=
  run_invariant_mem (P := fun t : UdpNet => t.remote = s.remote)
    (fun t e he ht => (linked_step (by rw [ht]; exact hl) (h e he)).trans ht) rfl

/-- while it is not, the first entry settles the address, unless the link comes up before it -/
theorem unlinked_run {es : List UdpEvent} (h : ∀ e ∈ es, e.unlinks = false) {s : UdpNet}
    (hl : s.remote.link = false) :
    (run udpStep s es).remote.mac = (firstEntry s.remote.ip es).getD s.remote.mac := by
  induction es generalizing s with
  | nil => rfl
  | cons e es ih =>
    have hes : ∀ e ∈ es, e.unlinks = false := fun e' he' => h e' (List.mem_cons_of_mem e he')
    have he := h e List.mem_cons_self
    unfold firstEntry
    rw [run_cons, List.find?_cons]
    cases hset : e.settles s.remote.ip with
    | true =>
      cases e with
      | arp ip' mac' =>
        obtain rfl : ip' = s.remote.ip := eq_of_beq hset
        have hlearns := remoteLwipMacConf_learns hl mac'
        have hrun := linked_run hes (s := remoteLwipMacConf s s.remote.ip mac') (by rw [hlearns])
        show (run udpStep (remoteLwipMacConf s s.remote.ip mac') es).remote.mac = mac'
        rw [hrun, hlearns]
      | link regvalue =>
        have hup : linkUpOccurred regvalue = true := hset
        have hcall : linkCallback s regvalue = setRemoteLwipUdpLink s true := by
          rw [linkCallback_eq, hup, Bool.true_or]
        have hrun := linked_run hes (s := setRemoteLwipUdpLink s true) rfl
        show (run udpStep (linkCallback s regvalue) es).remote.mac = s.remote.mac
        rw [hcall, hrun]
        rfl
      | request port => cases hset
      | stack => cases hset
      | send data n => cases hset
    | false =>
      have hsame : (udpStep s e).remote = s.remote := by
        cases e with
        | arp ip' mac' =>
          have hne : ip' ≠ s.remote.ip := fun heq => by
            rw [show (UdpEvent.arp ip' mac').settles s.remote.ip = (ip' == s.remote.ip) from rfl,
              heq, beq_self_eq_true] at hset
            cases hset
          exact congrArg UdpNet.remote (remoteLwipMacConf_other (Or.inl hne) mac')
        | link regvalue =>
          have hup : linkUpOccurred regvalue = false := hset
          show (linkCallback s regvalue).remote = s.remote
          rw [linkCallback_eq, hup, hl, Bool.and_false, Bool.false_or]
          unfold setRemoteLwipUdpLink
          rw [← hl]
        | request port => rfl
        | stack => rfl
        | send data n => rfl
      rw [ih hes (by rw [hsame]; exact hl), hsame]
      rfl

/-- **Where it goes.**  Since the link was marked unlinked the last time, the first entry of the
remote address counts, and no other; if the link comes up before it, none counts, and the datagrams
go to the address from before. -/
theorem learned_after (s : UdpNet) (data : Nat → UInt8) {n : UInt16}
    (hn : n.toNat + 42 ≤ ethRxBufSize) (rest : List UdpEvent)
    (hrest : ∀ e ∈ rest, e.unlinks = false) :
    (s.remote.link = false →
      (parseDatagram (sentFrame (run udpStep (udpPackInit s) rest) data n)).map Datagram.destMac =
        some ((firstEntry s.remote.ip rest).getD s.remote.mac).toList) ∧
    ∀ (pre : List UdpEvent) (regvalue : UInt32), (UdpEvent.link regvalue).unlinks = true →
      (parseDatagram (sentFrame (run udpStep (udpPackInit s) (pre ++ .link regvalue :: rest))
          data n)).map Datagram.destMac =
        some ((firstEntry s.remote.ip rest).getD
          (run udpStep (udpPackInit s) pre).remote.mac).toList := by
  refine ⟨fun hl => ?_, fun pre regvalue hdown => ?_⟩
  · have hrun := unlinked_run hrest (s := udpPackInit s) hl
    rw [sentFrame_parsed (udpRun_inv s rest).header data hn, hrun]
    rfl
  · have hcall : linkCallback (run udpStep (udpPackInit s) pre) regvalue =
        setRemoteLwipUdpLink (run udpStep (udpPackInit s) pre) false := by
      unfold UdpEvent.unlinks at hdown
      rw [Bool.and_eq_true, Bool.not_eq_true'] at hdown
      rw [linkCallback_eq, hdown.1, hdown.2]
      rfl
    have hrun := unlinked_run hrest
      (s := setRemoteLwipUdpLink (run udpStep (udpPackInit s) pre) false) rfl
    have hip := (udpRun_inv s pre).remote_ip
    rw [sentFrame_parsed (udpRun_inv s _).header data hn, run_append, run_cons]
    show some (run udpStep (linkCallback (run udpStep (udpPackInit s) pre) regvalue)
      rest).remote.mac.toList = _
    rw [hcall, hrun]
    show some ((firstEntry (run udpStep (udpPackInit s) pre).remote.ip rest).getD _).toList = _
    rw [hip]
    rfl

/-- the link comes up before the host is known: the datagrams go to no one -/
theorem learned_after_boot :
    (parseDatagram (sentFrame (run udpStep (udpPackInit cardNet)
        [.link 0x0001, .arp #v[192, 168, 0, 190] #v[2, 0, 0, 0, 0, 7]]) (fun _ => 9) 3)).map
        Datagram.destMac = some [0, 0, 0, 0, 0, 0] :=
  ((learned_after cardNet (fun _ => 9) (n := 3) (by decide) _ (by decide)).1 rfl).trans (by decide)

/-! ## the identification -/

def UdpEvent.isSend : UdpEvent → Bool
  | .send _ _ => true
  | _ => false

/-- the identification that a packet carries: the stack counts after it, `eth_send` before it -/
def packetId (s : UdpNet) : UdpEvent → Option UInt16
  | .stack => some s.ipId
  | .send _ _ => some (s.ipId + 1)
  | _ => none

theorem packetId_eq {s : UdpNet} {e : UdpEvent} {id : UInt16} (h : packetId s e = some id) :
    e.isPacket = true ∧ id = if e.isSend then s.ipId + 1 else s.ipId := by
  cases e with
  | stack => exact ⟨rfl, (Option.some.inj h).symm⟩
  | send data n => exact ⟨rfl, (Option.some.inj h).symm⟩
  | _ => cases h

/-- **Which packets share their identification.**  Within one round of the counter, exactly a packet
of the stack that comes right after a reply. -/
theorem repeated_id (s : UdpNet) {e e' : UdpEvent} (mid : List UdpEvent) {id id' : UInt16}
    (he : packetId s e = some id) (he' : packetId (run udpStep s (e :: mid)) e' = some id')
    (hround : mid.countP UdpEvent.isPacket + 2 < 2 ^ 16) :
    id' = id ↔
      e.isSend = true ∧ e'.isSend = false ∧ mid.countP UdpEvent.isPacket = 0 := by
  obtain ⟨hpacket, rfl⟩ := packetId_eq he
  obtain ⟨-, rfl⟩ := packetId_eq he'
  have hnext : (run udpStep s (e :: mid)).ipId =
      s.ipId + UInt16.ofNat (mid.countP UdpEvent.isPacket + 1) := by
    rw [udpRun_ipId, List.countP_cons, if_pos hpacket]
  have hlt := s.ipId.toNat_lt
  have hone : (1 : UInt16).toNat = 1 := rfl
  rw [hnext, ← UInt16.toNat_inj]
  generalize mid.countP UdpEvent.isPacket = k at hround ⊢
  -- the packets in between, and one for each of the two that counts
  cases e.isSend <;> cases e'.isSend <;>
    simp only [UInt16.toNat_add, UInt16.toNat_ofNat', if_true, Bool.false_eq_true, if_false, hone,
      reduceCtorEq, false_and, true_and, iff_false, Nat.reducePow] <;>
    omega

/-- the stack's packet after a reply -/
theorem repeated_id_boot : (udpStep cardNet (.send (fun _ => 0) 3)).ipId = cardNet.ipId + 1 :=
  (repeated_id cardNet (e := .send (fun _ => 0) 3) [] rfl
    (show packetId _ .stack = _ from rfl) (by decide)).2
    ⟨rfl, rfl, rfl⟩

end MenuFirmware
