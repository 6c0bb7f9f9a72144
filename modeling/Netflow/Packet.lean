import Netflow.Decode.SampledHeader
import Netflow.SflowEncode

/-!
# Sampled packets

An Ethernet frame with at most one tag, an IPv4 or IPv6 header and a TCP or UDP segment, as they stand on the
wire. A packet that was captured whole is parsed to its own addresses, protocol, ports and flags. A later
fragment of an IPv4 packet has no transport header, but the parser does not look: it takes the first bytes of
its payload for one.
-/

namespace Netflow.Sflow

section Definitions

/-- An Ethernet header with at most one 802.1Q tag. -/
structure Ethernet where
  dst : Vector UInt8 6
  src : Vector UInt8 6
  /-- The control information of the tag. -/
  tag : Option UInt16

/-- The bytes of a tag. -/
def tagBytes : Option UInt16 → Bytes
  | none => []
  | some control => beBytes 2 0x8100 ++ beBytes 2 control.toNat

/-- A frame of an Ethernet header and what it carries. -/
def Ethernet.encode (e : Ethernet) (ethertype : UInt16) (payload : Bytes) : Bytes :=
  e.dst.toList ++ (e.src.toList ++ (tagBytes e.tag ++ (beBytes 2 ethertype.toNat ++ payload)))

/-- An IPv4 header, its options as many as its length says beyond the fixed part. -/
structure Ipv4Header where
  ihl : Fin 16
  tos : UInt8
  totalLength : UInt16
  identification : UInt16
  /-- The flags and the fragment offset. -/
  fragment : UInt16
  ttl : UInt8
  checksum : UInt16
  src : BitVec 32
  dst : BitVec 32
  options : Bytes
  length_options : options.length = 4 * (ihl.val - 5)

/-- An IPv4 packet of a protocol. -/
def Ipv4Header.encode (h : Ipv4Header) (protocol : UInt8) (payload : Bytes) : Bytes :=
  .ofNat (0x40 + h.ihl.val) :: h.tos :: (beBytes 2 h.totalLength.toNat ++ (beBytes 2 h.identification.toNat ++
    (beBytes 2 h.fragment.toNat ++ (h.ttl :: protocol :: (beBytes 2 h.checksum.toNat ++
      (beBytes 4 h.src.toNat ++ (beBytes 4 h.dst.toNat ++ (h.options ++ payload))))))))

/-- The header of a fragment that is not the first of its packet. -/
structure LaterFragment extends Ipv4Header where
  offset_ne_zero : fragment &&& 0x1fff ≠ 0

/-- An IPv6 header. -/
structure Ipv6Header where
  /-- The traffic class and the flow label. -/
  flow : BitVec 28
  payloadLength : UInt16
  hopLimit : UInt8
  src : BitVec 128
  dst : BitVec 128

/-- An IPv6 packet of a protocol. -/
def Ipv6Header.encode (h : Ipv6Header) (nextHeader : UInt8) (payload : Bytes) : Bytes :=
  beBytes 4 (6 * 2 ^ 28 + h.flow.toNat) ++ (beBytes 2 h.payloadLength.toNat ++ (nextHeader :: h.hopLimit ::
    (beBytes 16 h.src.toNat ++ (beBytes 16 h.dst.toNat ++ payload))))

/-- A TCP or UDP header and what follows it, the options of TCP first. -/
inductive Segment
  | tcp (srcPort dstPort : UInt16) (sequence acknowledgment : UInt32) (dataOffset flags : UInt8)
      (window checksum urgent : UInt16) (payload : Bytes)
  | udp (srcPort dstPort length checksum : UInt16) (payload : Bytes)

namespace Segment

/-- The protocol number of a segment. -/
def protocol : Segment → UInt8
  | tcp .. => 6
  | udp .. => 17

/-- The source port of a segment. -/
def srcPort : Segment → UInt16
  | tcp port .. | udp port .. => port

/-- The destination port of a segment. -/
def dstPort : Segment → UInt16
  | tcp _ port .. | udp _ port .. => port

/-- The flags of a TCP segment. -/
def tcpFlags : Segment → Option UInt8
  | tcp _ _ _ _ _ flags .. => some flags
  | udp .. => none

/-- The bytes of a segment. -/
def encode : Segment → Bytes
  | tcp srcPort dstPort sequence acknowledgment dataOffset flags window checksum urgent payload =>
    beBytes 2 srcPort.toNat ++ (beBytes 2 dstPort.toNat ++ (beBytes 4 sequence.toNat ++
      (beBytes 4 acknowledgment.toNat ++ (dataOffset :: flags :: (beBytes 2 window.toNat ++
        (beBytes 2 checksum.toNat ++ (beBytes 2 urgent.toNat ++ payload)))))))
  | udp srcPort dstPort length checksum payload =>
    beBytes 2 srcPort.toNat ++ (beBytes 2 dstPort.toNat ++ (beBytes 2 length.toNat ++
      (beBytes 2 checksum.toNat ++ payload)))

end Segment

/-- An IPv4 or IPv6 header. -/
inductive IpHeader
  | v4 (h : Ipv4Header)
  | v6 (h : Ipv6Header)

namespace IpHeader

/-- The source address of a packet. -/
def src : IpHeader → IpAddr
  | v4 h => .v4 h.src
  | v6 h => .v6 h.src

/-- The destination address of a packet. -/
def dst : IpHeader → IpAddr
  | v4 h => .v4 h.dst
  | v6 h => .v6 h.dst

/-- The type of service of an IPv4 packet. -/
def tos : IpHeader → Option UInt8
  | v4 h => some h.tos
  | v6 _ => none

/-- The ethertype of a packet. -/
def ethertype : IpHeader → UInt16
  | v4 _ => 0x0800
  | v6 _ => 0x86dd

/-- The bytes of a packet. -/
def encode : IpHeader → UInt8 → Bytes → Bytes
  | v4 h => h.encode
  | v6 h => h.encode

/-- Whether a packet is no fragment of another. -/
def Unfragmented : IpHeader → Prop
  | v4 h => h.fragment &&& 0x3fff = 0
  | v6 _ => True

end IpHeader

/-- An unfragmented TCP or UDP packet in an Ethernet frame. -/
structure Packet where
  ethernet : Ethernet
  ip : IpHeader
  segment : Segment
  unfragmented : ip.Unfragmented

/-- The frame of a packet. -/
def Packet.encode (packet : Packet) : Bytes :=
  packet.ethernet.encode packet.ip.ethertype (packet.ip.encode packet.segment.protocol packet.segment.encode)

/-- A `sampled_header` record of a captured frame. -/
def encodeRawHeader (protocol frameLength stripped : UInt32) (header padding : Bytes) : Bytes :=
  beBytes 4 protocol.toNat ++ (beBytes 4 frameLength.toNat ++ (beBytes 4 stripped.toNat ++
    (beBytes 4 header.length ++ (header ++ padding))))

end Definitions

section Places

/-- A word that was written is found. -/
theorem wordAt_beBytes (n : UInt16) (rest : Bytes) : wordAt (beBytes 2 n.toNat ++ rest) 0 = n := by
  rw [wordAt, if_pos (by simp), ofNat_field16]

/-- A word behind what comes first. -/
theorem wordAt_append {front : Bytes} {offset : ℕ} (h : front.length ≤ offset) (rest : Bytes) :
    wordAt (front ++ rest) offset = wordAt rest (offset - front.length) := by
  have hdrop : (front ++ rest).drop offset = rest.drop (offset - front.length) := by
    rw [List.drop_append, List.drop_eq_nil_of_le h, List.nil_append]
  have hlength : offset + 2 ≤ (front ++ rest).length ↔ offset - front.length + 2 ≤ rest.length := by
    rw [List.length_append]
    omega
  simp only [wordAt, field, hdrop, hlength]

/-- A written IPv4 address has the cell of that address. -/
theorem inet4_beBytes (addr : BitVec 32) : inet4 (beBytes 4 addr.toNat) = some (encodeIp (.v4 addr)) := by
  rw [inet4, if_pos (beBytes_length ..), beNat_beBytes_of_lt addr.isLt, BitVec.ofNat_toNat, BitVec.setWidth_eq]

/-- A written IPv6 address has the cell of that address. -/
theorem inet6_beBytes (addr : BitVec 128) : inet6 (beBytes 16 addr.toNat) = some (encodeIp (.v6 addr)) := by
  rw [inet6, if_pos (beBytes_length ..), beNat_beBytes_of_lt addr.isLt, BitVec.ofNat_toNat, BitVec.setWidth_eq]

end Places

section Layers

/-- The ports of a segment stand at its start. -/
theorem Segment.ports_encode (segment : Segment) :
    wordAt segment.encode 0 = segment.srcPort ∧ wordAt segment.encode 2 = segment.dstPort := by
  have hports (srcPort dstPort : UInt16) (rest : Bytes) :
      wordAt (beBytes 2 srcPort.toNat ++ (beBytes 2 dstPort.toNat ++ rest)) 0 = srcPort ∧
        wordAt (beBytes 2 srcPort.toNat ++ (beBytes 2 dstPort.toNat ++ rest)) 2 = dstPort := by
    refine ⟨wordAt_beBytes .., ?_⟩
    rw [wordAt_append (by rw [beBytes_length]), beBytes_length]
    exact wordAt_beBytes ..
  cases segment with
  | tcp srcPort dstPort => exact hports srcPort dstPort _
  | udp srcPort dstPort => exact hports srcPort dstPort _

/-- A segment is parsed to its ports and flags. -/
theorem parseL4_segment (segment : Segment) (row : FlowRecord) :
    parseL4 ⟨segment.encode⟩ segment.protocol row =
      { row with
        srcPort := some segment.srcPort, dstPort := some segment.dstPort
        tcpFlags := segment.tcpFlags.or row.tcpFlags } := by
  obtain ⟨hsrc, hdst⟩ := segment.ports_encode
  rw [parseL4_eq, hsrc, hdst]
  cases segment with
  | tcp srcPort dstPort sequence acknowledgment dataOffset flags window checksum urgent payload =>
    have hplace : flagsAt (Segment.tcp srcPort dstPort sequence acknowledgment dataOffset flags window checksum urgent
        payload).encode = 13 := by
      apply if_neg
      simp only [Segment.encode, List.length_append, List.length_cons, beBytes_length]
      omega
    rw [hplace]
    rfl
  | udp srcPort dstPort length checksum payload => rfl

/-- An IPv4 header is as long as it says. -/
theorem Ipv4Header.headerLength_encode (h : Ipv4Header) (protocol : UInt8) (payload : Bytes) :
    headerLength (h.encode protocol payload) = 20 + h.options.length := by
  have hnibble : ∀ ihl : Fin 16, (UInt8.ofNat (0x40 + ihl.val) &&& 0x0f).toNat = ihl.val := by decide
  have hihl : (byteAt (h.encode protocol payload) 0 &&& 0x0f).toNat = h.ihl.val := hnibble h.ihl
  rw [headerLength, hihl, h.length_options]
  omega

/-- The length of an IPv4 packet. -/
theorem Ipv4Header.length_encode (h : Ipv4Header) (protocol : UInt8) (payload : Bytes) :
    (h.encode protocol payload).length = 20 + h.options.length + payload.length := by
  simp only [encode, List.length_append, List.length_cons, beBytes_length]
  omega

/-- The transport header of an IPv4 packet is looked for where it stands. -/
theorem Ipv4Header.drop_encode (h : Ipv4Header) (protocol : UInt8) (payload : Bytes) :
    (h.encode protocol payload).drop (ipv4TransportAt (h.encode protocol payload)) = payload := by
  have hlength := h.length_encode protocol payload
  have hheader := h.headerLength_encode protocol payload
  have hplace : ipv4TransportAt (h.encode protocol payload) = 20 + h.options.length := by
    rw [ipv4TransportAt, hheader]
    split_ifs <;> omega
  have hfixed : (h.encode protocol payload).drop 20 = h.options ++ payload := rfl
  rw [hplace, ← List.drop_drop, hfixed, List.drop_left]

/-- An IPv4 packet is parsed to the fields of its header, and what follows its options. -/
theorem parseIpv4_encode (h : Ipv4Header) (protocol : UInt8) (payload : Bytes) (row : FlowRecord) :
    parseIpv4 ⟨h.encode protocol payload⟩ row = parseL4 ⟨payload⟩ protocol
      { row with
        srcAddr := some (encodeIp (.v4 h.src)), dstAddr := some (encodeIp (.v4 h.dst))
        protocol := some protocol, tos := some h.tos } := by
  have hlength := h.length_encode protocol payload
  have hsrc : ((h.encode protocol payload).drop 12).take 4 = beBytes 4 h.src.toNat := take_beBytes ..
  have hdst : ((h.encode protocol payload).drop 16).take 4 = beBytes 4 h.dst.toNat := take_beBytes ..
  rw [parseIpv4_eq (by omega), h.drop_encode, hsrc, hdst, inet4_beBytes, inet4_beBytes]
  rfl

/-- An IPv6 packet is parsed to the fields of its header, and what follows it. -/
theorem parseIpv6_encode (h : Ipv6Header) (nextHeader : UInt8) (payload : Bytes) (row : FlowRecord) :
    parseIpv6 ⟨h.encode nextHeader payload⟩ row = parseL4 ⟨payload⟩ nextHeader
      { row with
        srcAddr := some (encodeIp (.v6 h.src)), dstAddr := some (encodeIp (.v6 h.dst))
        protocol := some nextHeader } := by
  have hlength : (h.encode nextHeader payload).length = 40 + payload.length := by
    simp only [Ipv6Header.encode, List.length_append, List.length_cons, beBytes_length]
    omega
  have hplace : nextHeaderAt (h.encode nextHeader payload) = 6 := if_neg (by omega)
  have htransport : ipv6TransportAt (h.encode nextHeader payload) = 40 := by
    rw [ipv6TransportAt, if_neg (by omega), if_neg (by omega)]
  have hsrc : ((h.encode nextHeader payload).drop 8).take 16 = beBytes 16 h.src.toNat := take_beBytes ..
  have hdst : ((h.encode nextHeader payload).drop 24).take 16 = beBytes 16 h.dst.toNat := take_beBytes ..
  rw [parseIpv6_eq (by omega), hplace, htransport, hsrc, hdst, inet6_beBytes, inet6_beBytes]
  rfl

/-- The two MAC addresses of a frame come first. -/
theorem Ethernet.encode_eq (e : Ethernet) (type : UInt16) (payload : Bytes) :
    ∃ macs : Bytes, macs.length = 12 ∧
      e.encode type payload = macs ++ (tagBytes e.tag ++ (beBytes 2 type.toNat ++ payload)) := by
  refine ⟨e.dst.toList ++ e.src.toList, ?_, ?_⟩
  · rw [List.length_append, Vector.length_toList, Vector.length_toList]
  · rw [encode, List.append_assoc]

/-- The ethertype of a frame is the one it was built with, also behind a tag, and so is what follows it. -/
theorem Ethernet.network_encode (e : Ethernet) {type : UInt16} (htype : type ≠ 0x8100) (payload : Bytes) :
    ethertype (e.encode type payload) = type ∧ network (e.encode type payload) = payload := by
  obtain ⟨macs, hmacs, hframe⟩ := e.encode_eq type payload
  have hword (offset : ℕ) : wordAt (e.encode type payload) (12 + offset) =
      wordAt (tagBytes e.tag ++ (beBytes 2 type.toNat ++ payload)) offset := by
    rw [hframe, wordAt_append (by omega), hmacs, Nat.add_sub_cancel_left]
  have hdrop (offset : ℕ) : (e.encode type payload).drop (12 + offset) =
      (tagBytes e.tag ++ (beBytes 2 type.toNat ++ payload)).drop offset := by
    rw [hframe, ← List.drop_drop, ← hmacs, List.drop_left]
  cases htag : e.tag with
  | none =>
    have hfirst : wordAt (e.encode type payload) 12 = type := by
      rw [hword 0, htag]
      exact wordAt_beBytes ..
    have hplace : ethertypeAt (e.encode type payload) = 12 := if_neg (by rwa [hfirst])
    rw [ethertype, network, hplace, hfirst, hdrop 2, htag]
    exact ⟨rfl, rfl⟩
  | some control =>
    have hfirst : wordAt (e.encode type payload) 12 = 0x8100 := by
      rw [hword 0, htag]
      exact wordAt_beBytes 0x8100 _
    have hplace : ethertypeAt (e.encode type payload) = 16 := if_pos hfirst
    have hinner : wordAt (e.encode type payload) 16 = type := by
      rw [hword 4, htag]
      exact wordAt_beBytes ..
    rw [ethertype, network, hplace, hinner, hdrop 6, htag]
    exact ⟨rfl, rfl⟩

/-- A frame of an IPv4 packet is parsed as that packet. -/
theorem parseL2_ipv4 (e : Ethernet) (payload : Bytes) (row : FlowRecord) :
    parseL2 (e.encode 0x0800 payload) row = parseIpv4 ⟨payload⟩ row := by
  obtain ⟨htype, hnetwork⟩ := e.network_encode (show (0x0800 : UInt16) ≠ 0x8100 by decide) payload
  rw [parseL2_eq, htype, hnetwork, if_pos rfl]

/-- A frame of an IPv6 packet is parsed as that packet. -/
theorem parseL2_ipv6 (e : Ethernet) (payload : Bytes) (row : FlowRecord) :
    parseL2 (e.encode 0x86dd payload) row = parseIpv6 ⟨payload⟩ row := by
  obtain ⟨htype, hnetwork⟩ := e.network_encode (show (0x86dd : UInt16) ≠ 0x8100 by decide) payload
  rw [parseL2_eq, htype, hnetwork, if_neg (by decide), if_pos rfl]

/-- A captured packet is parsed to its own addresses, protocol, ports, flags and type of service. -/
theorem parseL2_packet (packet : Packet) (row : FlowRecord) :
    parseL2 packet.encode row =
      { row with
        srcAddr := some (encodeIp packet.ip.src), dstAddr := some (encodeIp packet.ip.dst)
        srcPort := some packet.segment.srcPort, dstPort := some packet.segment.dstPort
        protocol := some packet.segment.protocol, tcpFlags := packet.segment.tcpFlags.or row.tcpFlags
        tos := packet.ip.tos.or row.tos } := by
  rw [Packet.encode]
  cases packet.ip with
  | v4 h =>
    rw [IpHeader.ethertype, IpHeader.encode, parseL2_ipv4, parseIpv4_encode, parseL4_segment]
    rfl
  | v6 h =>
    rw [IpHeader.ethertype, IpHeader.encode, parseL2_ipv6, parseIpv6_encode, parseL4_segment]
    rfl

end Layers

section Records

/-- The header of a record is taken out of it whole, and the frame it announces is scaled. -/
theorem parseRawHeader_encode {header : Bytes} (hsize : header.length < 2 ^ 32)
    (protocol frameLength stripped : UInt32) (padding : Bytes) (row : FlowRecord) (rate : UInt32) :
    parseRawHeader (encodeRawHeader protocol frameLength stripped header padding) row rate =
      parseL2 header (scaleCounts row frameLength.toUInt64 rate) := by
  have hlength := attempt_u32_beBytes (.ofNat header.length) (header ++ padding)
  rw [UInt32.toNat_ofNat_of_lt' hsize] at hlength
  simp only [parseRawHeader, encodeRawHeader, Cursor.new, attempt_u32_beBytes, hlength, Option.getD_some,
    UInt32.toNat_ofNat_of_lt' hsize, attempt_take_append]

/-- The product of two 32-bit numbers is not cut. -/
theorem scaleCounts_bytes (row : FlowRecord) (frameLength rate : UInt32) :
    (scaleCounts row frameLength.toUInt64 rate).bytes.map UInt64.toNat =
      some (frameLength.toNat * rate.toNat) := by
  have hproduct : frameLength.toNat * rate.toNat ≤ (2 ^ 32 - 1) * (2 ^ 32 - 1) :=
    Nat.mul_le_mul (Nat.le_pred_of_lt frameLength.toNat_lt) (Nat.le_pred_of_lt rate.toNat_lt)
  have hfits : frameLength.toNat * rate.toNat < 2 ^ 64 := by omega
  have hmin : min (frameLength.toNat * rate.toNat) (2 ^ 64 - 1) = frameLength.toNat * rate.toNat := by omega
  simp only [scaleCounts, FlowRecord.putRaw, Option.map_some, UInt32.toNat_toUInt64, hmin,
    UInt64.toNat_ofNat_of_lt' hfits]

/-- A packet that was captured whole is told by its own addresses, protocol, ports, flags and type of service,
and counted as the frame it was, at the sampling rate. -/
theorem packet_recovered (packet : Packet) (hsize : packet.encode.length < 2 ^ 32)
    (protocol frameLength stripped rate : UInt32) (padding : Bytes) (row : FlowRecord) :
    let parsed := parseRawHeader (encodeRawHeader protocol frameLength stripped packet.encode padding) row rate
    parsed.srcAddr = some (encodeIp packet.ip.src) ∧ parsed.dstAddr = some (encodeIp packet.ip.dst) ∧
      parsed.protocol = some packet.segment.protocol ∧
      parsed.srcPort = some packet.segment.srcPort ∧ parsed.dstPort = some packet.segment.dstPort ∧
      parsed.tcpFlags = packet.segment.tcpFlags.or row.tcpFlags ∧ parsed.tos = packet.ip.tos.or row.tos ∧
      parsed.bytes.map UInt64.toNat = some (frameLength.toNat * rate.toNat) ∧
      parsed.packets.map UInt64.toNat = some rate.toNat := by
  intro parsed
  have hparsed : parsed = parseL2 packet.encode (scaleCounts row frameLength.toUInt64 rate) :=
    parseRawHeader_encode hsize ..
  rw [hparsed, parseL2_packet]
  refine ⟨rfl, rfl, rfl, rfl, rfl, rfl, rfl, scaleCounts_bytes row frameLength rate, ?_⟩
  exact congrArg some (UInt32.toNat_toUInt64 rate)

/-- A tagged TCP packet with options in both headers, sampled one in a thousand. -/
theorem packet_recovered_tagged :
    let packet : Packet := {
      ethernet := ⟨⟨#[1, 2, 3, 4, 5, 6], rfl⟩, ⟨#[7, 8, 9, 10, 11, 12], rfl⟩, some 5⟩
      ip := .v4 ⟨6, 0x10, 48, 1, 0x4000, 64, 0, 0x0a000001, 0x0a000002, [1, 1, 1, 0], rfl⟩
      segment := .tcp 49152 443 7 0 0x60 0x18 512 0 0 [2, 4, 5, 0xb4]
      unfragmented := show (0x4000 : UInt16) &&& 0x3fff = 0 by decide }
    packet.encode.length < 2 ^ 32 ∧
      (parseRawHeader (encodeRawHeader 1 1500 4 packet.encode []) {} 1000).srcPort = some 49152 :=
  ⟨by decide, (packet_recovered _ (by decide) 1 1500 4 1000 [] {}).2.2.2.1⟩

end Records

section Fragments

/-- A later fragment has its payload read as a transport header. -/
theorem samePorts_fragment_iff (e : Ethernet) (h : LaterFragment) (protocol : UInt8) (row : FlowRecord)
    (payload payload' : Bytes) :
    SamePorts (parseL2 (e.encode 0x0800 (h.encode protocol payload)) row)
        (parseL2 (e.encode 0x0800 (h.encode protocol payload')) row) ↔
      SameTransport protocol payload payload' := by
  rw [parseL2_ipv4, parseL2_ipv4, parseIpv4_encode, parseIpv4_encode]
  exact samePorts_parseL4_iff protocol payload payload' ⟨rfl, rfl, rfl⟩

/-- Of two later fragments with one header, the ports and flags are the same just if the payloads agree where a
TCP or UDP header would have them. The header alone decides it just if its protocol is neither of the two. -/
theorem fragment_payload_hidden_iff (e : Ethernet) (h : LaterFragment) (protocol : UInt8) (row : FlowRecord) :
    (∀ payload payload' : Bytes,
      SamePorts (parseL2 (e.encode 0x0800 (h.encode protocol payload)) row)
          (parseL2 (e.encode 0x0800 (h.encode protocol payload')) row) ↔
        SameTransport protocol payload payload') ∧
    ((∀ payload payload' : Bytes,
      SamePorts (parseL2 (e.encode 0x0800 (h.encode protocol payload)) row)
        (parseL2 (e.encode 0x0800 (h.encode protocol payload')) row)) ↔
      protocol ≠ 6 ∧ protocol ≠ 17) := by
  refine ⟨samePorts_fragment_iff e h protocol row, ?_⟩
  simp only [samePorts_fragment_iff]
  constructor
  · intro hsame
    have hports := (hsame [] [0, 1]).1
    have hdiffer : ¬(wordAt [] 0 = wordAt [0, 1] 0 ∧ wordAt [] 2 = wordAt [0, 1] 2) := by decide
    exact not_or.mp fun hprotocol => hdiffer (hports hprotocol)
  · rintro ⟨htcp, hudp⟩ payload payload'
    exact ⟨fun hprotocol => absurd hprotocol (not_or.mpr ⟨htcp, hudp⟩), fun h => absurd h htcp⟩

/-- Two fragments of one datagram that differ in the first bytes of their payload are told as two flows. -/
theorem fragment_payload_leaks :
    ¬∀ (e : Ethernet) (h : LaterFragment) (protocol : UInt8) (payload payload' : Bytes) (row : FlowRecord),
      SamePorts (parseL2 (e.encode 0x0800 (h.encode protocol payload)) row)
        (parseL2 (e.encode 0x0800 (h.encode protocol payload')) row) := by
  intro hall
  have hsame := hall ⟨⟨#[1, 2, 3, 4, 5, 6], rfl⟩, ⟨#[7, 8, 9, 10, 11, 12], rfl⟩, none⟩
    ⟨⟨5, 0, 28, 1, 0x00b9, 64, 0, 0x0a000001, 0x0a000002, [], rfl⟩, by decide⟩ 17
    [0x12, 0x34, 0x56, 0x78, 0, 0, 0, 0] [0x9a, 0xbc, 0xde, 0xf0, 0, 0, 0, 0] {}
  exact absurd hsame.srcPort (by decide)

end Fragments

end Netflow.Sflow
