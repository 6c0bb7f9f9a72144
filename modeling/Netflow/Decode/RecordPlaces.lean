import Netflow.Decode.SampledHeader

/-!
# Where a flow record is read

A flow record of one of three formats writes columns of the row of its sample, each from bytes at one place of its
body. Reads that fail leave the cursor where it was, so also a body that is cut short writes columns: words that are
not there are zero, and addresses are null.
-/

namespace Netflow.Sflow

section Definitions

/-- The 32-bit word at an offset, or zero if it is not all there. -/
def longAt (data : Bytes) (offset : ℕ) : UInt32 :=
  if offset + 4 ≤ data.length then .ofNat (field data offset 4) else 0

/-- What a flow record writes to the columns of a row. An address that is written may be null. The counts follow
from the frame length. -/
structure Written where
  srcAddr : Option (Option InetVal) := none
  dstAddr : Option (Option InetVal) := none
  srcPort : Option UInt16 := none
  dstPort : Option UInt16 := none
  protocol : Option UInt8 := none
  tcpFlags : Option UInt8 := none
  tos : Option UInt8 := none
  frameLength : Option UInt32 := none

/-- The ports and flags in a TCP or UDP header are written as well. -/
def Written.withSegment (w : Written) (protocol : UInt8) (segment : Bytes) : Written :=
  { w with
    srcPort := if protocol = 6 ∨ protocol = 17 then some (wordAt segment 0) else w.srcPort
    dstPort := if protocol = 6 ∨ protocol = 17 then some (wordAt segment 2) else w.dstPort
    tcpFlags := if protocol = 6 then some (byteAt segment (flagsAt segment)) else w.tcpFlags }

/-- An IPv4 packet, if two bytes of it are there. -/
def Written.ofPacket4 (packet : Bytes) : Written :=
  if 2 ≤ packet.length then
    Written.withSegment
      { srcAddr := some (inet4 ((packet.drop 12).take 4)), dstAddr := some (inet4 ((packet.drop 16).take 4))
        protocol := some (byteAt packet 9), tos := some (byteAt packet 1) }
      (byteAt packet 9) (packet.drop (ipv4TransportAt packet))
  else {}

/-- An IPv6 packet, if four bytes of it are there. -/
def Written.ofPacket6 (packet : Bytes) : Written :=
  if 4 ≤ packet.length then
    Written.withSegment
      { srcAddr := some (inet6 ((packet.drop 8).take 16)), dstAddr := some (inet6 ((packet.drop 24).take 16))
        protocol := some (byteAt packet (nextHeaderAt packet)) }
      (byteAt packet (nextHeaderAt packet)) (packet.drop (ipv6TransportAt packet))
  else {}

/-- An Ethernet frame. -/
def Written.ofFrame (frame : Bytes) : Written :=
  if ethertype frame = 0x0800 then ofPacket4 (network frame)
  else if ethertype frame = 0x86dd then ofPacket6 (network frame)
  else {}

/-- A sampled header (format 1): the frame behind four words, if it is as long as the fourth says. -/
def Written.ofHeader (body : Bytes) : Written :=
  let size := (longAt body 12).toNat
  { ofFrame (if 16 + size ≤ body.length then (body.drop 16).take size else []) with
    frameLength := some (longAt body 4) }

/-- A parsed IPv4 packet (format 3). -/
def Written.ofIpv4 (body : Bytes) : Written where
  srcAddr := some (inet4 ((body.drop 8).take 4))
  dstAddr := some (inet4 ((body.drop 12).take 4))
  srcPort := some (longAt body 16).toUInt16
  dstPort := some (longAt body 20).toUInt16
  protocol := some (longAt body 4).toUInt8
  tcpFlags := some (longAt body 24).toUInt8
  tos := some (longAt body 28).toUInt8
  frameLength := some (longAt body 0)

/-- A parsed IPv6 packet (format 4): the ports stand behind the last address that is all there. -/
def Written.ofIpv6 (body : Bytes) : Written where
  srcAddr := some (inet6 ((body.drop 8).take 16))
  dstAddr := some (inet6 ((body.drop 24).take 16))
  srcPort := some (longAt body (ipv6TransportAt body)).toUInt16
  dstPort := some (longAt body (ipv6TransportAt body + 4)).toUInt16
  protocol := some (longAt body 4).toUInt8
  tcpFlags := some (longAt body (ipv6TransportAt body + 8)).toUInt8
  frameLength := some (longAt body 0)

/-- What a flow record writes, by its format. -/
def written (r : UInt32 × Bytes) : Written :=
  let format := r.1 &&& 0x0fff
  if format = 1 then .ofHeader r.2
  else if format = 3 then .ofIpv4 r.2
  else if format = 4 then .ofIpv6 r.2
  else {}

/-- Whether a row shows what is written, and elsewhere what another row shows. -/
structure Written.Overwrites (w : Written) (rate : UInt32) (row row' : FlowRecord) : Prop where
  srcAddr : row'.srcAddr = w.srcAddr.getD row.srcAddr
  dstAddr : row'.dstAddr = w.dstAddr.getD row.dstAddr
  srcPort : row'.srcPort = w.srcPort.or row.srcPort
  dstPort : row'.dstPort = w.dstPort.or row.dstPort
  protocol : row'.protocol = w.protocol.or row.protocol
  tcpFlags : row'.tcpFlags = w.tcpFlags.or row.tcpFlags
  tos : row'.tos = w.tos.or row.tos
  bytes : row'.bytes = (w.frameLength.map fun n => n.toUInt64 * rate.toUInt64).or row.bytes
  packets : row'.packets = (w.frameLength.map fun _ => rate.toUInt64).or row.packets

end Definitions

section Words

variable {data : Bytes} {pos pos' : ℕ}

/-- Whether so many bytes are read where they are looked for, or are not all there in both places. -/
def SamePlace (n length pos pos' : ℕ) : Prop := pos = pos' ∨ length < pos + n ∧ length < pos' + n

/-- The next word. -/
theorem SamePlace.next {length : ℕ} (h : SamePlace 4 length pos pos') :
    SamePlace 4 length (after length pos 4) (pos' + 4) := by
  unfold SamePlace after at *
  split <;> omega

end Words

section Records

variable {rate : UInt32} {row : FlowRecord}

/-- A frame length is scaled without an overflow. -/
theorem ofNat_scaled (n rate : UInt32) :
    UInt64.ofNat (min (n.toUInt64.toNat * rate.toNat) (2 ^ 64 - 1)) = n.toUInt64 * rate.toUInt64 := by
  have hle : n.toNat * rate.toNat ≤ (2 ^ 32 - 1) * (2 ^ 32 - 1) :=
    Nat.mul_le_mul (Nat.le_sub_one_of_lt n.toNat_lt) (Nat.le_sub_one_of_lt rate.toNat_lt)
  rw [UInt32.toNat_toUInt64, min_eq_left (by omega), UInt64.ofNat_mul]
  simp

/-- Where the scale is not zero, the length can be told from what it is scaled to. -/
theorem scaled_inj {n n' : UInt32} (hrate : rate ≠ 0) (h : n.toUInt64 * rate.toUInt64 = n'.toUInt64 * rate.toUInt64) :
    n = n' := by
  have hnat := congrArg UInt64.toNat h
  have hle : ∀ m : UInt32, m.toNat * rate.toNat < 2 ^ 64 := by
    intro m
    have := Nat.mul_le_mul (Nat.le_sub_one_of_lt m.toNat_lt) (Nat.le_sub_one_of_lt rate.toNat_lt)
    omega
  simp only [UInt64.toNat_mul, UInt32.toNat_toUInt64, Nat.mod_eq_of_lt (hle _)] at hnat
  have hpos : 0 < rate.toNat := Nat.pos_of_ne_zero fun hzero => hrate (UInt32.toNat_inj.mp hzero)
  exact UInt32.toNat_inj.mp (Nat.eq_of_mul_eq_mul_right hpos hnat)

variable {row' : FlowRecord} {w : Written}

/-- What a transport header writes. -/
theorem Written.Overwrites.parseL4 (h : w.Overwrites rate row row') (protocol : UInt8) (segment : Bytes) :
    (w.withSegment protocol segment).Overwrites rate row (parseL4 ⟨segment⟩ protocol row') := by
  rw [parseL4_eq]
  refine ⟨h.srcAddr, h.dstAddr, ?_, ?_, h.protocol, ?_, h.tos, h.bytes, h.packets⟩
  · simp only [withSegment, h.srcPort]
    split <;> rfl
  · simp only [withSegment, h.dstPort]
    split <;> rfl
  · simp only [withSegment, h.tcpFlags]
    split <;> rfl

/-- Counts that are scaled last are written as well. -/
theorem Written.Overwrites.scaleCounts (h : w.Overwrites rate row row') (n : UInt32) :
    { w with frameLength := some n : Written }.Overwrites rate row (scaleCounts row' n.toUInt64 rate) :=
  ⟨h.srcAddr, h.dstAddr, h.srcPort, h.dstPort, h.protocol, h.tcpFlags, h.tos, congrArg some (ofNat_scaled n rate), rfl⟩

end Records

end Netflow.Sflow
