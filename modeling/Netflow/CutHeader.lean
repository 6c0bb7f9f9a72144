import Netflow.Decode.SflowRecord
import Netflow.Packet

/-!
# Cut headers

An agent captures no more than the first bytes of a frame. What a row tells of a cut frame should be what it
tells of the whole one, or nothing. That holds of the addresses, but not of all columns: a protocol that is cut
off is told as zero, and so are ports. And where a part of a header is cut off, what comes behind it is looked
for where that part should be.
-/

namespace Netflow.Sflow

section Definitions

/-- The columns that a sampled header fills. -/
def headerColumns : List Column := [.srcAddr, .dstAddr, .protocol, .srcPort, .dstPort, .tcpFlags, .tos]

/-- Whether a value is that of another cell, or lost. -/
def KeptOrLost {α : Type} (value value' : Option α) : Prop := value = none ∨ value = value'

/-- Whether what a row tells of a header is what another one tells, or nothing. -/
def OnlyLoses (row row' : FlowRecord) : Prop :=
  ∀ col ∈ headerColumns, KeptOrLost (shown row col) (shown row' col)

/-- The protocol of an IPv4 packet, and what is taken for its transport header. -/
def ipv4Transport (packet : Bytes) : UInt8 × Bytes := (byteAt packet 9, packet.drop (ipv4TransportAt packet))

/-- The protocol of an IPv6 packet, and what is taken for its transport header. -/
def ipv6Transport (packet : Bytes) : UInt8 × Bytes :=
  (byteAt packet (nextHeaderAt packet), packet.drop (ipv6TransportAt packet))

/-- Whether two packets have one protocol, and the same where its ports and flags are looked for. -/
def SameReading (transport transport' : UInt8 × Bytes) : Prop :=
  transport.1 = transport'.1 ∧ SameTransport transport.1 transport.2 transport'.2

/-- Whether a cut leaves too little of the packet to be read at all, or what is read behind the addresses is the
same in the cut frame as in the whole one. -/
structure CutHarmless (frame cut : Bytes) : Prop where
  ipv4 : ethertype cut = 0x0800 → 2 ≤ (network cut).length →
    SameReading (ipv4Transport (network cut)) (ipv4Transport (network frame))
  ipv6 : ethertype cut = 0x86dd → 4 ≤ (network cut).length →
    SameReading (ipv6Transport (network cut)) (ipv6Transport (network frame))

/-- A SYN segment. -/
def synPacket : Packet where
  ethernet := ⟨⟨#[1, 2, 3, 4, 5, 6], rfl⟩, ⟨#[7, 8, 9, 10, 11, 12], rfl⟩, none⟩
  ip := .v4 ⟨5, 0, 40, 1, 0x4000, 64, 0, 0x0a000001, 0x0a000002, [], rfl⟩
  segment := .tcp 49152 443 0x12345678 0 0x50 0x02 512 0 0 []
  unfragmented := show (0x4000 : UInt16) &&& 0x3fff = 0 by decide

end Definitions

section Cells

variable {α : Type}

/-- A cell that shows a value keeps it. -/
theorem keptOrLost_some {value value' : α} : KeptOrLost (some value) (some value') ↔ value = value' := by
  simp [KeptOrLost]

/-- Cells that show a value under one condition keep it under that condition. -/
theorem keptOrLost_ite {c : Prop} [Decidable c] {value value' : α} :
    KeptOrLost (if c then some value else none) (if c then some value' else none) ↔ (c → value = value') := by
  by_cases h : c
  · rw [if_pos h, if_pos h, keptOrLost_some, forall_prop_of_true h]
  · rw [if_neg h, if_neg h, forall_prop_of_false h]
    exact iff_true_intro (.inl rfl)

/-- The columns of a header, one by one. -/
theorem onlyLoses_iff {row row' : FlowRecord} :
    OnlyLoses row row' ↔ KeptOrLost row.srcAddr row'.srcAddr ∧ KeptOrLost row.dstAddr row'.dstAddr ∧
      KeptOrLost row.protocol row'.protocol ∧ KeptOrLost row.srcPort row'.srcPort ∧
      KeptOrLost row.dstPort row'.dstPort ∧ KeptOrLost row.tcpFlags row'.tcpFlags ∧
      KeptOrLost row.tos row'.tos := by
  simp only [OnlyLoses, headerColumns, List.forall_mem_cons, List.not_mem_nil, false_imp_iff, implies_true, and_true]
  rfl

/-- A row with all columns NULL. -/
theorem shown_empty (col : Column) : shown {} col = none := by
  cases col <;> rfl

/-- An empty row tells nothing. -/
theorem onlyLoses_of_blank {row : FlowRecord} (hblank : ∀ col, shown row col = none) (row' : FlowRecord) :
    OnlyLoses row row' := fun col _ => .inl (hblank col)

end Cells

section Places

variable {cut frame : Bytes} {offset : ℕ}

/-- A byte that is there is not changed by what was cut off. -/
theorem byteAt_cut (hcut : cut <+: frame) (h : offset < cut.length) : byteAt cut offset = byteAt frame offset := by
  obtain ⟨rest, rfl⟩ := hcut
  rw [byteAt, byteAt, List.getD_eq_getElem?_getD, List.getD_eq_getElem?_getD, List.getElem?_append_left h]

/-- Bytes that are all there are not changed by what was cut off. -/
theorem take_cut {n : ℕ} (hcut : cut <+: frame) (h : offset + n ≤ cut.length) :
    (cut.drop offset).take n = (frame.drop offset).take n := by
  obtain ⟨rest, rfl⟩ := hcut
  rw [List.drop_append_of_le_length (by omega), List.take_append_of_le_length (by rw [List.length_drop]; omega)]

/-- A word that is all there is not changed by what was cut off. -/
theorem wordAt_cut (hcut : cut <+: frame) (h : offset + 2 ≤ cut.length) :
    wordAt cut offset = wordAt frame offset := by
  rw [wordAt, wordAt, if_pos h, if_pos (h.trans hcut.length_le), field, field, take_cut hcut h]

/-- An ethertype that is told is that of the whole frame, and what follows it a cut of what follows it there. -/
theorem network_cut (hcut : cut <+: frame) (h : ethertype cut ≠ 0) :
    ethertype frame = ethertype cut ∧ network cut <+: network frame := by
  have hthere := le_length_of_wordAt h
  have htwelve : 12 ≤ ethertypeAt cut := by
    unfold ethertypeAt
    split <;> omega
  have hplace : ethertypeAt frame = ethertypeAt cut := by
    rw [ethertypeAt, ethertypeAt, wordAt_cut hcut (show 12 + 2 ≤ cut.length by omega)]
  obtain ⟨rest, rfl⟩ := hcut
  refine ⟨?_, rest, ?_⟩
  · rw [ethertype, ethertype, hplace]
    exact (wordAt_cut (List.prefix_append cut rest) hthere).symm
  · rw [network, network, hplace, List.drop_append_of_le_length hthere]

/-- An address is told whole or not at all. -/
theorem keptOrLost_inet {inet : Bytes → Option InetVal} {n : ℕ} (hinet : OfLength inet n) (hcut : cut <+: frame)
    (offset : ℕ) : KeptOrLost (inet ((cut.drop offset).take n)) (inet ((frame.drop offset).take n)) := by
  by_cases h : offset + n ≤ cut.length
  · exact .inr (congrArg inet (take_cut hcut h))
  · exact .inl (hinet.of_lt (by omega))

end Places

section Cuts

variable {row : FlowRecord}

/-- Where the addresses and the type of service are kept or lost, what is read behind them decides. -/
theorem onlyLoses_parseL4_iff (hblank : ∀ col, shown row col = none) {src src' dst dst' : Option InetVal}
    {tos tos' : Option UInt8} (hsrc : KeptOrLost src src') (hdst : KeptOrLost dst dst') (htos : KeptOrLost tos tos')
    (transport transport' : UInt8 × Bytes) :
    OnlyLoses
        (parseL4 ⟨transport.2⟩ transport.1
          { row with srcAddr := src, dstAddr := dst, protocol := some transport.1, tos := tos })
        (parseL4 ⟨transport'.2⟩ transport'.1
          { row with srcAddr := src', dstAddr := dst', protocol := some transport'.1, tos := tos' }) ↔
      SameReading transport transport' := by
  obtain ⟨proto, segment⟩ := transport
  obtain ⟨proto', segment'⟩ := transport'
  have hsrcPort : row.srcPort = none := hblank .srcPort
  have hdstPort : row.dstPort = none := hblank .dstPort
  have htcpFlags : row.tcpFlags = none := hblank .tcpFlags
  rw [onlyLoses_iff, parseL4_eq, parseL4_eq]
  simp only [hsrcPort, hdstPort, htcpFlags, keptOrLost_some, SameReading]
  constructor
  · rintro ⟨-, -, rfl, hports, hports', hflags, -⟩
    rw [keptOrLost_ite] at hports hports' hflags
    exact ⟨rfl, fun h => ⟨hports h, hports' h⟩, hflags⟩
  · rintro ⟨rfl, hports, hflags⟩
    refine ⟨hsrc, hdst, rfl, ?_, ?_, ?_, htos⟩
    · exact keptOrLost_ite.mpr fun h => (hports h).1
    · exact keptOrLost_ite.mpr fun h => (hports h).2
    · exact keptOrLost_ite.mpr hflags

/-- A cut IPv4 packet tells what the whole one tells, or nothing, just if the rest is read alike. -/
theorem onlyLoses_parseIpv4_iff (hblank : ∀ col, shown row col = none) {packet cut : Bytes} (hcut : cut <+: packet)
    (h : 2 ≤ cut.length) :
    OnlyLoses (parseIpv4 ⟨cut⟩ row) (parseIpv4 ⟨packet⟩ row) ↔
      SameReading (ipv4Transport cut) (ipv4Transport packet) := by
  have htos : byteAt cut 1 = byteAt packet 1 := byteAt_cut hcut (by omega)
  rw [parseIpv4_eq h, parseIpv4_eq (h.trans hcut.length_le)]
  exact onlyLoses_parseL4_iff hblank (keptOrLost_inet inet4_ofLength hcut 12)
    (keptOrLost_inet inet4_ofLength hcut 16) (keptOrLost_some.mpr htos) (ipv4Transport cut) (ipv4Transport packet)

/-- A cut IPv6 packet tells what the whole one tells, or nothing, just if the rest is read alike. -/
theorem onlyLoses_parseIpv6_iff (hblank : ∀ col, shown row col = none) {packet cut : Bytes} (hcut : cut <+: packet)
    (h : 4 ≤ cut.length) :
    OnlyLoses (parseIpv6 ⟨cut⟩ row) (parseIpv6 ⟨packet⟩ row) ↔
      SameReading (ipv6Transport cut) (ipv6Transport packet) := by
  rw [parseIpv6_eq h, parseIpv6_eq (h.trans hcut.length_le)]
  exact onlyLoses_parseL4_iff hblank (keptOrLost_inet inet6_ofLength hcut 8)
    (keptOrLost_inet inet6_ofLength hcut 24) (.inr rfl) (ipv6Transport cut) (ipv6Transport packet)

/-- Transport headers that are there up to the flags are read alike. -/
theorem sameTransport_of_prefix {segment segment' : Bytes} (hcut : segment <+: segment') (h : 14 ≤ segment.length)
    (protocol : UInt8) : SameTransport protocol segment segment' := by
  have hlonger := hcut.length_le
  have hplace : flagsAt segment = 13 := if_neg (by omega)
  have hplace' : flagsAt segment' = 13 := if_neg (by omega)
  refine ⟨fun _ => ⟨wordAt_cut hcut (by omega), wordAt_cut hcut (by omega)⟩, fun _ => ?_⟩
  rw [hplace, hplace']
  exact byteAt_cut hcut (by omega)

/-- A cut that leaves the transport header up to its flags is harmless. -/
theorem cutHarmless_of_le {frame cut : Bytes} (hcut : cut <+: frame)
    (hv4 : ethertype cut = 0x0800 → headerLength (network cut) + 14 ≤ (network cut).length)
    (hv6 : ethertype cut = 0x86dd → 54 ≤ (network cut).length) : CutHarmless frame cut := by
  constructor
  · intro htype _
    obtain ⟨-, hnetwork⟩ := network_cut hcut (by rw [htype]; decide)
    have hlonger := hnetwork.length_le
    have hthere := hv4 htype
    have hheader : headerLength (network frame) = headerLength (network cut) := by
      rw [headerLength, headerLength, byteAt_cut hnetwork (show 0 < (network cut).length by omega)]
    have hleast : 20 ≤ headerLength (network cut) := le_max_left ..
    have hplace : ipv4TransportAt (network cut) = headerLength (network cut) := by
      unfold ipv4TransportAt
      split_ifs <;> omega
    have hplace' : ipv4TransportAt (network frame) = headerLength (network cut) := by
      rw [ipv4TransportAt, hheader]
      split_ifs <;> omega
    refine ⟨byteAt_cut hnetwork (by omega), ?_⟩
    apply sameTransport_of_prefix
    · rw [ipv4Transport, ipv4Transport, hplace, hplace']
      exact hnetwork.drop _
    · rw [ipv4Transport, hplace, List.length_drop]
      omega
  · intro htype _
    obtain ⟨-, hnetwork⟩ := network_cut hcut (by rw [htype]; decide)
    have hlonger := hnetwork.length_le
    have hthere := hv6 htype
    have hnext : nextHeaderAt (network cut) = 6 := if_neg (by omega)
    have hnext' : nextHeaderAt (network frame) = 6 := if_neg (by omega)
    have hplace : ipv6TransportAt (network cut) = 40 := by
      rw [ipv6TransportAt, if_neg (by omega), if_neg (by omega)]
    have hplace' : ipv6TransportAt (network frame) = 40 := by
      rw [ipv6TransportAt, if_neg (by omega), if_neg (by omega)]
    rw [ipv6Transport, ipv6Transport, hnext, hnext', hplace, hplace']
    refine ⟨byteAt_cut hnetwork (by omega), sameTransport_of_prefix (hnetwork.drop 40) ?_ _⟩
    rw [List.length_drop]
    omega

/-- A cut frame tells what the whole one tells, or nothing, just if the cut is harmless. -/
theorem cut_only_loses_iff {frame cut : Bytes} (hcut : cut <+: frame) (hblank : ∀ col, shown row col = none) :
    OnlyLoses (parseL2 cut row) (parseL2 frame row) ↔ CutHarmless frame cut := by
  rw [parseL2_eq cut]
  by_cases hv4 : ethertype cut = 0x0800
  · obtain ⟨hframe, hnetwork⟩ := network_cut hcut (by rw [hv4]; decide)
    have hv6 : ethertype cut ≠ 0x86dd := by
      rw [hv4]
      decide
    rw [parseL2_eq frame, hframe, if_pos hv4, if_pos hv4]
    by_cases hlength : 2 ≤ (network cut).length
    · rw [onlyLoses_parseIpv4_iff hblank hnetwork hlength]
      exact ⟨fun hsame => ⟨fun _ _ => hsame, fun h => absurd h hv6⟩, fun h => h.ipv4 hv4 hlength⟩
    · rw [parseIpv4_of_lt (by omega)]
      exact iff_of_true (onlyLoses_of_blank hblank _)
        ⟨fun _ h => absurd h hlength, fun h => absurd h hv6⟩
  · by_cases hv6 : ethertype cut = 0x86dd
    · obtain ⟨hframe, hnetwork⟩ := network_cut hcut (by rw [hv6]; decide)
      rw [parseL2_eq frame, hframe, if_neg hv4, if_pos hv6, if_neg hv4, if_pos hv6]
      by_cases hlength : 4 ≤ (network cut).length
      · rw [onlyLoses_parseIpv6_iff hblank hnetwork hlength]
        exact ⟨fun hsame => ⟨fun h => absurd h hv4, fun _ _ => hsame⟩, fun h => h.ipv6 hv6 hlength⟩
      · rw [parseIpv6_of_lt (by omega)]
        exact iff_of_true (onlyLoses_of_blank hblank _)
          ⟨fun h => absurd h hv4, fun _ h => absurd h hlength⟩
    · rw [if_neg hv4, if_neg hv6]
      exact iff_of_true (onlyLoses_of_blank hblank _) ⟨fun h => absurd h hv4, fun h => absurd h hv6⟩

/-- A SYN segment that is cut behind its flags. -/
theorem cut_only_loses_syn : OnlyLoses (parseL2 (synPacket.encode.take 48) {}) (parseL2 synPacket.encode {}) := by
  have hcut : synPacket.encode.take 48 <+: synPacket.encode := List.take_prefix ..
  exact (cut_only_loses_iff hcut shown_empty).mpr
    (cutHarmless_of_le hcut (fun _ => by decide) fun h => absurd h (by decide))

/-- A SYN segment that is cut behind its sequence number is told with a byte of that number as its flags. -/
theorem cut_fabricates_flags :
    ¬∀ (frame cut : Bytes) (row : FlowRecord), cut <+: frame → (∀ col, shown row col = none) →
      OnlyLoses (parseL2 cut row) (parseL2 frame row) := by
  intro hall
  have honly := onlyLoses_iff.mp
    (hall synPacket.encode (synPacket.encode.take 42) {} (List.take_prefix ..) shown_empty)
  have hsequence : (parseL2 (synPacket.encode.take 42) {}).tcpFlags = some 0x34 := by decide
  have hsyn : (parseL2 synPacket.encode {}).tcpFlags = some 0x02 := by decide
  have hflags := honly.2.2.2.2.2.1
  rw [hsequence, hsyn, keptOrLost_some] at hflags
  exact absurd hflags (by decide)

end Cuts

end Netflow.Sflow
