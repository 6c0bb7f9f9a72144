import Netflow.Decode.Columns
import Netflow.Decode.Sflow

/-!
# What a flow record leaves

A record of a flow sample touches the columns of the sampled packet and the raw fields, and
nothing else of the row.
-/

namespace Netflow.Sflow

section Definitions

/-- The value of a column of a row. -/
abbrev shown (row : FlowRecord) (col : Column) : Option col.Value := ({ row } : PartialRecord).get col

/-- A row with the packet columns and the raw fields of another. -/
def withPacket (row packet : FlowRecord) : FlowRecord :=
  { row with
    srcAddr := packet.srcAddr, dstAddr := packet.dstAddr, srcPort := packet.srcPort, dstPort := packet.dstPort
    protocol := packet.protocol, tcpFlags := packet.tcpFlags, tos := packet.tos
    bytes := packet.bytes, packets := packet.packets, rawFields := packet.rawFields }

/-- A change of rows that only touches packet columns and raw fields. -/
def FillsPacket (f : FlowRecord → FlowRecord) : Prop := ∀ row, f row = withPacket row (f row)

end Definitions

section Changes

variable {f g : FlowRecord → FlowRecord}

/-- A row may be left as it is. -/
theorem fillsPacket_id : FillsPacket fun row => row := fun _ => rfl

/-- One change after the other. -/
theorem FillsPacket.comp (hg : FillsPacket g) (hf : FillsPacket f) : FillsPacket fun row => g (f row) := by
  intro row
  have hfirst := hf row
  have hsecond := hg (f row)
  dsimp only
  generalize g (f row) = last at hsecond ⊢
  rw [hsecond, hfirst]
  rfl

/-- What an IPv4 header sets. -/
theorem fillsPacket_ipv4 (srcAddr dstAddr : Option InetVal) (protocol tos : Option UInt8) :
    FillsPacket fun row => { row with srcAddr, dstAddr, protocol, tos } := fun _ => rfl

/-- What an IPv6 header sets. -/
theorem fillsPacket_ipv6 (srcAddr dstAddr : Option InetVal) (protocol : Option UInt8) :
    FillsPacket fun row => { row with srcAddr, dstAddr, protocol } := fun _ => rfl

/-- What a parsed IPv4 packet sets. -/
theorem fillsPacket_sampledIpv4 (srcAddr dstAddr : Option InetVal) (protocol : Option UInt8)
    (srcPort dstPort : Option UInt16) (tcpFlags tos : Option UInt8) :
    FillsPacket fun row => { row with srcAddr, dstAddr, protocol, srcPort, dstPort, tcpFlags, tos } := fun _ => rfl

/-- What a parsed IPv6 packet sets. -/
theorem fillsPacket_sampledIpv6 (srcAddr dstAddr : Option InetVal) (protocol : Option UInt8)
    (srcPort dstPort : Option UInt16) (tcpFlags : Option UInt8) :
    FillsPacket fun row => { row with srcAddr, dstAddr, protocol, srcPort, dstPort, tcpFlags } := fun _ => rfl

/-- The scaled counts of a packet. -/
theorem fillsPacket_scaleCounts (frameLength : UInt64) (rate : UInt32) :
    FillsPacket fun row => scaleCounts row frameLength rate := fun _ => rfl

end Changes

section Records

/-- A transport header fills in a packet. -/
theorem parseL4_fills (c : Cursor) (proto : UInt8) : FillsPacket (parseL4 c proto) := by
  intro row
  unfold parseL4
  dsimp only
  split
  · rfl
  · split <;> rfl

/-- A sampled IPv4 header fills in a packet. -/
theorem parseIpv4_fills (c : Cursor) : FillsPacket (parseIpv4 c) := by
  unfold parseIpv4
  cases c.u8 with
  | none => exact fillsPacket_id
  | some vihl =>
    dsimp only
    cases vihl.2.u8 with
    | none => exact fillsPacket_id
    | some tos => exact FillsPacket.comp (g := parseL4 _ _) (parseL4_fills _ _) (fillsPacket_ipv4 _ _ _ _)

/-- A sampled IPv6 header fills in a packet. -/
theorem parseIpv6_fills (c : Cursor) : FillsPacket (parseIpv6 c) := by
  unfold parseIpv6
  cases c.u32 with
  | none => exact fillsPacket_id
  | some vtc => exact FillsPacket.comp (g := parseL4 _ _) (parseL4_fills _ _) (fillsPacket_ipv6 _ _ _)

/-- A sampled frame fills in a packet. -/
theorem parseL2_fills (h : Bytes) : FillsPacket (parseL2 h) := by
  unfold parseL2
  simp only
  repeat' split
  all_goals first
    | exact parseIpv4_fills _
    | exact parseIpv6_fills _
    | exact fillsPacket_id

/-- A sampled header fills in a packet. -/
theorem parseRawHeader_fills (b : Bytes) (rate : UInt32) : FillsPacket fun row => parseRawHeader b row rate := by
  unfold parseRawHeader
  dsimp only
  exact FillsPacket.comp (g := parseL2 _) (parseL2_fills _) (fillsPacket_scaleCounts _ rate)

/-- A parsed IPv4 packet fills in a packet. -/
theorem parseSampledIpv4_fills (b : Bytes) (rate : UInt32) : FillsPacket fun row => parseSampledIpv4 b row rate := by
  unfold parseSampledIpv4
  dsimp only
  exact FillsPacket.comp (g := fun row => scaleCounts row _ rate) (fillsPacket_scaleCounts _ rate)
    (fillsPacket_sampledIpv4 _ _ _ _ _ _ _)

/-- A parsed IPv6 packet fills in a packet. -/
theorem parseSampledIpv6_fills (b : Bytes) (rate : UInt32) : FillsPacket fun row => parseSampledIpv6 b row rate := by
  unfold parseSampledIpv6
  dsimp only
  exact FillsPacket.comp (g := fun row => scaleCounts row _ rate) (fillsPacket_scaleCounts _ rate)
    (fillsPacket_sampledIpv6 _ _ _ _ _ _)

/-- A flow record of any format fills in a packet. -/
theorem parseFlowRecord_fills (recType : UInt32) (body : Bytes) (rate : UInt32) :
    FillsPacket fun row => parseFlowRecord recType body row rate := by
  unfold parseFlowRecord
  dsimp only
  split
  · exact parseRawHeader_fills body rate
  · split
    · exact parseSampledIpv4_fills body rate
    · split
      · exact parseSampledIpv6_fills body rate
      · exact fillsPacket_id

/-- Flow records of any formats fill in a packet. -/
theorem foldl_parseFlowRecord_fills (records : List (UInt32 × Bytes)) (rate : UInt32) :
    FillsPacket fun row => records.foldl (fun row r => parseFlowRecord r.1 r.2 row rate) row := by
  induction records with
  | nil => exact fillsPacket_id
  | cons r records ih => exact ih.comp (parseFlowRecord_fills r.1 r.2 rate)

end Records

section Samples

/-- What no record changes, all of them leave. -/
theorem foldRecords_keeps {A : Type} (held : FlowRecord → A) {f : UInt32 → Bytes → FlowRecord → FlowRecord}
    (h : ∀ recType body row, held (f recType body row) = held row) (count : ℕ) (c : Cursor) (row : FlowRecord) :
    held (foldRecords f count c row) = held row := by
  induction count generalizing c row with
  | zero => rfl
  | succ count ih =>
    rw [foldRecords]
    split
    · rfl
    · split
      · rfl
      · split
        · rfl
        · exact (ih _ _).trans (h _ _ _)

/-- The row of a flow sample shows no template id and has no note. -/
theorem of_mem_decodeFlowSample {body : Bytes} {exporter : String} {obsDomain : UInt32} {sequence : UInt64}
    {expanded : Bool} {row : FlowRecord} (h : row ∈ decodeFlowSample body exporter obsDomain sequence expanded) :
    row.templateId = none ∧ row.diagnostics = none := by
  unfold decodeFlowSample at h
  simp only [List.mem_singleton] at h
  have hkept := fun rate count c row => foldRecords_keeps (fun row => (row.templateId, row.diagnostics))
    (fun recType body row => congrArg (fun row => (row.templateId, row.diagnostics))
      (parseFlowRecord_fills recType body rate row)) count c row
  rw [← Prod.mk_inj, h]
  exact hkept _ _ _ _

/-- The row of a counter sample shows no template id and has one note. -/
theorem decodeCounterSample_keeps (body : Bytes) (exporter : String) (obsDomain : UInt32) (sequence : UInt64)
    (expanded : Bool) :
    (decodeCounterSample body exporter obsDomain sequence expanded).templateId = none ∧
      (decodeCounterSample body exporter obsDomain sequence expanded).diagnostics = some "counter-sample" := by
  have hkept := fun count c row => foldRecords_keeps (fun row => (row.templateId, row.diagnostics))
    (f := fun recType rbody row => row.putRaw s!"sflow.counter_format_{recType &&& 0x0fff}" rbody)
    (fun _ _ _ => rfl) count c row
  rw [← Prod.mk_inj]
  exact hkept _ _ _

end Samples

end Netflow.Sflow
