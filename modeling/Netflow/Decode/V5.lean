import Netflow.Decode.Header

/-!
# NetFlow v5

A fixed 24-byte header and 48-byte records; the decoder is stateless.
-/

namespace Netflow.V5

/-- The wire length of one flow record. -/
def recordLen : ℕ := 48

/-- Decode one flow record. Reads never fail inside a full 48-byte slice. -/
def decodeRecord (b : Bytes) (exporter : String) (obsDomain : UInt32) (hdr : ExportHeader)
    (bootMicros : Option Int64) : FlowRecord :=
  let c := Cursor.new b
  let (src, c) := c.attempt (·.take 4)
  let (dst, c) := c.attempt (·.take 4)
  let (nexthop, c) := c.attempt (·.take 4)
  let (input, c) := c.attempt (·.u16)
  let (output, c) := c.attempt (·.u16)
  let (dpkts, c) := c.attempt (·.u32)
  let (doctets, c) := c.attempt (·.u32)
  let (first, c) := c.attempt (·.u32)
  let (last, c) := c.attempt (·.u32)
  let (srcport, c) := c.attempt (·.u16)
  let (dstport, c) := c.attempt (·.u16)
  let (_pad1, c) := c.attempt (·.u8)
  let (tcpFlags, c) := c.attempt (·.u8)
  let (prot, c) := c.attempt (·.u8)
  let (tos, c) := c.attempt (·.u8)
  let (srcAs, c) := c.attempt (·.u16)
  let (dstAs, c) := c.attempt (·.u16)
  let (srcMask, c) := c.attempt (·.u8)
  let (dstMask, _) := c.attempt (·.u8)
  { exporter, flowVersion := Version.v5.asStr, obsDomain, templateId := none
    exportTime := hdr.exportTime, sequence := hdr.sequence
    srcAddr := inet4 (src.getD []), dstAddr := inet4 (dst.getD [])
    srcPort := some (srcport.getD 0), dstPort := some (dstport.getD 0)
    protocol := some (prot.getD 0), tcpFlags := some (tcpFlags.getD 0)
    bytes := some (doctets.getD 0).toUInt64, packets := some (dpkts.getD 0).toUInt64
    flowStart := bootMicros.map fun boot => boot + asI64 (first.getD 0) * 1000
    flowEnd := bootMicros.map fun boot => boot + asI64 (last.getD 0) * 1000
    srcAs := some (srcAs.getD 0).toUInt32, dstAs := some (dstAs.getD 0).toUInt32
    inputSnmp := some (input.getD 0).toUInt32, outputSnmp := some (output.getD 0).toUInt32
    nextHop := inet4 (nexthop.getD []), tos := some (tos.getD 0)
    srcMask := some (srcMask.getD 0), dstMask := some (dstMask.getD 0) }

/-- The record loop over the declared count; a cut record ends it with a `truncated` row. -/
def decodeRecords (exporter : String) (obsDomain : UInt32) (hdr : ExportHeader)
    (bootMicros : Option Int64) : ℕ → Cursor → List FlowRecord
  | 0, _ => []
  | count + 1, cur =>
    match cur.take recordLen with
    | none => [.diagnostic exporter Version.v5.asStr obsDomain hdr.exportTime hdr.sequence "truncated"]
    | some (slice, cur) =>
      decodeRecord slice exporter obsDomain hdr bootMicros ::
        decodeRecords exporter obsDomain hdr bootMicros count cur

/-- Decode a NetFlow v5 datagram. -/
def decode (data : Bytes) (exporter : String) : List FlowRecord :=
  match parseHeader data with
  | none => [.diagnostic exporter Version.v5.asStr 0 none none "decode-error:bad-v5-header"]
  | some hdr =>
    let count := (hdr.count.getD 0).toNat
    let obsDomain := hdr.obsDomain.getD 0
    let bootMicros := match hdr.exportTime, hdr.sysUptime with
      | some e, some u => some (e - asI64 u * 1000)
      | _, _ => none
    let (_, cur) := (Cursor.new data).skip 24
    decodeRecords exporter obsDomain hdr bootMicros count cur

/-- A whole record is decoded from its own bytes, every column from its own offset. -/
theorem decodeRecord_of_length {b : Bytes} (h : b.length = recordLen) (exporter : String)
    (obsDomain : UInt32) (hdr : ExportHeader) (bootMicros : Option Int64) :
    decodeRecord b exporter obsDomain hdr bootMicros = {
      exporter, flowVersion := Version.v5.asStr, obsDomain, templateId := none
      exportTime := hdr.exportTime, sequence := hdr.sequence
      srcAddr := inet4 ((b.drop 0).take 4), dstAddr := inet4 ((b.drop 4).take 4)
      srcPort := some (.ofNat (field b 32 2)), dstPort := some (.ofNat (field b 34 2))
      protocol := some (.ofNat (field b 38 1)), tcpFlags := some (.ofNat (field b 37 1))
      bytes := some (UInt32.ofNat (field b 20 4)).toUInt64
      packets := some (UInt32.ofNat (field b 16 4)).toUInt64
      flowStart := bootMicros.map fun boot => boot + asI64 (.ofNat (field b 24 4)) * 1000
      flowEnd := bootMicros.map fun boot => boot + asI64 (.ofNat (field b 28 4)) * 1000
      srcAs := some (UInt16.ofNat (field b 40 2)).toUInt32
      dstAs := some (UInt16.ofNat (field b 42 2)).toUInt32
      inputSnmp := some (UInt16.ofNat (field b 12 2)).toUInt32
      outputSnmp := some (UInt16.ofNat (field b 14 2)).toUInt32
      nextHop := inet4 ((b.drop 8).take 4), tos := some (.ofNat (field b 39 1))
      srcMask := some (.ofNat (field b 44 1)), dstMask := some (.ofNat (field b 45 1)) } := by
  rw [recordLen] at h
  have hnew : Cursor.new b = ⟨b.drop 0⟩ := rfl
  rw [decodeRecord]
  simp (disch := omega) only [hnew, attempt_take_drop, attempt_u16_drop, attempt_u32_drop, attempt_u8_drop,
    Option.getD_some]

/-- No row of a v5 datagram shows a template id. -/
theorem templateId_of_mem_decode {data : Bytes} {exporter : String} {row : FlowRecord}
    (h : row ∈ decode data exporter) : row.templateId = none := by
  have hrecords : ∀ {obsDomain hdr bootMicros count cur},
      row ∈ decodeRecords exporter obsDomain hdr bootMicros count cur → row.templateId = none := by
    intro obsDomain hdr bootMicros count
    induction count with
    | zero => exact fun h => absurd h List.not_mem_nil
    | succ count ih =>
      intro cur h
      rw [decodeRecords] at h
      split at h
      · rw [List.mem_singleton.mp h]
        rfl
      · rename_i slice cur' htake
        obtain ⟨hle, hslice, -⟩ := Cursor.take_eq_some htake
        have hlength : slice.length = recordLen := by
          rw [hslice]
          exact List.length_take_of_le hle
        rcases List.mem_cons.mp h with hfirst | hrest
        · rw [hfirst, decodeRecord_of_length hlength]
        · exact ih hrest
  unfold decode at h
  split at h
  · rw [List.mem_singleton.mp h]
    rfl
  · exact hrecords h

end Netflow.V5
