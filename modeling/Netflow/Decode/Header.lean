import Netflow.Normalize

/-!
# Export headers

The leading-bytes version probe and the four export headers, normalized into one record
whose fields are `none` where a format does not carry them.
-/

namespace Netflow

/-- A decoded export header. -/
structure ExportHeader where
  version : UInt16
  count : Option UInt16
  sysUptime : Option UInt32
  /-- Microseconds since the Unix epoch. -/
  exportTime : Option Int64
  sequence : Option UInt64
  obsDomain : Option UInt32
  deriving DecidableEq, Repr

/-- Widen an unsigned 32-bit number to a signed 64-bit one. -/
def asI64 (n : UInt32) : Int64 := n.toUInt64.toInt64

/-- Tell the format of a datagram from its leading bytes.

The NetFlow formats and IPFIX start with a 16-bit version. sFlow starts with a 32-bit
version `5`, and its agent address type must be one of the two known ones. -/
def probeVersion (data : Bytes) : Option Version := do
  let (v16, c) ← (Cursor.new data).u16
  if v16 = 5 then some .v5
  else if v16 = 9 then some .v9
  else if v16 = 10 then some .v10
  else if v16 = 0 then do
    let (lo, _) ← c.u16
    if lo = 5 then
      let (_, t) := (Cursor.new data).skip 4
      match t.u32 with
      | some (addrType, _) => if addrType = 1 ∨ addrType = 2 then some .sflow5 else none
      | none => none
    else none
  else none

/-- Parse the 24-byte NetFlow v5 header up to its engine id. -/
def parseV5 (data : Bytes) : Option ExportHeader := do
  let (version, c) ← (Cursor.new data).u16
  let (count, c) ← c.u16
  let (sysUptime, c) ← c.u32
  let (unixSecs, c) ← c.u32
  let (unixNsecs, c) ← c.u32
  let (sequence, c) ← c.u32
  let (_engineType, c) ← c.u8
  let (engineId, _) ← c.u8
  some {
    version, count := some count, sysUptime := some sysUptime
    exportTime := some (asI64 unixSecs * 1000000 + asI64 unixNsecs / 1000)
    sequence := some sequence.toUInt64, obsDomain := some engineId.toUInt32 }

/-- Parse the 20-byte NetFlow v9 header. -/
def parseV9 (data : Bytes) : Option ExportHeader := do
  let (version, c) ← (Cursor.new data).u16
  let (count, c) ← c.u16
  let (sysUptime, c) ← c.u32
  let (unixSecs, c) ← c.u32
  let (sequence, c) ← c.u32
  let (sourceId, _) ← c.u32
  some {
    version, count := some count, sysUptime := some sysUptime
    exportTime := some (asI64 unixSecs * 1000000)
    sequence := some sequence.toUInt64, obsDomain := some sourceId }

/-- Parse the 16-byte IPFIX header; its length field is read and dropped. -/
def parseIpfix (data : Bytes) : Option ExportHeader := do
  let (version, c) ← (Cursor.new data).u16
  let (_length, c) ← c.u16
  let (exportSecs, c) ← c.u32
  let (sequence, c) ← c.u32
  let (obsDomain, _) ← c.u32
  some {
    version, count := none, sysUptime := none
    exportTime := some (asI64 exportSecs * 1000000)
    sequence := some sequence.toUInt64, obsDomain := some obsDomain }

/-- Parse the sFlow header. The agent address is skipped without checking that it is there. -/
def parseSflow (data : Bytes) : Option ExportHeader := do
  let (_version, c) ← (Cursor.new data).u32
  let (addrType, c) ← c.u32
  let c ← if addrType = 1 then some (c.skip 4).2
    else if addrType = 2 then some (c.skip 16).2
    else none
  let (subAgentId, c) ← c.u32
  let (sequence, c) ← c.u32
  let (uptime, c) ← c.u32
  let (numSamples, _) ← c.u32
  some {
    version := 5, count := some (min numSamples 65535).toUInt16, sysUptime := some uptime
    exportTime := none, sequence := some sequence.toUInt64, obsDomain := some subAgentId }

/-- Parse the export header of whichever format the probe recognizes. -/
def parseHeader (data : Bytes) : Option ExportHeader := do
  match ← probeVersion data with
  | .v5 => parseV5 data
  | .v9 => parseV9 data
  | .v10 => parseIpfix data
  | .sflow5 => parseSflow data

/-- The big-endian number in the given bytes of a datagram. -/
def field (data : Bytes) (offset width : ℕ) : ℕ := beNat ((data.drop offset).take width)

/-- A field is below the power of 256 its width allows. -/
theorem field_lt (data : Bytes) (offset width : ℕ) : field data offset width < 256 ^ width := by
  apply (beNat_lt _).trans_le
  apply Nat.pow_le_pow_right (by omega)
  exact List.length_take_le _ _

section Fields

variable {data : Bytes} {offset : ℕ}

/-- An 8-bit read at an offset of a datagram. -/
theorem u8_drop (h : offset + 1 ≤ data.length) :
    (Cursor.mk (data.drop offset)).u8 =
      some (.ofNat (field data offset 1), ⟨data.drop (offset + 1)⟩) := by
  rw [Cursor.u8_of_le, List.drop_drop]
  · rfl
  · rw [Cursor.remaining, List.length_drop]
    omega

/-- A 16-bit read at an offset of a datagram. -/
theorem u16_drop (h : offset + 2 ≤ data.length) :
    (Cursor.mk (data.drop offset)).u16 =
      some (.ofNat (field data offset 2), ⟨data.drop (offset + 2)⟩) := by
  rw [Cursor.u16_of_le, List.drop_drop]
  · rfl
  · rw [Cursor.remaining, List.length_drop]
    omega

/-- A 32-bit read at an offset of a datagram. -/
theorem u32_drop (h : offset + 4 ≤ data.length) :
    (Cursor.mk (data.drop offset)).u32 =
      some (.ofNat (field data offset 4), ⟨data.drop (offset + 4)⟩) := by
  rw [Cursor.u32_of_le, List.drop_drop]
  · rfl
  · rw [Cursor.remaining, List.length_drop]
    omega

/-- An ignored failure does not arise where the byte is there. -/
theorem attempt_u8_drop (h : offset + 1 ≤ data.length) :
    (Cursor.mk (data.drop offset)).attempt (·.u8) =
      (some (.ofNat (field data offset 1)), ⟨data.drop (offset + 1)⟩) := by
  rw [Cursor.attempt, u8_drop h]

/-- Nor where the two bytes are there. -/
theorem attempt_u16_drop (h : offset + 2 ≤ data.length) :
    (Cursor.mk (data.drop offset)).attempt (·.u16) =
      (some (.ofNat (field data offset 2)), ⟨data.drop (offset + 2)⟩) := by
  rw [Cursor.attempt, u16_drop h]

/-- Nor where the four bytes are there. -/
theorem attempt_u32_drop (h : offset + 4 ≤ data.length) :
    (Cursor.mk (data.drop offset)).attempt (·.u32) =
      (some (.ofNat (field data offset 4)), ⟨data.drop (offset + 4)⟩) := by
  rw [Cursor.attempt, u32_drop h]

/-- A number over two neighbouring fields. -/
theorem field_add {width width' : ℕ} (h : offset + width + width' ≤ data.length) :
    field data offset (width + width') =
      field data offset width * 256 ^ width' + field data (offset + width) width' := by
  have hlength : ((data.drop (offset + width)).take width').length = width' := by
    rw [List.length_take, List.length_drop]
    omega
  have happend := beNat_append ((data.drop offset).take width) ((data.drop (offset + width)).take width')
  rw [hlength, ← List.drop_drop, ← List.take_add] at happend
  rw [field, happend, field, field, List.drop_drop]

/-- Nor where the bytes to take are there. -/
theorem attempt_take_drop {n : ℕ} (h : offset + n ≤ data.length) :
    (Cursor.mk (data.drop offset)).attempt (·.take n) =
      (some ((data.drop offset).take n), ⟨data.drop (offset + n)⟩) := by
  rw [Cursor.attempt, Cursor.take_of_le, List.drop_drop]
  rw [Cursor.remaining, List.length_drop]
  omega

/-- A v5 header that is all there parses, every field from its own bytes. -/
theorem parseV5_of_le (h : 24 ≤ data.length) :
    parseV5 data = some {
      version := .ofNat (field data 0 2), count := some (.ofNat (field data 2 2))
      sysUptime := some (.ofNat (field data 4 4))
      exportTime := some (asI64 (.ofNat (field data 8 4)) * 1000000 + asI64 (.ofNat (field data 12 4)) / 1000)
      sequence := some (UInt32.ofNat (field data 16 4)).toUInt64
      obsDomain := some (UInt8.ofNat (field data 21 1)).toUInt32 } := by
  apply Option.bind_eq_some_iff.mpr ⟨_, @u16_drop data 0 (by omega), ?_⟩
  apply Option.bind_eq_some_iff.mpr ⟨_, u16_drop (by omega), ?_⟩
  apply Option.bind_eq_some_iff.mpr ⟨_, u32_drop (by omega), ?_⟩
  apply Option.bind_eq_some_iff.mpr ⟨_, u32_drop (by omega), ?_⟩
  apply Option.bind_eq_some_iff.mpr ⟨_, u32_drop (by omega), ?_⟩
  apply Option.bind_eq_some_iff.mpr ⟨_, u32_drop (by omega), ?_⟩
  apply Option.bind_eq_some_iff.mpr ⟨_, u8_drop (by omega), ?_⟩
  exact Option.bind_eq_some_iff.mpr ⟨_, u8_drop (by omega), rfl⟩

/-- A v9 header that is all there parses, every field from its own bytes. -/
theorem parseV9_of_le (h : 20 ≤ data.length) :
    parseV9 data = some {
      version := .ofNat (field data 0 2), count := some (.ofNat (field data 2 2))
      sysUptime := some (.ofNat (field data 4 4))
      exportTime := some (asI64 (.ofNat (field data 8 4)) * 1000000)
      sequence := some (UInt32.ofNat (field data 12 4)).toUInt64
      obsDomain := some (.ofNat (field data 16 4)) } := by
  apply Option.bind_eq_some_iff.mpr ⟨_, @u16_drop data 0 (by omega), ?_⟩
  apply Option.bind_eq_some_iff.mpr ⟨_, u16_drop (by omega), ?_⟩
  apply Option.bind_eq_some_iff.mpr ⟨_, u32_drop (by omega), ?_⟩
  apply Option.bind_eq_some_iff.mpr ⟨_, u32_drop (by omega), ?_⟩
  apply Option.bind_eq_some_iff.mpr ⟨_, u32_drop (by omega), ?_⟩
  exact Option.bind_eq_some_iff.mpr ⟨_, u32_drop (by omega), rfl⟩

/-- An IPFIX header that is all there parses, every field from its own bytes. -/
theorem parseIpfix_of_le (h : 16 ≤ data.length) :
    parseIpfix data = some {
      version := .ofNat (field data 0 2), count := none, sysUptime := none
      exportTime := some (asI64 (.ofNat (field data 4 4)) * 1000000)
      sequence := some (UInt32.ofNat (field data 8 4)).toUInt64
      obsDomain := some (.ofNat (field data 12 4)) } := by
  apply Option.bind_eq_some_iff.mpr ⟨_, @u16_drop data 0 (by omega), ?_⟩
  apply Option.bind_eq_some_iff.mpr ⟨_, u16_drop (by omega), ?_⟩
  apply Option.bind_eq_some_iff.mpr ⟨_, u32_drop (by omega), ?_⟩
  apply Option.bind_eq_some_iff.mpr ⟨_, u32_drop (by omega), ?_⟩
  exact Option.bind_eq_some_iff.mpr ⟨_, u32_drop (by omega), rfl⟩

end Fields

end Netflow
