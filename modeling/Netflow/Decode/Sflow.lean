import Netflow.Decode.Header

/-!
# sFlow v5

Self-describing packet-sampling datagrams. Flow samples carry sampled headers or parsed
addresses, counter samples carry interface counters. A read that runs past a sample body
leaves the cursor where it was and the source substitutes a default, so `Cursor.attempt`
is used wherever decoding carries on.
-/

namespace Netflow

/-- Dotted text of four bytes. -/
def ipv4Text (b : Bytes) : Option String :=
  if b.length = 4 then some (".".intercalate (b.map fun byte => toString byte.toNat)) else none

/-- The eight 16-bit groups of an IPv6 address. -/
def ipv6Segments : Bytes → List ℕ
  | hi :: lo :: rest => (hi.toNat * 256 + lo.toNat) :: ipv6Segments rest
  | _ => []

/-- Start and length of the first longest run of zero groups. -/
def longestZeroRun (segments : List ℕ) : ℕ × ℕ :=
  let step (state : (ℕ × ℕ) × (ℕ × ℕ)) (indexed : ℕ × ℕ) : (ℕ × ℕ) × (ℕ × ℕ) :=
    let (longest, current) := state
    let (segment, i) := indexed
    if segment = 0 then
      let current := (if current.2 = 0 then i else current.1, current.2 + 1)
      (if current.2 > longest.2 then current else longest, current)
    else (longest, (0, 0))
  (segments.zipIdx.foldl step ((0, 0), (0, 0))).1

/-- Groups in lower-case hexadecimal, joined by colons. -/
def groupsText (segments : List ℕ) : String :=
  ":".intercalate (segments.map fun segment => String.ofList (Nat.toDigits 16 segment))

/-- Canonical text of sixteen bytes: mapped IPv4 is dotted, the longest zero run is elided. -/
def ipv6Text (b : Bytes) : Option String :=
  if b.length ≠ 16 then none
  else
    let segments := ipv6Segments b
    if segments.take 6 = [0, 0, 0, 0, 0, 0xffff] then
      (ipv4Text (b.drop 12)).map ("::ffff:" ++ ·)
    else
      let (start, len) := longestZeroRun segments
      if len > 1 then
        some (groupsText (segments.take start) ++ "::" ++ groupsText (segments.drop (start + len)))
      else some (groupsText segments)

namespace Sflow

/-- Scale a sampled frame length by the sampling rate, keeping both unscaled values raw. -/
def scaleCounts (row : FlowRecord) (frameLength : UInt64) (rate : UInt32) : FlowRecord :=
  let scaled := min (frameLength.toNat * rate.toNat) (2 ^ 64 - 1)
  let row := { row with bytes := some (.ofNat scaled), packets := some rate.toUInt64 }
  let row := row.putRaw "sflow.frame_length" (beBytes 4 frameLength.toUInt32.toNat)
  row.putRaw "sflow.sampling_rate" (beBytes 4 rate.toNat)
where
  /-- The `n` big-endian bytes of a number. -/
  beBytes (n value : ℕ) : Bytes :=
    (List.range n).reverse.map fun i => UInt8.ofNat (value >>> (8 * i))

/-- Parse the ports (and TCP flags) of a TCP or UDP header. -/
def parseL4 (c : Cursor) (proto : UInt8) (row : FlowRecord) : FlowRecord :=
  if proto = 6 then
    let (sp, c) := c.attempt (·.u16)
    let (dp, c) := c.attempt (·.u16)
    let (_, c) := c.skip 8
    let (_dataOff, c) := c.attempt (·.u8)
    let (flags, _) := c.attempt (·.u8)
    { row with srcPort := some (sp.getD 0), dstPort := some (dp.getD 0), tcpFlags := some (flags.getD 0) }
  else if proto = 17 then
    let (sp, c) := c.attempt (·.u16)
    let (dp, _) := c.attempt (·.u16)
    { row with srcPort := some (sp.getD 0), dstPort := some (dp.getD 0) }
  else row

/-- Parse a sampled IPv4 header and what follows its options. -/
def parseIpv4 (c : Cursor) (row : FlowRecord) : FlowRecord :=
  match c.u8 with
  | none => row
  | some (vihl, c) =>
    let ihl := (vihl &&& 0x0f).toNat * 4
    match c.u8 with
    | none => row
    | some (tos, c) =>
      let (_, c) := c.skip 2
      let (_, c) := c.skip 2
      let (_, c) := c.skip 2
      let (_, c) := c.skip 1
      let (proto, c) := c.attempt (·.u8)
      let proto := proto.getD 0
      let (_, c) := c.skip 2
      let (src, c) := c.attempt (·.take 4)
      let (dst, c) := c.attempt (·.take 4)
      let row := { row with
        srcAddr := inet4 (src.getD []), dstAddr := inet4 (dst.getD [])
        protocol := some proto, tos := some tos }
      let c := if ihl > 20 then (c.skip (ihl - 20)).2 else c
      parseL4 c proto row

/-- Parse a sampled IPv6 header and the transport header right after it. -/
def parseIpv6 (c : Cursor) (row : FlowRecord) : FlowRecord :=
  match c.u32 with
  | none => row
  | some (_vtc, c) =>
    let (_, c) := c.skip 2
    let (nextHeader, c) := c.attempt (·.u8)
    let nextHeader := nextHeader.getD 0
    let (_, c) := c.skip 1
    let (src, c) := c.attempt (·.take 16)
    let (dst, c) := c.attempt (·.take 16)
    let row := { row with
      srcAddr := inet6 (src.getD []), dstAddr := inet6 (dst.getD []), protocol := some nextHeader }
    parseL4 c nextHeader row

/-- Parse a sampled Ethernet II frame with at most one 802.1Q tag. -/
def parseL2 (h : Bytes) (row : FlowRecord) : FlowRecord :=
  let (enough, c) := (Cursor.new h).skip 12
  if enough then
    let (ethertype, c) := c.attempt (·.u16)
    let ethertype := ethertype.getD 0
    let (ethertype, c) :=
      if ethertype = 0x8100 then
        let (_, c) := c.skip 2
        let (inner, c) := c.attempt (·.u16)
        (inner.getD 0, c)
      else (ethertype, c)
    if ethertype = 0x0800 then parseIpv4 c row
    else if ethertype = 0x86dd then parseIpv6 c row
    else row
  else row

/-- Parse a `sampled_header` record (format 1). -/
def parseRawHeader (b : Bytes) (row : FlowRecord) (rate : UInt32) : FlowRecord :=
  let (_protocol, c) := (Cursor.new b).attempt (·.u32)
  let (frameLength, c) := c.attempt (·.u32)
  let (_stripped, c) := c.attempt (·.u32)
  let (headerSize, c) := c.attempt (·.u32)
  let (header, _) := c.attempt (·.take (headerSize.getD 0).toNat)
  parseL2 (header.getD []) (scaleCounts row (frameLength.getD 0).toUInt64 rate)

/-- Parse a `sampled_ipv4` record (format 3). -/
def parseSampledIpv4 (b : Bytes) (row : FlowRecord) (rate : UInt32) : FlowRecord :=
  let (length, c) := (Cursor.new b).attempt (·.u32)
  let (protocol, c) := c.attempt (·.u32)
  let (src, c) := c.attempt (·.take 4)
  let (dst, c) := c.attempt (·.take 4)
  let (srcPort, c) := c.attempt (·.u32)
  let (dstPort, c) := c.attempt (·.u32)
  let (tcpFlags, c) := c.attempt (·.u32)
  let (tos, _) := c.attempt (·.u32)
  scaleCounts { row with
    srcAddr := inet4 (src.getD []), dstAddr := inet4 (dst.getD [])
    protocol := some (protocol.getD 0).toUInt8
    srcPort := some (srcPort.getD 0).toUInt16, dstPort := some (dstPort.getD 0).toUInt16
    tcpFlags := some (tcpFlags.getD 0).toUInt8, tos := some (tos.getD 0).toUInt8 }
    (length.getD 0).toUInt64 rate

/-- Parse a `sampled_ipv6` record (format 4). -/
def parseSampledIpv6 (b : Bytes) (row : FlowRecord) (rate : UInt32) : FlowRecord :=
  let (length, c) := (Cursor.new b).attempt (·.u32)
  let (protocol, c) := c.attempt (·.u32)
  let (src, c) := c.attempt (·.take 16)
  let (dst, c) := c.attempt (·.take 16)
  let (srcPort, c) := c.attempt (·.u32)
  let (dstPort, c) := c.attempt (·.u32)
  let (tcpFlags, c) := c.attempt (·.u32)
  let (_priority, _) := c.attempt (·.u32)
  scaleCounts { row with
    srcAddr := inet6 (src.getD []), dstAddr := inet6 (dst.getD [])
    protocol := some (protocol.getD 0).toUInt8
    srcPort := some (srcPort.getD 0).toUInt16, dstPort := some (dstPort.getD 0).toUInt16
    tcpFlags := some (tcpFlags.getD 0).toUInt8 }
    (length.getD 0).toUInt64 rate

/-- Dispatch one flow record on the low 12 bits of its type word. -/
def parseFlowRecord (recType : UInt32) (body : Bytes) (row : FlowRecord) (rate : UInt32) : FlowRecord :=
  let format := recType &&& 0x0fff
  if format = 1 then parseRawHeader body row rate
  else if format = 3 then parseSampledIpv4 body row rate
  else if format = 4 then parseSampledIpv6 body row rate
  else row

/-- The record loop of a flow or counter sample: a record that is not all there ends it. -/
def foldRecords (f : UInt32 → Bytes → FlowRecord → FlowRecord) :
    ℕ → Cursor → FlowRecord → FlowRecord
  | 0, _, row => row
  | count + 1, c, row =>
    match c.u32 with
    | none => row
    | some (recType, c) =>
      match c.u32 with
      | none => row
      | some (recLen, c) =>
        match c.take recLen.toNat with
        | none => row
        | some (rbody, c) => foldRecords f count c (f recType rbody row)

/-- Decode a compact or expanded flow sample into its one row. -/
def decodeFlowSample (body : Bytes) (exporter : String) (obsDomain : UInt32) (sequence : UInt64)
    (expanded : Bool) : List FlowRecord :=
  let (_seq, c) := (Cursor.new body).attempt (·.u32)
  let (_, c) := c.attempt (·.u32)
  let (_, c) := if expanded then c.attempt (·.u32) else (none, c)
  let (rate, c) := c.attempt (·.u32)
  let samplingRate := max (rate.getD 1) 1
  let (_samplePool, c) := c.attempt (·.u32)
  let (_drops, c) := c.attempt (·.u32)
  let (_, c) := if expanded then c.attempt (·.u32) else (none, c)
  let (input, c) := c.attempt (·.u32)
  let (_, c) := if expanded then c.attempt (·.u32) else (none, c)
  let (output, c) := c.attempt (·.u32)
  let (numRecords, c) := c.attempt (·.u32)
  let base : FlowRecord := {
    exporter, flowVersion := Version.sflow5.asStr, obsDomain, sequence := some sequence
    samplingRate := some samplingRate, inputSnmp := input, outputSnmp := output }
  [foldRecords (fun recType rbody row => parseFlowRecord recType rbody row samplingRate)
    (min (numRecords.getD 0).toNat 4096) c base]

/-- Decode a counter sample: its records are kept raw under their format number. -/
def decodeCounterSample (body : Bytes) (exporter : String) (obsDomain : UInt32) (sequence : UInt64)
    (expanded : Bool) : FlowRecord :=
  let (_seq, c) := (Cursor.new body).attempt (·.u32)
  let (_, c) := c.attempt (·.u32)
  let (_, c) := if expanded then c.attempt (·.u32) else (none, c)
  let (numRecords, c) := c.attempt (·.u32)
  let row : FlowRecord := {
    exporter, flowVersion := Version.sflow5.asStr, obsDomain, sequence := some sequence }
  foldRecords
    (fun recType rbody row => row.putRaw s!"sflow.counter_format_{recType &&& 0x0fff}" rbody)
    (min (numRecords.getD 0).toNat 4096) c (row.note "counter-sample")

/-- What every sample of a datagram inherits from its header. -/
structure Header where
  agent : Option String
  subAgentId : UInt32
  sequence : UInt32
  numSamples : UInt32
  deriving DecidableEq, Repr

/-- Read the datagram header, or fail where the decoder answers `bad-sflow-header`. -/
def readHeader (data : Bytes) : Option (Header × Cursor) := do
  let (version, c) ← (Cursor.new data).u32
  if version ≠ 5 then none
  else do
    let (addrType, c) ← c.u32
    let (agent, c) ← if addrType = 1 then
        let (agent, c) := c.attempt (·.take 4)
        some (agent.bind ipv4Text, c)
      else if addrType = 2 then
        let (agent, c) := c.attempt (·.take 16)
        some (agent.bind ipv6Text, c)
      else none
    let (subAgentId, c) ← c.u32
    let (sequence, c) ← c.u32
    let (_uptime, c) ← c.u32
    let (numSamples, c) ← c.u32
    some (⟨agent, subAgentId, sequence, numSamples⟩, c)

/-- The rows of one whole sample, dispatched on the low 12 bits of its type word. -/
def decodeSample (sampleType : UInt32) (body : Bytes) (exporterId : String) (subAgentId : UInt32)
    (sequence : UInt64) (modeFlowsOnly : Bool) : List FlowRecord :=
  let format := sampleType &&& 0x0fff
  if format = 1 ∨ format = 3 then
    decodeFlowSample body exporterId subAgentId sequence (format = 3)
  else if (format = 2 ∨ format = 4) ∧ ¬ modeFlowsOnly then
    [decodeCounterSample body exporterId subAgentId sequence (format = 4)]
  else []

/-- The sample loop; a sample body that is not all there ends it with a `truncated` row. -/
def decodeSamples (exporterId : String) (subAgentId : UInt32) (sequence : UInt64)
    (modeFlowsOnly : Bool) : ℕ → Cursor → List FlowRecord
  | 0, _ => []
  | count + 1, c =>
    match c.u32 with
    | none => []
    | some (sampleType, c) =>
      match c.u32 with
      | none => []
      | some (sampleLen, c) =>
        match c.take sampleLen.toNat with
        | none => [.diagnostic exporterId Version.sflow5.asStr subAgentId none (some sequence) "truncated"]
        | some (body, c) =>
          decodeSample sampleType body exporterId subAgentId sequence modeFlowsOnly ++
            decodeSamples exporterId subAgentId sequence modeFlowsOnly count c

/-- The exporter label of the rows: the given one, or the agent address when it is empty. -/
def exporterId (exporter : String) (hdr : Header) : String :=
  if exporter.isEmpty then hdr.agent.getD "" else exporter

/-- Decode an sFlow v5 datagram. Flows-only mode drops the counter samples. -/
def decode (data : Bytes) (exporter : String) (modeFlowsOnly : Bool) : List FlowRecord :=
  match readHeader data with
  | none => [.diagnostic exporter Version.sflow5.asStr 0 none none "decode-error:bad-sflow-header"]
  | some (hdr, c) =>
    decodeSamples (exporterId exporter hdr) hdr.subAgentId hdr.sequence.toUInt64 modeFlowsOnly
      (min hdr.numSamples.toNat 65536) c

end Sflow

end Netflow
