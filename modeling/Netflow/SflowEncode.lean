import Netflow.Encode
import Netflow.RawFields

/-!
# Writing sFlow datagrams

The XDR writer of sFlow: a header, and samples that each announce their type and length. A flow
sample is written the same way inside, a fixed part in one of two layouts and then its records.
Reading back what was written gives the header, and each sample and record from its own bytes.
-/

namespace Netflow.Sflow

section Definitions

/-- The address of an agent, by its type. -/
inductive Agent
  | v4 (addr : UInt32)
  | v6 (addr : Vector UInt8 16)

/-- The type and the bytes of an agent address. -/
def Agent.encode : Agent → Bytes
  | .v4 addr => beBytes 4 1 ++ beBytes 4 addr.toNat
  | .v6 addr => beBytes 4 2 ++ addr.toList

/-- The text of an agent address. -/
def Agent.text : Agent → Option String
  | .v4 addr => ipv4Text (beBytes 4 addr.toNat)
  | .v6 addr => ipv6Text addr.toList

/-- What a datagram header holds besides the number of samples. -/
structure WireHeader where
  agent : Agent
  subAgentId : UInt32
  sequence : UInt32
  uptime : UInt32

/-- The bytes of a datagram header. -/
def WireHeader.encode (h : WireHeader) (numSamples : UInt32) : Bytes :=
  beBytes 4 5 ++ (h.agent.encode ++ (beBytes 4 h.subAgentId.toNat ++ (beBytes 4 h.sequence.toNat ++
    (beBytes 4 h.uptime.toNat ++ beBytes 4 numSamples.toNat))))

/-- A body behind its type word and its length. -/
def encodeTyped (s : UInt32 × Bytes) : Bytes := beBytes 4 s.1.toNat ++ (beBytes 4 s.2.length ++ s.2)

/-- A datagram of some samples. -/
def encodeSflow (h : WireHeader) (samples : List (UInt32 × Bytes)) : Bytes :=
  h.encode (.ofNat samples.length) ++ samples.flatMap encodeTyped

/-- The fixed part of a flow sample, compact or expanded. -/
inductive SampleHead
  | compact (sequence sourceId samplingRate samplePool drops input output : UInt32)
  | expanded (sequence sourceIdType sourceIdIndex samplingRate samplePool drops inputFormat input outputFormat
      output : UInt32)

/-- Whether the fixed part is the expanded one. -/
def SampleHead.isExpanded : SampleHead → Bool
  | .compact .. => false
  | .expanded .. => true

/-- The sample format of the fixed part. -/
def SampleHead.format (head : SampleHead) : UInt32 := if head.isExpanded then 3 else 1

/-- The words of the fixed part. -/
def SampleHead.words : SampleHead → List UInt32
  | .compact sequence sourceId samplingRate samplePool drops input output =>
    [sequence, sourceId, samplingRate, samplePool, drops, input, output]
  | .expanded sequence sourceIdType sourceIdIndex samplingRate samplePool drops inputFormat input outputFormat
      output =>
    [sequence, sourceIdType, sourceIdIndex, samplingRate, samplePool, drops, inputFormat, input, outputFormat,
      output]

/-- The sampling rate, no less than one. -/
def SampleHead.rate : SampleHead → UInt32
  | .compact _ _ samplingRate _ _ _ _ | .expanded _ _ _ samplingRate _ _ _ _ _ _ => max samplingRate 1

/-- The word of the input interface that the row shows. -/
def SampleHead.inputWord : SampleHead → UInt32
  | .compact _ _ _ _ _ input _ | .expanded _ _ _ _ _ _ _ input _ _ => input

/-- The word of the output interface that the row shows. -/
def SampleHead.outputWord : SampleHead → UInt32
  | .compact _ _ _ _ _ _ output | .expanded _ _ _ _ _ _ _ _ _ output => output

/-- The body of a flow sample. -/
def encodeFlowSample (head : SampleHead) (records : List (UInt32 × Bytes)) : Bytes :=
  head.words.flatMap (fun word => beBytes 4 word.toNat) ++
    (beBytes 4 records.length ++ records.flatMap encodeTyped)

/-- The row of a flow sample before its records. -/
def SampleHead.base (head : SampleHead) (exporter : String) (obsDomain : UInt32) (sequence : UInt64) : FlowRecord :=
  { exporter, flowVersion := Version.sflow5.asStr, obsDomain, sequence := some sequence
    samplingRate := some head.rate, inputSnmp := some head.inputWord, outputSnmp := some head.outputWord }

/-- The row of a flow sample: its records fill in the row of its fixed part. -/
def SampleHead.row (head : SampleHead) (exporter : String) (obsDomain : UInt32) (sequence : UInt64)
    (records : List (UInt32 × Bytes)) : FlowRecord :=
  records.foldl (fun row r => parseFlowRecord r.1 r.2 row head.rate) (head.base exporter obsDomain sequence)

end Definitions

section Reads

/-- A length of 32 bits is read back. -/
theorem u32_beBytes_of_lt {n : ℕ} (h : n < 2 ^ 32) (rest : Bytes) :
    (Cursor.mk (beBytes 4 n ++ rest)).u32 = some (.ofNat n, ⟨rest⟩) := by
  have hread := u32_beBytes (.ofNat n) rest
  rwa [UInt32.toNat_ofNat_of_lt' h] at hread

/-- A written word is read, and the failure of its read does not arise. -/
theorem attempt_u32_beBytes (n : UInt32) (rest : Bytes) :
    (Cursor.mk (beBytes 4 n.toNat ++ rest)).attempt (·.u32) = (some n, ⟨rest⟩) := by
  rw [Cursor.attempt, u32_beBytes]

/-- Bytes of a known length are taken, and the failure of the read does not arise. -/
theorem attempt_take_append (bytes rest : Bytes) :
    (Cursor.mk (bytes ++ rest)).attempt (·.take bytes.length) = (some bytes, ⟨rest⟩) := by
  rw [Cursor.attempt, Cursor.take_of_le (by simp [Cursor.remaining]), List.take_left, List.drop_left]

/-- A written header is read back. -/
theorem readHeader_encode (h : WireHeader) (numSamples : UInt32) (rest : Bytes) :
    readHeader (h.encode numSamples ++ rest) =
      some (⟨h.agent.text, h.subAgentId, h.sequence, numSamples⟩, ⟨rest⟩) := by
  have hfive := u32_beBytes 5
  have hone := u32_beBytes 1
  have htwo := u32_beBytes 2
  simp only [UInt32.reduceToNat] at hfive hone htwo
  obtain ⟨agent, subAgentId, sequence, uptime⟩ := h
  cases agent with
  | v4 addr =>
    have htake := fun rest => attempt_take_append (beBytes 4 addr.toNat) rest
    simp only [beBytes_length] at htake
    simp only [readHeader, WireHeader.encode, Agent.encode, List.append_assoc, Cursor.new, hfive, hone, htake,
      u32_beBytes, Option.bind_eq_bind, Option.bind_some]
    rfl
  | v6 addr =>
    have htake := fun rest => attempt_take_append addr.toList rest
    simp only [Vector.length_toList] at htake
    simp only [readHeader, WireHeader.encode, Agent.encode, List.append_assoc, Cursor.new, hfive, htwo, htake,
      u32_beBytes, Option.bind_eq_bind, Option.bind_some]
    rfl

/-- A body is taken by the length that announces it. -/
theorem take_body {body : Bytes} (h : body.length < 2 ^ 32) (rest : Bytes) :
    (Cursor.mk (body ++ rest)).take (UInt32.ofNat body.length).toNat = some (body, ⟨rest⟩) := by
  rw [UInt32.toNat_ofNat_of_lt' h, Cursor.take_of_le (by simp [Cursor.remaining]), List.take_left, List.drop_left]

/-- Written records are read back, each from its own bytes. -/
theorem typedBodies_encode {records : List (UInt32 × Bytes)} (hfits : ∀ r ∈ records, r.2.length < 2 ^ 32)
    {count : ℕ} (hcount : count ≤ records.length) (rest : Bytes) :
    typedBodies count ⟨records.flatMap encodeTyped ++ rest⟩ = records.take count := by
  induction records generalizing count with
  | nil =>
    rw [Nat.le_zero.mp hcount]
    rfl
  | cons r records ih =>
    obtain ⟨hfirst, hothers⟩ := List.forall_mem_cons.mp hfits
    cases count with
    | zero => rfl
    | succ count =>
      simp only [List.flatMap_cons, encodeTyped, List.append_assoc, typedBodies, u32_beBytes,
        u32_beBytes_of_lt hfirst, take_body hfirst]
      exact congrArg (List.cons r) (ih hothers (Nat.le_of_succ_le_succ hcount))

/-- Written samples are decoded one by one, and then whatever follows them. -/
theorem decodeSamples_encode {samples : List (UInt32 × Bytes)} (hfits : ∀ s ∈ samples, s.2.length < 2 ^ 32)
    (exporterId : String) (subAgentId : UInt32) (sequence : UInt64) (flowsOnly : Bool) (count : ℕ) (rest : Bytes) :
    decodeSamples exporterId subAgentId sequence flowsOnly (samples.length + count)
        ⟨samples.flatMap encodeTyped ++ rest⟩ =
      samples.flatMap (fun s => decodeSample s.1 s.2 exporterId subAgentId sequence flowsOnly) ++
        decodeSamples exporterId subAgentId sequence flowsOnly count ⟨rest⟩ := by
  induction samples with
  | nil => rw [List.length_nil, Nat.zero_add]; rfl
  | cons s samples ih =>
    obtain ⟨hfirst, hothers⟩ := List.forall_mem_cons.mp hfits
    rw [List.length_cons, Nat.add_right_comm]
    simp only [List.flatMap_cons, encodeTyped, List.append_assoc, decodeSamples, u32_beBytes,
      u32_beBytes_of_lt hfirst, take_body hfirst]
    exact congrArg _ (ih hothers)

/-- A written flow sample is decoded to its row, of the first 4096 records. -/
theorem decodeFlowSample_encode (head : SampleHead) {records : List (UInt32 × Bytes)}
    (hcount : records.length < 2 ^ 32) (hfits : ∀ r ∈ records, r.2.length < 2 ^ 32) (exporter : String)
    (obsDomain : UInt32) (sequence : UInt64) :
    decodeFlowSample (encodeFlowSample head records) exporter obsDomain sequence head.isExpanded =
      [head.row exporter obsDomain sequence (records.take 4096)] := by
  have hlength : ∀ rest, (Cursor.mk (beBytes 4 records.length ++ rest)).attempt (·.u32) =
      (some (.ofNat records.length), ⟨rest⟩) := by
    intro rest
    rw [Cursor.attempt, u32_beBytes_of_lt hcount]
  have hrecords : typedBodies (min (UInt32.ofNat records.length).toNat 4096) ⟨records.flatMap encodeTyped⟩ =
      records.take 4096 := by
    have hread := typedBodies_encode hfits (min_le_left records.length 4096) []
    rw [List.append_nil, min_comm, ← List.take_take, List.take_length] at hread
    rw [UInt32.toNat_ofNat_of_lt' hcount, min_comm, hread]
  cases head <;>
    simp only [encodeFlowSample, SampleHead.words, List.flatMap_cons, List.flatMap_nil, List.append_assoc,
      List.nil_append, SampleHead.isExpanded, decodeFlowSample, Cursor.new, attempt_u32_beBytes, hlength,
      Option.getD_some, Bool.false_eq_true, if_true, if_false, foldRecords_eq, hrecords, SampleHead.row,
      SampleHead.base, SampleHead.rate, SampleHead.inputWord, SampleHead.outputWord]

/-- A flow sample of either layout is dispatched on its format. -/
theorem decodeSample_encode (head : SampleHead) {sampleType : UInt32} (htype : sampleType &&& 0x0fff = head.format)
    {records : List (UInt32 × Bytes)} (hcount : records.length < 2 ^ 32) (hfits : ∀ r ∈ records, r.2.length < 2 ^ 32)
    (exporter : String) (obsDomain : UInt32) (sequence : UInt64) (flowsOnly : Bool) :
    decodeSample sampleType (encodeFlowSample head records) exporter obsDomain sequence flowsOnly =
      [head.row exporter obsDomain sequence (records.take 4096)] := by
  have hformat : head.format = 1 ∨ head.format = 3 := by
    cases head <;> simp [SampleHead.format, SampleHead.isExpanded]
  have hexpanded : decide (head.format = 3) = head.isExpanded := by
    cases head <;> simp [SampleHead.format, SampleHead.isExpanded]
  rw [decodeSample]
  simp only [htype, hformat, if_true, hexpanded]
  exact decodeFlowSample_encode head hcount hfits _ _ _

/-- A record takes no more bytes than the sample it is in. -/
theorem length_le_encodeFlowSample (head : SampleHead) {records : List (UInt32 × Bytes)} {r : UInt32 × Bytes}
    (hr : r ∈ records) : r.2.length ≤ (encodeFlowSample head records).length := by
  obtain ⟨before, after, rfl⟩ := List.append_of_mem hr
  simp only [encodeFlowSample, List.flatMap_append, List.flatMap_cons, encodeTyped, List.length_append]
  omega

/-- There are no more records than bytes of the sample they are in. -/
theorem count_le_encodeFlowSample (head : SampleHead) (records : List (UInt32 × Bytes)) :
    records.length ≤ (encodeFlowSample head records).length := by
  have hrecords : records.length ≤ (records.flatMap encodeTyped).length := by
    induction records with
    | nil => exact le_rfl
    | cons r records ih =>
      simp only [List.flatMap_cons, List.length_append, List.length_cons, encodeTyped, beBytes_length] at ih ⊢
      omega
  simp only [encodeFlowSample, List.length_append]
  omega

end Reads

end Netflow.Sflow
