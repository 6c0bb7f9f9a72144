import Netflow.Decode.SflowRecord
import Netflow.WellFormed

/-!
# The three readers of the sFlow header

The export header, the structural validation and the decoder each read the sFlow header on their own, and all
of them carry on where the agent address is cut short. None of them takes a header that is not all there for
a whole one: too few bytes for the address are too few for the four words behind it.
-/

namespace Netflow

section Definitions

/-- What the four words behind the agent address say. -/
structure SflowWords where
  subAgentId : UInt32
  sequence : UInt32
  uptime : UInt32
  numSamples : UInt32

/-- Read the four words behind the agent address. -/
def readWords (c : Cursor) : Option (SflowWords × Cursor) := do
  let (subAgentId, c) ← c.u32
  let (sequence, c) ← c.u32
  let (uptime, c) ← c.u32
  let (numSamples, c) ← c.u32
  some (⟨subAgentId, sequence, uptime, numSamples⟩, c)

/-- The length of the agent address of a datagram. -/
def agentLength (data : Bytes) : ℕ := if field data 4 4 = 1 then 4 else 16

/-- The cursor behind the agent address, or in front of it when it is cut short. -/
def behindAgent (data : Bytes) : Cursor := ((Cursor.mk (data.drop 8)).skip (agentLength data)).2

end Definitions

section Readers

variable {data : Bytes}

/-- A take that may fail moves the cursor as a skip does. -/
theorem Cursor.attempt_take_snd (c : Cursor) (n : ℕ) : (c.attempt (·.take n)).2 = (c.skip n).2 := by
  simp only [attempt, skip]
  cases c.take n <;> rfl

/-- What the probe has read of a datagram that it takes for sFlow. -/
theorem probeVersion_sflow (h : probeVersion data = some .sflow5) :
    ∃ c c' addrType t, (Cursor.new data).u16 = some (0, c) ∧ c.u16 = some (5, c') ∧
      ((Cursor.new data).skip 4).2.u32 = some (addrType, t) ∧ (addrType = 1 ∨ addrType = 2) := by
  obtain ⟨⟨v16, c⟩, hv16, h⟩ := Option.bind_eq_some_iff.mp h
  dsimp only at h
  split at h
  · contradiction
  · split at h
    · contradiction
    · split at h
      · contradiction
      · split at h
        · rename_i hzero
          obtain ⟨⟨lo, c'⟩, hlo, h⟩ := Option.bind_eq_some_iff.mp h
          dsimp only at h
          split at h
          · rename_i hfive
            split at h
            · rename_i addrType t haddr
              split at h
              · exact ⟨c, c', addrType, t, hzero ▸ hv16, hfive ▸ hlo, haddr, ‹_›⟩
              · contradiction
            · contradiction
          · contradiction
        · contradiction

/-- A datagram is probed as sFlow by its first two words. -/
theorem of_probeVersion_sflow (h : probeVersion data = some .sflow5) :
    8 ≤ data.length ∧ field data 0 4 = 5 ∧ (field data 4 4 = 1 ∨ field data 4 4 = 2) := by
  obtain ⟨c, c', addrType, t, hhi, hlo, haddr, htype⟩ := probeVersion_sflow h
  have hfirst := Cursor.u16_remaining hhi
  have hsecond := Cursor.u16_remaining hlo
  rw [Cursor.remaining_new] at hfirst
  have hskip : ((Cursor.new data).skip 4).2 = ⟨data.drop 4⟩ := by
    rw [Cursor.skip, Cursor.take_of_le (by rw [Cursor.remaining_new]; omega)]
    rfl
  rw [hskip] at haddr
  have hlength := Cursor.u32_remaining haddr
  rw [Cursor.remaining, Cursor.remaining, List.length_drop] at hlength
  have hread : (Cursor.new data).u16 = _ := @u16_drop data 0 (by omega)
  rw [hread, Option.some_inj, Prod.mk.injEq] at hhi
  have hhigh : field data 0 2 = 0 := by
    rw [← UInt16.toNat_ofNat_of_lt' (field_lt data 0 2), hhi.1]
    rfl
  have hlow : field data 2 2 = 5 := by
    rw [← hhi.2, u16_drop (by omega), Option.some_inj, Prod.mk.injEq] at hlo
    rw [← UInt16.toNat_ofNat_of_lt' (field_lt data 2 2), hlo.1]
    rfl
  refine ⟨by omega, ?_, ?_⟩
  · have hsum := @field_add data 0 2 2 (by omega)
    rw [hhigh, hlow] at hsum
    simpa using hsum
  · rw [u32_drop (by omega), Option.some_inj, Prod.mk.injEq] at haddr
    rw [← UInt32.toNat_ofNat_of_lt' (field_lt data 4 4), haddr.1]
    rcases htype with rfl | rfl
    · exact .inl rfl
    · exact .inr rfl

/-- The two words at the start of a datagram that is probed as sFlow, and what follows them. -/
theorem words_of_probeVersion_sflow (h : probeVersion data = some .sflow5) :
    (Cursor.new data).u32 = some (5, ⟨data.drop 4⟩) ∧
      ∃ addrType, (Cursor.mk (data.drop 4)).u32 = some (addrType, ⟨data.drop 8⟩) ∧
        (addrType = 1 ∧ agentLength data = 4 ∨ addrType = 2 ∧ agentLength data = 16) := by
  obtain ⟨hlength, hfive, htype⟩ := of_probeVersion_sflow h
  have hversion : (Cursor.new data).u32 = _ := @u32_drop data 0 (by omega)
  rw [hfive] at hversion
  refine ⟨hversion, _, u32_drop (by omega), ?_⟩
  rcases htype with hone | htwo
  · exact .inl ⟨by rw [hone]; rfl, if_pos hone⟩
  · exact .inr ⟨by rw [htwo]; rfl, if_neg (by omega)⟩

/-- The export header is the four words behind the agent address. -/
theorem parseSflow_of_probe (h : probeVersion data = some .sflow5) :
    parseSflow data = (readWords (behindAgent data)).map fun r =>
      { version := 5, count := some (min r.1.numSamples 65535).toUInt16, sysUptime := some r.1.uptime
        exportTime := none, sequence := some r.1.sequence.toUInt64, obsDomain := some r.1.subAgentId } := by
  obtain ⟨hversion, addrType, haddr, htype⟩ := words_of_probeVersion_sflow h
  have htwo : (2 : UInt32) ≠ 1 := by decide
  rcases htype with ⟨rfl, hagent⟩ | ⟨rfl, hagent⟩ <;>
    simp only [parseSflow, hversion, haddr, readWords, behindAgent, hagent, htwo, Option.bind_eq_bind,
      Option.bind_some, Option.map_bind, Function.comp_def, Option.map_some, if_true, if_false]

/-- The structural validation wants the four words behind the agent address. -/
theorem validateSflow_of_probe (h : probeVersion data = some .sflow5) :
    (validateSflow data).ok = (readWords (behindAgent data)).isSome := by
  obtain ⟨hversion, addrType, haddr, htype⟩ := words_of_probeVersion_sflow h
  have htwo : (2 : UInt32) ≠ 1 := by decide
  rw [← Option.isSome_map (f := fun _ => ()), validateSflow]
  rcases htype with ⟨rfl, hagent⟩ | ⟨rfl, hagent⟩ <;>
    simp only [hversion, haddr, readWords, behindAgent, hagent, htwo, Option.bind_eq_bind, Option.bind_some,
      Option.map_bind, Function.comp_def, Option.map_some, if_true, if_false]
  all_goals
    split
    next hread => exact (congrArg Option.isSome hread).symm
    next hread => exact (congrArg Option.isSome hread).symm

/-- The decoder takes the four words behind the agent address. -/
theorem readHeader_of_probe (h : probeVersion data = some .sflow5) :
    ∃ agent, Sflow.readHeader data = (readWords (behindAgent data)).map fun r =>
      (⟨agent, r.1.subAgentId, r.1.sequence, r.1.numSamples⟩, r.2) := by
  obtain ⟨hversion, addrType, haddr, htype⟩ := words_of_probeVersion_sflow h
  have htwo : (2 : UInt32) ≠ 1 := by decide
  rcases htype with ⟨rfl, hagent⟩ | ⟨rfl, hagent⟩
  · refine ⟨((Cursor.mk (data.drop 8)).attempt (·.take 4)).1.bind ipv4Text, ?_⟩
    simp only [Sflow.readHeader, hversion, haddr, readWords, behindAgent, hagent, ← Cursor.attempt_take_snd,
      Option.bind_eq_bind, Option.bind_some, Option.map_bind, Function.comp_def, Option.map_some, if_true,
      ne_eq, not_true_eq_false, if_false]
  · refine ⟨((Cursor.mk (data.drop 8)).attempt (·.take 16)).1.bind ipv6Text, ?_⟩
    simp only [Sflow.readHeader, hversion, haddr, readWords, behindAgent, hagent, htwo, ← Cursor.attempt_take_snd,
      Option.bind_eq_bind, Option.bind_some, Option.map_bind, Function.comp_def, Option.map_some, if_true,
      ne_eq, not_true_eq_false, if_false]

/-- The four words are read exactly if they are there. -/
theorem isSome_readWords_iff (c : Cursor) : (readWords c).isSome ↔ 16 ≤ c.remaining := by
  constructor
  · intro h
    obtain ⟨r, hr⟩ := Option.isSome_iff_exists.mp h
    obtain ⟨⟨subAgentId, c₁⟩, h₁, hr⟩ := Option.bind_eq_some_iff.mp hr
    obtain ⟨⟨sequence, c₂⟩, h₂, hr⟩ := Option.bind_eq_some_iff.mp hr
    obtain ⟨⟨uptime, c₃⟩, h₃, hr⟩ := Option.bind_eq_some_iff.mp hr
    obtain ⟨⟨numSamples, c₄⟩, h₄, -⟩ := Option.bind_eq_some_iff.mp hr
    have hfirst := Cursor.u32_remaining h₁
    have hsecond := Cursor.u32_remaining h₂
    have hthird := Cursor.u32_remaining h₃
    have hfourth := Cursor.u32_remaining h₄
    omega
  · intro h
    rw [Cursor.remaining] at h
    have hfirst : c.u32 = _ := @u32_drop c.rest 0 (by omega)
    simp only [readWords, hfirst, @u32_drop c.rest 4 (by omega), @u32_drop c.rest 8 (by omega),
      @u32_drop c.rest 12 (by omega), Option.bind_eq_bind, Option.bind_some, Option.isSome_some]

/-- The header is read exactly if it is all there: what is too short for the agent address is too short for
the four words behind it. -/
theorem isSome_behindAgent_iff (h : 8 ≤ data.length) :
    (readWords (behindAgent data)).isSome ↔ 24 + agentLength data ≤ data.length := by
  have hremaining : (Cursor.mk (data.drop 8)).remaining = data.length - 8 := List.length_drop
  have hagent : agentLength data ≤ 16 := by
    unfold agentLength
    split <;> decide
  rw [isSome_readWords_iff, behindAgent, Cursor.skip]
  cases htake : (Cursor.mk (data.drop 8)).take (agentLength data) with
  | none =>
    have hshort : (Cursor.mk (data.drop 8)).remaining < agentLength data := by
      by_contra hle
      rw [Cursor.take_of_le (Nat.le_of_not_lt hle)] at htake
      contradiction
    dsimp only
    omega
  | some taken =>
    have htaken := Cursor.take_remaining htake
    dsimp only
    omega

/-- The export header of a datagram that is probed as sFlow is parsed exactly if it is all there. -/
theorem isSome_parseHeader_iff (h : probeVersion data = some .sflow5) :
    (parseHeader data).isSome ↔ 24 + agentLength data ≤ data.length := by
  have hheader : parseHeader data = parseSflow data := by rw [parseHeader, h]; rfl
  rw [hheader, parseSflow_of_probe h, Option.isSome_map, isSome_behindAgent_iff (of_probeVersion_sflow h).1]

end Readers

section Rows

namespace Sflow

variable {exporterId : String} {subAgentId : UInt32} {sequence : UInt64} {flowsOnly : Bool} {row : FlowRecord}

/-- Whether a row shows what it inherits from the header of its datagram, and is not the answer to a bad one. -/
def Inherits (subAgentId : UInt32) (sequence : UInt64) (row : FlowRecord) : Prop :=
  (row.sequence = some sequence ∧ row.obsDomain = subAgentId) ∧
    row.diagnostics ≠ some "decode-error:bad-sflow-header"

/-- The rows of a sample inherit from the header. -/
theorem inherits_of_mem_decodeSample {sampleType : UInt32} {body : Bytes}
    (h : row ∈ decodeSample sampleType body exporterId subAgentId sequence flowsOnly) :
    Inherits subAgentId sequence row := by
  have hflow := fun rate count c row => foldRecords_keeps (fun row => (row.sequence, row.obsDomain))
    (fun recType body row => congrArg (fun row => (row.sequence, row.obsDomain))
      (parseFlowRecord_fills recType body rate row)) count c row
  have hcounter := fun count c row => foldRecords_keeps (fun row => (row.sequence, row.obsDomain))
    (f := fun recType rbody row => row.putRaw s!"sflow.counter_format_{recType &&& 0x0fff}" rbody)
    (fun _ _ _ => rfl) count c row
  unfold decodeSample at h
  dsimp only at h
  rw [Inherits, ← Prod.mk_inj]
  split at h
  · have hnone := (of_mem_decodeFlowSample h).2
    unfold decodeFlowSample at h
    refine ⟨?_, by rw [hnone]; exact (Option.some_ne_none _).symm⟩
    rw [List.mem_singleton.mp h]
    exact hflow _ _ _ _
  · split at h
    · rw [List.mem_singleton.mp h, (decodeCounterSample_keeps _ _ _ _ _).2]
      exact ⟨hcounter _ _ _, fun hnote => absurd (Option.some.inj hnote) (by decide)⟩
    · contradiction

/-- The rows of the sample loop inherit from the header. -/
theorem inherits_of_mem_decodeSamples {count : ℕ} {c : Cursor}
    (h : row ∈ decodeSamples exporterId subAgentId sequence flowsOnly count c) : Inherits subAgentId sequence row := by
  induction count generalizing c with
  | zero => contradiction
  | succ count ih =>
    rw [decodeSamples] at h
    split at h
    · contradiction
    · split at h
      · contradiction
      · split at h
        · rw [List.mem_singleton.mp h]
          exact ⟨⟨rfl, rfl⟩, fun hnote => absurd (Option.some.inj hnote) (by decide)⟩
        · rcases List.mem_append.mp h with hsample | hrest
          · exact inherits_of_mem_decodeSample hsample
          · exact ih hrest

end Sflow

/-- The three readers of the sFlow header agree. On a datagram that is probed as sFlow, the header is parsed
exactly if it is well formed, and exactly if the decoder does not answer that the header is bad; and then every
row of the decoder shows the sequence number and the domain of the header. -/
theorem sflowReaders_agree {data : Bytes} (h : probeVersion data = some .sflow5) (exporter : String)
    (flowsOnly : Bool) :
    ((parseHeader data).isSome ↔ (wellFormed data).ok) ∧
      ((wellFormed data).ok ↔ ∀ row ∈ Sflow.decode data exporter flowsOnly,
        row.diagnostics ≠ some "decode-error:bad-sflow-header") ∧
      ∀ hdr, parseHeader data = some hdr → ∀ row ∈ Sflow.decode data exporter flowsOnly,
        row.sequence = hdr.sequence ∧ some row.obsDomain = hdr.obsDomain := by
  have hheader : parseHeader data = parseSflow data := by rw [parseHeader, h]; rfl
  have hvalid : wellFormed data = validateSflow data := by rw [wellFormed, h]
  obtain ⟨agent, hdecoder⟩ := readHeader_of_probe h
  rw [hheader, hvalid, parseSflow_of_probe h, validateSflow_of_probe h, Option.isSome_map, Sflow.decode, hdecoder]
  cases readWords (behindAgent data) with
  | none =>
    have hbad : (FlowRecord.diagnostic exporter Version.sflow5.asStr 0 none none
        "decode-error:bad-sflow-header").diagnostics = some "decode-error:bad-sflow-header" := rfl
    simp [hbad]
  | some words =>
    simp only [Option.map_some, Option.isSome_some, true_iff, Option.some_inj]
    refine ⟨trivial, fun row hrow => (Sflow.inherits_of_mem_decodeSamples hrow).2, ?_⟩
    rintro hdr rfl row hrow
    obtain ⟨⟨hsequence, hdomain⟩, -⟩ := Sflow.inherits_of_mem_decodeSamples hrow
    exact ⟨hsequence, congrArg some hdomain⟩

/-- The header of an IPv4 agent, and a counter sample without a body. -/
def sampleSflow : Bytes :=
  [0, 0, 0, 5, 0, 0, 0, 1, 10, 0, 0, 1, 0, 0, 0, 3, 0, 0, 0, 7, 0, 0, 0, 0, 0, 0, 0, 1, 0, 0, 0, 2, 0, 0, 0, 0]

/-- A whole header, and one cut in its agent address. -/
theorem sflowReaders_agree_cut :
    ((parseHeader sampleSflow).isSome ↔ (wellFormed sampleSflow).ok) ∧
      ((parseHeader (sampleSflow.take 10)).isSome ↔ (wellFormed (sampleSflow.take 10)).ok) :=
  ⟨(sflowReaders_agree (by decide) "" false).1, (sflowReaders_agree (by decide) "" false).1⟩

end Rows

end Netflow
