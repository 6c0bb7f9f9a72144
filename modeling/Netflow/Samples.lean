import Netflow.Common.Framing
import Netflow.Decode.SflowRecord
import Netflow.SflowEncode

/-!
# The framing of samples

Each sample announces its length, and its body is decoded on its own, so a body that is damaged
inside changes no row but its own. The number of samples is announced as well, but the sample
loop does not compare: a datagram that is cut in front of a sample, or in the eight bytes that
announce one, just has fewer rows. Only a cut inside a body leaves a `truncated` row.
-/

namespace Netflow.Sflow

section Definitions

/-- The exporter label of the rows of a datagram. -/
def WireHeader.label (h : WireHeader) (exporter : String) : String :=
  if exporter.isEmpty then h.agent.text.getD "" else exporter

/-- The rows that a sample yields on its own under a header. -/
def WireHeader.sampleRows (h : WireHeader) (exporter : String) (flowsOnly : Bool) (s : UInt32 × Bytes) :
    List FlowRecord :=
  decode (encodeSflow h [s]) exporter flowsOnly

/-- The number of rows of a sample of a type: one for a flow sample, one for a counter sample unless only
flows are wanted, none for a sample of an unknown type. -/
def rowCount (flowsOnly : Bool) (sampleType : UInt32) : ℕ :=
  if sampleType &&& 0x0fff ∈ [(1 : UInt32), 3] then 1
  else if sampleType &&& 0x0fff ∈ [(2 : UInt32), 4] ∧ ¬ flowsOnly then 1
  else 0

end Definitions

section Independence

variable (h : WireHeader) (exporter : String) (flowsOnly : Bool)

/-- A written datagram is decoded sample by sample. -/
theorem decode_encodeSflow {samples : List (UInt32 × Bytes)} (hcount : samples.length ≤ 65536)
    (hfits : ∀ s ∈ samples, s.2.length < 2 ^ 32) :
    decode (encodeSflow h samples) exporter flowsOnly =
      samples.flatMap fun s =>
        decodeSample s.1 s.2 (h.label exporter) h.subAgentId h.sequence.toUInt64 flowsOnly := by
  have hmin : min (UInt32.ofNat samples.length).toNat 65536 = samples.length + 0 := by
    rw [UInt32.toNat_ofNat_of_lt' (show samples.length < 2 ^ 32 by omega), min_eq_left hcount, Nat.add_zero]
  have hsamples := fun label => decodeSamples_encode hfits label h.subAgentId h.sequence.toUInt64 flowsOnly 0 []
  rw [decode, encodeSflow, readHeader_encode]
  simp only [hmin]
  rw [← List.append_nil (samples.flatMap encodeTyped)]
  exact (hsamples _).trans (List.append_nil _)

/-- A sample on its own is decoded to its rows. -/
theorem WireHeader.sampleRows_eq {s : UInt32 × Bytes} (hfits : s.2.length < 2 ^ 32) :
    h.sampleRows exporter flowsOnly s =
      decodeSample s.1 s.2 (h.label exporter) h.subAgentId h.sequence.toUInt64 flowsOnly := by
  rw [sampleRows, decode_encodeSflow h exporter flowsOnly (by simp) (by simpa using hfits), List.flatMap_singleton]

/-- A sample has as many rows as its type says. -/
theorem length_decodeSample (sampleType : UInt32) (body : Bytes) (label : String) (subAgentId : UInt32)
    (sequence : UInt64) :
    (decodeSample sampleType body label subAgentId sequence flowsOnly).length = rowCount flowsOnly sampleType := by
  unfold decodeSample rowCount
  simp only [List.mem_cons, List.not_mem_nil, or_false]
  split
  · rfl
  · split <;> rfl

/-- A record of no known format leaves the row alone. -/
theorem SampleHead.row_skip (head : SampleHead) {r : UInt32 × Bytes}
    (hr : r.1 &&& 0x0fff ∉ [(1 : UInt32), 3, 4]) (obsDomain : UInt32) (sequence : UInt64)
    (before after : List (UInt32 × Bytes)) :
    head.row exporter obsDomain sequence (before ++ r :: after) =
      head.row exporter obsDomain sequence (before ++ after) := by
  have hskip : ∀ row, parseFlowRecord r.1 r.2 row head.rate = row := by
    intro row
    simp only [List.mem_cons, List.not_mem_nil, or_false, not_or] at hr
    simp only [parseFlowRecord, hr, if_false]
  rw [row, row, List.foldl_append, List.foldl_append, List.foldl_cons, hskip]

/-- A flow sample on its own is decoded to its row, of the first 4096 records. -/
theorem WireHeader.sampleRows_flow (head : SampleHead) {sampleType : UInt32}
    (htype : sampleType &&& 0x0fff = head.format) {records : List (UInt32 × Bytes)}
    (hfits : (encodeFlowSample head records).length < 2 ^ 32) :
    h.sampleRows exporter flowsOnly (sampleType, encodeFlowSample head records) =
      [head.row (h.label exporter) h.subAgentId h.sequence.toUInt64 (records.take 4096)] := by
  rw [h.sampleRows_eq exporter flowsOnly hfits]
  exact decodeSample_encode head htype ((count_le_encodeFlowSample head records).trans_lt hfits)
    (fun r hr => (length_le_encodeFlowSample head hr).trans_lt hfits) _ _ _ _

/-- Samples are framed independently. The rows of a datagram are those of its samples, each on its own under
the same header, in order, whatever samples stand before and after; each sample has as many rows as
its type says; and a record of no known format anywhere in a flow sample does not change its row. -/
theorem decode_samples {before middle after : List (UInt32 × Bytes)}
    (hcount : (before ++ middle ++ after).length ≤ 65536)
    (hfits : ∀ s ∈ before ++ middle ++ after, s.2.length < 2 ^ 32) :
    decode (encodeSflow h (before ++ middle ++ after)) exporter flowsOnly =
        before.flatMap (h.sampleRows exporter flowsOnly) ++ middle.flatMap (h.sampleRows exporter flowsOnly) ++
          after.flatMap (h.sampleRows exporter flowsOnly) ∧
      (∀ s ∈ middle, (h.sampleRows exporter flowsOnly s).length = rowCount flowsOnly s.1) ∧
      ∀ (head : SampleHead) (sampleType : UInt32) (lead trail : List (UInt32 × Bytes)) (r : UInt32 × Bytes),
        sampleType &&& 0x0fff = head.format → r.1 &&& 0x0fff ∉ [(1 : UInt32), 3, 4] →
          (lead ++ r :: trail).length ≤ 4096 → (encodeFlowSample head (lead ++ r :: trail)).length < 2 ^ 32 →
            h.sampleRows exporter flowsOnly (sampleType, encodeFlowSample head (lead ++ r :: trail)) =
              h.sampleRows exporter flowsOnly (sampleType, encodeFlowSample head (lead ++ trail)) := by
  refine ⟨?_, fun s hs => ?_, ?_⟩
  · rw [decode_encodeSflow h exporter flowsOnly hcount hfits, ← List.flatMap_append, ← List.flatMap_append]
    exact List.flatMap_congr fun s hs => (h.sampleRows_eq exporter flowsOnly (hfits s hs)).symm
  · rw [h.sampleRows_eq exporter flowsOnly (hfits s (by simp [hs])), length_decodeSample]
  · intro head sampleType lead trail r htype hr hcount hsize
    have hcount' : (lead ++ trail).length ≤ 4096 := by
      simp only [List.length_append, List.length_cons] at hcount ⊢
      omega
    have hsize' : (encodeFlowSample head (lead ++ trail)).length < 2 ^ 32 := by
      refine lt_of_le_of_lt ?_ hsize
      simp only [encodeFlowSample, List.flatMap_append, List.flatMap_cons, List.length_append, beBytes_length]
      omega
    rw [h.sampleRows_flow exporter flowsOnly head htype hsize, h.sampleRows_flow exporter flowsOnly head htype hsize',
      List.take_of_length_le hcount, List.take_of_length_le hcount', head.row_skip _ hr]

/-- A datagram header of an IPv4 agent. -/
def sampleWireHeader : WireHeader := ⟨.v4 0x0a000001, 0, 7, 1000⟩

/-- A flow sample with a damaged body between a counter sample and a sample of an unknown type. -/
theorem decode_samples_three :
    decode (encodeSflow sampleWireHeader ([(2, [])] ++ [(1, [9])] ++ [(7, [0, 0])])) "" false =
        [(2, [])].flatMap (sampleWireHeader.sampleRows "" false) ++
          [(1, [9])].flatMap (sampleWireHeader.sampleRows "" false) ++
            [(7, [0, 0])].flatMap (sampleWireHeader.sampleRows "" false) ∧
      ∀ s ∈ [((1 : UInt32), ([9] : Bytes))], (sampleWireHeader.sampleRows "" false s).length = rowCount false s.1 := by
  obtain ⟨hrows, hlengths, -⟩ := @decode_samples sampleWireHeader "" false [(2, [])] [(1, [9])] [(7, [0, 0])]
    (by decide) (by decide)
  exact ⟨hrows, hlengths⟩

end Independence

section Cuts

variable (exporterId : String) (subAgentId : UInt32) (sequence : UInt64) (flowsOnly : Bool)

/-- A part of a sample leaves a row exactly if what announces the sample is whole. -/
theorem decodeSamples_cut {s : UInt32 × Bytes} (hfits : s.2.length < 2 ^ 32) {part more : Bytes}
    (hcut : encodeTyped s = part ++ more) (hmore : more ≠ []) (count : ℕ) :
    decodeSamples exporterId subAgentId sequence flowsOnly (count + 1) ⟨part⟩ =
      if 8 ≤ part.length then
        [.diagnostic exporterId Version.sflow5.asStr subAgentId none (some sequence) "truncated"]
      else [] := by
  have hpart : part = (encodeTyped s).take part.length := by rw [hcut, List.take_left]
  have hlength : part.length < s.2.length + 8 := by
    have htotal := congrArg List.length hcut
    have hpos := List.length_pos_iff.mpr hmore
    simp only [encodeTyped, List.length_append, beBytes_length] at htotal
    omega
  by_cases hlong : 8 ≤ part.length
  · obtain ⟨n, hn⟩ := Nat.exists_eq_add_of_le hlong
    have hsplit : part = beBytes 4 s.1.toNat ++ (beBytes 4 s.2.length ++ s.2.take n) := by
      rw [hpart, hn, show 8 + n = 4 + (4 + n) by omega, encodeTyped, List.take_append, List.take_append]
      simp only [beBytes_length, Nat.add_sub_cancel_left]
      rw [List.take_of_length_le (by simp), List.take_of_length_le (by simp)]
    have htake : (Cursor.mk (s.2.take n)).take (UInt32.ofNat s.2.length).toNat = none := by
      rw [UInt32.toNat_ofNat_of_lt' hfits]
      exact if_pos (lt_of_le_of_lt (List.length_take_le _ _) (by omega))
    rw [if_pos hlong, hsplit, decodeSamples]
    simp only [u32_beBytes, u32_beBytes_of_lt hfits, htake]
  · rw [if_neg hlong, decodeSamples]
    by_cases hword : 4 ≤ part.length
    · have hrest : (Cursor.mk (part.drop 4)).remaining < 4 := by
        rw [Cursor.remaining, List.length_drop]
        omega
      simp only [Cursor.u32_of_le (show 4 ≤ (Cursor.mk part).remaining from hword), Cursor.u32_of_lt hrest]
    · simp only [Cursor.u32_of_lt (show (Cursor.mk part).remaining < 4 from Nat.lt_of_not_le hword)]

/-- No row of a whole sample is that of a cut one. -/
theorem decodeSample_diagnostics {sampleType : UInt32} {body : Bytes} {row : FlowRecord}
    (h : row ∈ decodeSample sampleType body exporterId subAgentId sequence flowsOnly) :
    row.diagnostics ≠ some "truncated" := by
  unfold decodeSample at h
  simp only at h
  split at h
  · rw [(of_mem_decodeFlowSample h).2]
    exact (Option.some_ne_none _).symm
  · split at h
    · rw [List.mem_singleton.mp h, (decodeCounterSample_keeps _ _ _ _ _).2]
      exact fun hnote => absurd (Option.some.inj hnote) (by decide)
    · contradiction

/-- A datagram that is cut behind its header leaves a `truncated` row exactly if, behind the samples that are
whole, at least the eight bytes that announce the next one are left. -/
theorem decode_cut_iff (h : WireHeader) (exporter : String) {samples : List (UInt32 × Bytes)}
    (hcount : samples.length ≤ 65536) (hfits : ∀ s ∈ samples, s.2.length < 2 ^ 32) {cut : ℕ}
    (hcut : cut < (samples.flatMap encodeTyped).length) :
    (∃ row ∈ decode ((encodeSflow h samples).take ((h.encode (.ofNat samples.length)).length + cut)) exporter
        flowsOnly, row.diagnostics = some "truncated") ↔
      ((Framing.fitting encodeTyped cut samples).flatMap encodeTyped).length + 8 ≤ cut := by
  obtain ⟨later, part, hlater, htake, hpart⟩ := Framing.exists_take_eq encodeTyped cut samples
  generalize Framing.fitting encodeTyped cut samples = whole at htake hlater ⊢
  have hmin : min (UInt32.ofNat samples.length).toNat 65536 = whole.length + later.length := by
    rw [UInt32.toNat_ofNat_of_lt' (show samples.length < 2 ^ 32 by omega), min_eq_left hcount, hlater,
      List.length_append]
  have hlength : (whole.flatMap encodeTyped).length + part.length = cut := by
    have htotal := congrArg List.length htake
    rw [List.length_take, List.length_append, min_eq_left hcut.le] at htotal
    exact htotal.symm
  have hwhole : ∀ s ∈ whole, s.2.length < 2 ^ 32 := by
    intro s hs
    exact hfits s (by rw [hlater]; exact List.mem_append_left later hs)
  have hrows : ∃ rest, decode ((encodeSflow h samples).take ((h.encode (.ofNat samples.length)).length + cut))
      exporter flowsOnly = whole.flatMap (fun s =>
        decodeSample s.1 s.2 (h.label exporter) h.subAgentId h.sequence.toUInt64 flowsOnly) ++ rest ∧
      rest = decodeSamples (h.label exporter) h.subAgentId h.sequence.toUInt64 flowsOnly later.length ⟨part⟩ := by
    rw [encodeSflow, List.take_length_add_append, htake, decode, readHeader_encode]
    simp only [hmin]
    exact ⟨_, decodeSamples_encode hwhole _ _ _ _ _ _, rfl⟩
  obtain ⟨rest, hrows, hrest⟩ := hrows
  have htruncated : (∃ row ∈ decode ((encodeSflow h samples).take
      ((h.encode (.ofNat samples.length)).length + cut)) exporter flowsOnly, row.diagnostics = some "truncated") ↔
      ∃ row ∈ rest, row.diagnostics = some "truncated" := by
    rw [hrows]
    constructor
    · rintro ⟨row, hrow, hdiag⟩
      rcases List.mem_append.mp hrow with hsample | hcutRow
      · obtain ⟨s, -, hs⟩ := List.mem_flatMap.mp hsample
        exact absurd hdiag (decodeSample_diagnostics _ _ _ _ hs)
      · exact ⟨row, hcutRow, hdiag⟩
    · rintro ⟨row, hrow, hdiag⟩
      exact ⟨row, List.mem_append_right _ hrow, hdiag⟩
  rw [htruncated, ← hlength, Nat.add_le_add_iff_left]
  rcases hpart with rfl | ⟨s, others, more, rfl, hencode, hmore⟩
  · have hnone : rest = [] := by
      rw [hrest]
      cases later.length <;> rfl
    simp [hnone]
  · rw [hrest, List.length_cons, decodeSamples_cut _ _ _ _ (hfits s (by simp [hlater])) hencode hmore]
    by_cases hlong : 8 ≤ part.length
    · rw [if_pos hlong]
      exact iff_of_true ⟨_, List.mem_singleton_self _, rfl⟩ hlong
    · rw [if_neg hlong]
      exact iff_of_false (by simp) hlong

/-- A counter sample. -/
def sampleCounters : List (UInt32 × Bytes) := [(2, [1, 2, 3, 4])]

/-- A counter sample cut in its body. -/
theorem decode_cut_iff_body :
    (∃ row ∈ decode ((encodeSflow sampleWireHeader sampleCounters).take
        ((sampleWireHeader.encode (.ofNat sampleCounters.length)).length + 9)) "" false,
          row.diagnostics = some "truncated") ↔
      ((Framing.fitting encodeTyped 9 sampleCounters).flatMap encodeTyped).length + 8 ≤ 9 :=
  decode_cut_iff false sampleWireHeader "" (by decide) (by decide) (by decide)

/-- Nothing tells of a sample that is missing as a whole. -/
theorem not_forall_cut_truncated :
    ¬ ∀ (h : WireHeader) (exporter : String) (samples : List (UInt32 × Bytes)) (cut : ℕ), samples.length ≤ 65536 →
      (∀ s ∈ samples, s.2.length < 2 ^ 32) → cut < (samples.flatMap encodeTyped).length →
        ∃ row ∈ decode ((encodeSflow h samples).take ((h.encode (.ofNat samples.length)).length + cut)) exporter
          false, row.diagnostics = some "truncated" := by
  intro h
  obtain ⟨row, hrow, -⟩ := h sampleWireHeader "" sampleCounters 0 (by decide) (by decide) (by decide)
  have hnone : decode ((encodeSflow sampleWireHeader sampleCounters).take
      ((sampleWireHeader.encode (.ofNat sampleCounters.length)).length + 0)) "" false = [] := by
    decide +kernel
  rw [hnone] at hrow
  contradiction

end Cuts

end Netflow.Sflow
