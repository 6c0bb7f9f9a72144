import Netflow.Samples

/-!
# Interfaces of a flow sample

A flow sample names an interface by a format and a value. The compact layout packs both into one
word, the expanded one has a word for each. The row shows one word: the packed one of a compact
sample and the value alone of an expanded one, so the two layouts of the same content give the
same row only where nothing but the value is to be shown.
-/

namespace Netflow.Sflow

section Definitions

/-- An interface of a flow sample. -/
structure Interface where
  format : UInt32
  value : UInt32
  format_lt : format.toNat < 4
  value_lt : value.toNat < 2 ^ 30

/-- The packed word of an interface. -/
def Interface.word (i : Interface) : UInt32 := i.format <<< 30 ||| i.value

/-- The fixed part of a flow sample, in no particular layout. -/
structure FlowContent where
  sequence : UInt32
  sourceIdType : UInt32
  sourceIdIndex : UInt32
  samplingRate : UInt32
  samplePool : UInt32
  drops : UInt32
  input : Interface
  output : Interface
  sourceIdType_lt : sourceIdType.toNat < 256
  sourceIdIndex_lt : sourceIdIndex.toNat < 2 ^ 24

/-- The compact layout of a flow sample. -/
def FlowContent.compact (s : FlowContent) : SampleHead :=
  .compact s.sequence (s.sourceIdType <<< 24 ||| s.sourceIdIndex) s.samplingRate s.samplePool s.drops s.input.word
    s.output.word

/-- The expanded layout of a flow sample. -/
def FlowContent.expanded (s : FlowContent) : SampleHead :=
  .expanded s.sequence s.sourceIdType s.sourceIdIndex s.samplingRate s.samplePool s.drops s.input.format
    s.input.value s.output.format s.output.value

/-- Whether a row shows the format and the value of both interfaces. -/
def FlowContent.ShownIn (s : FlowContent) (row : FlowRecord) : Prop :=
  row.inputSnmp = some s.input.word ∧ row.outputSnmp = some s.output.word

end Definitions

section Words

/-- The packed word is the format above the thirty bits of the value. -/
theorem Interface.toNat_word (i : Interface) : i.word.toNat = i.format.toNat * 2 ^ 30 + i.value.toNat := by
  have hor := Nat.two_pow_add_eq_or_of_lt i.value_lt i.format.toNat
  have hformat := i.format_lt
  have hwidth : (30 : UInt32).toNat % 32 = 30 := rfl
  have hshift : i.format.toNat * 2 ^ 30 % 2 ^ 32 = 2 ^ 30 * i.format.toNat := by omega
  rw [word, UInt32.toNat_or, UInt32.toNat_shiftLeft, hwidth, Nat.shiftLeft_eq, hshift, ← hor, Nat.mul_comm]

/-- The packed word is the value alone exactly for format zero. -/
theorem Interface.word_eq_value_iff (i : Interface) : i.word = i.value ↔ i.format = 0 := by
  rw [← UInt32.toNat_inj, ← UInt32.toNat_inj, i.toNat_word, UInt32.toNat_zero]
  omega

/-- The records of a flow sample leave its interfaces alone. -/
theorem SampleHead.row_interfaces (head : SampleHead) (exporter : String) (obsDomain : UInt32) (sequence : UInt64)
    (records : List (UInt32 × Bytes)) :
    (head.row exporter obsDomain sequence records).inputSnmp = some head.inputWord ∧
      (head.row exporter obsDomain sequence records).outputSnmp = some head.outputWord := by
  have hkept := foldl_parseFlowRecord_fills records head.rate (head.base exporter obsDomain sequence)
  dsimp only at hkept
  rw [row, hkept]
  exact ⟨rfl, rfl⟩

/-- The compact layout is no longer than the expanded one. -/
theorem FlowContent.length_compact_le (s : FlowContent) (records : List (UInt32 × Bytes)) :
    (encodeFlowSample s.compact records).length ≤ (encodeFlowSample s.expanded records).length := by
  simp only [encodeFlowSample, compact, expanded, SampleHead.words, List.flatMap_cons, List.flatMap_nil,
    List.length_append, beBytes_length]
  omega

end Words

section Layouts

variable (h : WireHeader) (exporter : String) (flowsOnly : Bool)

/-- The two layouts of a flow sample give the same rows, with the format and the value of both interfaces in
them, exactly if both interfaces are of format zero. -/
theorem sampleRows_layouts_iff (s : FlowContent) {records : List (UInt32 × Bytes)}
    (hfits : (encodeFlowSample s.expanded records).length < 2 ^ 32) :
    (h.sampleRows exporter flowsOnly (1, encodeFlowSample s.compact records) =
        h.sampleRows exporter flowsOnly (3, encodeFlowSample s.expanded records) ∧
      (∀ row ∈ h.sampleRows exporter flowsOnly (1, encodeFlowSample s.compact records), s.ShownIn row) ∧
        ∀ row ∈ h.sampleRows exporter flowsOnly (3, encodeFlowSample s.expanded records), s.ShownIn row) ↔
      s.input.format = 0 ∧ s.output.format = 0 := by
  rw [h.sampleRows_flow exporter flowsOnly s.compact rfl ((s.length_compact_le records).trans_lt hfits),
    h.sampleRows_flow exporter flowsOnly s.expanded rfl hfits]
  simp only [List.forall_mem_singleton]
  have hcompact := s.compact.row_interfaces (h.label exporter) h.subAgentId h.sequence.toUInt64
    (records.take 4096)
  have hexpanded := s.expanded.row_interfaces (h.label exporter) h.subAgentId h.sequence.toUInt64
    (records.take 4096)
  constructor
  · rintro ⟨-, -, hinput, houtput⟩
    refine ⟨s.input.word_eq_value_iff.mp ?_, s.output.word_eq_value_iff.mp ?_⟩
    · exact Option.some_inj.mp (hinput.symm.trans hexpanded.1)
    · exact Option.some_inj.mp (houtput.symm.trans hexpanded.2)
  · rintro ⟨hinput, houtput⟩
    have hinputWord : s.compact.inputWord = s.expanded.inputWord := s.input.word_eq_value_iff.mpr hinput
    have houtputWord : s.compact.outputWord = s.expanded.outputWord := s.output.word_eq_value_iff.mpr houtput
    have hrow : s.compact.row (h.label exporter) h.subAgentId h.sequence.toUInt64 (records.take 4096) =
        s.expanded.row (h.label exporter) h.subAgentId h.sequence.toUInt64 (records.take 4096) := by
      rw [SampleHead.row, SampleHead.row, SampleHead.base, SampleHead.base, hinputWord, houtputWord]
      rfl
    exact ⟨congrArg (fun row => [row]) hrow, hcompact, hrow ▸ hcompact⟩

/-- A flow sample whose output has a given format; format two is a number of interfaces. -/
def sampleContent (format : UInt32) (hformat : format.toNat < 4) : FlowContent where
  sequence := 1
  sourceIdType := 0
  sourceIdIndex := 3
  samplingRate := 512
  samplePool := 1024
  drops := 0
  input := ⟨0, 3, by decide, by decide⟩
  output := ⟨format, 5, hformat, by decide⟩
  sourceIdType_lt := by decide
  sourceIdIndex_lt := by decide

/-- A sample with single interfaces. -/
theorem sampleRows_layouts_iff_single :
    (sampleWireHeader.sampleRows "" false (1, encodeFlowSample (sampleContent 0 (by decide)).compact []) =
        sampleWireHeader.sampleRows "" false (3, encodeFlowSample (sampleContent 0 (by decide)).expanded []) ∧
      (∀ row ∈ sampleWireHeader.sampleRows "" false
          (1, encodeFlowSample (sampleContent 0 (by decide)).compact []),
        (sampleContent 0 (by decide)).ShownIn row) ∧
        ∀ row ∈ sampleWireHeader.sampleRows "" false
            (3, encodeFlowSample (sampleContent 0 (by decide)).expanded []),
          (sampleContent 0 (by decide)).ShownIn row) ↔
      (sampleContent 0 (by decide)).input.format = 0 ∧ (sampleContent 0 (by decide)).output.format = 0 :=
  sampleRows_layouts_iff sampleWireHeader "" false (sampleContent 0 (by decide)) (by decide)

/-- The expanded layout of a multicast sample shows another output than the compact one. -/
theorem not_forall_layouts_agree :
    ¬ ∀ (h : WireHeader) (exporter : String) (flowsOnly : Bool) (s : FlowContent)
      (records : List (UInt32 × Bytes)), (encodeFlowSample s.expanded records).length < 2 ^ 32 →
        h.sampleRows exporter flowsOnly (1, encodeFlowSample s.compact records) =
          h.sampleRows exporter flowsOnly (3, encodeFlowSample s.expanded records) := by
  intro hagree
  have hrows := congrArg (List.map FlowRecord.outputSnmp)
    (hagree sampleWireHeader "" false (sampleContent 2 (by decide)) [] (by decide))
  revert hrows
  decide +kernel

end Layouts

end Netflow.Sflow
