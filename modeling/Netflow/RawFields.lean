import Netflow.Decode.Columns
import Netflow.Decoded

/-!
# The keys of the raw fields

Raw fields are appended without a look at those already there. Which keys a row gets is
fixed before any value is read: by the template for a record, by the formats of the records
for an sFlow sample. So a row has a key twice exactly where a template names two raw fields
alike, a flow sample scales its counts twice or a counter sample has two records of a format.
-/

namespace Netflow

/-- The keys of a row's raw fields, in order. -/
def FlowRecord.rawKeys (row : FlowRecord) : List String := row.rawFields.map Prod.fst

/-- A row whose raw fields are a map: no key comes twice. -/
def FlowRecord.IsRawMap (row : FlowRecord) : Prop := row.rawKeys.Nodup

instance (row : FlowRecord) : Decidable row.IsRawMap := inferInstanceAs (Decidable (List.Nodup _))

/-- A diagnostic row has no raw field. -/
theorem FlowRecord.isRawMap_diagnostic (exporter flowVersion : String) (obsDomain : UInt32)
    (exportTime : Option Int64) (sequence : Option UInt64) (diag : String) :
    (FlowRecord.diagnostic exporter flowVersion obsDomain exportTime sequence diag).IsRawMap :=
  List.nodup_nil

/-- A raw field adds its name to the keys. -/
@[simp] theorem FlowRecord.rawKeys_putRaw (row : FlowRecord) (name : String) (bytes : Bytes) :
    (row.putRaw name bytes).rawKeys = row.rawKeys ++ [name] := by
  simp [rawKeys, putRaw]

section Records

/-- The names of the fields without a column, in template order. -/
def rawNames (fields : List FieldSpec) : List String :=
  (fields.filter fun f => f.column = none).map (·.name)

/-- Whether a payload holds a whole record of a template. -/
def holdsRecord (fields : List FieldSpec) (payload : Bytes) : Prop :=
  payload ≠ [] ∧ (sliceFields fields (.new payload)).isSome

/-- The raw fields of a record are keyed by the names of the fields without a column. -/
theorem rawKeys_mapFields {fields : List FieldSpec} {slices : List Bytes} (p : PartialRecord)
    (hlength : slices.length = fields.length) :
    (mapFields p fields slices).row.rawKeys = p.row.rawKeys ++ rawNames fields := by
  induction fields generalizing p slices with
  | nil => simp [rawNames]
  | cons f fields ih =>
    cases slices with
    | nil => simp at hlength
    | cons bytes slices =>
      have hrest : slices.length = fields.length := Nat.succ.inj hlength
      have hhere : (mapField p f bytes).row.rawKeys =
          p.row.rawKeys ++ if f.column = none then [f.name] else [] := by
        rw [FlowRecord.rawKeys, mapField_rawFields, List.map_append]
        cases f.column <;> rfl
      rw [mapFields_cons, ih _ hrest, hhere, List.append_assoc]
      cases hcolumn : f.column <;> simp [rawNames, hcolumn]

/-- The keys of a decoded record are fixed by its template. -/
theorem rawKeys_decodeOneRecord {tpl : TemplateEntry} {cur cur' : Cursor} {ctx : Ctx} {row : FlowRecord}
    (h : decodeOneRecord tpl cur ctx = some (row, cur')) : row.rawKeys = rawNames tpl.fields := by
  rw [decodeOneRecord_eq] at h
  obtain ⟨⟨slices, cur''⟩, hslices, hrow⟩ := Option.map_eq_some_iff.mp h
  cases hrow
  rw [FlowRecord.rawKeys, resolveTimes_rawFields]
  exact rawKeys_mapFields _ (sliceFields_length hslices)

/-- Where a template names its raw fields apart, the raw fields of each row are a map. -/
theorem isRawMap_of_mem_decodeRecords {tpl : TemplateEntry} (hnames : (rawNames tpl.fields).Nodup) {ctx : Ctx}
    {rounds : ℕ} {cur : Cursor} {row : FlowRecord} (h : row ∈ decodeRecords tpl ctx rounds cur) :
    row.IsRawMap := by
  induction rounds generalizing cur with
  | zero => contradiction
  | succ rounds ih =>
    rw [decodeRecords] at h
    split at h
    · contradiction
    · split at h
      · contradiction
      · split at h
        · rw [List.mem_singleton.mp h]
          exact FlowRecord.isRawMap_diagnostic _ _ _ _ _ _
        · rename_i first cur' hone
          have hfirst : first.IsRawMap := by
            rw [FlowRecord.IsRawMap, rawKeys_decodeOneRecord hone]
            exact hnames
          split at h
          · rw [List.mem_singleton.mp h]
            exact hfirst
          · rcases List.mem_cons.mp h with rfl | hrest
            · exact hfirst
            · exact ih hrest

/-- The raw fields of every row of a Data Set are a map exactly if its template names its raw fields
apart or the payload holds no whole record. -/
theorem decodeRecords_isRawMap_iff (tpl : TemplateEntry) (payload : Bytes) (ctx : Ctx) :
    (∀ row ∈ decodeRecords tpl ctx payload.length (.new payload), row.IsRawMap) ↔
      (holdsRecord tpl.fields payload → (rawNames tpl.fields).Nodup) := by
  constructor
  · rintro h ⟨hpayload, hslices⟩
    have hlong := Nat.pos_of_ne_zero (mt List.length_eq_zero_iff.mp hpayload)
    obtain ⟨rounds, hrounds⟩ := Nat.exists_eq_add_of_lt hlong
    obtain ⟨⟨slices, cur'⟩, hsliced⟩ := Option.isSome_iff_exists.mp hslices
    have hshort : minFixed tpl ≤ (Cursor.new payload).remaining := minFixed_le_of_sliceFields hsliced
    have hone := decodeOneRecord_eq tpl (.new payload) ctx
    rw [hsliced, Option.map_some] at hone
    rw [← rawKeys_decodeOneRecord hone]
    apply h
    rw [hrounds, zero_add, decodeRecords, if_neg (by rw [Cursor.remaining_new]; omega),
      if_neg (by omega), hone]
    simp only
    split
    · exact List.mem_cons_self
    · exact List.mem_cons_self
  · intro h row hrow
    by_cases hholds : holdsRecord tpl.fields payload
    · exact isRawMap_of_mem_decodeRecords (h hholds) hrow
    · cases payload with
      | nil => contradiction
      | cons b bytes =>
        have hnone : decodeOneRecord tpl (.new (b :: bytes)) ctx = none := by
          rw [decodeOneRecord_eq, Option.map_eq_none_iff, ← Option.not_isSome_iff_eq_none]
          exact fun hsome => hholds ⟨List.cons_ne_nil _ _, hsome⟩
        rw [List.length_cons, decodeRecords, hnone] at hrow
        split at hrow
        · contradiction
        · split at hrow
          · contradiction
          · rw [List.mem_singleton.mp hrow]
            exact FlowRecord.isRawMap_diagnostic _ _ _ _ _ _

end Records

namespace Sflow

section Samples

/-- The whole typed bodies a loop over samples or records reads, at most the given number. -/
def typedBodies : ℕ → Cursor → List (UInt32 × Bytes)
  | 0, _ => []
  | count + 1, c =>
    match c.u32 with
    | none => []
    | some (typeWord, c) =>
      match c.u32 with
      | none => []
      | some (len, c) =>
        match c.take len.toNat with
        | none => []
        | some (body, c) => (typeWord, body) :: typedBodies count c

/-- The whole records of a flow sample. -/
def flowRecords (body : Bytes) (expanded : Bool) : List (UInt32 × Bytes) :=
  let (_seq, c) := (Cursor.new body).attempt (·.u32)
  let (_, c) := c.attempt (·.u32)
  let (_, c) := if expanded then c.attempt (·.u32) else (none, c)
  let (_rate, c) := c.attempt (·.u32)
  let (_samplePool, c) := c.attempt (·.u32)
  let (_drops, c) := c.attempt (·.u32)
  let (_, c) := if expanded then c.attempt (·.u32) else (none, c)
  let (_input, c) := c.attempt (·.u32)
  let (_, c) := if expanded then c.attempt (·.u32) else (none, c)
  let (_output, c) := c.attempt (·.u32)
  let (numRecords, c) := c.attempt (·.u32)
  typedBodies (min (numRecords.getD 0).toNat 4096) c

/-- The whole records of a counter sample. -/
def counterRecords (body : Bytes) (expanded : Bool) : List (UInt32 × Bytes) :=
  let (_seq, c) := (Cursor.new body).attempt (·.u32)
  let (_, c) := c.attempt (·.u32)
  let (_, c) := if expanded then c.attempt (·.u32) else (none, c)
  let (numRecords, c) := c.attempt (·.u32)
  typedBodies (min (numRecords.getD 0).toNat 4096) c

/-- Whether a flow record carries a frame length, so that its counts are scaled. -/
def scalesCounts (recType : UInt32) : Prop :=
  recType &&& 0x0fff = 1 ∨ recType &&& 0x0fff = 3 ∨ recType &&& 0x0fff = 4

instance (recType : UInt32) : Decidable (scalesCounts recType) := inferInstanceAs (Decidable (_ ∨ _))

/-- Whether the records of a sample keep their raw keys apart: a flow sample scales its counts once
at most, and the records of a counter sample, where it is decoded, differ in format. -/
def keysApart (flowsOnly : Bool) (sampleType : UInt32) (body : Bytes) : Prop :=
  let format := sampleType &&& 0x0fff
  if format = 1 ∨ format = 3 then
    ((flowRecords body (format = 3)).filter fun r => scalesCounts r.1).length ≤ 1
  else format = 2 ∨ format = 4 → flowsOnly ∨
    ((counterRecords body (format = 4)).map fun r => r.1 &&& 0x0fff).Nodup

/-- The record loop folds over the whole records. -/
theorem foldRecords_eq (f : UInt32 → Bytes → FlowRecord → FlowRecord) (count : ℕ) (c : Cursor)
    (row : FlowRecord) :
    foldRecords f count c row = (typedBodies count c).foldl (fun row r => f r.1 r.2 row) row := by
  induction count generalizing c row with
  | zero => rfl
  | succ count ih =>
    rw [foldRecords, typedBodies]
    cases c.u32 with
    | none => rfl
    | some typed =>
      simp only
      cases typed.2.u32 with
      | none => rfl
      | some sized =>
        simp only
        cases sized.2.take sized.1.toNat with
        | none => rfl
        | some taken => exact ih _ _

/-- A transport header leaves the raw fields alone. -/
theorem parseL4_rawKeys (c : Cursor) (proto : UInt8) (row : FlowRecord) :
    (parseL4 c proto row).rawKeys = row.rawKeys := by
  unfold parseL4
  split
  · rfl
  · split
    · rfl
    · rfl

/-- A sampled IPv4 header leaves the raw fields alone. -/
theorem parseIpv4_rawKeys (c : Cursor) (row : FlowRecord) : (parseIpv4 c row).rawKeys = row.rawKeys := by
  unfold parseIpv4
  repeat' split
  all_goals first
    | rw [parseL4_rawKeys]; rfl
    | rfl

/-- A sampled IPv6 header leaves the raw fields alone. -/
theorem parseIpv6_rawKeys (c : Cursor) (row : FlowRecord) : (parseIpv6 c row).rawKeys = row.rawKeys := by
  unfold parseIpv6
  repeat' split
  all_goals first
    | rw [parseL4_rawKeys]; rfl
    | rfl

/-- A sampled frame leaves the raw fields alone. -/
theorem parseL2_rawKeys (h : Bytes) (row : FlowRecord) : (parseL2 h row).rawKeys = row.rawKeys := by
  unfold parseL2
  simp only
  repeat' split
  all_goals first
    | rw [parseIpv4_rawKeys]
    | rw [parseIpv6_rawKeys]
    | rfl

/-- Scaling the counts keeps both unscaled values raw. -/
theorem scaleCounts_rawKeys (row : FlowRecord) (frameLength : UInt64) (rate : UInt32) :
    (scaleCounts row frameLength rate).rawKeys =
      row.rawKeys ++ ["sflow.frame_length", "sflow.sampling_rate"] := by
  rw [scaleCounts, FlowRecord.rawKeys_putRaw, FlowRecord.rawKeys_putRaw, List.append_assoc]
  rfl

/-- A flow record with a frame length adds the two keys of its unscaled values, any other none. -/
theorem parseFlowRecord_rawKeys (recType : UInt32) (body : Bytes) (row : FlowRecord) (rate : UInt32) :
    (parseFlowRecord recType body row rate).rawKeys =
      row.rawKeys ++ if scalesCounts recType then ["sflow.frame_length", "sflow.sampling_rate"] else [] := by
  unfold parseFlowRecord
  simp only
  split
  · rename_i hraw
    rw [if_pos (show scalesCounts recType from .inl hraw), parseRawHeader]
    repeat' split
    rw [parseL2_rawKeys, scaleCounts_rawKeys]
  · split
    · rename_i hipv4
      rw [if_pos (show scalesCounts recType from .inr (.inl hipv4)), parseSampledIpv4]
      repeat' split
      rw [scaleCounts_rawKeys]
      rfl
    · split
      · rename_i hipv6
        rw [if_pos (show scalesCounts recType from .inr (.inr hipv6)), parseSampledIpv6]
        repeat' split
        rw [scaleCounts_rawKeys]
        rfl
      · rename_i hraw hipv4 hipv6
        rw [if_neg (by simp [scalesCounts, hraw, hipv4, hipv6]), List.append_nil]

/-- The records of a flow sample add the two keys once for each frame length. -/
theorem foldl_parseFlowRecord_rawKeys (records : List (UInt32 × Bytes)) (row : FlowRecord) (rate : UInt32) :
    (records.foldl (fun row r => parseFlowRecord r.1 r.2 row rate) row).rawKeys =
      row.rawKeys ++ (records.filter fun r => scalesCounts r.1).flatMap fun _ =>
        ["sflow.frame_length", "sflow.sampling_rate"] := by
  induction records generalizing row with
  | nil => simp
  | cons r records ih =>
    rw [List.foldl_cons, ih, parseFlowRecord_rawKeys, List.append_assoc, List.filter_cons]
    split <;> simp_all

/-- A block of keys stays a map exactly if it comes once at most. -/
theorem nodup_flatMap_const {α : Type} (block : List String) (hblock : block.Nodup) (hne : block ≠ [])
    (l : List α) : (l.flatMap fun _ => block).Nodup ↔ l.length ≤ 1 := by
  obtain ⟨key, rest, rfl⟩ := List.exists_cons_of_ne_nil hne
  cases l with
  | nil => simp
  | cons a l =>
    cases l with
    | nil => simpa using hblock
    | cons b l => simp

/-- The raw fields of a flow sample's row are a map exactly if its counts are scaled once at most. -/
theorem decodeFlowSample_isRawMap_iff (body : Bytes) (exporter : String) (obsDomain : UInt32)
    (sequence : UInt64) (expanded : Bool) :
    (∀ row ∈ decodeFlowSample body exporter obsDomain sequence expanded, row.IsRawMap) ↔
      ((flowRecords body expanded).filter fun r => scalesCounts r.1).length ≤ 1 := by
  have hsample : ∃ base rate, base.rawKeys = [] ∧
      decodeFlowSample body exporter obsDomain sequence expanded =
        [(flowRecords body expanded).foldl (fun row r => parseFlowRecord r.1 r.2 row rate) base] := by
    unfold decodeFlowSample flowRecords
    simp only [foldRecords_eq]
    exact ⟨_, _, rfl, rfl⟩
  obtain ⟨base, rate, hbase, hrows⟩ := hsample
  rw [hrows, List.forall_mem_singleton, FlowRecord.IsRawMap, foldl_parseFlowRecord_rawKeys, hbase,
    List.nil_append]
  exact nodup_flatMap_const _ (by decide) (by simp) _

/-- The key of a counter record tells its format. -/
theorem counterKey_injective {format other : UInt32}
    (h : s!"sflow.counter_format_{format}" = s!"sflow.counter_format_{other}") : format = other := by
  have hrepr : format.toNat.repr = other.toNat.repr := (String.append_right_inj _).mp h
  have hdigits := congrArg String.toList hrepr
  rw [Nat.toList_repr, Nat.toList_repr] at hdigits
  rw [← UInt32.toNat_inj, ← @Nat.ofDigitChars_ten_toDigits format.toNat, hdigits,
    Nat.ofDigitChars_ten_toDigits]

/-- The raw fields of a counter sample's row are a map exactly if its records differ in format. -/
theorem decodeCounterSample_isRawMap_iff (body : Bytes) (exporter : String) (obsDomain : UInt32)
    (sequence : UInt64) (expanded : Bool) :
    (decodeCounterSample body exporter obsDomain sequence expanded).IsRawMap ↔
      ((counterRecords body expanded).map fun r => r.1 &&& 0x0fff).Nodup := by
  have hkeys : ∀ (records : List (UInt32 × Bytes)) (row : FlowRecord),
      (records.foldl (fun row r => row.putRaw s!"sflow.counter_format_{r.1 &&& 0x0fff}" r.2) row).rawKeys =
        row.rawKeys ++ (records.map fun r => r.1 &&& 0x0fff).map fun f => s!"sflow.counter_format_{f}" := by
    intro records
    induction records with
    | nil => simp
    | cons r records ih =>
      intro row
      rw [List.foldl_cons, ih, FlowRecord.rawKeys_putRaw, List.append_assoc]
      rfl
  have hsample : ∃ row : FlowRecord, row.rawKeys = [] ∧
      decodeCounterSample body exporter obsDomain sequence expanded =
        (counterRecords body expanded).foldl
          (fun row r => row.putRaw s!"sflow.counter_format_{r.1 &&& 0x0fff}" r.2) row := by
    unfold decodeCounterSample counterRecords
    simp only [foldRecords_eq]
    exact ⟨_, rfl, rfl⟩
  obtain ⟨row, hrow, hdecoded⟩ := hsample
  rw [FlowRecord.IsRawMap, hdecoded, hkeys, hrow, List.nil_append]
  exact List.nodup_map_iff fun _ _ => counterKey_injective

/-- The raw fields of a sample's rows are maps exactly if its records keep their keys apart. -/
theorem decodeSample_isRawMap_iff (sampleType : UInt32) (body : Bytes) (exporterId : String)
    (subAgentId : UInt32) (sequence : UInt64) (flowsOnly : Bool) :
    (∀ row ∈ decodeSample sampleType body exporterId subAgentId sequence flowsOnly, row.IsRawMap) ↔
      keysApart flowsOnly sampleType body := by
  unfold decodeSample keysApart
  simp only
  split
  · exact decodeFlowSample_isRawMap_iff _ _ _ _ _
  · cases flowsOnly with
    | true => simp
    | false =>
      split
      · rename_i hcounter
        rw [List.forall_mem_singleton, decodeCounterSample_isRawMap_iff]
        simp [hcounter.1]
      · rename_i hother
        simp_all

/-- The raw fields of all rows of the sample loop are maps exactly if this holds of each sample. -/
theorem decodeSamples_isRawMap_iff (exporterId : String) (subAgentId : UInt32) (sequence : UInt64)
    (flowsOnly : Bool) (count : ℕ) (c : Cursor) :
    (∀ row ∈ decodeSamples exporterId subAgentId sequence flowsOnly count c, row.IsRawMap) ↔
      ∀ s ∈ typedBodies count c, keysApart flowsOnly s.1 s.2 := by
  induction count generalizing c with
  | zero => simp [decodeSamples, typedBodies]
  | succ count ih =>
    rw [decodeSamples, typedBodies]
    cases c.u32 with
    | none => simp
    | some typed =>
      simp only
      cases typed.2.u32 with
      | none => simp
      | some sized =>
        simp only
        cases sized.2.take sized.1.toNat with
        | none => simp [FlowRecord.isRawMap_diagnostic]
        | some taken =>
          simp only [List.forall_mem_append, List.forall_mem_cons, decodeSample_isRawMap_iff, ih]

/-- The raw fields of all rows of an sFlow datagram are maps exactly if this holds of each sample it
has after its header. -/
theorem decode_isRawMap_iff (data : Bytes) (exporter : String) (flowsOnly : Bool) :
    (∀ row ∈ decode data exporter flowsOnly, row.IsRawMap) ↔
      ∀ hdr c, readHeader data = some (hdr, c) →
        ∀ s ∈ typedBodies (min hdr.numSamples.toNat 65536) c, keysApart flowsOnly s.1 s.2 := by
  unfold decode
  cases readHeader data with
  | none => simp [FlowRecord.isRawMap_diagnostic]
  | some header =>
    obtain ⟨hdr, c⟩ := header
    simp only [decodeSamples_isRawMap_iff, Option.some.injEq, Prod.mk.injEq, and_imp]
    constructor
    · rintro h _ _ rfl rfl
      exact h
    · intro h
      exact h hdr c rfl rfl

end Samples

end Sflow

section Calls

/-- Whether a call decodes its datagram as sFlow. -/
def Call.isSflow (call : Call) : Prop :=
  probeVersion call.data = some .sflow5 ∧ (call.restrict = .any ∨ call.restrict = .sflowOnly)

/-- When the raw fields of a call's rows are maps: every Data Set it decodes that holds a whole record
is of a template that names its raw fields apart, and every sample of its sFlow datagram keeps its
keys apart. -/
structure Call.KeepsRawMaps (call : Call) (c : TemplateCache) : Prop where
  dataSets : call.retries → ∀ key rec tpl, call.Presents c key rec → (call.pass1 c).entries[key]? = some tpl →
    (call.opts.mode.isFlowsOnly → tpl.kind ≠ .options) → holdsRecord tpl.fields rec.bytes →
      (rawNames tpl.fields).Nodup
  samples : call.isSflow → ∀ hdr cur, Sflow.readHeader call.data = some (hdr, cur) →
    ∀ s ∈ Sflow.typedBodies (min hdr.numSamples.toNat 65536) cur,
      Sflow.keysApart call.opts.mode.isFlowsOnly s.1 s.2

/-- The raw fields of a Data Set's rows are maps exactly if it is dropped, holds no whole record or
its template names its raw fields apart. -/
theorem decodeDataSet_isRawMap_iff (tpl : TemplateEntry) (payload : Bytes) (ctx : Ctx) (flowsOnly : Bool) :
    (∀ row ∈ decodeDataSet tpl payload ctx flowsOnly, row.IsRawMap) ↔
      ((flowsOnly → tpl.kind ≠ .options) → holdsRecord tpl.fields payload → (rawNames tpl.fields).Nodup) := by
  unfold decodeDataSet
  cases flowsOnly with
  | false => simp [decodeRecords_isRawMap_iff]
  | true =>
    cases tpl.kind with
    | options => simp
    | data => simp [decodeRecords_isRawMap_iff]

/-- A NetFlow v5 record has no raw field. -/
theorem V5.rawFields_decodeRecord (b : Bytes) (exporter : String) (obsDomain : UInt32) (hdr : ExportHeader)
    (bootMicros : Option Int64) : (V5.decodeRecord b exporter obsDomain hdr bootMicros).rawFields = [] := by
  unfold V5.decodeRecord
  rfl

/-- The raw fields of a NetFlow v5 row are a map. -/
theorem V5.isRawMap_of_mem_decode {data : Bytes} {exporter : String} {row : FlowRecord}
    (h : row ∈ V5.decode data exporter) : row.IsRawMap := by
  have hrecords : ∀ obsDomain hdr bootMicros count cur,
      row ∈ V5.decodeRecords exporter obsDomain hdr bootMicros count cur → row.IsRawMap := by
    intro obsDomain hdr bootMicros count
    induction count with
    | zero =>
      intro cur hrow
      contradiction
    | succ count ih =>
      intro cur hrow
      rw [V5.decodeRecords] at hrow
      split at hrow
      · rw [List.mem_singleton.mp hrow]
        exact FlowRecord.isRawMap_diagnostic _ _ _ _ _ _
      · rcases List.mem_cons.mp hrow with hhere | hrest
        · rw [hhere, FlowRecord.IsRawMap, FlowRecord.rawKeys, V5.rawFields_decodeRecord]
          exact List.nodup_nil
        · exact ih _ hrest
  unfold V5.decode at h
  split at h
  · rw [List.mem_singleton.mp h]
    exact FlowRecord.isRawMap_diagnostic _ _ _ _ _ _
  · exact hrecords _ _ _ _ _ h

/-- The rows of a datagram that reaches no template pass: only those of an sFlow datagram can have a
raw field. -/
theorem Call.statelessTrace_isRawMap_iff (call : Call) :
    (call.parsed = none → ∀ e ∈ call.statelessTrace,
        ∀ row ∈ e.rows call.opts.mode.isFlowsOnly, row.IsRawMap) ↔
      (call.isSflow → ∀ hdr cur, Sflow.readHeader call.data = some (hdr, cur) →
        ∀ s ∈ Sflow.typedBodies (min hdr.numSamples.toNat 65536) cur,
          Sflow.keysApart call.opts.mode.isFlowsOnly s.1 s.2) := by
  have hrows : ∀ rows : List FlowRecord, (∀ row ∈ rows, row.IsRawMap) →
      ∀ e ∈ rows.map Emission.row, ∀ row ∈ e.rows call.opts.mode.isFlowsOnly, row.IsRawMap := by
    intro rows h
    simpa [Emission.rows] using h
  have hdiagnostic : ∀ exporter flowVersion obsDomain exportTime sequence diag,
      ∀ e ∈ [Emission.row (.diagnostic exporter flowVersion obsDomain exportTime sequence diag)],
        ∀ row ∈ e.rows call.opts.mode.isFlowsOnly, row.IsRawMap := by
    intro exporter flowVersion obsDomain exportTime sequence diag
    exact hrows [_] (by simp [FlowRecord.isRawMap_diagnostic])
  unfold Call.statelessTrace
  cases hformat : call.format with
  | some fmt =>
    have hnot : ¬ call.isSflow := by
      rintro ⟨hversion, -⟩
      rcases call.format_version hformat with ⟨-, hv⟩ | ⟨-, hv⟩ <;> simp [hv] at hversion
    simp only [hnot, false_implies, iff_true]
    intro _
    unfold Call.rejection
    split
    · exact hdiagnostic _ _ _ _ _ _
    · exact hdiagnostic _ _ _ _ _ _
  | none =>
    have hparsed : call.parsed = none := by simp [Call.parsed, hformat]
    simp only [hparsed, true_implies]
    have hsflow : (∀ e ∈ Sflow.trace call.data call.opts.exporter,
        ∀ row ∈ e.rows call.opts.mode.isFlowsOnly, row.IsRawMap) ↔
          ∀ hdr cur, Sflow.readHeader call.data = some (hdr, cur) →
            ∀ s ∈ Sflow.typedBodies (min hdr.numSamples.toNat 65536) cur,
              Sflow.keysApart call.opts.mode.isFlowsOnly s.1 s.2 := by
      rw [← Sflow.decode_isRawMap_iff call.data call.opts.exporter, Sflow.decode_eq_trace, traceRows]
      simp only [List.mem_flatMap, forall_exists_index, and_imp]
      exact ⟨fun h row e he hrow => h e he row hrow, fun h e he row hrow => h row e he hrow⟩
    by_cases hsample : call.isSflow
    · obtain ⟨hversion, hrestrict⟩ := hsample
      rcases hrestrict with hrestrict | hrestrict
      · simp only [hversion, hrestrict, Call.isSflow, true_or, and_self, true_implies]
        exact hsflow
      · simp only [hversion, hrestrict, Call.isSflow, or_true, and_self, true_implies]
        exact hsflow
    · have hv5 := hrows _ fun row => @V5.isRawMap_of_mem_decode call.data call.opts.exporter row
      simp only [hsample, false_implies, iff_true]
      split
      · exact hv5
      · exact hv5
      · rename_i hversion hrestrict
        exact absurd ⟨hversion, .inl hrestrict⟩ hsample
      · rename_i hversion hrestrict
        exact absurd ⟨hversion, .inr hrestrict⟩ hsample
      · exact hdiagnostic _ _ _ _ _ _
      · exact hdiagnostic _ _ _ _ _ _

/-- Exactly when the raw fields of every row a call returns are a map. -/
theorem decodeDatagram_isRawMap_iff (call : Call) (c : TemplateCache) :
    (∀ row ∈ (call.decode c).1, row.IsRawMap) ↔ call.KeepsRawMaps c := by
  have hblind : Emission.Blind fun e => ∀ row ∈ e.rows call.opts.mode.isFlowsOnly, row.IsRawMap := by
    intro key tpl useCount lastSeen rec
    simp only [Emission.rows, decodeDataSet_isRawMap_iff]
  have hmissing : ∀ key rec version,
      ∀ row ∈ (Emission.missing key rec version).rows call.opts.mode.isFlowsOnly, row.IsRawMap := by
    intro key rec version row hrow
    rw [List.mem_singleton.mp hrow]
    exact FlowRecord.isRawMap_diagnostic _ _ _ _ _ _
  have htrace : (∀ row ∈ (call.decode c).1, row.IsRawMap) ↔
      ∀ e ∈ (call.trace c).1, ∀ row ∈ e.rows call.opts.mode.isFlowsOnly, row.IsRawMap := by
    rw [call.decode_eq_trace, traceRows]
    simp only [List.mem_flatMap, forall_exists_index, and_imp]
    exact ⟨fun h e he row hrow => h row e he hrow, fun h row e he hrow => h e he row hrow⟩
  rw [htrace, call.forall_trace hblind hmissing, call.statelessTrace_isRawMap_iff]
  simp only [TemplateCache.Gives, Emission.rows, decodeDataSet_isRawMap_iff]
  constructor
  · rintro ⟨hsamples, hdataSets⟩
    exact ⟨fun hretries key rec tpl hpresent htpl => hdataSets hretries key rec hpresent tpl htpl, hsamples⟩
  · rintro ⟨hdataSets, hsamples⟩
    exact ⟨hsamples, fun hretries key rec hpresent tpl htpl => hdataSets hretries key rec tpl hpresent htpl⟩

/-- A datagram with template 256 of two fields of the interface name, and one record of it. -/
def sampleTwins : Bytes :=
  sampleHeader ++ [0, 0, 0, 16, 1, 0, 0, 2, 0, 82, 0, 1, 0, 82, 0, 1] ++ [1, 0, 0, 6, 97, 98]

/-- The raw fields of a row are not always a map, even on the first datagram of a scan. -/
theorem not_forall_isRawMap :
    ¬ ∀ (serde : SerdeJson) (c : TemplateCache) (call : Call) (row : FlowRecord),
      serde.Lawful → Reachable serde c → row ∈ (call.decode c).1 → row.IsRawMap := by
  intro h
  have hrows : ∀ row ∈ ((Call.of sampleTwins "10.0.0.1").decode (.empty 4 64)).1, row.IsRawMap :=
    fun row => h (SerdeJson.writing []) _ _ row (SerdeJson.writing_lawful (by simp)) (.empty 4 64)
  revert hrows
  decide +kernel

end Calls

end Netflow
