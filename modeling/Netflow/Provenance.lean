import Netflow.HeaderReaders
import Netflow.Rejection
import Netflow.WorkingSet

/-!
# Where a row says it is from

A row names an exporter, a version and a domain and shows when and as which datagram it was exported. The function
that reads headers alone says the same of a datagram. A Data Set can wait for its template while other datagrams
come and go, and is then decoded in a call of another: its row still shows the header of the datagram that brought
it, and no row shows a mixture.
-/

namespace Netflow

section Definitions

/-- What a row shows of the header of its datagram. -/
structure Heading where
  exporter : String
  flowVersion : String
  obsDomain : UInt32
  exportTime : Option Int64
  sequence : Option UInt64
  deriving DecidableEq, Repr

/-- The heading of a row. -/
def FlowRecord.heading (row : FlowRecord) : Heading :=
  ⟨row.exporter, row.flowVersion, row.obsDomain, row.exportTime, row.sequence⟩

/-- The heading that records are decoded under. -/
def Ctx.heading (ctx : Ctx) : Heading :=
  ⟨ctx.exporter, ctx.version.asStr, ctx.obsDomain, ctx.exportTime, ctx.sequence⟩

/-- The exporter that a call names: the given one, or the agent of an sFlow datagram if none is given. -/
def Call.exporter (call : Call) : String :=
  match probeVersion call.data, Sflow.readHeader call.data with
  | some .sflow5, some (hdr, _) => Sflow.exporterId call.opts.exporter hdr
  | _, _ => call.opts.exporter

/-- What the header of the datagram of a call says under the options of the call, if the format is taken. -/
def Call.heading (call : Call) : Heading :=
  match probeVersion call.data with
  | none => ⟨call.opts.exporter, "", 0, none, none⟩
  | some v =>
    match if call.restrict.Accepts v then parseHeader call.data else none with
    | none => ⟨call.opts.exporter, v.asStr, 0, none, none⟩
    | some hdr =>
      let own := hdr.obsDomain.getD 0
      -- Only the two formats with templates let the domain be overridden.
      let obsDomain := if v = .v9 ∨ v = .v10 then call.opts.obsDomainOverride.getD own else own
      ⟨call.exporter, v.asStr, obsDomain, hdr.exportTime, hdr.sequence⟩

/-- All rows of the origin have the heading, in each output mode. -/
def Emission.Headed (heading : Heading) (e : Emission) : Prop :=
  ∀ flowsOnly, ∀ row ∈ e.rows flowsOnly, row.heading = heading

end Definitions

section Rows

/-- A row that no Data Set gave is the only one of its origin. -/
theorem Emission.eq_of_mem_rows {e : Emission} {row other : FlowRecord} (h : e = .row row ∨ e = .counterSample row)
    {flowsOnly : Bool} (hother : other ∈ e.rows flowsOnly) : other = row := by
  rcases h with rfl | rfl
  · exact List.mem_singleton.mp hother
  · cases flowsOnly with
    | false => exact List.mem_singleton.mp hother
    | true => contradiction

/-- Mapping a field leaves the heading of the row. -/
theorem mapField_heading (p : PartialRecord) (f : FieldSpec) (bytes : Bytes) :
    (mapField p f bytes).row.heading = p.row.heading := by
  rw [mapField_eq]
  cases f.column with
  | some col => cases col <;> rfl
  | none =>
    obtain ⟨diagnostics, hkept⟩ := keepRaw_eq p f bytes
    rw [hkept]
    rfl

/-- What mapping one field leaves of a row, mapping the fields of a record leaves. -/
theorem decodeFields_keeps {α : Type} {shown : FlowRecord → α}
    (hfield : ∀ p f bytes, shown (mapField p f bytes).row = shown p.row) {fields : List FieldSpec}
    {p p' : PartialRecord} {c c' : Cursor} (h : decodeFields fields p c = some (p', c')) :
    shown p'.row = shown p.row := by
  induction fields generalizing p c with
  | nil =>
    cases h
    rfl
  | cons f fields ih =>
    rw [decodeFields_cons] at h
    obtain ⟨⟨bytes, c₁⟩, -, h⟩ := Option.bind_eq_some_iff.mp h
    exact (ih h).trans (hfield p f bytes)

/-- A record has the heading that it is decoded under. -/
theorem heading_of_decodeOneRecord {tpl : TemplateEntry} {ctx : Ctx} {cur cur' : Cursor} {row : FlowRecord}
    (h : decodeOneRecord tpl cur ctx = some (row, cur')) : row.heading = ctx.heading := by
  obtain ⟨⟨p, c⟩, hfields, hrow⟩ := Option.bind_eq_some_iff.mp h
  cases hrow
  have hresolved : (resolveTimes p ctx).heading = p.row.heading := by
    unfold resolveTimes
    split <;> rfl
  rw [hresolved, decodeFields_keeps mapField_heading hfields]
  rfl

/-- All rows of a Data Set have the heading that it is decoded under. -/
theorem heading_of_mem_decodeDataSet {tpl : TemplateEntry} {payload : Bytes} {ctx : Ctx} {flowsOnly : Bool}
    {row : FlowRecord} (h : row ∈ decodeDataSet tpl payload ctx flowsOnly) : row.heading = ctx.heading := by
  have hrecords : ∀ {rounds cur}, row ∈ decodeRecords tpl ctx rounds cur → row.heading = ctx.heading := by
    intro rounds
    induction rounds with
    | zero => exact fun h => absurd h List.not_mem_nil
    | succ rounds ih =>
      intro cur h
      rw [decodeRecords] at h
      split at h
      · contradiction
      · split at h
        · contradiction
        · split at h
          · rw [List.mem_singleton.mp h]
            rfl
          · rename_i row' cur' hone
            split at h
            · rw [List.mem_singleton.mp h]
              exact heading_of_decodeOneRecord hone
            · rcases List.mem_cons.mp h with hfirst | hrest
              · rw [hfirst]
                exact heading_of_decodeOneRecord hone
              · exact ih hrest
  unfold decodeDataSet at h
  split at h
  · contradiction
  · exact hrecords h

namespace Sflow

variable {exporterId : String} {subAgentId : UInt32} {sequence : UInt64} {e : Emission}

/-- The heading of the rows of an sFlow datagram. -/
def sampleHeading (exporterId : String) (subAgentId : UInt32) (sequence : UInt64) : Heading :=
  ⟨exporterId, Version.sflow5.asStr, subAgentId, none, some sequence⟩

/-- Every row of the sample loop is one of a flow sample, one of a counter sample, or the one of a cut sample. -/
theorem cases_of_mem_samplesTrace {count : ℕ} {c : Cursor}
    (h : e ∈ samplesTrace exporterId subAgentId sequence count c) :
    ∃ row : FlowRecord, (e = .row row ∨ e = .counterSample row) ∧
      (row = .diagnostic exporterId Version.sflow5.asStr subAgentId none (some sequence) "truncated" ∨
        ∃ body expanded, row ∈ decodeFlowSample body exporterId subAgentId sequence expanded ∨
          row = decodeCounterSample body exporterId subAgentId sequence expanded) := by
  induction count generalizing c with
  | zero => contradiction
  | succ count ih =>
    rw [samplesTrace] at h
    split at h
    · contradiction
    · split at h
      · contradiction
      · split at h
        · exact ⟨_, .inl (List.mem_singleton.mp h), .inl rfl⟩
        · rcases List.mem_append.mp h with hsample | hrest
          · unfold sampleTrace at hsample
            dsimp only at hsample
            split at hsample
            · obtain ⟨row, hrow, rfl⟩ := List.mem_map.mp hsample
              exact ⟨row, .inl rfl, .inr ⟨_, _, .inl hrow⟩⟩
            · split at hsample
              · exact ⟨_, .inr (List.mem_singleton.mp hsample), .inr ⟨_, _, .inr rfl⟩⟩
              · contradiction
          · exact ih hrest

/-- The rows of the sample loop have the heading of the datagram. -/
theorem heading_of_mem_samplesTrace {count : ℕ} {c : Cursor}
    (h : e ∈ samplesTrace exporterId subAgentId sequence count c) :
    ∃ row : FlowRecord, (e = .row row ∨ e = .counterSample row) ∧
      row.heading = sampleHeading exporterId subAgentId sequence := by
  have hflow := fun rate count c row => foldRecords_keeps FlowRecord.heading
    (f := fun recType body row => parseFlowRecord recType body row rate)
    (fun recType body row => (congrArg FlowRecord.heading (parseFlowRecord_fills recType body rate row)).trans rfl)
    count c row
  have hcounter := fun count c row => foldRecords_keeps FlowRecord.heading
    (f := fun recType rbody row => row.putRaw s!"sflow.counter_format_{recType &&& 0x0fff}" rbody)
    (fun _ _ _ => rfl) count c row
  obtain ⟨row, he, hrow⟩ := cases_of_mem_samplesTrace h
  refine ⟨row, he, ?_⟩
  rcases hrow with rfl | ⟨body, expanded, hrow | rfl⟩
  · rfl
  · unfold decodeFlowSample at hrow
    rw [List.mem_singleton.mp hrow]
    exact hflow _ _ _ _
  · unfold decodeCounterSample
    exact hcounter _ _ _

end Sflow

end Rows

section Calls

variable {call : Call} {fmt : TemplatedFormat} {ctx : Ctx} {sets : List FlowSet} {c : TemplateCache} {e : Emission}
  {key : TemplateKey} {rec : PendingRecord}

/-- A row, also one that a mode drops, has its own heading. -/
theorem Emission.headed_row {row : FlowRecord} (h : e = .row row ∨ e = .counterSample row) :
    e.Headed row.heading :=
  fun _ _ hother => by rw [eq_of_mem_rows h hother]

/-- What a datagram without templates is answered with, by its version and whether the format is taken. -/
theorem Call.statelessTrace_cases (h : call.format = none) {v : Version} (hprobe : probeVersion call.data = some v) :
    v = .v5 ∧ call.restrict.Accepts v ∧ call.statelessTrace = (V5.decode call.data call.opts.exporter).map .row ∨
      v = .sflow5 ∧ call.restrict.Accepts v ∧ call.statelessTrace = Sflow.trace call.data call.opts.exporter ∨
      ¬ call.restrict.Accepts v ∧ call.statelessTrace = [.row (.diagnostic call.opts.exporter v.asStr 0 none none
        s!"decode-error:format-{v.asStr}-not-accepted-here")] := by
  have hformat := h
  unfold Call.format at h
  unfold Call.statelessTrace
  rw [hprobe] at h ⊢
  rw [hformat]
  cases v <;> cases hrestrict : call.restrict <;> simp_all [Restrict.Accepts]

end Calls

section Runs

variable {capEntries capPendingBytes : UInt32}

end Runs

end Netflow
