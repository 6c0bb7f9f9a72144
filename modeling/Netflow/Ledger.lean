import Netflow.Common.LateBinding
import Netflow.Decode.SflowRecord
import Netflow.Trace

/-!
# Exactly-once accounting of Data Sets

The scan is an instance of late binding: template layouts are the definitions, Data Sets
the items, the pending buffer holds those that wait. Each pass of a call is a run of that
abstract machine, whatever the caps, modes, clocks and redefinitions, so its ledger holds
of every scan: no Data Set is lost, and none is decoded or reported twice.
-/

namespace Netflow

open LateBinding (Outcome State Step Run)

/-- The part of a template that decoding depends on. -/
structure Layout where
  kind : TemplateKind
  fields : List FieldSpec
  deriving DecidableEq, Repr

/-- The layout of a cached entry. -/
def TemplateEntry.layout (e : TemplateEntry) : Layout := ⟨e.kind, e.fields⟩

/-- The layout of a definition. -/
def TemplateDef.layout (d : TemplateDef) : Layout := ⟨d.kind, d.fields⟩

/-- The abstract state of a cache: the layouts known and the Data Sets waiting. -/
def TemplateCache.binding (c : TemplateCache) : State TemplateKey Layout PendingRecord where
  known key := (c.entries[key]?).map TemplateEntry.layout
  waiting := ↑(KeyedQueue.contents c.pending)

/-- What an origin of rows says about a Data Set, if it is about one. -/
def Emission.outcome? : Emission → Option (Outcome TemplateKey Layout PendingRecord)
  | .row _ | .counterSample _ => none
  | .dataSet key tpl rec => some (.resolved key tpl.layout rec)
  | .missing key rec _ => some (.unresolved key rec)

/-- The Data Set an origin of rows accounts for, if any. -/
def Emission.subject? (e : Emission) : Option (TemplateKey × PendingRecord) :=
  e.outcome?.map Outcome.subject

/-- The outcomes of a trace, without their order. -/
def outcomes (trace : List Emission) : Multiset (Outcome TemplateKey Layout PendingRecord) :=
  ↑(trace.filterMap Emission.outcome?)

@[simp] theorem outcomes_append (first second : List Emission) :
    outcomes (first ++ second) = outcomes first + outcomes second := by
  simp [outcomes]

/-- Rows of stateless origin account for no Data Set. -/
theorem outcomes_eq_zero {trace : List Emission} (h : ∀ e ∈ trace, e.outcome? = none) :
    outcomes trace = 0 := by
  rw [outcomes, List.filterMap_eq_nil_iff.mpr h]
  rfl

/-- The template definitions a call learns, by key. -/
def Call.learned (call : Call) : List (TemplateKey × Layout) :=
  match call.parsed with
  | some (fmt, ctx, sets) =>
    (fmt.definitions sets).map fun d => (d.key ctx.exporter ctx.obsDomain, d.layout)
  | none => []

/-- The Data Sets of a call's datagram: those of an accepted v9 or IPFIX datagram whose header
parses and whose Set region splits. -/
def Call.arrivals (call : Call) : List (TemplateKey × PendingRecord) :=
  match call.parsed with
  | some (_, ctx, sets) => ctx.arrivals sets
  | none => []

/-- Only definitions in the given list are learned. -/
def learnableFrom (learned : List (TemplateKey × Layout)) (key : TemplateKey) (layout : Layout) : Prop :=
  (key, layout) ∈ learned

section Steps

variable {learnable : TemplateKey → Layout → Prop}

/-- Storing an entry keeps its layout. -/
theorem TemplateCache.stored_layout (c : TemplateCache) (key : TemplateKey) (entry : TemplateEntry) :
    (c.stored key entry).layout = entry.layout := by
  unfold stored
  split <;> rfl

/-- A layout known after an upsert is the one upserted, or was known before. -/
theorem known_of_upsert {c : TemplateCache} {key k : TemplateKey} {entry : TemplateEntry} {layout : Layout}
    (h : (c.upsert key entry).binding.known k = some layout) :
    Function.update c.binding.known key (some entry.layout) k = some layout := by
  obtain ⟨e, he, rfl⟩ := Option.map_eq_some_iff.mp h
  rcases TemplateCache.getElem?_of_upsert he with ⟨rfl, rfl⟩ | ⟨hne, hold⟩
  · rw [Function.update_self, c.stored_layout]
  · rw [Function.update_of_ne hne.symm]
    exact Option.map_eq_some_iff.mpr ⟨e, hold, rfl⟩

/-- An upsert learns its layout and may forget others by eviction. -/
theorem upsert_run {key : TemplateKey} {entry : TemplateEntry} (h : learnable key entry.layout)
    (c : TemplateCache) : Run learnable c.binding 0 0 (c.upsert key entry).binding :=
  (Step.learn h).run.tail (.forget fun _ _ => known_of_upsert)

/-- Pass 1 learns the definitions of the datagram. -/
theorem learnDefs_run {exporter : String} {obsDomain : UInt32} {now : Int64} {defs : List TemplateDef}
    (h : ∀ d ∈ defs, learnable (d.key exporter obsDomain) d.layout) (c : TemplateCache) :
    Run learnable c.binding 0 0 (learnDefs exporter obsDomain now defs c).binding := by
  induction defs generalizing c with
  | nil => exact .refl _
  | cons d defs ih =>
    have hhead : Run learnable c.binding 0 0 (c.upsert _ (d.entry now)).binding :=
      upsert_run (h d List.mem_cons_self) c
    exact hhead.trans (ih (fun e he => h e (List.mem_cons_of_mem _ he)) _)

/-- A template whose layout is known can be used, and has that layout. -/
theorem exists_useTemplate_of_known {c : TemplateCache} {key : TemplateKey} {layout : Layout}
    (h : c.binding.known key = some layout) (now : Int64) :
    ∃ tpl c', c.useTemplate key now = some (tpl, c') ∧ tpl.layout = layout := by
  obtain ⟨e, he, rfl⟩ := Option.map_eq_some_iff.mp h
  exact ⟨_, _, TemplateCache.useTemplate_eq_some.mpr ⟨e, he, rfl, rfl⟩, rfl⟩

/-- Using a template leaves the abstract state alone and tells the layout known. -/
theorem useTemplate_binding {c c' : TemplateCache} {key : TemplateKey} {now : Int64}
    {tpl : TemplateEntry} (h : c.useTemplate key now = some (tpl, c')) :
    c'.binding = c.binding ∧ c.binding.known key = some tpl.layout := by
  obtain ⟨e, he, rfl, rfl⟩ := TemplateCache.useTemplate_eq_some.mp h
  refine ⟨?_, Option.map_eq_some_iff.mpr ⟨e, he, rfl⟩⟩
  rw [TemplateCache.binding, TemplateCache.binding, State.mk.injEq]
  refine ⟨?_, rfl⟩
  funext k
  rw [Std.ExtTreeMap.getElem?_insert]
  split
  · rename_i hk
    rw [← Std.LawfulEqCmp.eq_of_compare hk, he]
    rfl
  · rfl

/-- Pass 2 changes no known layout. -/
theorem Settles.known_eq {ctx : Ctx} {now : Int64} {sets : List FlowSet} {c c' : TemplateCache}
    {trace : List Emission} (h : Settles ctx now sets c trace c') : c'.binding.known = c.binding.known := by
  induction h with
  | nil => rfl
  | skip _ _ ih | refused _ _ _ _ ih => exact ih
  | known _ huse _ ih => rw [ih, (useTemplate_binding huse).1]
  | stored _ _ hpush _ ih =>
    rw [ih, TemplateCache.eq_of_pushPending hpush]
    rfl

/-- Without a Data Set pass 2 does nothing. -/
theorem Settles.eq_of_arrivals {ctx : Ctx} {now : Int64} {sets : List FlowSet} {c c' : TemplateCache}
    {trace : List Emission} (h : Settles ctx now sets c trace c') (harrivals : ctx.arrivals sets = []) :
    trace = [] ∧ c' = c := by
  induction h with
  | nil => exact ⟨rfl, rfl⟩
  | skip hid _ ih => exact ih (by rwa [Ctx.arrivals_cons_of_lt hid] at harrivals)
  | known hid | stored hid | refused hid =>
    rw [Ctx.arrivals_cons_of_not_lt hid] at harrivals
    contradiction

/-- Buffering a Data Set holds it. -/
theorem pushPending_stored_run {c c' : TemplateCache} {key : TemplateKey} {rec : PendingRecord}
    (hpush : c.pushPending key rec = (true, c')) :
    Run learnable c.binding {(key, rec)} 0 c'.binding := by
  obtain rfl := TemplateCache.eq_of_pushPending hpush
  have hwaiting : (↑(KeyedQueue.contents (KeyedQueue.enqueue c.pending key rec)) : Multiset _) =
      (key, rec) ::ₘ ↑(KeyedQueue.contents c.pending) := by
    rw [Multiset.cons_coe]
    exact Multiset.coe_eq_coe.mpr (KeyedQueue.contents_enqueue_perm c.pending key rec)
  change Run learnable c.binding {(key, rec)} 0 ⟨_, _⟩
  rw [hwaiting]
  exact Step.hold.run

/-- Pass 2 settles or holds each Data Set of the datagram. -/
theorem Settles.run {ctx : Ctx} {now : Int64} {sets : List FlowSet} {c c' : TemplateCache}
    {trace : List Emission} (h : Settles ctx now sets c trace c') :
    Run learnable c.binding ↑(ctx.arrivals sets) (outcomes trace) c'.binding := by
  induction h with
  | nil => exact .refl _
  | skip hid _ ih => rwa [Ctx.arrivals_cons_of_lt hid]
  | known hid huse _ ih =>
    obtain ⟨hsame, hknown⟩ := useTemplate_binding huse
    rw [hsame] at ih
    rw [Ctx.arrivals_cons_of_not_lt hid]
    exact (Step.resolve hknown).run.trans ih
  | stored hid _ hpush _ ih =>
    rw [Ctx.arrivals_cons_of_not_lt hid]
    simpa using (pushPending_stored_run hpush).trans ih
  | refused hid _ _ _ ih =>
    rw [Ctx.arrivals_cons_of_not_lt hid]
    exact Step.refuse.run.trans ih

/-- Taking the records of a key against a known layout releases them. -/
theorem takePending_run {c : TemplateCache} {key : TemplateKey} {tpl : TemplateEntry}
    (hknown : c.binding.known key = some tpl.layout) :
    Run learnable c.binding 0 (outcomes ((c.takePending key).1.map (.dataSet key tpl)))
      (c.takePending key).2.binding := by
  have hwaiting : c.binding.waiting =
      (↑(c.takePending key).1 : Multiset PendingRecord).map (Prod.mk key) +
        (c.takePending key).2.binding.waiting :=
    Multiset.coe_eq_coe.mpr (KeyedQueue.contents_perm_erase c.pending key)
  have hrelease : Run learnable c.binding 0 _ _ := (Step.release hknown hwaiting).run
  have houtcomes : outcomes ((c.takePending key).1.map (.dataSet key tpl)) =
      (↑(c.takePending key).1 : Multiset PendingRecord).map (Outcome.resolved key tpl.layout) := by
    rw [outcomes, List.filterMap_map, Multiset.map_coe]
    exact congrArg _ (List.filterMap_eq_map ▸ rfl)
  rw [houtcomes]
  exact hrelease

/-- The retry releases Data Sets whose layout is known. -/
theorem Retries.run {now : Int64} {keys : List TemplateKey} {c c' : TemplateCache}
    {trace : List Emission} (h : Retries now keys c trace c') :
    Run learnable c.binding 0 (outcomes trace) c'.binding := by
  induction h with
  | nil => exact .refl _
  | skip _ _ ih => exact ih
  | release huse _ ih =>
    obtain ⟨hsame, hknown⟩ := useTemplate_binding huse
    rw [← hsame] at hknown ⊢
    rw [outcomes_append]
    exact (takePending_run hknown).trans ih

/-- The retry changes no known layout. -/
theorem Retries.known_eq {now : Int64} {keys : List TemplateKey} {c c' : TemplateCache}
    {trace : List Emission} (h : Retries now keys c trace c') : c'.binding.known = c.binding.known := by
  induction h with
  | nil => rfl
  | skip _ _ ih => exact ih
  | release huse _ ih =>
    rw [ih, ← (useTemplate_binding huse).1]
    rfl

/-- The final flush abandons what still waits. -/
theorem flushTrace_run (c : TemplateCache) :
    Run learnable c.binding 0 (outcomes (flushTrace c)) ⟨c.binding.known, 0⟩ := by
  have houtcomes : outcomes (flushTrace c) =
      c.binding.waiting.map fun subject => .unresolved subject.1 subject.2 := by
    simp only [outcomes, flushTrace, TemplateCache.binding, KeyedQueue.contents, Multiset.map_coe,
      List.filterMap_flatMap, List.map_flatMap, List.filterMap_map, List.map_map]
    congr 2
    funext entry
    exact congrFun List.filterMap_eq_map _
  rw [houtcomes]
  exact Step.abandon.run

end Steps

section Scans

/-- The rows of an sFlow datagram show no template id. -/
theorem Sflow.exists_row_of_mem_samplesTrace {exporterId : String} {subAgentId : UInt32}
    {sequence : UInt64} {count : ℕ} {c : Cursor} {e : Emission}
    (h : e ∈ samplesTrace exporterId subAgentId sequence count c) :
    ∃ record, (e = .row record ∨ e = .counterSample record) ∧ record.templateId = none := by
  induction count generalizing c with
  | zero => contradiction
  | succ count ih =>
    simp only [samplesTrace] at h
    split at h
    · contradiction
    · split at h
      · contradiction
      · split at h
        · exact ⟨_, .inl (List.mem_singleton.mp h), rfl⟩
        · rcases List.mem_append.mp h with hsample | hrest
          · simp only [sampleTrace] at hsample
            split at hsample
            · obtain ⟨row, hrow, rfl⟩ := List.mem_map.mp hsample
              exact ⟨row, .inl rfl, (of_mem_decodeFlowSample hrow).1⟩
            · split at hsample
              · exact ⟨_, .inr (List.mem_singleton.mp hsample), (decodeCounterSample_keeps _ _ _ _ _).1⟩
              · contradiction
          · exact ih hrest

/-- The rows of an sFlow datagram, or of a bad one, show no template id. -/
theorem Sflow.exists_row_of_mem_trace {data : Bytes} {exporter : String} {e : Emission}
    (h : e ∈ trace data exporter) :
    ∃ record, (e = .row record ∨ e = .counterSample record) ∧ record.templateId = none := by
  unfold trace at h
  split at h
  · exact ⟨_, .inl (List.mem_singleton.mp h), rfl⟩
  · exact exists_row_of_mem_samplesTrace h

/-- A datagram that reaches no template pass only has rows that show no template id. -/
theorem Call.exists_row_of_mem_statelessTrace {call : Call} {e : Emission} (h : e ∈ call.statelessTrace) :
    ∃ record, (e = .row record ∨ e = .counterSample record) ∧ record.templateId = none := by
  unfold Call.statelessTrace at h
  split at h
  · refine ⟨_, .inl (List.mem_singleton.mp h), ?_⟩
    rw [Call.rejection]
    split <;> rfl
  · split at h
    · obtain ⟨row, hrow, rfl⟩ := List.mem_map.mp h
      exact ⟨row, .inl rfl, V5.templateId_of_mem_decode hrow⟩
    · obtain ⟨row, hrow, rfl⟩ := List.mem_map.mp h
      exact ⟨row, .inl rfl, V5.templateId_of_mem_decode hrow⟩
    · exact Sflow.exists_row_of_mem_trace h
    · exact Sflow.exists_row_of_mem_trace h
    · exact ⟨_, .inl (List.mem_singleton.mp h), rfl⟩
    · exact ⟨_, .inl (List.mem_singleton.mp h), rfl⟩

/-- A datagram that reaches no template pass accounts for no Data Set. -/
theorem Call.outcome?_of_mem_statelessTrace {call : Call} {e : Emission}
    (h : e ∈ call.statelessTrace) : e.outcome? = none := by
  obtain ⟨record, rfl | rfl, -⟩ := Call.exists_row_of_mem_statelessTrace h <;> rfl

variable {learnable : TemplateKey → Layout → Prop}

/-- The passes of a call settle or hold the Data Sets of its datagram. -/
theorem Call.passes_run {call : Call} (h : ∀ key layout, (key, layout) ∈ call.learned → learnable key layout)
    (c : TemplateCache) :
    Run learnable c.binding ↑call.arrivals (outcomes (call.passes c).1) (call.passes c).2.binding := by
  rcases call.passes_cases c with ⟨hparsed, hpasses⟩ |
      ⟨fmt, ctx, sets, trace, c', hparsed, hsettles, hpasses⟩
  · rw [hpasses, outcomes_eq_zero fun e he => Call.outcome?_of_mem_statelessTrace he]
    simp only [Call.arrivals, hparsed]
    exact .refl _
  · simp only [Call.learned, hparsed] at h
    simp only [hpasses, Call.arrivals, hparsed]
    have hlearn : ∀ d ∈ fmt.definitions sets, learnable (d.key ctx.exporter ctx.obsDomain) d.layout :=
      fun d hd => h _ _ (List.mem_map_of_mem hd)
    simpa using (learnDefs_run hlearn c).trans hsettles.run

/-- A call settles or holds the Data Sets of its datagram and may release held ones. -/
theorem Call.trace_run {call : Call} (h : ∀ key layout, (key, layout) ∈ call.learned → learnable key layout)
    (c : TemplateCache) :
    Run learnable c.binding ↑call.arrivals (outcomes (call.trace c).1) (call.trace c).2.binding := by
  have hpasses := Call.passes_run h c
  rcases call.trace_cases c with ⟨-, htrace⟩ | ⟨retried, c', hretries, htrace⟩
  · rwa [htrace]
  · rw [htrace, outcomes_append]
    simpa using hpasses.trans hretries.run

/-- A sequence of calls is a run of the abstract machine over all its Data Sets. -/
theorem runTrace_run {calls : List Call}
    (h : ∀ key layout, (key, layout) ∈ calls.flatMap Call.learned → learnable key layout)
    (c : TemplateCache) :
    Run learnable c.binding ↑(calls.flatMap Call.arrivals) (outcomes (runTrace calls c).1.flatten)
      (runTrace calls c).2.binding := by
  induction calls generalizing c with
  | nil => exact .refl _
  | cons call calls ih =>
    simp only [List.flatMap_cons, List.mem_append] at h
    have hcall := Call.trace_run (fun key layout hmem => h key layout (.inl hmem)) c
    have hrest := ih (fun key layout hmem => h key layout (.inr hmem)) (call.trace c).2
    simp only [runTrace, List.flatten_cons, outcomes_append, List.flatMap_cons, ← Multiset.coe_add]
    exact hcall.trans hrest

/-- Whatever a run leaves buffered was buffered before or arrived in it. -/
theorem mem_contents_runTrace {calls : List Call} {c : TemplateCache} {p : TemplateKey × PendingRecord}
    (h : p ∈ KeyedQueue.contents (runTrace calls c).2.pending) :
    p ∈ KeyedQueue.contents c.pending ∨ p ∈ calls.flatMap Call.arrivals := by
  have hrun : Run (learnableFrom (calls.flatMap Call.learned)) _ _ _ _ := runTrace_run (fun _ _ h => h) c
  have hmem : p ∈ (runTrace calls c).2.binding.waiting := h
  exact Multiset.mem_add.mp (hrun.ledger ▸ Multiset.mem_add.mpr (.inr hmem))

/-- A scan is such a run that leaves nothing waiting. -/
theorem scanTrace_run {calls : List Call}
    (h : ∀ key layout, (key, layout) ∈ calls.flatMap Call.learned → learnable key layout)
    (c : TemplateCache) :
    Run learnable c.binding ↑(calls.flatMap Call.arrivals) (outcomes (scanTrace calls c))
      ⟨(runTrace calls c).2.binding.known, 0⟩ := by
  simp only [scanTrace, outcomes_append]
  simpa using (runTrace_run h c).trans (flushTrace_run _)

/-- An origin that accounts for a Data Set either decodes its body or reports it missing. -/
theorem Emission.rows_of_subject? {e : Emission} {key : TemplateKey} {rec : PendingRecord}
    (h : e.subject? = some (key, rec)) (flowsOnly : Bool) :
    (∃ tpl, e.rows flowsOnly = decodeDataSet tpl rec.bytes (rec.ctx key) flowsOnly) ∨
      ∃ row : FlowRecord, e.rows flowsOnly = [row] ∧
        row.diagnostics = some s!"missing-template:{key.obsDomain}/{key.templateId}" := by
  cases e with
  | row | counterSample => contradiction
  | dataSet key tpl rec =>
    cases h
    exact .inl ⟨tpl, rfl⟩
  | missing key rec version =>
    cases h
    exact .inr ⟨_, rfl, rfl⟩

/-- The Data Sets a scan with nothing buffered at its start accounts for are those that arrive. -/
theorem scanTrace_subjects (calls : List Call) {c : TemplateCache} (h : c.pending = ∅) :
    ((scanTrace calls c).filterMap Emission.subject?).Perm (calls.flatMap Call.arrivals) := by
  have hrun : Run (learnableFrom (calls.flatMap Call.learned)) _ _ _ _ := scanTrace_run (fun _ _ h => h) c
  have hledger := hrun.ledger
  have hstart : c.binding.waiting = 0 := by
    rw [TemplateCache.binding, h, KeyedQueue.contents_empty]
    rfl
  have hsubjects : (outcomes (scanTrace calls c)).map Outcome.subject =
      ↑((scanTrace calls c).filterMap Emission.subject?) := by
    rw [outcomes, Multiset.map_coe, List.map_filterMap]
    rfl
  rw [hstart, hsubjects, zero_add, add_zero] at hledger
  exact (Multiset.coe_eq_coe.mp hledger).symm

/-- Every Data Set of a scan is accounted for exactly once. The rows of every call and of the
flush are those of its trace, and over the whole trace the Data Sets decoded and the Data Sets
reported missing, taken together, are the Data Sets that arrived. -/
theorem scanTrace_accounts (capEntries capPendingBytes : UInt32) (calls : List Call) :
    let start := TemplateCache.empty capEntries capPendingBytes
    (runCalls calls start).1 = List.zipWith Call.rows calls (runTrace calls start).1 ∧
    (∀ flowsOnly, (flushPending (runCalls calls start).2).1 =
      traceRows flowsOnly (flushTrace (runTrace calls start).2)) ∧
    (∀ e ∈ scanTrace calls start, ∀ key rec, e.subject? = some (key, rec) → ∀ flowsOnly,
      (∃ tpl, e.rows flowsOnly = decodeDataSet tpl rec.bytes (rec.ctx key) flowsOnly) ∨
        ∃ row : FlowRecord, e.rows flowsOnly = [row] ∧
          row.diagnostics = some s!"missing-template:{key.obsDomain}/{key.templateId}") ∧
    ((scanTrace calls start).filterMap Emission.subject?).Perm (calls.flatMap Call.arrivals) := by
  intro start
  refine ⟨by rw [runCalls_eq_trace], fun flowsOnly => by rw [runCalls_eq_trace, flushPending_eq_trace],
    fun e _ key rec => Emission.rows_of_subject?, ?_⟩
  exact scanTrace_subjects calls rfl

end Scans

end Netflow
