import Netflow.Decode.Learned
import Netflow.Run

/-!
# Where the rows come from

Every row a decode call returns has one of four origins: a stateless decoder, an sFlow
counter sample, a Data Set handed to `decodeDataSet`, or a Data Set answered with a
`missing-template` row. The trace of a call lists these origins in order. It is computed on
the same caches as the call and does not look at the output mode; the rows of the call are
the rows of its trace under that mode.
-/

namespace Netflow

/-- The origin of some rows. A buffered or decoded Data Set is named by key and record. -/
inductive Emission
  | row (record : FlowRecord)
  | counterSample (record : FlowRecord)
  | dataSet (key : TemplateKey) (tpl : TemplateEntry) (rec : PendingRecord)
  | missing (key : TemplateKey) (rec : PendingRecord) (version : Version)
  deriving DecidableEq

/-- The rows of an origin in the given output mode. -/
def Emission.rows (flowsOnly : Bool) : Emission → List FlowRecord
  | .row record => [record]
  | .counterSample record => if flowsOnly then [] else [record]
  | .dataSet key tpl rec => decodeDataSet tpl rec.bytes (rec.ctx key) flowsOnly
  | .missing key rec version => [missingTemplate key version rec.exportTime rec.sequence]

/-- The rows of a trace in the given output mode. -/
def traceRows (flowsOnly : Bool) (trace : List Emission) : List FlowRecord :=
  trace.flatMap (Emission.rows flowsOnly)

@[simp] theorem traceRows_nil (flowsOnly : Bool) : traceRows flowsOnly [] = [] := rfl

@[simp] theorem traceRows_cons (flowsOnly : Bool) (e : Emission) (trace : List Emission) :
    traceRows flowsOnly (e :: trace) = e.rows flowsOnly ++ traceRows flowsOnly trace := rfl

@[simp] theorem traceRows_append (flowsOnly : Bool) (first second : List Emission) :
    traceRows flowsOnly (first ++ second) = traceRows flowsOnly first ++ traceRows flowsOnly second :=
  List.flatMap_append

/-- Rows of stateless origin are themselves in every mode. -/
@[simp] theorem traceRows_map_row (flowsOnly : Bool) (rows : List FlowRecord) :
    traceRows flowsOnly (rows.map .row) = rows := by
  induction rows with
  | nil => rfl
  | cons record rows ih =>
    simp only [List.map_cons, traceRows_cons, ih, Emission.rows, List.singleton_append]

section Sflow

namespace Sflow

/-- The origins of one sample's rows. -/
def sampleTrace (sampleType : UInt32) (body : Bytes) (exporterId : String) (subAgentId : UInt32)
    (sequence : UInt64) : List Emission :=
  let format := sampleType &&& 0x0fff
  if format = 1 ∨ format = 3 then
    (decodeFlowSample body exporterId subAgentId sequence (format = 3)).map .row
  else if format = 2 ∨ format = 4 then
    [.counterSample (decodeCounterSample body exporterId subAgentId sequence (format = 4))]
  else []

/-- The origins of the sample loop's rows. -/
def samplesTrace (exporterId : String) (subAgentId : UInt32) (sequence : UInt64) :
    ℕ → Cursor → List Emission
  | 0, _ => []
  | count + 1, c =>
    match c.u32 with
    | none => []
    | some (sampleType, c) =>
      match c.u32 with
      | none => []
      | some (sampleLen, c) =>
        match c.take sampleLen.toNat with
        | none =>
          [.row (.diagnostic exporterId Version.sflow5.asStr subAgentId none (some sequence) "truncated")]
        | some (body, c) =>
          sampleTrace sampleType body exporterId subAgentId sequence ++
            samplesTrace exporterId subAgentId sequence count c

/-- The origins of an sFlow datagram's rows. -/
def trace (data : Bytes) (exporter : String) : List Emission :=
  match readHeader data with
  | none =>
    [.row (.diagnostic exporter Version.sflow5.asStr 0 none none "decode-error:bad-sflow-header")]
  | some (hdr, c) =>
    samplesTrace (exporterId exporter hdr) hdr.subAgentId hdr.sequence.toUInt64
      (min hdr.numSamples.toNat 65536) c

/-- The rows of one sample are those of its trace. -/
theorem decodeSample_eq_trace (sampleType : UInt32) (body : Bytes) (exporterId : String)
    (subAgentId : UInt32) (sequence : UInt64) (flowsOnly : Bool) :
    decodeSample sampleType body exporterId subAgentId sequence flowsOnly =
      traceRows flowsOnly (sampleTrace sampleType body exporterId subAgentId sequence) := by
  simp only [decodeSample, sampleTrace]
  split
  · simp
  · by_cases hcounter : sampleType &&& 0x0fff = 2 ∨ sampleType &&& 0x0fff = 4
    · cases flowsOnly <;> simp [hcounter, Emission.rows]
    · simp [hcounter]

/-- The rows of the sample loop are those of its trace. -/
theorem decodeSamples_eq_trace (exporterId : String) (subAgentId : UInt32) (sequence : UInt64)
    (flowsOnly : Bool) (count : ℕ) (c : Cursor) :
    decodeSamples exporterId subAgentId sequence flowsOnly count c =
      traceRows flowsOnly (samplesTrace exporterId subAgentId sequence count c) := by
  induction count generalizing c with
  | zero => rfl
  | succ count ih =>
    simp only [decodeSamples, samplesTrace]
    cases c.u32 with
    | none => rfl
    | some typed =>
      obtain ⟨sampleType, c⟩ := typed
      simp only
      cases c.u32 with
      | none => rfl
      | some sized =>
        obtain ⟨sampleLen, c⟩ := sized
        simp only
        cases c.take sampleLen.toNat with
        | none => rfl
        | some framed => simp only [traceRows_append, decodeSample_eq_trace, ih]

/-- The rows of an sFlow datagram are those of its trace. -/
theorem decode_eq_trace (data : Bytes) (exporter : String) (flowsOnly : Bool) :
    decode data exporter flowsOnly = traceRows flowsOnly (trace data exporter) := by
  simp only [decode, trace]
  cases readHeader data with
  | none => rfl
  | some parsed => exact decodeSamples_eq_trace _ _ _ _ _ _

end Sflow

end Sflow

section Passes

/-- Pass 2 as a trace. -/
def settleSets (ctxBase : Ctx) (now : Int64) :
    List FlowSet → TemplateCache → List Emission × TemplateCache
  | [], cache => ([], cache)
  | fs :: rest, cache =>
    if fs.id < 256 then settleSets ctxBase now rest cache
    else
      let key := ctxBase.key fs.id
      let rec_ := ctxBase.pendingRecord fs.body
      match cache.useTemplate key now with
      | some (tpl, cache) =>
        let (out, cache) := settleSets ctxBase now rest cache
        (.dataSet key tpl rec_ :: out, cache)
      | none =>
        let (stored, cache) := cache.pushPending key rec_
        let (out, cache) := settleSets ctxBase now rest cache
        if stored then (out, cache) else (.missing key rec_ ctxBase.version :: out, cache)

/-- The retry as a trace. -/
def retryKeysTrace (now : Int64) :
    List TemplateKey → TemplateCache → List Emission × TemplateCache
  | [], cache => ([], cache)
  | key :: keys, cache =>
    match cache.useTemplate key now with
    | none => retryKeysTrace now keys cache
    | some (tpl, cache) =>
      let (recs, cache) := cache.takePending key
      let (out, cache) := retryKeysTrace now keys cache
      (recs.map (.dataSet key tpl) ++ out, cache)

/-- The flush as a trace. -/
def flushTrace (cache : TemplateCache) : List Emission :=
  cache.pending.toList.flatMap fun (key, recs) =>
    recs.map fun rec => .missing key rec (flushVersion recs)

/-- A record buffered under a header context is decoded later in that same context. -/
theorem ctx_pendingRecord {ctx : Ctx} (hversion : ctx.version = .v9 ∨ ctx.version = .v10)
    (templateId : UInt16) (body : Bytes) :
    (ctx.pendingRecord body).ctx (ctx.key templateId) = { ctx with templateId } := by
  rcases hversion with h | h <;> simp [PendingRecord.ctx, Ctx.pendingRecord, Ctx.key, h]

/-- Pass 2 returns the rows of its trace and leaves the same cache. -/
theorem decodeSets_eq_trace {ctx : Ctx} (hversion : ctx.version = .v9 ∨ ctx.version = .v10)
    (now : Int64) (flowsOnly : Bool) (sets : List FlowSet) (cache : TemplateCache) :
    decodeSets ctx now flowsOnly sets cache =
      (traceRows flowsOnly (settleSets ctx now sets cache).1, (settleSets ctx now sets cache).2) := by
  induction sets generalizing cache with
  | nil => rfl
  | cons fs sets ih =>
    simp only [decodeSets, settleSets]
    split
    · exact ih cache
    · cases cache.useTemplate (ctx.key fs.id) now with
      | some used =>
        simp only [ih, traceRows_cons, Emission.rows, ctx_pendingRecord hversion]
        rfl
      | none =>
        simp only [ih]
        cases (cache.pushPending (ctx.key fs.id) (ctx.pendingRecord fs.body)).1 <;> rfl

/-- The retry returns the rows of its trace and leaves the same cache. -/
theorem retryKeys_eq_trace (now : Int64) (flowsOnly : Bool) (keys : List TemplateKey)
    (cache : TemplateCache) :
    retryKeys now flowsOnly keys cache =
      (traceRows flowsOnly (retryKeysTrace now keys cache).1, (retryKeysTrace now keys cache).2) := by
  induction keys generalizing cache with
  | nil => rfl
  | cons key keys ih =>
    simp only [retryKeys, retryKeysTrace]
    cases hpeek : cache.peek key with
    | none =>
      have habsent : key ∉ cache.entries := by simpa [TemplateCache.peek] using hpeek
      rw [TemplateCache.useTemplate_eq_none.mpr habsent]
      exact ih cache
    | some e =>
      cases cache.useTemplate key now with
      | none => exact ih cache
      | some used =>
        simp only [ih, traceRows_append]
        congr 1
        simp [traceRows, List.flatMap_map, Emission.rows]

/-- The flush returns the rows of its trace, whatever the mode. -/
theorem flushPending_eq_trace (flowsOnly : Bool) (cache : TemplateCache) :
    (flushPending cache).1 = traceRows flowsOnly (flushTrace cache) := by
  simp [flushPending, flushTrace, TemplateCache.drainPending, traceRows, List.flatMap_assoc,
    List.flatMap_map, Emission.rows, ← List.map_eq_flatMap]

/-- Every way pass 2 can go: a Set is skipped, decoded, buffered or refused. -/
inductive Settles (ctx : Ctx) (now : Int64) :
    List FlowSet → TemplateCache → List Emission → TemplateCache → Prop
  | nil (c : TemplateCache) : Settles ctx now [] c [] c
  | skip {fs : FlowSet} {sets : List FlowSet} {c c' : TemplateCache} {trace : List Emission}
      (hid : fs.id < 256) (rest : Settles ctx now sets c trace c') :
      Settles ctx now (fs :: sets) c trace c'
  | known {fs : FlowSet} {sets : List FlowSet} {c c₁ c' : TemplateCache} {trace : List Emission}
      {tpl : TemplateEntry} (hid : ¬ fs.id < 256)
      (huse : c.useTemplate (ctx.key fs.id) now = some (tpl, c₁))
      (rest : Settles ctx now sets c₁ trace c') :
      Settles ctx now (fs :: sets) c
        (.dataSet (ctx.key fs.id) tpl (ctx.pendingRecord fs.body) :: trace) c'
  | stored {fs : FlowSet} {sets : List FlowSet} {c c₁ c' : TemplateCache} {trace : List Emission}
      (hid : ¬ fs.id < 256) (habsent : ctx.key fs.id ∉ c.entries)
      (hpush : c.pushPending (ctx.key fs.id) (ctx.pendingRecord fs.body) = (true, c₁))
      (rest : Settles ctx now sets c₁ trace c') : Settles ctx now (fs :: sets) c trace c'
  | refused {fs : FlowSet} {sets : List FlowSet} {c c' : TemplateCache} {trace : List Emission}
      (hid : ¬ fs.id < 256) (habsent : ctx.key fs.id ∉ c.entries)
      (hpush : c.pushPending (ctx.key fs.id) (ctx.pendingRecord fs.body) = (false, c))
      (rest : Settles ctx now sets c trace c') :
      Settles ctx now (fs :: sets) c
        (.missing (ctx.key fs.id) (ctx.pendingRecord fs.body) ctx.version :: trace) c'

/-- Pass 2 goes one of these ways. -/
theorem settleSets_settles (ctx : Ctx) (now : Int64) (sets : List FlowSet) (c : TemplateCache) :
    Settles ctx now sets c (settleSets ctx now sets c).1 (settleSets ctx now sets c).2 := by
  induction sets generalizing c with
  | nil => exact .nil c
  | cons fs sets ih =>
    simp only [settleSets]
    by_cases hid : fs.id < 256
    · rw [if_pos hid]
      exact .skip hid (ih c)
    · rw [if_neg hid]
      cases huse : c.useTemplate (ctx.key fs.id) now with
      | some used => exact .known hid huse (ih _)
      | none =>
        have habsent := TemplateCache.useTemplate_eq_none.mp huse
        rcases c.pushPending_cases (ctx.key fs.id) (ctx.pendingRecord fs.body) with hpush | hpush
        · simp only [hpush]
          exact .refused hid habsent hpush (ih _)
        · simp only [hpush]
          exact .stored hid habsent hpush (ih _)

/-- Each way of pass 2 is the one it takes. -/
theorem Settles.eq {ctx : Ctx} {now : Int64} {sets : List FlowSet} {c c' : TemplateCache}
    {trace : List Emission} (h : Settles ctx now sets c trace c') :
    settleSets ctx now sets c = (trace, c') := by
  induction h with
  | nil => rfl
  | skip hid _ ih => simp only [settleSets, if_pos hid, ih]
  | known hid huse _ ih => simp only [settleSets, if_neg hid, huse, ih]
  | stored hid habsent hpush _ ih =>
    simp [settleSets, if_neg hid, TemplateCache.useTemplate_eq_none.mpr habsent, hpush, ih]
  | refused hid habsent hpush _ ih =>
    simp [settleSets, if_neg hid, TemplateCache.useTemplate_eq_none.mpr habsent, hpush, ih]

/-- Every way the retry can go: a key is skipped, or its records are released. -/
inductive Retries (now : Int64) :
    List TemplateKey → TemplateCache → List Emission → TemplateCache → Prop
  | nil (c : TemplateCache) : Retries now [] c [] c
  | skip {key : TemplateKey} {keys : List TemplateKey} {c c' : TemplateCache}
      {trace : List Emission} (habsent : key ∉ c.entries) (rest : Retries now keys c trace c') :
      Retries now (key :: keys) c trace c'
  | release {key : TemplateKey} {keys : List TemplateKey} {c c₁ c' : TemplateCache}
      {trace : List Emission} {tpl : TemplateEntry} (huse : c.useTemplate key now = some (tpl, c₁))
      (rest : Retries now keys (c₁.takePending key).2 trace c') :
      Retries now (key :: keys) c ((c₁.takePending key).1.map (.dataSet key tpl) ++ trace) c'

/-- The retry goes one of these ways. -/
theorem retryKeysTrace_retries (now : Int64) (keys : List TemplateKey) (c : TemplateCache) :
    Retries now keys c (retryKeysTrace now keys c).1 (retryKeysTrace now keys c).2 := by
  induction keys generalizing c with
  | nil => exact .nil c
  | cons key keys ih =>
    simp only [retryKeysTrace]
    cases huse : c.useTemplate key now with
    | none => exact .skip (TemplateCache.useTemplate_eq_none.mp huse) (ih c)
    | some used => exact .release huse (ih _)

/-- Each way of the retry is the one it takes. -/
theorem Retries.eq {now : Int64} {keys : List TemplateKey} {c c' : TemplateCache}
    {trace : List Emission} (h : Retries now keys c trace c') :
    retryKeysTrace now keys c = (trace, c') := by
  induction h with
  | nil => rfl
  | skip habsent _ ih =>
    simp only [retryKeysTrace, TemplateCache.useTemplate_eq_none.mpr habsent, ih]
  | release huse _ ih => simp only [retryKeysTrace, huse, ih]

end Passes

section Calls

/-- The template-stateful format a call decodes its datagram as, if it is one and accepted. -/
def Call.format (call : Call) : Option TemplatedFormat :=
  match probeVersion call.data, call.restrict with
  | some .v9, .any | some .v9, .netflowOnly => some V9.format
  | some .v10, .any | some .v10, .ipfixOnly => some Ipfix.format
  | _, _ => none

/-- The format, header context and Sets of an accepted datagram whose header parses and whose
Set region splits. -/
def Call.parsed (call : Call) : Option (TemplatedFormat × Ctx × List FlowSet) := do
  let fmt ← call.format
  let hdr ← parseHeader call.data
  let sets ← (fmt.split call.data).toOption
  some (fmt, fmt.ctxBase call.opts.exporter call.opts.obsDomainOverride hdr, sets)

/-- What a parsed call comes from. -/
theorem Call.parsed_eq_some {call : Call} {fmt : TemplatedFormat} {ctx : Ctx} {sets : List FlowSet}
    (h : call.parsed = some (fmt, ctx, sets)) :
    call.format = some fmt ∧ fmt.split call.data = .ok sets ∧ ∃ hdr, parseHeader call.data = some hdr ∧
      ctx = fmt.ctxBase call.opts.exporter call.opts.obsDomainOverride hdr := by
  obtain ⟨fmt', hformat, h⟩ := Option.bind_eq_some_iff.mp h
  obtain ⟨hdr, hhdr, h⟩ := Option.bind_eq_some_iff.mp h
  obtain ⟨sets', hsplit, h⟩ := Option.bind_eq_some_iff.mp h
  cases h
  refine ⟨hformat, ?_, hdr, hhdr, rfl⟩
  cases hresult : fmt.split call.data with
  | error => simp [hresult, Except.toOption] at hsplit
  | ok out =>
    rw [hresult] at hsplit
    cases hsplit
    rfl

/-- The rejection row of a template-stateful datagram that is not `parsed`. -/
def Call.rejection (call : Call) (fmt : TemplatedFormat) : FlowRecord :=
  match parseHeader call.data with
  | none => .diagnostic call.opts.exporter fmt.version.asStr 0 none none fmt.badHeader
  | some hdr => .diagnostic call.opts.exporter fmt.version.asStr
      (fmt.ctxBase call.opts.exporter call.opts.obsDomainOverride hdr).obsDomain
      hdr.exportTime hdr.sequence fmt.badSet

/-- The origins of the rows of a datagram that reaches no template pass. -/
def Call.statelessTrace (call : Call) : List Emission :=
  match call.format with
  | some fmt => [.row (call.rejection fmt)]
  | none =>
    match probeVersion call.data, call.restrict with
    | some .v5, .any | some .v5, .netflowOnly => (V5.decode call.data call.opts.exporter).map .row
    | some .sflow5, .any | some .sflow5, .sflowOnly => Sflow.trace call.data call.opts.exporter
    | some v, _ => [.row (.diagnostic call.opts.exporter v.asStr 0 none none
        s!"decode-error:format-{v.asStr}-not-accepted-here")]
    | none, _ => [.row (.diagnostic call.opts.exporter "" 0 none none
        "decode-error:not-a-flow-datagram")]

/-- The cache a call's pass 1 leaves. -/
def Call.pass1 (call : Call) (cache : TemplateCache) : TemplateCache :=
  match call.parsed with
  | some (fmt, ctx, sets) => learnSets fmt ctx.exporter ctx.obsDomain call.opts.nowMicros sets cache
  | none => cache

/-- The two template passes of a call, or its stateless decoding. -/
def Call.passes (call : Call) (cache : TemplateCache) : List Emission × TemplateCache :=
  match call.parsed with
  | some (fmt, ctx, sets) =>
    settleSets ctx call.opts.nowMicros sets
      (learnSets fmt ctx.exporter ctx.obsDomain call.opts.nowMicros sets cache)
  | none => (call.statelessTrace, cache)

/-- Whether a call ends with a retry: its datagram is of a template-stateful version. -/
def Call.retries (call : Call) : Bool :=
  probeVersion call.data = some .v9 ∨ probeVersion call.data = some .v10

/-- The trace of a call and the cache it leaves. -/
def Call.trace (call : Call) (cache : TemplateCache) : List Emission × TemplateCache :=
  let (out, cache) := call.passes cache
  if call.retries ∧ ¬ cache.pendingIsEmpty then
    let (retried, cache) := retryKeysTrace call.opts.nowMicros cache.pendingKeys cache
    (out ++ retried, cache)
  else (out, cache)

/-- A call that retries does so whether or not anything is buffered. -/
theorem Call.trace_of_retries {call : Call} (h : call.retries) (cache : TemplateCache) :
    call.trace cache =
      let passed := call.passes cache
      let retried := retryKeysTrace call.opts.nowMicros passed.2.pendingKeys passed.2
      (passed.1 ++ retried.1, retried.2) := by
  simp only [Call.trace]
  split
  · rfl
  · rename_i hnot
    have hempty : (call.passes cache).2.pending = ∅ := by
      simpa [h, TemplateCache.pendingIsEmpty] using hnot
    have hkeys : (call.passes cache).2.pendingKeys = [] := by
      rw [TemplateCache.pendingKeys, hempty, Std.ExtTreeMap.keys_eq_nil_iff]
    simp [hkeys, retryKeysTrace]

/-- A call that does not retry is its passes. -/
theorem Call.trace_of_not_retries {call : Call} (h : ¬ call.retries) (cache : TemplateCache) :
    call.trace cache = call.passes cache := by
  simp only [Call.trace, h, false_and, Bool.false_eq_true, if_false]

/-- What the passes of a call do: pass 2 on what pass 1 has learned, or nothing to the cache. -/
theorem Call.passes_cases (call : Call) (c : TemplateCache) :
    call.parsed = none ∧ call.passes c = (call.statelessTrace, c) ∨
      ∃ fmt ctx sets trace c', call.parsed = some (fmt, ctx, sets) ∧
        Settles ctx call.opts.nowMicros sets
          (learnDefs ctx.exporter ctx.obsDomain call.opts.nowMicros (fmt.definitions sets) c) trace c' ∧
        call.passes c = (trace, c') := by
  cases hparsed : call.parsed with
  | none => exact .inl ⟨rfl, by rw [Call.passes, hparsed]⟩
  | some parsed =>
    obtain ⟨fmt, ctx, sets⟩ := parsed
    refine .inr ⟨fmt, ctx, sets, _, _, rfl, settleSets_settles _ _ _ _, ?_⟩
    rw [Call.passes, hparsed, ← learnSets_eq]

/-- What a call does after its passes: nothing, or a retry of everything buffered by then. -/
theorem Call.trace_cases (call : Call) (c : TemplateCache) :
    ¬ call.retries ∧ call.trace c = call.passes c ∨
      ∃ retried c', Retries call.opts.nowMicros (call.passes c).2.pendingKeys (call.passes c).2 retried c' ∧
        call.trace c = ((call.passes c).1 ++ retried, c') := by
  by_cases hretries : call.retries
  · exact .inr ⟨_, _, retryKeysTrace_retries _ _ _, Call.trace_of_retries hretries c⟩
  · exact .inl ⟨hretries, Call.trace_of_not_retries hretries c⟩

/-- The rows of pass 2 come first among those of a call. -/
theorem Call.passes_prefix (call : Call) (c : TemplateCache) : (call.passes c).1 <+: (call.trace c).1 := by
  rcases call.trace_cases c with ⟨-, htrace⟩ | ⟨retried, c', -, htrace⟩
  · rw [htrace]
  · rw [htrace]
    exact List.prefix_append _ _

/-- Only the two template-stateful formats are ever chosen. -/
theorem Call.format_version {call : Call} {fmt : TemplatedFormat} (h : call.format = some fmt) :
    fmt = V9.format ∧ probeVersion call.data = some .v9 ∨
      fmt = Ipfix.format ∧ probeVersion call.data = some .v10 := by
  unfold Call.format at h
  split at h <;> simp_all

/-- The header context of a parsed datagram is of a template-stateful version. -/
theorem Call.version_of_parsed {call : Call} {fmt : TemplatedFormat} {ctx : Ctx} {sets : List FlowSet}
    (h : call.parsed = some (fmt, ctx, sets)) : ctx.version = .v9 ∨ ctx.version = .v10 := by
  obtain ⟨hformat, -, hdr, -, rfl⟩ := Call.parsed_eq_some h
  rcases call.format_version hformat with ⟨rfl, -⟩ | ⟨rfl, -⟩
  · exact .inl rfl
  · exact .inr rfl

/-- A parsed call ends with a retry. -/
theorem Call.retries_of_parsed {call : Call} {fmt : TemplatedFormat} {ctx : Ctx} {sets : List FlowSet}
    (h : call.parsed = some (fmt, ctx, sets)) : call.retries := by
  obtain ⟨hformat, -⟩ := Call.parsed_eq_some h
  rcases call.format_version hformat with ⟨-, hversion⟩ | ⟨-, hversion⟩ <;> simp [Call.retries, hversion]

/-- The only diagnostic of a failed split is the one the format names. -/
theorem splitRegion_error {badSet diag : String} {rounds : ℕ} {region : Bytes}
    (h : splitRegion badSet rounds region = .error diag) : diag = badSet := by
  induction rounds generalizing region with
  | zero => contradiction
  | succ rounds ih =>
    rcases splitRegion_succ_eq_error h with ⟨-, -, hdiag⟩ | ⟨-, -, hrest⟩
    · exact hdiag
    · exact ih hrest

/-- A template-stateful datagram runs its two passes or is rejected. -/
theorem decodeTemplated_eq_trace {call : Call} {fmt : TemplatedFormat} (h : call.format = some fmt)
    (cache : TemplateCache) :
    decodeTemplated fmt call.data call.opts.exporter call.opts.obsDomainOverride cache
        call.opts.nowMicros call.opts.mode.isFlowsOnly =
      (traceRows call.opts.mode.isFlowsOnly (call.passes cache).1, (call.passes cache).2) := by
  have hversion : fmt.version = .v9 ∨ fmt.version = .v10 := by
    rcases call.format_version h with ⟨rfl, -⟩ | ⟨rfl, -⟩ <;> simp [V9.format, Ipfix.format]
  unfold decodeTemplated Call.passes Call.parsed Call.statelessTrace Call.rejection
  simp only [h, Option.bind_eq_bind, Option.bind_some]
  cases parseHeader call.data with
  | none => rfl
  | some hdr =>
    cases hsplit : fmt.split call.data with
    | error diag =>
      rw [splitRegion_error hsplit]
      rfl
    | ok sets => exact decodeSets_eq_trace hversion _ _ _ _

/-- The retry at the end of a decode call is that of its trace, when this holds of its passes. -/
theorem Call.retry_eq_trace (call : Call) {cache : TemplateCache} {passed : List FlowRecord × TemplateCache}
    (h : passed = (traceRows call.opts.mode.isFlowsOnly (call.passes cache).1, (call.passes cache).2)) :
    (match passed with
      | (out, cache) =>
        if (probeVersion call.data = some .v9 ∨ probeVersion call.data = some .v10) ∧
            ¬ cache.pendingIsEmpty then
          let (retried, cache) := retryPending cache call.opts.nowMicros call.opts.mode.isFlowsOnly
          (out ++ retried, cache)
        else (out, cache)) =
      (traceRows call.opts.mode.isFlowsOnly (call.trace cache).1, (call.trace cache).2) := by
  subst h
  simp only [Call.trace, Call.retries, decide_eq_true_eq, retryPending, retryKeys_eq_trace]
  split <;> simp

/-- A decode call returns the rows of its trace and leaves the same cache. -/
theorem Call.decode_eq_trace (call : Call) (cache : TemplateCache) :
    call.decode cache =
      (traceRows call.opts.mode.isFlowsOnly (call.trace cache).1, (call.trace cache).2) := by
  refine call.retry_eq_trace ?_
  cases hformat : call.format with
  | some fmt =>
    rw [← decodeTemplated_eq_trace hformat]
    unfold Call.format at hformat
    split at hformat <;> simp_all [V9.decode, Ipfix.decode]
  | none =>
    have hpasses : call.passes cache = (call.statelessTrace, cache) := by
      simp [Call.passes, Call.parsed, hformat]
    simp only [hpasses, Call.statelessTrace, hformat]
    unfold Call.format at hformat
    cases hversion : probeVersion call.data with
    | none => rfl
    | some v =>
      cases v <;> cases hrestrict : call.restrict <;>
        simp_all [Sflow.decode_eq_trace, Emission.rows]

/-- The traces of a run's calls and the cache it leaves. -/
def runTrace : List Call → TemplateCache → List (List Emission) × TemplateCache
  | [], cache => ([], cache)
  | call :: calls, cache =>
    let (trace, cache) := call.trace cache
    let (rest, cache) := runTrace calls cache
    (trace :: rest, cache)

/-- The trace of a scan: those of its calls and that of the final flush. -/
def scanTrace (calls : List Call) (cache : TemplateCache) : List Emission :=
  let (traces, cache) := runTrace calls cache
  traces.flatten ++ flushTrace cache

/-- The rows of a call in its own mode. -/
def Call.rows (call : Call) (trace : List Emission) : List FlowRecord :=
  traceRows call.opts.mode.isFlowsOnly trace

/-- A run returns, call by call, the rows of its traces and leaves the same cache. -/
theorem runCalls_eq_trace (calls : List Call) (cache : TemplateCache) :
    runCalls calls cache =
      (List.zipWith Call.rows calls (runTrace calls cache).1, (runTrace calls cache).2) := by
  induction calls generalizing cache with
  | nil => rfl
  | cons call calls ih =>
    rw [runCalls_cons, call.decode_eq_trace, ih]
    rfl

/-- A scan in a single mode returns the rows of its trace under that mode. -/
theorem scanRows_eq_trace {calls : List Call} {flowsOnly : Bool}
    (hmode : ∀ call ∈ calls, call.opts.mode.isFlowsOnly = flowsOnly) (cache : TemplateCache) :
    scanRows calls cache = traceRows flowsOnly (scanTrace calls cache) := by
  simp only [scanRows, runCalls_eq_trace, flushPending_eq_trace flowsOnly, scanTrace, traceRows_append]
  congr 1
  induction calls generalizing cache with
  | nil => rfl
  | cons call calls ih =>
    have hcall : call.rows = traceRows flowsOnly := by
      funext trace
      rw [Call.rows, hmode call List.mem_cons_self]
    simp only [runTrace, List.zipWith_cons_cons, List.flatten_cons, traceRows_append, hcall]
    rw [ih fun c hc => hmode c (List.mem_cons_of_mem _ hc)]

end Calls

end Netflow
