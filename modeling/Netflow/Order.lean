import Netflow.Capacity

/-!
# Capture-order independence

Below the caps and without redefinitions, a scan settles each Data Set by the one layout
its key ever gets, or reports it missing when there is none. Rows of stateless origin do
not depend on the state at all. So the rows of a scan are a function of its datagrams as a
multiset: their order and the clock do not matter.
-/

namespace Netflow

open LateBinding (Outcome Run settle)

section Rows

/-- An entry with the given layout. -/
def Layout.entry (layout : Layout) : TemplateEntry := ⟨layout.kind, layout.fields, 0, 0, 0, 0⟩

/-- The record loop looks at the fields of a template only. -/
theorem decodeRecords_congr {tpl tpl' : TemplateEntry} (h : tpl.fields = tpl'.fields) (ctx : Ctx)
    (rounds : ℕ) (cur : Cursor) : decodeRecords tpl ctx rounds cur = decodeRecords tpl' ctx rounds cur := by
  induction rounds generalizing cur with
  | zero => rfl
  | succ rounds ih =>
    have hmin : minFixed tpl = minFixed tpl' := by simp only [minFixed, h]
    have hone : decodeOneRecord tpl cur ctx = decodeOneRecord tpl' cur ctx := by
      simp only [decodeOneRecord, h]
    simp only [decodeRecords, hmin, hone, ih]

/-- Decoding a Data Set looks at the layout of a template only. -/
theorem decodeDataSet_congr {tpl tpl' : TemplateEntry} (h : tpl.layout = tpl'.layout) (payload : Bytes)
    (ctx : Ctx) (flowsOnly : Bool) :
    decodeDataSet tpl payload ctx flowsOnly = decodeDataSet tpl' payload ctx flowsOnly := by
  obtain ⟨hkind, hfields⟩ := Layout.mk.inj h
  simp only [decodeDataSet, hkind, decodeRecords_congr hfields]

/-- The rows an outcome calls for. -/
def outcomeRows (flowsOnly : Bool) : Outcome TemplateKey Layout PendingRecord → List FlowRecord
  | .resolved key layout rec => decodeDataSet layout.entry rec.bytes (rec.ctx key) flowsOnly
  | .unresolved key rec => [missingTemplate key rec.version rec.exportTime rec.sequence]

/-- Whether an origin reports its Data Set, if any, under the version that Data Set came in. -/
def Emission.OwnVersion : Emission → Prop
  | .missing _ rec version => version = rec.version
  | _ => True

/-- The rows of an origin that accounts for a Data Set are those its outcome calls for. -/
theorem Emission.rows_of_outcome? {e : Emission} {outcome : Outcome TemplateKey Layout PendingRecord}
    (h : e.outcome? = some outcome) (hversion : e.OwnVersion) (flowsOnly : Bool) :
    e.rows flowsOnly = outcomeRows flowsOnly outcome := by
  cases e with
  | row | counterSample => contradiction
  | dataSet key tpl rec =>
    cases h
    have hlayout : tpl.layout = tpl.layout.entry.layout := rfl
    exact decodeDataSet_congr hlayout _ _ _
  | missing key rec version =>
    cases h
    rw [rows, outcomeRows, show version = rec.version from hversion]

/-- Whether an origin accounts for no Data Set. -/
def Emission.isStateless (e : Emission) : Bool := e.outcome?.isNone

/-- The rows of a trace, without their order, are those of stateless origin and those its
outcomes call for. -/
theorem traceRows_eq_bind (flowsOnly : Bool) {trace : List Emission} (h : ∀ e ∈ trace, e.OwnVersion) :
    (traceRows flowsOnly trace : Multiset FlowRecord) =
      (traceRows flowsOnly (trace.filter Emission.isStateless) : Multiset FlowRecord) +
        (outcomes trace).bind fun outcome => (outcomeRows flowsOnly outcome : Multiset FlowRecord) := by
  induction trace with
  | nil => rfl
  | cons e trace ih =>
    obtain ⟨hhead, htail⟩ := List.forall_mem_cons.mp h
    rw [traceRows_cons, ← Multiset.coe_add, ih htail]
    cases houtcome : e.outcome? with
    | none =>
      have houtcomes : outcomes (e :: trace) = outcomes trace := by simp [outcomes, houtcome]
      rw [List.filter_cons_of_pos (by simp [Emission.isStateless, houtcome]), traceRows_cons,
        ← Multiset.coe_add, houtcomes, add_assoc]
    | some outcome =>
      have houtcomes : outcomes (e :: trace) = outcome ::ₘ outcomes trace := by
        simp [outcomes, houtcome]
      rw [List.filter_cons_of_neg (by simp [Emission.isStateless, houtcome]), houtcomes,
        Multiset.cons_bind, Emission.rows_of_outcome? houtcome hhead]
      exact add_left_comm _ _ _

end Rows

section Stateless

/-- The origins of a call's rows that do not depend on the cache. -/
def Call.stateless (call : Call) : List Emission :=
  if call.parsed.isSome then [] else call.statelessTrace

/-- Pass 2 has only origins that account for a Data Set. -/
theorem Settles.filter_isStateless {ctx : Ctx} {now : Int64} {sets : List FlowSet}
    {c c' : TemplateCache} {trace : List Emission} (h : Settles ctx now sets c trace c') :
    trace.filter Emission.isStateless = [] := by
  induction h with
  | nil => rfl
  | skip _ _ ih | stored _ _ _ _ ih => exact ih
  | known _ _ _ ih | refused _ _ _ _ ih => exact ih

/-- The retry has only origins that account for a Data Set. -/
theorem Retries.filter_isStateless {now : Int64} {keys : List TemplateKey} {c c' : TemplateCache}
    {trace : List Emission} (h : Retries now keys c trace c') :
    trace.filter Emission.isStateless = [] := by
  induction h with
  | nil => rfl
  | skip _ _ ih => exact ih
  | release _ _ ih =>
    rw [List.filter_append, ih, List.append_nil, List.filter_map]
    apply List.map_eq_nil_iff.mpr
    apply List.filter_eq_nil_iff.mpr
    intro rec _
    simp [Emission.isStateless, Emission.outcome?]

/-- The stateless origins of a call's trace do not depend on the cache. -/
theorem Call.filter_isStateless (call : Call) (c : TemplateCache) :
    (call.trace c).1.filter Emission.isStateless = call.stateless := by
  have hpasses : (call.passes c).1.filter Emission.isStateless = call.stateless := by
    rcases call.passes_cases c with ⟨hparsed, hpasses⟩ |
        ⟨fmt, ctx, sets, trace, c', hparsed, hsettles, hpasses⟩
    · simp only [hpasses, Call.stateless, hparsed]
      exact List.filter_eq_self.mpr fun e he => by
        simp [Emission.isStateless, Call.outcome?_of_mem_statelessTrace he]
    · simp only [hpasses, Call.stateless, hparsed]
      exact hsettles.filter_isStateless
  rcases call.trace_cases c with ⟨-, htrace⟩ | ⟨retried, c', hretries, htrace⟩
  · rw [htrace, hpasses]
  · rw [htrace, List.filter_append, hpasses, hretries.filter_isStateless, List.append_nil]

/-- The flush has only origins that account for a Data Set. -/
theorem flushTrace_filter_isStateless (c : TemplateCache) :
    (flushTrace c).filter Emission.isStateless = [] := by
  apply List.filter_eq_nil_iff.mpr
  intro e he
  obtain ⟨⟨key, recs⟩, -, he⟩ := List.mem_flatMap.mp he
  obtain ⟨rec, -, rfl⟩ := List.mem_map.mp he
  simp [Emission.isStateless, Emission.outcome?]

/-- The stateless origins of a scan do not depend on the cache. -/
theorem scanTrace_filter_isStateless (calls : List Call) (c : TemplateCache) :
    (scanTrace calls c).filter Emission.isStateless = calls.flatMap Call.stateless := by
  simp only [scanTrace, List.filter_append, flushTrace_filter_isStateless, List.append_nil]
  induction calls generalizing c with
  | nil => rfl
  | cons call calls ih =>
    simp only [runTrace, List.flatten_cons, List.filter_append, Call.filter_isStateless, ih,
      List.flatMap_cons]

end Stateless

section Versions

/-- The version of a flushed queue is that of each of its records, when these agree. -/
theorem flushVersion_eq {recs : List PendingRecord} {rec : PendingRecord} (hmem : rec ∈ recs)
    (hsame : ∀ r ∈ recs, r.version = rec.version) (hversion : rec.version = .v9 ∨ rec.version = .v10) :
    flushVersion recs = rec.version := by
  cases recs with
  | nil => contradiction
  | cons r recs =>
    rw [flushVersion, List.head?_cons, Option.map_some, hsame r List.mem_cons_self]
    rcases hversion with h | h <;> simp [h]

variable {calls : List Call} {c : TemplateCache}

/-- Where a flushed origin comes from. -/
theorem mem_flushTrace {e : Emission} (h : e ∈ flushTrace c) :
    ∃ key recs rec, c.pending[key]? = some recs ∧ rec ∈ recs ∧
      e = .missing key rec (flushVersion recs) := by
  obtain ⟨⟨key, recs⟩, hqueue, he⟩ := List.mem_flatMap.mp h
  obtain ⟨rec, hrec, rfl⟩ := List.mem_map.mp he
  exact ⟨key, recs, rec, Std.ExtTreeMap.mem_toList_iff_getElem?_eq_some.mp hqueue, hrec, rfl⟩

/-- When the Data Sets of a key agree in version and none is refused, each is reported, if at
all, under its own version. -/
theorem scanTrace_ownVersion (hpending : c.pending = ∅)
    (hrefused : ∀ e ∈ (runTrace calls c).1.flatten, e.isMissing = false)
    (hversion : ∀ p ∈ calls.flatMap Call.arrivals, ∀ q ∈ calls.flatMap Call.arrivals,
      p.1 = q.1 → p.2.version = q.2.version) :
    ∀ e ∈ scanTrace calls c, e.OwnVersion := by
  intro e he
  rcases List.mem_append.mp he with hcall | hflush
  · have hnot := hrefused e hcall
    cases e with
    | row | counterSample | dataSet => trivial
    | missing => contradiction
  · obtain ⟨key, recs, rec, hqueue, hrec, rfl⟩ := mem_flushTrace hflush
    have harrived : ∀ r ∈ recs, (key, r) ∈ calls.flatMap Call.arrivals := fun r hr =>
      (mem_contents_runTrace (KeyedQueue.mem_contents.mpr ⟨recs, hqueue, hr⟩)).resolve_left
        (by simp [hpending])
    obtain ⟨call, -, hcall⟩ := List.mem_flatMap.mp (harrived rec hrec)
    exact flushVersion_eq hrec (fun r hr => hversion _ (harrived r hr) _ (harrived rec hrec) rfl)
      (Call.version_of_mem_arrivals hcall)

end Versions

section Scan

variable {calls : List Call} {capEntries capPendingBytes : UInt32}

/-- Below the caps, only a Data Set whose key never gets a layout stays unresolved. -/
theorem not_learnable_of_unresolved
    (hentries : ((calls.flatMap Call.learned).map Prod.fst).toFinset.card ≤ capEntries.toNat)
    (hbytes : arrivedBytes (calls.flatMap Call.arrivals) ≤ capPendingBytes.toNat)
    {key : TemplateKey} {rec : PendingRecord}
    (h : .unresolved key rec ∈ outcomes (scanTrace calls (.empty capEntries capPendingBytes))) :
    ¬ ∃ layout, learnableFrom (calls.flatMap Call.learned) key layout := by
  rintro ⟨layout, hlearned⟩
  obtain ⟨e, he, houtcome⟩ := List.mem_filterMap.mp h
  cases e with
  | row | counterSample => contradiction
  | dataSet => simp [Emission.outcome?] at houtcome
  | missing key' rec' version =>
    cases houtcome
    rcases List.mem_append.mp he with hcall | hflush
    · exact absurd (runTrace_of_hasRoom (by simpa [TemplateCache.HasRoom, TemplateCache.empty] using hbytes)
        _ hcall) (by simp [Emission.isMissing])
    · obtain ⟨key'', recs, rec'', hqueue, -, heq⟩ := mem_flushTrace hflush
      cases heq
      have hfits : (TemplateCache.empty capEntries capPendingBytes).Fits
          ((calls.flatMap Call.learned).map Prod.fst).toFinset :=
        ⟨by simp [TemplateCache.empty], hentries⟩
      have hkeys : ∀ p ∈ calls.flatMap Call.learned,
          p.1 ∈ ((calls.flatMap Call.learned).map Prod.fst).toFinset :=
        fun p hp => List.mem_toFinset.mpr (List.mem_map_of_mem hp)
      have hsettled := runTrace_settled calls
        (TemplateCache.settled_of_pending_empty (c := .empty capEntries capPendingBytes) rfl)
      exact hsettled.disjoint key (KeyedQueue.mem_of_getElem? hqueue)
        ((retaining_fits hkeys _).mem_entries_runTrace hfits hlearned)

/-- Below the caps and without redefinitions, the rows of a scan are those of stateless origin
and, for each Data Set, those its only layout gives or its `missing-template` row. -/
theorem scanRows_eq_settle {mode : Mode} (hmode : ∀ call ∈ calls, call.opts.mode = mode)
    (hdefs : ∀ p ∈ calls.flatMap Call.learned, ∀ q ∈ calls.flatMap Call.learned, p.1 = q.1 → p.2 = q.2)
    (hversion : ∀ p ∈ calls.flatMap Call.arrivals, ∀ q ∈ calls.flatMap Call.arrivals,
      p.1 = q.1 → p.2.version = q.2.version)
    (hentries : ((calls.flatMap Call.learned).map Prod.fst).toFinset.card ≤ capEntries.toNat)
    (hbytes : arrivedBytes (calls.flatMap Call.arrivals) ≤ capPendingBytes.toNat) :
    (scanRows calls (.empty capEntries capPendingBytes) : Multiset FlowRecord) =
      (traceRows mode.isFlowsOnly (calls.flatMap Call.stateless) : Multiset FlowRecord) +
        (calls.flatMap Call.arrivals : Multiset (TemplateKey × PendingRecord)).bind fun p =>
          (outcomeRows mode.isFlowsOnly
            (settle (learnableFrom (calls.flatMap Call.learned)) p.1 p.2) : Multiset FlowRecord) := by
  have hroom : (TemplateCache.empty capEntries capPendingBytes).HasRoom
      (arrivedBytes (calls.flatMap Call.arrivals)) := by
    simpa [TemplateCache.HasRoom, TemplateCache.empty] using hbytes
  have hown := scanTrace_ownVersion rfl (runTrace_of_hasRoom hroom) hversion
  have hrun : Run (learnableFrom (calls.flatMap Call.learned)) _ _ _ _ :=
    scanTrace_run (fun _ _ h => h) (.empty capEntries capPendingBytes)
  have hsettle := hrun.settled_eq
    (fun key layout h => by simp [TemplateCache.binding, TemplateCache.empty] at h) rfl rfl
    (fun key layout layout' h h' => hdefs _ h _ h' rfl)
    (fun key rec => not_learnable_of_unresolved hentries hbytes)
  rw [scanRows_eq_trace (fun call hcall => by rw [hmode call hcall]), traceRows_eq_bind _ hown,
    scanTrace_filter_isStateless, hsettle, Multiset.bind_map]

/-- A call without its clock reading. -/
def Call.item (call : Call) : Call := { call with opts.nowMicros := 0 }

/-- What is computed from the calls without their clocks agrees on reorderings. -/
theorem flatMap_perm_of_item {A : Type} {f : Call → List A} (hf : ∀ call, f call.item = f call)
    {calls calls' : List Call} (hperm : (calls.map Call.item).Perm (calls'.map Call.item)) :
    (calls.flatMap f).Perm (calls'.flatMap f) := by
  have hflat := hperm.flatMap_right f
  simpa only [List.flatMap_map, hf] using hflat

/-- Capture order does not matter. Take two sequences of calls in one mode that are reorderings
of each other up to their clocks, such that no key is defined twice with different layouts, no
key receives Data Sets of both versions, and the keys defined and the Data Sets fit the caps.
Then both scans, each from an empty cache and with its flush, return the same rows up to order. -/
theorem scanRows_perm {calls' : List Call} {mode : Mode} (hmode : ∀ call ∈ calls, call.opts.mode = mode)
    (hperm : (calls.map Call.item).Perm (calls'.map Call.item))
    (hdefs : ∀ p ∈ calls.flatMap Call.learned, ∀ q ∈ calls.flatMap Call.learned, p.1 = q.1 → p.2 = q.2)
    (hversion : ∀ p ∈ calls.flatMap Call.arrivals, ∀ q ∈ calls.flatMap Call.arrivals,
      p.1 = q.1 → p.2.version = q.2.version)
    (hentries : ((calls.flatMap Call.learned).map Prod.fst).toFinset.card ≤ capEntries.toNat)
    (hbytes : arrivedBytes (calls.flatMap Call.arrivals) ≤ capPendingBytes.toNat) :
    (scanRows calls (.empty capEntries capPendingBytes)).Perm
      (scanRows calls' (.empty capEntries capPendingBytes)) := by
  have hlearned := flatMap_perm_of_item (f := Call.learned) (fun _ => rfl) hperm
  have harrivals := flatMap_perm_of_item (f := Call.arrivals) (fun _ => rfl) hperm
  have hstateless := flatMap_perm_of_item (f := Call.stateless) (fun _ => rfl) hperm
  have hmode' : ∀ call ∈ calls', call.opts.mode = mode := by
    intro call hcall
    obtain ⟨call', hcall', hitem⟩ := List.mem_map.mp (hperm.mem_iff.mpr (List.mem_map_of_mem hcall))
    rw [← hmode call' hcall']
    exact congrArg (·.opts.mode) hitem.symm
  have hlearnable :
      learnableFrom (calls.flatMap Call.learned) = learnableFrom (calls'.flatMap Call.learned) := by
    funext key layout
    exact propext hlearned.mem_iff
  have hrows := scanRows_eq_settle hmode hdefs hversion hentries hbytes
  have hrows' := @scanRows_eq_settle calls' capEntries capPendingBytes mode hmode'
    (fun p hp q hq => hdefs p (hlearned.mem_iff.mpr hp) q (hlearned.mem_iff.mpr hq))
    (fun p hp q hq => hversion p (harrivals.mem_iff.mpr hp) q (harrivals.mem_iff.mpr hq))
    (by rwa [← List.toFinset_eq_of_perm _ _ (hlearned.map Prod.fst)])
    (by rwa [arrivedBytes, ← (harrivals.map _).sum_eq])
  refine Multiset.coe_eq_coe.mp ?_
  rw [hrows, hrows', ← hlearnable, Multiset.coe_eq_coe.mpr harrivals]
  congr 1
  exact Multiset.coe_eq_coe.mpr (hstateless.flatMap_right _)

/-- A Data Set before its template, and after it under another clock. -/
theorem scanRows_perm_two :
    (scanRows [Call.of sampleData "10.0.0.1", Call.of sampleTemplate "10.0.0.1"] .new).Perm
      (scanRows [Call.of sampleTemplate "10.0.0.1",
        { Call.of sampleData "10.0.0.1" with opts.nowMicros := 7 }] .new) :=
  @scanRows_perm [_, _] _ _ [_, _] .auto (by decide) (.swap _ _ _) (by decide) (by decide) (by decide)
    (by decide)

end Scan

end Netflow
