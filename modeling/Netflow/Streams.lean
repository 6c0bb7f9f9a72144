import Netflow.Isolation

/-!
# Merged streams

Datagrams of several streams, interleaved in any way on one cache. When no two streams share
a scope and no cap is reached, the rows of each stream and its part of the cache are those it
has alone, whatever template ids the others use.
-/

namespace Netflow

open Std (ExtTreeMap)

/-- The scope a call's template passes work in: its exporter and effective domain. -/
def Call.scope? (call : Call) : Option (String × UInt32) :=
  call.parsed.map fun (_, ctx, _) => (ctx.exporter, ctx.obsDomain)

/-- The scope of a key. -/
def TemplateKey.scope (key : TemplateKey) : String × UInt32 := (key.exporter, key.obsDomain)

/-- The scope a row names. -/
def FlowRecord.scope (row : FlowRecord) : String × UInt32 := (row.exporter, row.obsDomain)

/-- Whether some of the calls work in a scope. -/
def ownsScope (calls : List Call) (scope : String × UInt32) : Bool :=
  calls.any fun call => call.scope? = some scope

variable {ι A B : Type} [DecidableEq ι]

/-- The calls of one stream, in their order. -/
def stream (side : ι) (merged : List (ι × Call)) : List Call :=
  (merged.filter fun p => p.1 = side).map Prod.snd

/-- The results of one stream's calls among those of all. -/
def share (side : ι) (merged : List (ι × Call)) (results : List A) : List A :=
  ((merged.zip results).filter fun p => p.1.1 = side).map Prod.snd

section Share

variable {side : ι} {p : ι × Call} {merged : List (ι × Call)}

theorem stream_cons_of_eq (h : p.1 = side) : stream side (p :: merged) = p.2 :: stream side merged := by
  simp [stream, h]

theorem stream_cons_of_ne (h : p.1 ≠ side) : stream side (p :: merged) = stream side merged := by
  simp [stream, h]

theorem share_cons_of_eq (h : p.1 = side) (result : A) (results : List A) :
    share side (p :: merged) (result :: results) = result :: share side merged results := by
  simp [share, h]

theorem share_cons_of_ne (h : p.1 ≠ side) (result : A) (results : List A) :
    share side (p :: merged) (result :: results) = share side merged results := by
  simp [share, h]

/-- The share of what is computed call by call is computed from the stream and its share. -/
theorem share_zipWith (f : Call → A → B) (side : ι) (merged : List (ι × Call)) (results : List A) :
    share side merged (List.zipWith f (merged.map Prod.snd) results) =
      List.zipWith f (stream side merged) (share side merged results) := by
  induction merged generalizing results with
  | nil => rfl
  | cons p merged ih =>
    cases results with
    | nil => simp [share]
    | cons result results =>
      by_cases hp : p.1 = side
      · simp only [List.map_cons, List.zipWith_cons_cons, share_cons_of_eq hp, stream_cons_of_eq hp, ih]
      · simp only [List.map_cons, List.zipWith_cons_cons, share_cons_of_ne hp, stream_cons_of_ne hp, ih]

end Share

section Merged

variable {S : TemplateKey → Bool} {keys : Finset TemplateKey} {side : ι} {merged : List (ι × Call)}

/-- When one stream's calls work under the selected keys and the others' under unselected ones,
and nothing is refused, the stream goes in the merged cache as it goes in the restriction. -/
theorem runTrace_shadow (side : ι) (hscope : ∀ p ∈ merged, p.2.AllKeys S (p.1 = side))
    (hkeys : ∀ p ∈ merged, ∀ d ∈ p.2.learned, d.1 ∈ keys) {l m : TemplateCache} (h : Shadows S l m)
    (hfits : m.Fits keys) (hsettled : m.Settled) (hl : l.Exact) (hm : m.Exact)
    (hrefused : ∀ e ∈ (runTrace (merged.map Prod.snd) m).1.flatten, e.isMissing = false) :
    share side merged (runTrace (merged.map Prod.snd) m).1 = (runTrace (stream side merged) l).1 ∧
      Shadows S (runTrace (stream side merged) l).2 (runTrace (merged.map Prod.snd) m).2 := by
  induction merged generalizing l m with
  | nil => exact ⟨rfl, h⟩
  | cons p merged ih =>
    obtain ⟨hcallScope, hrestScope⟩ := List.forall_mem_cons.mp hscope
    obtain ⟨hcallKeys, hrestKeys⟩ := List.forall_mem_cons.mp hkeys
    simp only [List.map_cons, runTrace, List.flatten_cons, List.forall_mem_append] at hrefused ⊢
    have hexact := stable_exact p.2.learned p.2.length_lt_of_mem_arrivals
    have hfits' := (stable_fits hcallKeys p.2.arrivals).call hfits
    have hsettled' := p.2.trace_settled hsettled
    by_cases hp : p.1 = side
    · obtain ⟨hrows, hshadow⟩ := h.call (by simpa [hp] using hcallScope) hcallKeys hfits hsettled hl hm
        hrefused.1
      have hrest := ih hrestScope hrestKeys hshadow hfits' hsettled' (hexact.call hl) (hexact.call hm)
        hrefused.2
      rw [share_cons_of_eq hp, stream_cons_of_eq hp, hrest.1, ← hrows]
      exact ⟨rfl, hrest.2⟩
    · have hsame := Call.trace_sameOn (by simpa [hp] using hcallScope) hcallKeys hfits hsettled
      have hcaps := (stable_caps p.2.learned p.2.arrivals m.capEntries m.capPendingBytes).call ⟨rfl, rfl⟩
      rw [share_cons_of_ne hp, stream_cons_of_ne hp]
      exact ih hrestScope hrestKeys (h.of_sameOn hsame hcaps) hfits' hsettled' hl (hexact.call hm) hrefused.2

/-- A call works under the keys of its scope only. -/
theorem Call.allKeys_ownsScope {call : Call} {calls : List Call} {selected : Bool}
    (h : ∀ scope, call.scope? = some scope → ownsScope calls scope = selected) :
    call.AllKeys (fun key => ownsScope calls key.scope) selected := fun _ _ _ hparsed _ =>
  h _ (by rw [Call.scope?, hparsed]; rfl)

/-- When no two streams share a scope, the scopes of one are told apart from the others'. -/
theorem allKeys_ownsScope_stream
    (hdisjoint : ∀ p ∈ merged, ∀ q ∈ merged, p.1 ≠ q.1 →
      ∀ scope ∈ p.2.scope?, scope ∉ q.2.scope?) :
    ∀ p ∈ merged, p.2.AllKeys (fun key => ownsScope (stream side merged) key.scope) (p.1 = side) := by
  intro p hp
  apply Call.allKeys_ownsScope
  intro scope hscope
  by_cases hside : p.1 = side
  · simp only [hside, decide_true, ownsScope, List.any_eq_true, decide_eq_true_eq]
    exact ⟨p.2, List.mem_map_of_mem (List.mem_filter.mpr ⟨hp, by simpa using hside⟩), hscope⟩
  · simp only [hside, decide_false, ownsScope, List.any_eq_false, decide_eq_true_eq]
    intro call hcall
    obtain ⟨q, hq, rfl⟩ := List.mem_map.mp hcall
    obtain ⟨hmem, hq⟩ := List.mem_filter.mp hq
    exact hdisjoint p hp q hmem (by simp_all) scope hscope

/-- An empty cache is its own restriction. -/
theorem Shadows.empty {capEntries capPendingBytes : UInt32} :
    Shadows S (.empty capEntries capPendingBytes) (.empty capEntries capPendingBytes) :=
  ⟨by simp [TemplateCache.empty], by simp [TemplateCache.empty], rfl, rfl⟩

/-- The flush of a restriction to some scopes returns the rows that name these scopes. -/
theorem Shadows.flushPending {owns : String × UInt32 → Bool} {l m : TemplateCache}
    (h : Shadows (fun key => owns key.scope) l m) :
    (Netflow.flushPending l).1 = (Netflow.flushPending m).1.filter fun row => owns row.scope := by
  simp only [Netflow.flushPending, TemplateCache.drainPending, h.pending_eq, ExtTreeMap.toList_filter,
    List.filter_flatMap]
  induction m.pending.toList with
  | nil => rfl
  | cons queue queues ih =>
    -- Every row of a queue names the scope of its key.
    have hscope : ∀ rec : PendingRecord,
        (missingTemplate queue.1 (flushVersion queue.2) rec.exportTime rec.sequence).scope =
          queue.1.scope := fun _ => rfl
    rw [List.filter_cons, List.flatMap_cons, List.filter_map, ← ih]
    simp only [Function.comp_def, hscope]
    cases owns queue.1.scope <;> simp

/-- The part of a cache under the selected keys, its running total that of the records there. -/
def TemplateCache.restrict (S : TemplateKey → Bool) (c : TemplateCache) : TemplateCache :=
  let pending := c.pending.filter fun key _ => S key
  { c with
    entries := c.entries.filter fun key _ => S key
    pending
    pendingBytes := .ofNat (bufferedBytes pending) }

/-- A restriction whose running total is exact is determined by the merged cache. -/
theorem Shadows.eq_restrict {l m : TemplateCache} (h : Shadows S l m) (hl : l.Accounted) :
    l = m.restrict S := by
  refine TemplateCache.ext h.entries_eq h.pending_eq h.capEntries h.capPendingBytes ?_
  rw [TemplateCache.restrict, ← h.pending_eq, ← hl.total, UInt32.ofNat_toNat]

/-- Isolation of streams. Interleave streams of which no two share a scope, on an empty cache
whose entry cap has room for the keys defined, such that no Data Set is refused. Then each
stream has the rows of its own calls, its share of the flush, and its part of the cache, as
when it runs alone. -/
theorem runCalls_isolated {capEntries capPendingBytes : UInt32} (side : ι)
    (hdisjoint : ∀ p ∈ merged, ∀ q ∈ merged, p.1 ≠ q.1 →
      ∀ scope ∈ p.2.scope?, scope ∉ q.2.scope?)
    (hentries : ((merged.flatMap fun p => p.2.learned).map Prod.fst).toFinset.card ≤ capEntries.toNat)
    (hrefused : ∀ e ∈ (runTrace (merged.map Prod.snd) (.empty capEntries capPendingBytes)).1.flatten,
      e.isMissing = false) :
    let together := runCalls (merged.map Prod.snd) (.empty capEntries capPendingBytes)
    let alone := runCalls (stream side merged) (.empty capEntries capPendingBytes)
    let owns := ownsScope (stream side merged)
    share side merged together.1 = alone.1 ∧
      (flushPending together.2).1.filter (fun row => owns row.scope) = (flushPending alone.2).1 ∧
      together.2.entries.filter (fun key _ => owns key.scope) = alone.2.entries ∧
      together.2.pending.filter (fun key _ => owns key.scope) = alone.2.pending ∧
      (capPendingBytes.toNat < 2 ^ 32 - 1 → together.2.restrict (fun key => owns key.scope) = alone.2) := by
  intro together alone owns
  have hkeys : ∀ p ∈ merged, ∀ d ∈ p.2.learned,
      d.1 ∈ ((merged.flatMap fun p => p.2.learned).map Prod.fst).toFinset := fun p hp d hd =>
    List.mem_toFinset.mpr (List.mem_map_of_mem (List.mem_flatMap_of_mem hp hd))
  have hexact : (TemplateCache.empty capEntries capPendingBytes).Exact := fun hcap =>
    TemplateCache.accounted_empty hcap
  have hshadow := runTrace_shadow side (allKeys_ownsScope_stream hdisjoint) hkeys
    (l := .empty capEntries capPendingBytes) (m := .empty capEntries capPendingBytes)
    Shadows.empty ⟨by simp [TemplateCache.empty], hentries⟩
    (TemplateCache.settled_of_pending_empty rfl) hexact hexact hrefused
  obtain ⟨hrows, hcache⟩ := hshadow
  have htogether : together = _ := runCalls_eq_trace (merged.map Prod.snd) _
  have halone : alone = _ := runCalls_eq_trace (stream side merged) _
  rw [htogether, halone, share_zipWith, hrows]
  refine ⟨rfl, hcache.flushPending.symm, hcache.entries_eq.symm, hcache.pending_eq.symm, fun hcap => ?_⟩
  have haccounted : (runTrace (stream side merged) (.empty capEntries capPendingBytes)).2.Accounted :=
    runTrace_accounted _ (TemplateCache.accounted_empty hcap)
  exact (hcache.eq_restrict haccounted).symm

/-- Two exporters using template 256 at once, one of them before its template came. -/
theorem runCalls_isolated_two :
    let merged := [(0, Call.of sampleData "10.0.0.1"), (1, Call.of sampleTemplate "10.0.0.2"),
      (1, Call.of sampleData "10.0.0.2"), (0, Call.of sampleTemplate "10.0.0.1")]
    let together := runCalls (merged.map Prod.snd) .new
    let alone := runCalls (stream 0 merged) .new
    let owns := ownsScope (stream 0 merged)
    share 0 merged together.1 = alone.1 ∧
      (flushPending together.2).1.filter (fun row => owns row.scope) = (flushPending alone.2).1 ∧
      together.2.entries.filter (fun key _ => owns key.scope) = alone.2.entries ∧
      together.2.pending.filter (fun key _ => owns key.scope) = alone.2.pending ∧
      (defaultCapPendingBytes.toNat < 2 ^ 32 - 1 →
        together.2.restrict (fun key => owns key.scope) = alone.2) :=
  runCalls_isolated 0 (by decide) (by decide) (runTrace_of_hasRoom (by
    unfold TemplateCache.HasRoom
    decide))

end Merged

end Netflow
