import Netflow.InForce
import Netflow.Order

/-!
# Statistics never reach the rows

First and last use and the use count stand in the same entries as the layouts, and every
use, upsert and retry rewrites them. Only eviction reads them. Below the entry cap nothing
is evicted, so two runs whose caches differ in statistics alone stay alike: the clock does
not matter, and neither does a template datagram that is sent again.
-/

namespace Netflow

open Std (ExtTreeMap)

/-- What of an entry is compared: none of its statistics, and at least its layout. -/
structure View (V : Type) where
  of : TemplateEntry → V
  of_stats : ∀ (e : TemplateEntry) (firstSeen lastSeen : Int64) (useCount : UInt64),
    of { e with firstSeen, lastSeen, useCount } = of e
  layout_eq : ∀ e e' : TemplateEntry, of e = of e' → e.layout = e'.layout

/-- The layout of an entry alone. -/
def View.layout : View Layout := ⟨TemplateEntry.layout, fun _ _ _ _ => rfl, fun _ _ => id⟩

/-- The layout of an entry and its number of scope fields. -/
def View.definition : View (Layout × UInt16) :=
  ⟨fun e => (e.layout, e.scopeFieldCount), fun _ _ _ _ => rfl, fun _ _ h => (Prod.mk.inj h).1⟩

/-- Two caches that differ at most in what the view does not show of their entries. -/
structure TemplateCache.Alike {V : Type} (view : View V) (c c' : TemplateCache) : Prop where
  entries : ∀ key : TemplateKey, (c.entries[key]?).map view.of = (c'.entries[key]?).map view.of
  pending : c.pending = c'.pending
  capEntries : c.capEntries = c'.capEntries
  capPendingBytes : c.capPendingBytes = c'.capPendingBytes
  pendingBytes : c.pendingBytes = c'.pendingBytes

section Steps

variable {V : Type} {view : View V} {c c' : TemplateCache} {keys : Finset TemplateKey}

/-- Every cache is like itself. -/
theorem TemplateCache.Alike.refl (view : View V) (c : TemplateCache) : c.Alike view c :=
  ⟨fun _ => rfl, rfl, rfl, rfl, rfl⟩

/-- Alike caches know the same keys. -/
theorem TemplateCache.Alike.mem_iff (h : c.Alike view c') (key : TemplateKey) :
    key ∈ c.entries ↔ key ∈ c'.entries := by
  have hsame := congrArg Option.isSome (h.entries key)
  rw [Option.isSome_map, Option.isSome_map] at hsame
  rw [ExtTreeMap.mem_iff_isSome_getElem?, ExtTreeMap.mem_iff_isSome_getElem?, hsame]

/-- Alike caches have room for the same keys. -/
theorem TemplateCache.Alike.fits (h : c.Alike view c') (hfits : c.Fits keys) : c'.Fits keys :=
  ⟨fun key hkey => hfits.subset key ((h.mem_iff key).mpr hkey), h.capEntries ▸ hfits.card_le⟩

/-- Storing an entry changes its statistics at most. -/
theorem View.of_stored (view : View V) (c : TemplateCache) (key : TemplateKey) (entry : TemplateEntry) :
    view.of (c.stored key entry) = view.of entry := by
  unfold TemplateCache.stored
  split
  · exact view.of_stats entry _ _ _
  · rfl

/-- Below the entry cap, learning one of the given keys keeps caches alike. -/
theorem TemplateCache.Alike.upsert (h : c.Alike view c') (hfits : c.Fits keys) {key : TemplateKey}
    (hkey : key ∈ keys) {entry entry' : TemplateEntry} (hentry : view.of entry = view.of entry') :
    (c.upsert key entry).Alike view (c'.upsert key entry') := by
  refine ⟨fun k => ?_, h.pending, h.capEntries, h.capPendingBytes, h.pendingBytes⟩
  rw [hfits.upsert_entries hkey, (h.fits hfits).upsert_entries hkey, ExtTreeMap.getElem?_insert,
    ExtTreeMap.getElem?_insert]
  split
  · rw [Option.map_some, Option.map_some, view.of_stored, view.of_stored, hentry]
  · exact h.entries k

/-- Below the entry cap, learning the same definitions at different times keeps caches alike. -/
theorem TemplateCache.Alike.learnDefs {exporter : String} {obsDomain : UInt32} {defs : List TemplateDef}
    (hkeys : ∀ d ∈ defs, d.key exporter obsDomain ∈ keys) (h : c.Alike view c') (hfits : c.Fits keys)
    (now now' : Int64) : (Netflow.learnDefs exporter obsDomain now defs c).Alike view
      (Netflow.learnDefs exporter obsDomain now' defs c') := by
  induction defs generalizing c c' with
  | nil => exact h
  | cons d defs ih =>
    have hkey := hkeys d List.mem_cons_self
    have hentry : view.of (d.entry now) = view.of (d.entry now') := (view.of_stats (d.entry now) _ _ _).symm
    apply ih
    · intro e he
      exact hkeys e (List.mem_cons_of_mem _ he)
    · exact h.upsert hfits hkey hentry
    · exact hfits.upsert hkey (d.entry now)

/-- Alike caches find entries that look alike, and stay alike. -/
theorem TemplateCache.Alike.useTemplate (h : c.Alike view c') {key : TemplateKey} {now : Int64}
    {tpl : TemplateEntry} {c₁ : TemplateCache} (huse : c.useTemplate key now = some (tpl, c₁)) (now' : Int64) :
    ∃ tpl' c₁', c'.useTemplate key now' = some (tpl', c₁') ∧ view.of tpl = view.of tpl' ∧
      c₁.Alike view c₁' := by
  obtain ⟨e, he, htpl, hc₁⟩ := useTemplate_eq_some.mp huse
  have hsame := h.entries key
  rw [he, Option.map_some, eq_comm, Option.map_eq_some_iff] at hsame
  obtain ⟨e', he', hview⟩ := hsame
  have htpl' : view.of tpl = view.of e := by
    rw [htpl]
    exact view.of_stats e _ _ _
  refine ⟨_, _, useTemplate_eq_some.mpr ⟨e', he', rfl, rfl⟩, ?_, ?_⟩
  · rw [htpl', ← hview]
    exact (view.of_stats e' _ _ _).symm
  · subst hc₁
    refine ⟨fun k => ?_, h.pending, h.capEntries, h.capPendingBytes, h.pendingBytes⟩
    rw [ExtTreeMap.getElem?_insert, ExtTreeMap.getElem?_insert]
    split
    · rw [Option.map_some, Option.map_some, htpl', ← hview]
      exact congrArg some (view.of_stats e' _ _ _).symm
    · exact h.entries k

/-- Alike caches find nothing for the same keys. -/
theorem TemplateCache.Alike.useTemplate_eq_none (h : c.Alike view c') {key : TemplateKey} {now : Int64}
    (huse : c.useTemplate key now = none) (now' : Int64) : c'.useTemplate key now' = none := by
  rw [TemplateCache.useTemplate_eq_none] at huse ⊢
  rwa [← h.mem_iff key]

/-- Alike caches store or refuse a record alike. -/
theorem TemplateCache.Alike.pushPending (h : c.Alike view c') (key : TemplateKey) (rec : PendingRecord) :
    (c.pushPending key rec).1 = (c'.pushPending key rec).1 ∧
      (c.pushPending key rec).2.Alike view (c'.pushPending key rec).2 := by
  simp only [TemplateCache.pushPending, h.pendingBytes, h.capPendingBytes, h.pending]
  split
  · exact ⟨rfl, h⟩
  · exact ⟨rfl, h.entries, rfl, h.capEntries, rfl, rfl⟩

/-- Alike caches release the same records. -/
theorem TemplateCache.Alike.takePending (h : c.Alike view c') (key : TemplateKey) :
    (c.takePending key).1 = (c'.takePending key).1 ∧
      (c.takePending key).2.Alike view (c'.takePending key).2 := by
  simp only [TemplateCache.takePending, h.pendingBytes, h.pending]
  exact ⟨trivial, h.entries, rfl, h.capEntries, h.capPendingBytes, rfl⟩

end Steps

section Runs

/-- An origin with the statistics of its template left out. -/
def Emission.plain : Emission → Emission
  | .dataSet key tpl rec => .dataSet key tpl.layout.entry rec
  | e => e

/-- The rows of an origin do not depend on the statistics of its template. -/
theorem Emission.rows_plain (e : Emission) (flowsOnly : Bool) : e.plain.rows flowsOnly = e.rows flowsOnly := by
  cases e with
  | dataSet key tpl rec =>
    have hlayout : tpl.layout.entry.layout = tpl.layout := rfl
    exact decodeDataSet_congr hlayout _ _ _
  | row | counterSample | missing => rfl

/-- Traces that agree up to statistics have the same rows. -/
theorem traceRows_of_plain {trace trace' : List Emission} (h : trace.map Emission.plain = trace'.map Emission.plain)
    (flowsOnly : Bool) : traceRows flowsOnly trace = traceRows flowsOnly trace' := by
  have hplain (trace : List Emission) :
      traceRows flowsOnly (trace.map Emission.plain) = traceRows flowsOnly trace := by
    simp only [traceRows, List.flatMap_map, Emission.rows_plain]
  rw [← hplain trace, h, hplain]

variable {V : Type} {view : View V} {c c' : TemplateCache} {keys : Finset TemplateKey}

/-- Decoding a Data Set against entries that look alike has the same origin up to statistics. -/
theorem View.plain_eq (view : View V) {tpl tpl' : TemplateEntry} (h : view.of tpl = view.of tpl')
    (key : TemplateKey) (rec : PendingRecord) :
    (Emission.dataSet key tpl rec).plain = (Emission.dataSet key tpl' rec).plain := by
  simp only [Emission.plain, view.layout_eq tpl tpl' h]

/-- Pass 2 runs alike on alike caches. -/
theorem TemplateCache.Alike.settleSets (h : c.Alike view c') (ctx : Ctx) (now now' : Int64)
    (sets : List FlowSet) :
    ((Netflow.settleSets ctx now sets c).1.map Emission.plain =
        (Netflow.settleSets ctx now' sets c').1.map Emission.plain) ∧
      (Netflow.settleSets ctx now sets c).2.Alike view (Netflow.settleSets ctx now' sets c').2 := by
  induction sets generalizing c c' with
  | nil => exact ⟨rfl, h⟩
  | cons fs sets ih =>
    simp only [Netflow.settleSets]
    by_cases hid : fs.id < 256
    · simp only [if_pos hid]
      exact ih h
    · simp only [if_neg hid]
      cases huse : c.useTemplate (ctx.key fs.id) now with
      | some used =>
        obtain ⟨tpl', c₁', huse', hview, halike⟩ := h.useTemplate huse now'
        simp only [huse', List.map_cons, view.plain_eq hview, (ih halike).1]
        exact ⟨trivial, (ih halike).2⟩
      | none =>
        obtain ⟨hflag, halike⟩ := h.pushPending (ctx.key fs.id) (ctx.pendingRecord fs.body)
        simp only [h.useTemplate_eq_none huse now', hflag]
        split
        · exact ih halike
        · simp only [List.map_cons, (ih halike).1]
          exact ⟨trivial, (ih halike).2⟩

/-- The retry runs alike on alike caches. -/
theorem TemplateCache.Alike.retryKeysTrace (h : c.Alike view c') (now now' : Int64) (ks : List TemplateKey) :
    ((Netflow.retryKeysTrace now ks c).1.map Emission.plain =
        (Netflow.retryKeysTrace now' ks c').1.map Emission.plain) ∧
      (Netflow.retryKeysTrace now ks c).2.Alike view (Netflow.retryKeysTrace now' ks c').2 := by
  induction ks generalizing c c' with
  | nil => exact ⟨rfl, h⟩
  | cons key ks ih =>
    simp only [Netflow.retryKeysTrace]
    cases huse : c.useTemplate key now with
    | none =>
      simp only [h.useTemplate_eq_none huse now']
      exact ih h
    | some used =>
      obtain ⟨tpl', c₁', huse', hview, halike⟩ := h.useTemplate huse now'
      obtain ⟨hrecs, htaken⟩ := halike.takePending key
      simp only [huse', hrecs, List.map_append, List.map_map, Function.comp_def, view.plain_eq hview,
        (ih htaken).1]
      exact ⟨trivial, (ih htaken).2⟩

/-- Two calls that differ in their clocks only run alike on alike caches below the entry cap. -/
theorem TemplateCache.Alike.call {call call' : Call} (hitem : call.item = call'.item)
    (hkeys : ∀ p ∈ call.learned, p.1 ∈ keys) (h : c.Alike view c') (hfits : c.Fits keys) :
    ((call.trace c).1.map Emission.plain = (call'.trace c').1.map Emission.plain) ∧
      (call.trace c).2.Alike view (call'.trace c').2 := by
  have hparsed : call.item.parsed = call'.item.parsed := congrArg Call.parsed hitem
  have hretries : call.item.retries = call'.item.retries := congrArg Call.retries hitem
  change call.parsed = call'.parsed at hparsed
  change call.retries = call'.retries at hretries
  have hpasses : ((call.passes c).1.map Emission.plain = (call'.passes c').1.map Emission.plain) ∧
      (call.passes c).2.Alike view (call'.passes c').2 := by
    simp only [Call.passes, ← hparsed]
    cases hfound : call.parsed with
    | none =>
      have hstateless : call.item.statelessTrace = call'.item.statelessTrace :=
        congrArg Call.statelessTrace hitem
      change call.statelessTrace = call'.statelessTrace at hstateless
      exact ⟨congrArg _ hstateless, h⟩
    | some parsed =>
      obtain ⟨fmt, ctx, sets⟩ := parsed
      simp only [Call.learned, hfound, List.forall_mem_map] at hkeys
      simp only [learnSets_eq]
      exact (h.learnDefs hkeys hfits _ _).settleSets ctx _ _ sets
  by_cases hretry : call.retries
  · have hpending : (call.passes c).2.pendingKeys = (call'.passes c').2.pendingKeys := by
      rw [TemplateCache.pendingKeys, TemplateCache.pendingKeys, hpasses.2.pending]
    have hretried := hpasses.2.retryKeysTrace call.opts.nowMicros call'.opts.nowMicros
      (call'.passes c').2.pendingKeys
    rw [Call.trace_of_retries hretry, Call.trace_of_retries (hretries ▸ hretry)]
    simp only [List.map_append, hpasses.1, hpending, hretried.1]
    exact ⟨trivial, hretried.2⟩
  · rw [Call.trace_of_not_retries hretry, Call.trace_of_not_retries (hretries ▸ hretry)]
    exact hpasses

/-- Two runs whose calls differ in their clocks only return the same rows, step by step, and
leave alike caches. -/
theorem TemplateCache.Alike.run {calls calls' : List Call} (hitems : calls.map Call.item = calls'.map Call.item)
    (hkeys : ∀ p ∈ calls.flatMap Call.learned, p.1 ∈ keys) (h : c.Alike view c') (hfits : c.Fits keys) :
    (runCalls calls c).1 = (runCalls calls' c').1 ∧ (runCalls calls c).2.Alike view (runCalls calls' c').2 := by
  induction calls generalizing calls' c c' with
  | nil =>
    obtain rfl : calls' = [] := List.map_eq_nil_iff.mp hitems.symm
    exact ⟨rfl, h⟩
  | cons call calls ih =>
    cases calls' with
    | nil => contradiction
    | cons call' calls' =>
      obtain ⟨hitem, hrest⟩ := List.cons.inj hitems
      simp only [List.flatMap_cons, List.forall_mem_append] at hkeys
      obtain ⟨htrace, halike⟩ := h.call hitem hkeys.1 hfits
      have hmode : call.opts.mode = call'.opts.mode := congrArg (·.opts.mode) hitem
      have hrun := ih hrest hkeys.2 halike ((stable_fits hkeys.1 call.arrivals).call hfits)
      simp only [runCalls_cons, Call.decode_eq_trace, hmode, traceRows_of_plain htrace, hrun.1]
      exact ⟨trivial, hrun.2⟩

/-- Alike caches flush the same rows. -/
theorem TemplateCache.Alike.flushPending (h : c.Alike view c') :
    (Netflow.flushPending c).1 = (Netflow.flushPending c').1 := by
  simp only [Netflow.flushPending, TemplateCache.drainPending, h.pending]

end Runs

section Repeats

/-- The call decodes the same datagram of the same exporter, at any time and in any mode. -/
structure Call.Repeats (r d : Call) : Prop where
  data : r.data = d.data
  exporter : r.opts.exporter = d.opts.exporter
  obsDomainOverride : r.opts.obsDomainOverride = d.opts.obsDomainOverride
  restrict : r.restrict = d.restrict

/-- The layout that the definitions of a call leave in force for a key they define. -/
def Call.inForce (call : Call) (key : TemplateKey) : Option Layout :=
  match call.parsed with
  | some (fmt, ctx, sets) => ctx.layoutAfter (fmt.definitions sets) key none
  | none => none

/-- The layouts a call leaves in force are known. -/
def Call.Taught (call : Call) (c : TemplateCache) : Prop :=
  ∀ key layout, call.inForce key = some layout → c.binding.known key = some layout

variable {c : TemplateCache} {keys : Finset TemplateKey} {d r : Call}

/-- A repeat is parsed as the first time. -/
theorem Call.Repeats.parsed_eq (h : r.Repeats d) : r.parsed = d.parsed := by
  simp only [Call.parsed, Call.format, h.data, h.exporter, h.obsDomainOverride, h.restrict]

/-- Below the entry cap, what is known after pass 1 is the last definition of each key. -/
theorem TemplateCache.Fits.known_learnDefs {ctx : Ctx} {now : Int64} {defs : List TemplateDef}
    (h : c.Fits keys) (hkeys : ∀ d ∈ defs, d.key ctx.exporter ctx.obsDomain ∈ keys) (key : TemplateKey) :
    (learnDefs ctx.exporter ctx.obsDomain now defs c).binding.known key =
      ctx.layoutAfter defs key (c.binding.known key) := by
  induction defs generalizing c with
  | nil => rfl
  | cons d defs ih =>
    have hkey := hkeys d List.mem_cons_self
    have hrest := ih (h.upsert hkey (d.entry now)) fun e he => hkeys e (List.mem_cons_of_mem _ he)
    rw [← List.singleton_append, layoutAfter_append]
    refine hrest.trans (congrArg _ ?_)
    rw [h.known_upsert hkey]
    by_cases hk : d.key ctx.exporter ctx.obsDomain = key
    · subst hk
      rw [Function.update_self]
      simp [Ctx.layoutAfter, show (d.entry now).layout = d.layout from rfl]
    · rw [Function.update_of_ne (Ne.symm hk), layoutAfter_of_ne (by simpa using hk)]

/-- Below the entry cap, a call leaves its own layouts known. -/
theorem Call.taught_trace (hkeys : ∀ p ∈ d.learned, p.1 ∈ keys) (hfits : c.Fits keys) :
    d.Taught (d.trace c).2 := by
  intro key layout hforce
  have hpassed : (d.passes c).2.binding.known key = some layout := by
    rcases d.passes_cases c with ⟨hparsed, -⟩ | ⟨fmt, ctx, sets, trace, c', hparsed, hsettles, hpasses⟩
    · simp [Call.inForce, hparsed] at hforce
    · simp only [Call.inForce, hparsed] at hforce
      simp only [Call.learned, hparsed, List.forall_mem_map] at hkeys
      rw [hpasses, hsettles.known_eq, hfits.known_learnDefs hkeys]
      exact layoutAfter_mono hforce fun h => by contradiction
  rcases d.trace_cases c with ⟨-, htrace⟩ | ⟨retried, c', hretries, htrace⟩
  · rwa [htrace]
  · rwa [htrace, hretries.known_eq]

/-- Below the entry cap, the layouts a call left in force stay known while no other layout is
learned for their keys. -/
theorem stable_taught {learned : List (TemplateKey × Layout)} (hkeys : ∀ p ∈ learned, p.1 ∈ keys)
    (hsame : ∀ p ∈ learned, ∀ layout, d.inForce p.1 = some layout → p.2 = layout)
    (arrivals : List (TemplateKey × PendingRecord)) :
    Stable learned arrivals fun c => c.Fits keys ∧ d.Taught c where
  upsert c key entry hmem h := by
    refine ⟨h.1.upsert (hkeys _ hmem) entry, fun k layout hforce => ?_⟩
    rw [h.1.known_upsert (hkeys _ hmem)]
    by_cases hk : k = key
    · subst hk
      rw [Function.update_self]
      exact congrArg some (hsame _ hmem layout hforce)
    · rw [Function.update_of_ne hk]
      exact h.2 k layout hforce
  useTemplate c c' key now tpl huse h := by
    refine ⟨(stable_fits hkeys arrivals).useTemplate _ _ _ _ _ huse h.1, fun k layout hforce => ?_⟩
    rw [(useTemplate_binding huse).1]
    exact h.2 k layout hforce
  pushPending c key rec hmem h := by
    refine ⟨(stable_fits hkeys arrivals).pushPending _ _ _ hmem h.1, fun k layout hforce => ?_⟩
    simp only [TemplateCache.binding, TemplateCache.pushPending_entries]
    exact h.2 k layout hforce
  takePending c key h := ⟨(stable_fits hkeys arrivals).takePending _ _ h.1, h.2⟩

/-- Where its layouts are still in force, a template datagram that is sent again has no row and
leaves a cache alike. -/
theorem Call.Repeats.trace (hrepeats : r.Repeats d) (hparsed : d.parsed.isSome) (harrivals : d.arrivals = [])
    (hkeys : ∀ p ∈ d.learned, p.1 ∈ keys) (hfits : c.Fits keys) (htaught : d.Taught c) (hsettled : c.Settled) :
    (r.trace c).1 = [] ∧ (r.trace c).2.Alike View.layout c := by
  obtain ⟨⟨fmt, ctx, sets⟩, hd⟩ := Option.isSome_iff_exists.mp hparsed
  have hr : r.parsed = some (fmt, ctx, sets) := hrepeats.parsed_eq.trans hd
  simp only [Call.learned, hd, List.forall_mem_map] at hkeys
  simp only [Call.arrivals, hd] at harrivals
  have hpassed : (r.passes c).1 = [] ∧ (r.passes c).2.Alike View.layout c := by
    rcases r.passes_cases c with ⟨hnone, -⟩ | ⟨fmt', ctx', sets', trace, c', hr', hsettles, hpasses⟩
    · rw [hr] at hnone
      contradiction
    · rw [hr, Option.some_inj] at hr'
      cases hr'
      obtain ⟨rfl, rfl⟩ := hsettles.eq_of_arrivals harrivals
      rw [hpasses]
      refine ⟨rfl, ?_⟩
      have hknown := @TemplateCache.Fits.known_learnDefs _ _ _ r.opts.nowMicros _ hfits hkeys
      obtain ⟨entries, hframe⟩ :=
        learnDefs_frame ctx.exporter ctx.obsDomain r.opts.nowMicros (fmt.definitions sets) c
      rw [hframe] at hknown ⊢
      refine ⟨fun key => (hknown key).trans ?_, rfl, rfl, rfl, rfl⟩
      cases hforce : d.inForce key with
      | some layout =>
        have hknown := htaught key layout hforce
        simp only [Call.inForce, hd] at hforce
        exact (layoutAfter_mono hforce fun h => by contradiction).trans hknown.symm
      | none =>
        simp only [Call.inForce, hd, Ctx.layoutAfter, Option.or_none] at hforce
        simp only [Ctx.layoutAfter, hforce, Option.none_or]
        rfl
  rcases r.trace_cases c with ⟨-, htrace⟩ | ⟨retried, c', hretries, htrace⟩
  · rwa [htrace]
  · -- Nothing that waits is known now that was not known before.
    have habsent : ∀ key ∈ (r.passes c).2.pendingKeys, key ∉ (r.passes c).2.entries := by
      intro key hkey
      rw [TemplateCache.pendingKeys, ExtTreeMap.mem_keys, hpassed.2.pending] at hkey
      rw [hpassed.2.mem_iff]
      exact hsettled.disjoint key hkey
    obtain ⟨rfl, rfl⟩ := hretries.eq_of_notMem habsent
    rwa [htrace, List.append_nil]

/-- So a run goes on as it would without it. -/
theorem Call.Repeats.runCalls (hrepeats : r.Repeats d) (hparsed : d.parsed.isSome) (harrivals : d.arrivals = [])
    (hkeys : ∀ p ∈ d.learned, p.1 ∈ keys) (hfits : c.Fits keys) (htaught : d.Taught c) (hsettled : c.Settled)
    {after : List Call} (hafter : ∀ p ∈ after.flatMap Call.learned, p.1 ∈ keys) :
    (runCalls (r :: after) c).1 = [] :: (runCalls after c).1 ∧
      (runCalls (r :: after) c).2.Alike View.layout (runCalls after c).2 := by
  obtain ⟨hrows, halike⟩ := hrepeats.trace hparsed harrivals hkeys hfits htaught hsettled
  have hlearned : r.learned = d.learned := by
    simp only [Call.learned, hrepeats.parsed_eq]
  have hfits' : (r.trace c).2.Fits keys := (stable_fits (hlearned ▸ hkeys) r.arrivals).call hfits
  have hrest := halike.run rfl hafter hfits'
  simp only [runCalls_cons, Call.decode_eq_trace, hrows, traceRows_nil, hrest.1]
  exact ⟨trivial, hrest.2⟩

end Repeats

section Forgetting

/-- A list inserted at the seam of two others. -/
theorem insertIdx_append_length {A : Type} (first second : List A) (a : A) :
    (first ++ second).insertIdx first.length a = first ++ a :: second := by
  induction first with
  | nil => rfl
  | cons x first ih => rw [List.cons_append, List.length_cons, List.insertIdx_succ_cons, ih, List.cons_append]

/-- A run has the rows of as many calls as it makes. -/
theorem runCalls_length (calls : List Call) (c : TemplateCache) : (runCalls calls c).1.length = calls.length := by
  induction calls generalizing c with
  | nil => rfl
  | cons call calls ih => rw [runCalls_cons, List.length_cons, List.length_cons, ih]

/-- Rows depend neither on the clock nor on template retransmission. Take a run from an empty
cache that learns no more keys than the entry cap. With other clocks it has the same rows call
by call and in the flush, the same definitions cached and the same records buffered. With a
template datagram sent again, anywhere before another definition of its keys, it has the same
rows and none for the repeat. -/
theorem runCalls_forget_statistics {calls : List Call} {capEntries capPendingBytes : UInt32}
    (hentries : ((calls.flatMap Call.learned).map Prod.fst).toFinset.card ≤ capEntries.toNat) :
    let c := TemplateCache.empty capEntries capPendingBytes
    let result := runCalls calls c
    (∀ calls' : List Call, calls'.map Call.item = calls.map Call.item →
      let result' := runCalls calls' c
      result'.1 = result.1 ∧ (flushPending result'.2).1 = (flushPending result.2).1 ∧
      (∀ key : TemplateKey, (result'.2.entries[key]?).map View.definition.of =
        (result.2.entries[key]?).map View.definition.of) ∧
      result'.2.pending = result.2.pending ∧ result'.2.pendingBytes = result.2.pendingBytes) ∧
    ∀ (before between after : List Call) (d r : Call), calls = before ++ d :: between ++ after →
      d.parsed.isSome → d.arrivals = [] → r.Repeats d →
      (∀ p ∈ between.flatMap Call.learned, ∀ layout, d.inForce p.1 = some layout → p.2 = layout) →
      let repeated := runCalls (before ++ d :: between ++ r :: after) c
      repeated.1 = result.1.insertIdx (before ++ d :: between).length [] ∧
      (flushPending repeated.2).1 = (flushPending result.2).1 := by
  intro c result
  have hkeys : ∀ p ∈ calls.flatMap Call.learned, p.1 ∈ ((calls.flatMap Call.learned).map Prod.fst).toFinset :=
    fun p hp => List.mem_toFinset.mpr (List.mem_map_of_mem hp)
  have hfits : c.Fits ((calls.flatMap Call.learned).map Prod.fst).toFinset :=
    ⟨by simp [c, TemplateCache.empty], hentries⟩
  constructor
  · intro calls' hitems result'
    obtain ⟨hrows, halike⟩ := (TemplateCache.Alike.refl View.definition c).run hitems.symm hkeys hfits
    exact ⟨hrows.symm, halike.flushPending.symm, fun key => (halike.entries key).symm, halike.pending.symm,
      halike.pendingBytes.symm⟩
  · intro before between after d r hcalls hparsed harrivals hrepeats hsame repeated
    generalize ((calls.flatMap Call.learned).map Prod.fst).toFinset = keys at hkeys hfits
    subst hcalls
    simp only [List.flatMap_append, List.flatMap_cons, List.forall_mem_append] at hkeys
    obtain ⟨⟨hbefore, hd, hbetween⟩, hafter⟩ := hkeys
    -- The cache just before the repeat.
    have hfirst := (stable_fits hbefore (before.flatMap Call.arrivals)).run hfits
    have htaught := (stable_taught hbetween hsame (between.flatMap Call.arrivals)).run
      ⟨(stable_fits hd d.arrivals).call hfirst, Call.taught_trace hd hfirst⟩
    have hsettled : (runCalls (before ++ d :: between) c).2.Settled := by
      rw [runCalls_eq_trace]
      exact runTrace_settled _ (TemplateCache.settled_of_pending_empty rfl)
    have hrun : (runCalls (before ++ d :: between) c).2 =
        (runTrace between (d.trace (runTrace before c).2).2).2 := by
      rw [runCalls_append, runCalls_cons, d.decode_eq_trace, runCalls_eq_trace before,
        runCalls_eq_trace between]
    rw [← hrun] at htaught
    obtain ⟨hrows, halike⟩ := hrepeats.runCalls hparsed harrivals hd htaught.1 htaught.2 hsettled hafter
    have hresult := runCalls_append (before ++ d :: between) after c
    have hrepeated := runCalls_append (before ++ d :: between) (r :: after) c
    simp only [repeated, result, hresult, hrepeated, hrows]
    refine ⟨?_, halike.flushPending⟩
    rw [← runCalls_length (before ++ d :: between) c, insertIdx_append_length]

/-- A template and its data, at another time and with the template sent again. -/
theorem runCalls_forget_statistics_repeat :
    let template := Call.of sampleTemplate "10.0.0.1"
    let data := Call.of sampleData "10.0.0.1"
    let late := { data with opts.nowMicros := 7 }
    (runCalls [template, late] .new).1 = (runCalls [template, data] .new).1 ∧
      (runCalls [template, data, { template with opts.mode := .flowsOnly }] .new).1 =
        (runCalls [template, data] .new).1.insertIdx 2 [] := by
  intro template data late
  have h := @runCalls_forget_statistics [template, data] defaultCapEntries defaultCapPendingBytes (by decide)
  exact ⟨(h.1 [template, late] rfl).1,
    (h.2 [] [data] [] template { template with opts.mode := .flowsOnly } rfl (by decide) (by decide)
      ⟨rfl, rfl, rfl, rfl⟩ (by decide)).1⟩

end Forgetting

end Netflow
