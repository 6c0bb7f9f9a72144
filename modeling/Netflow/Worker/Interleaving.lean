import Mathlib.Data.Set.Insert
import Netflow.Common.ReadMergeWrite
import Netflow.Worker.Projection

/-!
# Interleaved stores

Executions overlap: each store of a scan gets the global projection, merges its cache and puts
the result back, and other executions can put in between. The projection reports the newest
definitions stored while no such put is overwritten and no older definition is sent again.
-/

namespace Netflow

open Std (ExtTreeMap)

section Model

variable {σ ι : Type} (w : Worker σ) (ids : ι → Bytes)

/-- The two steps of a store of a scan: put the cache and get the projection, then put it merged. -/
def Worker.projection : ReadMergeWrite ι σ TemplateCache TemplateCache where
  read i cache store :=
    let store := w.kv.kvPut store (ids i) cacheKey (cache.toBytes w.serde)
    (store, w.readCache store globalScope)
  write _ cache global store := w.kv.kvPut store globalScope cacheKey ((global.merge cache).toBytes w.serde)

variable {w ids} in
/-- The first step gets the projection as it is. -/
theorem Worker.projection_read (hkv : w.kv.Lawful) {i : ι} (hscope : ids i ≠ globalScope) (cache : TemplateCache)
    (store : σ) :
    (w.projection ids).read i cache store =
      (w.kv.kvPut store (ids i) cacheKey (cache.toBytes w.serde), w.readCache store globalScope) :=
  Prod.ext rfl (w.readCache_kvPut_of_ne hkv hscope store _)

variable {w ids} in
/-- After the second step the projection is what was merged. -/
theorem Worker.readCache_write (hkv : w.kv.Lawful) (hserde : w.serde.Lawful) {got : TemplateCache}
    (hacc : got.Accounted) {i : ι} {cache : TemplateCache} {store : σ} :
    w.readCache ((w.projection ids).write i cache got store) globalScope = got.merge cache :=
  w.readCache_kvPut_merge hkv hserde hacc cache store

/-- The caches a scan stores: one after each batch, and one after the flush. -/
def storedCaches : List (List Call) → TemplateCache → List TemplateCache
  | [], cache => [(flushPending cache).2]
  | calls :: batches, cache =>
    let cache := (runCalls calls cache).2
    cache :: storedCaches batches cache

variable {w ids}

/-- A store of a scan is the two steps without one in between. -/
theorem Worker.storeScanCache_eq_update (i : ι) (store : σ) (cache : TemplateCache) :
    { w with executionId := ids i }.storeScanCache (some store) cache =
      some ((w.projection ids).update i store cache) := rfl

/-- A scan stores templates it has learned. -/
theorem storedCaches_subset {keys : Finset TemplateKey} {batches : List (List Call)} {cache : TemplateCache}
    (hlearned : ∀ p ∈ batches.flatten.flatMap Call.learned, p.1 ∈ keys)
    (hcache : ∀ key ∈ cache.entries, key ∈ keys) :
    ∀ c ∈ storedCaches batches cache, ∀ key ∈ c.entries, key ∈ keys := by
  induction batches generalizing cache with
  | nil =>
    intro c hc
    cases List.mem_singleton.mp hc
    exact hcache
  | cons calls batches ih =>
    rw [List.flatten_cons, List.flatMap_append, List.forall_mem_append] at hlearned
    have hafter : ∀ key ∈ (runCalls calls cache).2.entries, key ∈ keys := by
      rw [runCalls_eq_trace]
      exact (stable_mem_keys hlearned.1 _).run hcache
    exact List.forall_mem_cons.mpr ⟨hafter, ih hlearned.2 hafter⟩

/-- What a scan leaves in the storage is what storing its caches in turn leaves. -/
theorem Worker.finish_processBatches (hkv : w.kv.Lawful) (hserde : w.serde.Lawful) (i : ι)
    (hid : w.executionId = ids i) (batches : List (List Call)) {store : σ} {cache : TemplateCache}
    (hload : w.loadScanCache (some store) = cache) (hacc : cache.Accounted) (hcap : cache.WithinCap) :
    (w.finish (w.processBatches batches (some store)).2).2 =
      some ((storedCaches batches cache).foldl ((w.projection ids).update i) store) := by
  induction batches generalizing store cache with
  | nil => simp [processBatches, finish, hload, storedCaches, storeScanCache, projection, ReadMergeWrite.update,
      TemplateCache.merge, hid]
  | cons calls batches ih =>
    obtain ⟨hacc', hcap'⟩ := runCalls_storable hacc hcap
    obtain ⟨stored, hbatch, hstore, hstored⟩ := w.processCalls_eq hkv hserde calls hload hacc hcap
    have hupdate : stored = (w.projection ids).update i store (runCalls calls cache).2 := by
      rw [← Option.some_inj, ← hstore, ← storeScanCache_eq_update, ← hid]
    rw [storedCaches, List.foldl_cons, ← hupdate, ← ih hstored hacc' hcap']
    simp only [processBatches, hbatch]

/-- An execution left alone leaves in the storage what its scan does. -/
theorem Worker.run_alone [DecidableEq ι] (hkv : w.kv.Lawful) (hserde : w.serde.Lawful) (i : ι)
    (hid : w.executionId = ids i) {store : σ} (hcold : w.Cold store) {scans : ι → List (List Call)} :
    ∃ st, (w.projection ids).run ((storedCaches (scans i) .new).flatMap fun _ => [.read i, .write i])
        (.start store fun i => storedCaches (scans i) .new) = some st ∧
      (w.finish (w.processBatches (scans i) (some store)).2).2 = some st.store := by
  refine ⟨_, (w.projection ids).run_alone rfl (List.append_nil _).symm, ?_⟩
  exact w.finish_processBatches hkv hserde i hid (scans i) (hcold.readCache _) TemplateCache.accounted_new
    (UInt32.zero_le (a := _))

end Model

section Reports

/-- What the projection tells of a template: its kind, its fields and how many of them are scope fields. -/
def TemplateEntry.definition (e : TemplateEntry) : TemplateKind × List FieldSpec × UInt16 :=
  (e.kind, e.fields, e.scopeFieldCount)

/-- The entries of some stored caches for a key. -/
def storedEntries (stored : Set TemplateCache) (key : TemplateKey) : Set TemplateEntry :=
  {e | ∃ cache ∈ stored, cache.entries[key]? = some e}

/-- The definition is that of an entry with the greatest `last_seen`. -/
def IsNewest (entries : Set TemplateEntry) (definition : TemplateKind × List FieldSpec × UInt16) : Prop :=
  ∃ e ∈ entries, e.definition = definition ∧ ∀ e' ∈ entries, e'.lastSeen ≤ e.lastSeen

/-- Each template of the stored caches is shown with the definition of a newest entry. -/
def Reports (stored : Set TemplateCache) (g : TemplateCache) : Prop :=
  ∀ key, (storedEntries stored key).Nonempty →
    ∃ shown, g.entries[key]? = some shown ∧ IsNewest (storedEntries stored key) shown.definition

/-- A cache about to be merged into the projection that was got, while another one is shown by now: what it
sends is as recent as what was stored before, or what is shown anyway; and what is shown of templates that it
lacks was also got. -/
structure Timely (stored : Set TemplateCache) (shown got cache : TemplateCache) : Prop where
  sent : ∀ (key : TemplateKey) (e : TemplateEntry), cache.entries[key]? = some e →
    (∀ old ∈ storedEntries stored key, old.lastSeen ≤ e.lastSeen) ∨
      ∃ s, shown.entries[key]? = some s ∧ s.definition = e.definition
  lacking : ∀ (key : TemplateKey) (s : TemplateEntry), key ∉ cache.entries → shown.entries[key]? = some s →
    ∃ s', got.entries[key]? = some s' ∧ s'.definition = s.definition

variable {keys : Finset TemplateKey} {stored : Set TemplateCache} {shown got cache : TemplateCache}

/-- The entries of one cache more. -/
theorem mem_storedEntries_insert {key : TemplateKey} {e : TemplateEntry} :
    e ∈ storedEntries (insert cache stored) key ↔
      cache.entries[key]? = some e ∨ e ∈ storedEntries stored key := by
  simp [storedEntries]

/-- A cache without the key adds no entry. -/
theorem storedEntries_insert_of_not_mem {key : TemplateKey} (h : key ∉ cache.entries) :
    storedEntries (insert cache stored) key = storedEntries stored key := by
  ext e
  rw [mem_storedEntries_insert, ExtTreeMap.getElem?_eq_none h]
  simp

/-- An entry with the definition of a newest one before it, or as recent as all of them, defines the newest. -/
theorem IsNewest.insert {key : TemplateKey} {e : TemplateEntry} (he : cache.entries[key]? = some e)
    (h : (∀ old ∈ storedEntries stored key, old.lastSeen ≤ e.lastSeen) ∨
      IsNewest (storedEntries stored key) e.definition) :
    IsNewest (storedEntries (insert cache stored) key) e.definition := by
  have hmem : e ∈ storedEntries (Insert.insert cache stored) key := mem_storedEntries_insert.mpr (.inl he)
  have hbound : ∀ t : Int64, e.lastSeen ≤ t → (∀ old ∈ storedEntries stored key, old.lastSeen ≤ t) →
      ∀ e' ∈ storedEntries (Insert.insert cache stored) key, e'.lastSeen ≤ t := by
    intro t ht hold e' he'
    rcases mem_storedEntries_insert.mp he' with hnew | hmem'
    · rw [he, Option.some_inj] at hnew
      exact hnew ▸ ht
    · exact hold e' hmem'
  rcases h with hrecent | ⟨top, htop, hdef, hmax⟩
  · exact ⟨e, hmem, rfl, hbound _ (Int64.le_refl _) hrecent⟩
  · rcases Int64.le_total e.lastSeen top.lastSeen with hle | hle
    · exact ⟨top, mem_storedEntries_insert.mpr (.inr htop), hdef, hbound _ hle hmax⟩
    · exact ⟨e, hmem, rfl, hbound _ (Int64.le_refl _) fun old hold => Int64.le_trans (hmax old hold) hle⟩

/-- An entry is stored with its definition. -/
theorem TemplateCache.stored_definition (c : TemplateCache) (key : TemplateKey) (e : TemplateEntry) :
    (c.stored key e).definition = e.definition := by
  unfold stored
  split <;> rfl

/-- A timely merge keeps the projection reporting, below the entry cap. -/
theorem Reports.merge (h : Reports stored shown) (htimely : Timely stored shown got cache)
    (hfits : got.Fits keys) (hcache : ∀ key ∈ cache.entries, key ∈ keys) :
    Reports (insert cache stored) (got.merge cache) := by
  intro key hsome
  have hmerged := (hfits.merge hcache).2 key
  cases he : cache.entries[key]? with
  | some e =>
    simp only [he] at hmerged
    refine ⟨got.stored key e, hmerged, ?_⟩
    rw [got.stored_definition]
    refine .insert he ?_
    by_cases hempty : (storedEntries stored key).Nonempty
    · refine (htimely.sent key e he).imp_right ?_
      rintro ⟨s, hs, hsame⟩
      obtain ⟨s', hs', hnewest⟩ := h key hempty
      rw [hs, Option.some_inj] at hs'
      rwa [← hsame, hs']
    · exact .inl fun old hold => absurd ⟨old, hold⟩ hempty
  | none =>
    have hlacks : key ∉ cache.entries := KeyedQueue.notMem_of_getElem? he
    rw [storedEntries_insert_of_not_mem hlacks] at hsome ⊢
    simp only [he] at hmerged
    obtain ⟨s, hs, hnewest⟩ := h key hsome
    obtain ⟨s', hs', hsame⟩ := htimely.lacking key s hlacks hs
    exact ⟨s', hmerged.trans hs', hsame ▸ hnewest⟩

/-- Where entries that are equally recent have one definition, the newest definition is one. -/
theorem IsNewest.unique {entries : Set TemplateEntry} {d d' : TemplateKind × List FieldSpec × UInt16}
    (huntied : ∀ e ∈ entries, ∀ e' ∈ entries, e.lastSeen = e'.lastSeen → e.definition = e'.definition)
    (h : IsNewest entries d) (h' : IsNewest entries d') : d = d' := by
  obtain ⟨e, he, rfl, hmax⟩ := h
  obtain ⟨e', he', rfl, hmax'⟩ := h'
  exact huntied e he e' he' (Int64.le_antisymm (hmax' e he) (hmax e' he'))

/-- Where equally recent entries of a template have one definition and only stored templates are shown, no
other merge keeps the projection reporting. -/
theorem Reports.merge_iff (h : Reports stored shown) (hfits : got.Fits keys)
    (hcache : ∀ key ∈ cache.entries, key ∈ keys)
    (hshown : ∀ key ∈ shown.entries, (storedEntries stored key).Nonempty)
    (huntied : ∀ key, ∀ e ∈ storedEntries (insert cache stored) key,
      ∀ e' ∈ storedEntries (insert cache stored) key, e.lastSeen = e'.lastSeen → e.definition = e'.definition) :
    Reports (insert cache stored) (got.merge cache) ↔ Timely stored shown got cache := by
  refine ⟨fun hafter => ⟨fun key e he => ?_, fun key s hlacks hs => ?_⟩, fun htimely => h.merge htimely hfits hcache⟩
  · obtain ⟨s', hs', hnewest'⟩ := hafter key ⟨e, mem_storedEntries_insert.mpr (.inl he)⟩
    rw [(hfits.merge hcache).2 key, he, Option.some_inj] at hs'
    rw [← hs', got.stored_definition] at hnewest'
    by_cases hrecent : ∀ old ∈ storedEntries stored key, old.lastSeen ≤ e.lastSeen
    · exact .inl hrecent
    · -- The newest entry before is newer than the one sent, so it is still a newest one.
      simp only [not_forall] at hrecent
      obtain ⟨old, hold, hlt⟩ := hrecent
      obtain ⟨s, hs, top, htop, hdef, hmax⟩ := h key ⟨old, hold⟩
      have hnewest : IsNewest (storedEntries (insert cache stored) key) s.definition := by
        refine ⟨top, mem_storedEntries_insert.mpr (.inr htop), hdef, fun e' he' => ?_⟩
        rcases mem_storedEntries_insert.mp he' with hnew | hbefore
        · rw [he, Option.some_inj] at hnew
          exact hnew ▸ Int64.le_of_lt (Int64.lt_of_lt_of_le (Int64.not_le.mp hlt) (hmax old hold))
        · exact hmax e' hbefore
      exact .inr ⟨s, hs, hnewest.unique (huntied key) hnewest'⟩
  · have hsome := hshown key (KeyedQueue.mem_of_getElem? hs)
    obtain ⟨top, hshownTop, hnewest⟩ := h key hsome
    rw [hs, Option.some_inj] at hshownTop
    have hsame : storedEntries (insert cache stored) key = storedEntries stored key :=
      storedEntries_insert_of_not_mem hlacks
    obtain ⟨s', hs', hnewest'⟩ := hafter key (hsame ▸ hsome)
    rw [(hfits.merge hcache).2 key, ExtTreeMap.getElem?_eq_none hlacks] at hs'
    rw [hsame] at hnewest'
    have huntied' := huntied key
    rw [hsame] at huntied'
    exact ⟨s', hs', hnewest'.unique huntied' (hshownTop ▸ hnewest)⟩

end Reports

section Runs

variable {σ ι : Type} {w : Worker σ} {ids : ι → Bytes} {keys : Finset TemplateKey}

variable (w ids) in
/-- The condition on a step: no execution runs under the scope of the projection, and each merge is timely. -/
def Worker.Undisturbed (st : ReadMergeWrite.State ι σ TemplateCache TemplateCache) :
    ReadMergeWrite.Action ι → Prop
  | .read i => ids i ≠ globalScope
  | .write i => ∀ got cache rest, st.held i = some got → st.todo i = cache :: rest →
    Timely {c | c ∈ st.written} (w.readCache st.store globalScope) got cache

/-- No entry of a cache is older than the one that another has for its key. -/
def TemplateCache.NotBehind (old cache : TemplateCache) : Prop :=
  ∀ (key : TemplateKey) (e e' : TemplateEntry), cache.entries[key]? = some e → old.entries[key]? = some e' →
    e'.lastSeen ≤ e.lastSeen

/-- A store without a step in between is undisturbed if its cache is behind none that was stored before. -/
theorem Worker.run_update [DecidableEq ι] (hkv : w.kv.Lawful)
    {start st : ReadMergeWrite.State ι σ TemplateCache TemplateCache}
    (hrun : (w.projection ids).Run (w.Undisturbed ids) start st) {i : ι} (hscope : ids i ≠ globalScope)
    (hheld : st.held i = none) {cache : TemplateCache} {rest : List TemplateCache}
    (htodo : st.todo i = cache :: rest) (hrecent : ∀ old ∈ st.written, old.NotBehind cache) :
    (w.projection ids).Run (w.Undisturbed ids) start
      { store := (w.projection ids).update i st.store cache
        todo := Function.update st.todo i rest
        held := st.held
        written := st.written ++ [cache] } := by
  have hread := hrun.step (a := .read i) hscope
    (ReadMergeWrite.step_read.mpr ⟨cache, rest, hheld, htodo, rfl⟩)
  refine hread.step (a := .write i) ?_
    (ReadMergeWrite.step_write.mpr ⟨cache, rest, _, Function.update_self .., htodo, ?_⟩)
  · -- What was got is still what is shown.
    intro got cache' rest' hgot htodo'
    obtain ⟨rfl, -⟩ := List.cons.inj (htodo.symm.trans htodo')
    simp only [Function.update_self, Option.some_inj] at hgot
    subst hgot
    refine ⟨fun key e he => .inl ?_, fun key s _ hs => ⟨s, ?_, rfl⟩⟩
    · rintro old ⟨c, hc, hold⟩
      exact hrecent c hc key e old he hold
    · simpa only [w.projection_read hkv hscope, w.readCache_kvPut_of_ne hkv hscope] using hs
  · simp [ReadMergeWrite.update, ← hheld]

/-- An execution that is left alone for some of its stores is undisturbed in them if no cache is behind one that
was stored before it. -/
theorem Worker.run_updates [DecidableEq ι] (hkv : w.kv.Lawful)
    {start st : ReadMergeWrite.State ι σ TemplateCache TemplateCache}
    (hrun : (w.projection ids).Run (w.Undisturbed ids) start st) {i : ι} (hscope : ids i ≠ globalScope)
    (hheld : st.held i = none) {caches rest : List TemplateCache} (htodo : st.todo i = caches ++ rest)
    (hrecent : (st.written ++ caches).Pairwise TemplateCache.NotBehind) :
    (w.projection ids).Run (w.Undisturbed ids) start
      { store := caches.foldl ((w.projection ids).update i) st.store
        todo := Function.update st.todo i rest
        held := st.held
        written := st.written ++ caches } := by
  induction caches generalizing st with
  | nil =>
    rw [List.nil_append] at htodo
    simpa [← htodo] using hrun
  | cons cache caches ih =>
    have hfirst : ∀ old ∈ st.written, old.NotBehind cache := fun old hold =>
      (List.pairwise_append.mp hrecent).2.2 old hold cache List.mem_cons_self
    have hnext := w.run_update hkv hrun hscope hheld htodo hfirst
    simpa using ih hnext hheld (Function.update_self ..) (by simpa using hrecent)

/-- What the interleavings keep: the projection reports what was stored, and caches that are read are sound. -/
theorem Worker.invariant_reports [DecidableEq ι] (hkv : w.kv.Lawful) (hserde : w.serde.Lawful) :
    ReadMergeWrite.Invariant (w.projection ids) (w.Undisturbed ids)
      (fun cache : TemplateCache => ∀ key ∈ cache.entries, key ∈ keys)
      (fun written store => Reports {c | c ∈ written} (w.readCache store globalScope) ∧
        (w.readCache store globalScope).Fits keys ∧ (w.readCache store globalScope).Accounted)
      (fun got => got.Fits keys ∧ got.Accounted) where
  read st i cache hok _ h := by
    rw [w.projection_read hkv hok]
    simp only [w.readCache_kvPut_of_ne hkv hok]
    exact ⟨h, h.2⟩
  write st i cache got rest hok hheld htodo hcache hgot h := by
    have hwritten : {c | c ∈ st.written ++ [cache]} = insert cache {c | c ∈ st.written} := by
      ext c
      simp [or_comm]
    simp only [w.readCache_write hkv hserde hgot.2, hwritten]
    exact ⟨h.1.merge (hok got cache rest hheld htodo) hgot.1 hcache, (hgot.1.merge hcache).1,
      hgot.2.merge cache⟩

/-- Below the entry cap, an interleaving of stores all of whose steps are undisturbed keeps the projection
reporting the newest definition of every template stored so far, and of every template once all are done. -/
theorem Worker.projection_reports [DecidableEq ι] (hkv : w.kv.Lawful) (hserde : w.serde.Lawful) {store : σ}
    (hcold : w.kv.kvGet store globalScope cacheKey = none) {caches : ι → List TemplateCache}
    (hkeys : ∀ i, ∀ cache ∈ caches i, ∀ key ∈ cache.entries, key ∈ keys)
    (hcap : keys.card ≤ defaultCapEntries.toNat)
    {st : ReadMergeWrite.State ι σ TemplateCache TemplateCache}
    (hrun : (w.projection ids).Run (w.Undisturbed ids) (.start store caches) st) :
    Reports {c | c ∈ st.written} (w.readCache st.store globalScope) ∧
      (st.Finished → Reports {c | ∃ i, c ∈ caches i} (w.readCache st.store globalScope)) := by
  have hnew : w.readCache store globalScope = .new := by
    simp [readCache, hcold, TemplateCache.fromBytes]
  have hfits : TemplateCache.new.Fits keys := ⟨by simp [TemplateCache.new, TemplateCache.empty], hcap⟩
  have hstart : Reports {c | c ∈ ([] : List TemplateCache)} .new := by
    rintro key ⟨e, cache, hmem, -⟩
    cases hmem
  have hreports := ((w.invariant_reports hkv hserde).run (by rw [hnew]; exact ⟨hstart, hfits,
    TemplateCache.accounted_new⟩) hkeys hrun).1.1
  refine ⟨hreports, fun hfinished => ?_⟩
  have hall : {c | c ∈ st.written} = {c | ∃ i, c ∈ caches i} := Set.ext fun c => hrun.mem_written hfinished
  exact hall ▸ hreports

/-- Two executions, each with one batch that defines a template of its own exporter. -/
def twoScans (second : Bool) : List (List Call) :=
  [[Call.of sampleTemplate (if second then "10.0.0.2" else "10.0.0.1")]]

/-- The worker of these executions. -/
noncomputable def Worker.ofTwoScans : Worker (Bytes → Bytes → Option Bytes) :=
  .inMemory ([twoScans false, twoScans true, twoScans false ++ twoScans true].map fun batches =>
    (runCalls batches.flatten .new).2)

theorem Worker.ofTwoScans_lawful : Worker.ofTwoScans.kv.Lawful ∧ Worker.ofTwoScans.serde.Lawful :=
  ⟨⟨fun _ _ _ _ _ _ => rfl⟩, SerdeJson.writing_lawful (by decide +kernel)⟩

/-- One execution stores both its caches, and then the other: once they have finished, the projection reports both
templates. -/
theorem Worker.projection_reports_in_turn :
    let ids := fun second => if second then [2] else [1]
    ∃ st, (Worker.ofTwoScans.projection ids).run ([false, false, true, true].flatMap fun i => [.read i, .write i])
        (.start (fun _ _ => none) fun i => storedCaches (twoScans i) .new) = some st ∧
      st.Finished ∧
      Reports {c | ∃ i, c ∈ storedCaches (twoScans i) .new} (Worker.ofTwoScans.readCache st.store globalScope) := by
  obtain ⟨hkv, hserde⟩ := Worker.ofTwoScans_lawful
  intro ids
  have hscope : ∀ i, ids i ≠ globalScope := by decide +kernel
  have hkeys : ∀ i, ∀ p ∈ (twoScans i).flatten.flatMap Call.learned,
      p.1 ∈ learnedKeys (twoScans false) ∪ learnedKeys (twoScans true) := by decide +kernel
  -- All templates were seen at one time.
  have hseen : ∀ i, ∀ c ∈ storedCaches (twoScans i) .new, ∀ p ∈ c.entries.toList, p.2.lastSeen = 0 := by
    decide +kernel
  have hrecent : (storedCaches (twoScans false) .new ++ storedCaches (twoScans true) .new).Pairwise
      TemplateCache.NotBehind := by
    have htime : ∀ c ∈ storedCaches (twoScans false) .new ++ storedCaches (twoScans true) .new,
        ∀ (key : TemplateKey) (e : TemplateEntry), c.entries[key]? = some e → e.lastSeen = 0 := by
      intro c hc key e he
      rcases List.mem_append.mp hc with hc | hc <;>
        exact hseen _ c hc _ (ExtTreeMap.mem_toList_iff_getElem?_eq_some.mpr he)
    refine List.pairwise_of_forall_mem_list fun old hold c hc key e e' he he' => ?_
    rw [htime c hc key e he, htime old hold key e' he']
    exact Int64.le_refl 0
  have hstart : (Worker.ofTwoScans.projection ids).Run (Worker.ofTwoScans.Undisturbed ids)
      (.start (fun _ _ => none) fun i => storedCaches (twoScans i) .new) _ := .refl
  have hfirst := Worker.run_updates hkv hstart (hscope false) rfl (List.append_nil _).symm
    (List.pairwise_append.mp hrecent).1
  have hboth := Worker.run_updates hkv hfirst (hscope true) rfl (List.append_nil _).symm hrecent
  refine ⟨_, rfl, ?_, ?_⟩
  · intro i
    cases i <;> rfl
  · refine (Worker.projection_reports hkv hserde rfl (fun i => storedCaches_subset (hkeys i) ?_)
      (by decide +kernel) hboth).2 ?_
    · simp [TemplateCache.new, TemplateCache.empty]
    · intro i
      cases i <;> rfl

/-- An execution that gets the projection after its own first store and puts it back later leaves its own
templates only, whatever the others have put in between. -/
theorem Worker.readCache_overtaken (hkv : w.kv.Lawful) (hserde : w.serde.Lawful) {store : σ} (hcold : w.Cold store)
    {i : ι} (hscope : ids i ≠ globalScope) (first last : TemplateCache) (store' : σ) :
    w.readCache ((w.projection ids).write i last
        ((w.projection ids).read i last ((w.projection ids).update i store first)).2 store') globalScope =
      (TemplateCache.new.merge first).merge last := by
  have hown : w.readCache ((w.projection ids).update i store first) globalScope =
      TemplateCache.new.merge first := by
    rw [ReadMergeWrite.update, w.projection_read hkv hscope, hcold.readCache]
    exact w.readCache_write hkv hserde TemplateCache.accounted_new
  rw [w.projection_read hkv hscope, hown]
  exact w.readCache_write hkv hserde (TemplateCache.accounted_new.merge first)

/-- One execution gets the projection, the other then stores its template, and the first puts what it got
back: the projection has lost the template of the other. -/
theorem Worker.not_forall_projection_reports :
    ¬ ∀ (σ : Type) (w : Worker σ) (ids : Bool → Bytes) (store : σ) (scans : Bool → List (List Call))
        (actions : List (ReadMergeWrite.Action Bool))
        (st : ReadMergeWrite.State Bool σ TemplateCache TemplateCache),
      w.kv.Lawful → w.serde.Lawful → ids.Injective → (∀ i, ids i ≠ globalScope) → w.Cold store →
      (learnedKeys (scans false) ∪ learnedKeys (scans true)).card ≤ defaultCapEntries.toNat →
      (w.projection ids).run actions (.start store fun i => storedCaches (scans i) .new) = some st →
      st.Finished →
        Reports {c | ∃ i, c ∈ storedCaches (scans i) .new} (w.readCache st.store globalScope) := by
  intro hall
  obtain ⟨w, hw⟩ : ∃ w, w = Worker.ofTwoScans := ⟨_, rfl⟩
  have hkv : w.kv.Lawful := hw ▸ Worker.ofTwoScans_lawful.1
  have hserde : w.serde.Lawful := hw ▸ Worker.ofTwoScans_lawful.2
  have hcold : w.Cold fun _ _ => none := fun _ => by subst hw; rfl
  obtain ⟨ids, hids⟩ : ∃ ids : Bool → Bytes, ids = fun second => [if second then 2 else 1] := ⟨_, rfl⟩
  have hscopes : ∀ i, ids i ≠ globalScope := by
    subst hids
    decide +kernel
  have hinjective : ids.Injective := by
    subst hids
    decide +kernel
  obtain ⟨first, hfirst⟩ : ∃ c, c = (runCalls [Call.of sampleTemplate "10.0.0.1"] .new).2 := ⟨_, rfl⟩
  obtain ⟨second, hsecond⟩ : ∃ c, c = (runCalls [Call.of sampleTemplate "10.0.0.2"] .new).2 := ⟨_, rfl⟩
  have hstored : (fun i => storedCaches (twoScans i) .new) =
      fun i => if i then [second, (flushPending second).2] else [first, (flushPending first).2] := by
    subst hfirst hsecond
    funext i
    cases i <;> rfl
  have hreports := hall _ w ids _ twoScans
    [.read true, .write true, .read true, .read false, .write false, .read false, .write false, .write true]
    _ hkv hserde hinjective hscopes hcold (by decide +kernel) (by rw [hstored]; rfl) (by intro i; cases i <;> rfl)
  -- The second execution got the projection when only its own template was there.
  have hlost := w.readCache_overtaken hkv hserde hcold (hscopes true) second (flushPending second).2
  have hmem : ∃ i, first ∈ storedCaches (twoScans i) .new := by
    refine ⟨false, ?_⟩
    subst hfirst
    exact List.mem_cons_self
  have hentry : (first.entries[(⟨"10.0.0.1", 7, 256⟩ : TemplateKey)]?).isSome := by
    subst hfirst
    decide +kernel
  obtain ⟨e, he⟩ := Option.isSome_iff_exists.mp hentry
  obtain ⟨shown, hshown, -⟩ := hreports ⟨"10.0.0.1", 7, 256⟩ ⟨e, first, hmem, he⟩
  have hnone : ((TemplateCache.new.merge second).merge (flushPending second).2).entries[
      (⟨"10.0.0.1", 7, 256⟩ : TemplateKey)]? = none := by
    subst hsecond
    decide +kernel
  rw [← hlost] at hnone
  exact absurd (hnone.symm.trans hshown) (by simp)

end Runs

end Netflow
