import Netflow.Invariant
import Netflow.Worker.Flows

/-!
# Batches and rehydration are transparent

A scan cut into batches stores its cache after each batch and loads it before the next. The
cache loaded is the cache stored, since its running total is the one recomputed. So the
rows and the final cache are those of one uninterrupted run, wherever the cuts lie.
-/

namespace Netflow

variable {σ : Type} {w : Worker σ}

/-- Merging a cache's own layouts into it changes nothing. -/
theorem TemplateCache.foldl_upsert_self {c : TemplateCache} (hcap : c.WithinCap)
    (entries : List (TemplateKey × TemplateEntry)) (h : ∀ p ∈ entries, c.entries[p.1]? = some p.2) :
    entries.foldl (fun (g : TemplateCache) (key, entry) => g.upsert key entry) c = c := by
  induction entries with
  | nil => rfl
  | cons p entries ih =>
    obtain ⟨key, entry⟩ := p
    have hhead : c.upsert key entry = c := upsert_of_getElem?_eq_some hcap (h _ List.mem_cons_self)
    simp only [List.foldl_cons, hhead]
    exact ih fun q hq => h q (List.mem_cons_of_mem _ hq)

/-- What is read from a scope is what was last put there. -/
theorem Worker.readCache_kvPut (hkv : w.kv.Lawful) (store : σ) (scope value scope' : Bytes) :
    w.readCache (w.kv.kvPut store scope cacheKey value) scope' =
      if scope' = scope then .fromBytes w.serde value else w.readCache store scope' := by
  simp only [readCache, hkv.kvGet_kvPut, and_true]
  split <;> rfl

/-- The cache of a scan is loaded as it was stored. -/
theorem Worker.loadScanCache_storeScanCache (hkv : w.kv.Lawful) (hserde : w.serde.Lawful)
    {cache : TemplateCache} (hacc : cache.Accounted) (hcap : cache.WithinCap) (store : σ) :
    ∃ store', w.storeScanCache (some store) cache = some store' ∧
      w.loadScanCache (some store') = cache := by
  refine ⟨_, rfl, ?_⟩
  have hself : TemplateCache.fromBytes w.serde (cache.toBytes w.serde) = cache :=
    hacc.fromBytes_toBytes hserde
  simp only [loadScanCache, readCache_kvPut hkv]
  split
  · -- The scan runs under the global scope itself: the merge reads back the cache just stored.
    rename_i hscope
    have hmerged := TemplateCache.foldl_upsert_self hcap cache.entries.toList
      fun p hp => Std.ExtTreeMap.mem_toList_iff_getElem?_eq_some.mp hp
    rw [if_pos hscope.symm, hself, hmerged, hself]
  · rw [if_pos trivial, hself]

/-- Calls leave a cache that can be stored and loaded again. -/
theorem runCalls_storable {calls : List Call} {c : TemplateCache} (hacc : c.Accounted) (hcap : c.WithinCap) :
    (runCalls calls c).2.Accounted ∧ (runCalls calls c).2.WithinCap := by
  rw [runCalls_eq_trace]
  exact ⟨runTrace_accounted calls hacc, (stable_withinCap _ _).run hcap⟩

/-- A batch returns the rows of its calls and stores the cache they leave. -/
theorem Worker.processCalls_eq (hkv : w.kv.Lawful) (hserde : w.serde.Lawful) (calls : List Call) {store : σ}
    {cache : TemplateCache} (hload : w.loadScanCache (some store) = cache) (hacc : cache.Accounted)
    (hcap : cache.WithinCap) :
    ∃ store', w.processCalls calls (some store) = ((runCalls calls cache).1.flatten, some store') ∧
      w.storeScanCache (some store) (runCalls calls cache).2 = some store' ∧
      w.loadScanCache (some store') = (runCalls calls cache).2 := by
  obtain ⟨hacc', hcap'⟩ := @runCalls_storable calls _ hacc hcap
  obtain ⟨store', hstore, hstored⟩ := w.loadScanCache_storeScanCache hkv hserde hacc' hcap' store
  refine ⟨store', ?_, hstore, hstored⟩
  simp only [processCalls, hload, hstore]

/-- Batches continue the run: they return the rows of their calls and store the cache the calls
leave. -/
theorem Worker.processBatches_eq (hkv : w.kv.Lawful) (hserde : w.serde.Lawful)
    (batches : List (List Call)) {store : σ} {cache : TemplateCache}
    (hload : w.loadScanCache (some store) = cache) (hacc : cache.Accounted) (hcap : cache.WithinCap) :
    ∃ store', w.processBatches batches (some store) =
        ((runCalls batches.flatten cache).1.flatten, some store') ∧
      w.loadScanCache (some store') = (runCalls batches.flatten cache).2 := by
  induction batches generalizing store cache with
  | nil => exact ⟨store, rfl, hload⟩
  | cons calls batches ih =>
    obtain ⟨hacc', hcap'⟩ := runCalls_storable hacc hcap
    obtain ⟨stored, hbatch, -, hstored⟩ := w.processCalls_eq hkv hserde calls hload hacc hcap
    obtain ⟨store', hrest, hfinal⟩ := ih hstored hacc' hcap'
    refine ⟨store', ?_, ?_⟩
    · simp only [processBatches, hbatch, hrest, List.flatten_cons, runCalls_append, List.flatten_append]
    · rw [List.flatten_cons, runCalls_append]
      exact hfinal

/-- However a scan is cut into batches, its rows followed by the flush are those of one run in
memory, and the cache it stores is the one that run ends with, the running total included. -/
theorem Worker.processBatches_finish (hkv : w.kv.Lawful) (hserde : w.serde.Lawful) {store : σ}
    (hcold : w.kv.kvGet store w.executionId cacheKey = none) (batches : List (List Call)) :
    let processed := w.processBatches batches (some store)
    let finished := w.finish processed.2
    processed.1 ++ finished.1 = scanRows batches.flatten .new ∧
    w.loadScanCache processed.2 = (runCalls batches.flatten .new).2 ∧
    w.loadScanCache finished.2 = (flushPending (runCalls batches.flatten .new).2).2 := by
  have hload : w.loadScanCache (some store) = .new := by
    simp [loadScanCache, readCache, hcold, TemplateCache.fromBytes]
  have hstart : TemplateCache.new.WithinCap := UInt32.zero_le (a := _)
  obtain ⟨hacc, hcap⟩ := runCalls_storable (c := .new) TemplateCache.accounted_new hstart
  obtain ⟨store', hbatches, hstored⟩ := w.processBatches_eq hkv hserde batches hload
    TemplateCache.accounted_new hstart
  have hflushed : (flushPending (runCalls batches.flatten .new).2).2.Accounted := hacc.drainPending
  obtain ⟨store'', hstore, hfinal⟩ := w.loadScanCache_storeScanCache hkv hserde hflushed hcap store'
  simp only [hbatches, finish, hstored, hstore]
  exact ⟨rfl, trivial, hfinal⟩

/-- A store in memory: each scope and key holds the last value put there. -/
def KvStore.memory : KvStore (Bytes → Bytes → Option Bytes) where
  kvGet store scope key := store scope key
  kvPut store scope key value scope' key' :=
    if scope' = scope ∧ key' = key then some value else store scope' key'

/-- A Data Set in one batch and its template in the next: rehydration in between loses nothing. -/
theorem Worker.processBatches_finish_two :
    let data := Call.of sampleData "10.0.0.1"
    let template := Call.of sampleTemplate "10.0.0.1"
    let caches := [.new, (runCalls [data] .new).2, (runCalls [data, template] .new).2]
    let w : Worker _ := ⟨SerdeJson.writing (caches.map TemplateCache.toDto), .memory, [1]⟩
    let processed := w.processBatches [[data], [template]] (some fun _ _ => none)
    let finished := w.finish processed.2
    processed.1 ++ finished.1 = scanRows [data, template] .new ∧
    w.loadScanCache processed.2 = (runCalls [data, template] .new).2 ∧
    w.loadScanCache finished.2 = (flushPending (runCalls [data, template] .new).2).2 :=
  Worker.processBatches_finish ⟨fun _ _ _ _ _ _ => rfl⟩ (SerdeJson.writing_lawful (by decide +kernel)) rfl
    [[Call.of sampleData "10.0.0.1"], [Call.of sampleTemplate "10.0.0.1"]]

end Netflow
