import Netflow.Capacity
import Netflow.Worker.Rehydration

/-!
# The global projection

Each store of a scan replays the entries of its cache into the global projection by upserts.
An upsert keeps the use count of the entry it replaces, so the projection shows each template
as the scan has it, but with the use count of the batch after which it was first stored.
-/

namespace Netflow

open Std (ExtTreeMap)

section Merge

/-- Merge the layouts of a scan cache into the projection. -/
def TemplateCache.merge (g cache : TemplateCache) : TemplateCache :=
  cache.entries.toList.foldl (fun (g : TemplateCache) (key, entry) => g.upsert key entry) g

variable {keys : Finset TemplateKey} {g cache : TemplateCache}

/-- Upserting entries of distinct keys that fit stores each of them and leaves all others. -/
theorem TemplateCache.Fits.foldl_upsert (hfits : g.Fits keys) {entries : List (TemplateKey × TemplateEntry)}
    (hkeys : ∀ p ∈ entries, p.1 ∈ keys) (hdistinct : entries.Pairwise fun p q => p.1 ≠ q.1) :
    let merged := entries.foldl (fun (g : TemplateCache) (key, entry) => g.upsert key entry) g
    merged.Fits keys ∧
      ∀ k : TemplateKey, (∀ e, (k, e) ∈ entries → merged.entries[k]? = some (g.stored k e)) ∧
        ((∀ e, (k, e) ∉ entries) → merged.entries[k]? = g.entries[k]?) := by
  induction entries generalizing g with
  | nil => exact ⟨hfits, fun k => ⟨fun e he => absurd he (by simp), fun _ => rfl⟩⟩
  | cons p entries ih =>
    obtain ⟨key, entry⟩ := p
    obtain ⟨hhead, htail⟩ := List.forall_mem_cons.mp hkeys
    obtain ⟨hnew, hrest⟩ := List.pairwise_cons.mp hdistinct
    obtain ⟨hmerged, hentries⟩ := ih (hfits.upsert hhead entry) htail hrest
    have hupsert : ∀ k : TemplateKey, (g.upsert key entry).entries[k]? =
        if key = k then some (g.stored key entry) else g.entries[k]? := by
      intro k
      rw [hfits.upsert_entries hhead, ExtTreeMap.getElem?_insert]
      simp only [Std.LawfulEqCmp.compare_eq_iff_eq]
    refine ⟨hmerged, fun k => ⟨fun e he => ?_, fun hnot => ?_⟩⟩
    · rcases List.mem_cons.mp he with heq | hlater
      · -- No later entry has this key.
        cases heq
        rw [List.foldl_cons, (hentries key).2 fun e' he' => hnew (key, e') he' rfl, hupsert, if_pos rfl]
      · have hne : key ≠ k := hnew (k, e) hlater
        rw [List.foldl_cons, (hentries k).1 e hlater, stored, hupsert, if_neg hne, stored]
    · have hne : key ≠ k := fun heq => hnot entry (heq ▸ List.mem_cons_self)
      rw [List.foldl_cons, (hentries k).2 fun e he => hnot e (List.mem_cons_of_mem _ he), hupsert, if_neg hne]

/-- Below the entry cap, merging stores every entry of the scan cache and leaves all others. -/
theorem TemplateCache.Fits.merge (hfits : g.Fits keys) (hcache : ∀ key ∈ cache.entries, key ∈ keys) :
    (g.merge cache).Fits keys ∧
      ∀ k : TemplateKey, (g.merge cache).entries[k]? =
        match cache.entries[k]? with
        | some e => some (g.stored k e)
        | none => g.entries[k]? := by
  have hmem : ∀ p ∈ cache.entries.toList, p.1 ∈ keys := fun p hp =>
    hcache p.1 (KeyedQueue.mem_of_getElem? (ExtTreeMap.mem_toList_iff_getElem?_eq_some.mp hp))
  have hdistinct : cache.entries.toList.Pairwise fun p q => p.1 ≠ q.1 :=
    ExtTreeMap.distinct_keys_toList.imp fun hne heq => hne (Std.LawfulEqCmp.compare_eq_iff_eq.mpr heq)
  obtain ⟨hmerged, hentries⟩ := hfits.foldl_upsert hmem hdistinct
  refine ⟨hmerged, fun k => ?_⟩
  cases hk : cache.entries[k]? with
  | some e => exact (hentries k).1 e (ExtTreeMap.mem_toList_iff_getElem?_eq_some.mpr hk)
  | none =>
    refine (hentries k).2 fun e he => ?_
    rw [ExtTreeMap.mem_toList_iff_getElem?_eq_some, hk] at he
    contradiction

/-- Merging does not touch the buffer. -/
theorem TemplateCache.Accounted.merge (h : g.Accounted) (cache : TemplateCache) : (g.merge cache).Accounted := by
  unfold TemplateCache.merge
  induction cache.entries.toList generalizing g with
  | nil => exact h
  | cons p entries ih => exact ih (h.upsert p.1 p.2)

end Merge

section Mirror

variable {keys : Finset TemplateKey} {c g : TemplateCache}

/-- The use counts the projection shows: each template has that of the batch after which it was first stored. -/
def countsShown : List (List Call) → TemplateCache → (TemplateKey → Option UInt64) → TemplateKey → Option UInt64
  | [], _, counts => counts
  | calls :: batches, cache, counts =>
    let cache := (runCalls calls cache).2
    countsShown batches cache fun key => (counts key).or ((cache.entries[key]?).map (·.useCount))

/-- The projection has the templates of the scan as they are, but with the given use counts. -/
structure Mirrors (keys : Finset TemplateKey) (c g : TemplateCache) (counts : TemplateKey → Option UInt64) :
    Prop where
  fits : g.Fits keys
  accounted : g.Accounted
  counted : ∀ key : TemplateKey, (counts key).isSome ↔ key ∈ c.entries
  entries : ∀ key : TemplateKey, g.entries[key]? =
    (c.entries[key]?).bind fun e => (counts key).map fun u => { e with useCount := u }

/-- Where learning evicts nothing, every operation keeps the first time a template was seen. -/
theorem stable_firstSeen {learned : List (TemplateKey × Layout)} (hlearned : ∀ p ∈ learned, p.1 ∈ keys)
    (arrivals : List (TemplateKey × PendingRecord)) (k : TemplateKey) (t : Int64) :
    Stable learned arrivals fun c => c.Fits keys ∧ ∃ e, c.entries[k]? = some e ∧ e.firstSeen = t where
  upsert c key entry hmem h := by
    obtain ⟨hfits, e, he, htime⟩ := h
    refine ⟨hfits.upsert (hlearned _ hmem) entry, ?_⟩
    rw [hfits.upsert_entries (hlearned _ hmem), ExtTreeMap.getElem?_insert]
    split
    · rename_i hkey
      obtain rfl := Std.LawfulEqCmp.eq_of_compare hkey
      refine ⟨_, rfl, ?_⟩
      rw [TemplateCache.stored, he]
      exact htime
    · exact ⟨e, he, htime⟩
  useTemplate c c' key now tpl huse h := by
    obtain ⟨hfits, e, he, htime⟩ := h
    refine ⟨(stable_fits hlearned arrivals).useTemplate c c' key now tpl huse hfits, ?_⟩
    obtain ⟨e', he', htpl, rfl⟩ := TemplateCache.useTemplate_eq_some.mp huse
    rw [ExtTreeMap.getElem?_insert]
    split
    · rename_i hkey
      obtain rfl := Std.LawfulEqCmp.eq_of_compare hkey
      rw [he, Option.some_inj] at he'
      exact ⟨tpl, rfl, by rw [htpl, ← he']; exact htime⟩
    · exact ⟨e, he, htime⟩
  pushPending c key rec hmem h :=
    ⟨(stable_fits hlearned arrivals).pushPending c key rec hmem h.1, by simpa using h.2⟩
  takePending c key h := ⟨(stable_fits hlearned arrivals).takePending c key h.1, h.2⟩

/-- A batch and the merge of what it leaves keep the mirror. -/
theorem Mirrors.merge {counts : TemplateKey → Option UInt64} (h : Mirrors keys c g counts) (hfits : c.Fits keys)
    {calls : List Call} (hkeys : ∀ p ∈ calls.flatMap Call.learned, p.1 ∈ keys) {c' : TemplateCache}
    (hc' : c' = (runCalls calls c).2) :
    Mirrors keys c' (g.merge c') fun key => (counts key).or ((c'.entries[key]?).map (·.useCount)) := by
  rw [runCalls_eq_trace] at hc'
  have hfits' : c'.Fits keys := hc' ▸ (stable_fits hkeys _).run hfits
  have hkept : ∀ key, key ∈ c.entries → key ∈ c'.entries := fun key hmem =>
    hc' ▸ (((retaining_fits hkeys _).stable_mem_entries key).run ⟨hfits, hmem⟩).2
  obtain ⟨hmerged, hentries⟩ := h.fits.merge hfits'.subset
  refine ⟨hmerged, h.accounted.merge c', fun key => ?_, fun key => ?_⟩
  · rw [Option.isSome_or, Bool.or_eq_true, h.counted, Option.isSome_map, ← ExtTreeMap.mem_iff_isSome_getElem?]
    exact or_iff_right_of_imp (hkept key)
  · rw [hentries]
    cases he : c'.entries[key]? with
    | none =>
      -- A template that is not cached now was not cached before.
      have habsent : key ∉ c.entries := fun hmem => KeyedQueue.notMem_of_getElem? he (hkept key hmem)
      dsimp only
      rw [h.entries, ExtTreeMap.getElem?_eq_none habsent]
      rfl
    | some e =>
      dsimp only [Option.bind_some]
      cases hold : c.entries[key]? with
      | none =>
        have hnone : counts key = none := by
          rw [← Option.not_isSome_iff_eq_none, h.counted]
          exact KeyedQueue.notMem_of_getElem? hold
        have hnew : g.entries[key]? = none := by rw [h.entries, hold]; rfl
        rw [TemplateCache.stored, hnew, hnone]
        rfl
      | some old =>
        have hcounted : (counts key).isSome := (h.counted key).mpr (KeyedQueue.mem_of_getElem? hold)
        obtain ⟨u, hu⟩ := Option.isSome_iff_exists.mp hcounted
        have hshown : g.entries[key]? = some { old with useCount := u } := by
          rw [h.entries, hold, hu]
          rfl
        obtain ⟨-, e', he', htime⟩ := (stable_firstSeen hkeys (calls.flatMap Call.arrivals) key
          old.firstSeen).run ⟨hfits, old, hold, rfl⟩
        rw [← hc', he, Option.some_inj] at he'
        rw [TemplateCache.stored, hshown, hu, he', ← htime]
        rfl

variable {σ : Type} {w : Worker σ}

/-- The projection, empty without storage. -/
def Worker.globalCache (w : Worker σ) (storage : Option σ) : TemplateCache :=
  match storage with
  | some store => w.readCache store globalScope
  | none => .new

/-- A projection merged and put back is read as it was merged. -/
theorem Worker.readCache_kvPut_merge (hkv : w.kv.Lawful) (hserde : w.serde.Lawful) (hacc : g.Accounted)
    (cache : TemplateCache) (store : σ) :
    w.readCache (w.kv.kvPut store globalScope cacheKey ((g.merge cache).toBytes w.serde)) globalScope =
      g.merge cache := by
  rw [readCache_kvPut hkv, if_pos rfl]
  exact (hacc.merge cache).fromBytes_toBytes hserde

/-- What is put in another scope does not show in the projection. -/
theorem Worker.readCache_kvPut_of_ne (hkv : w.kv.Lawful) {scope : Bytes} (hscope : scope ≠ globalScope)
    (store : σ) (value : Bytes) :
    w.readCache (w.kv.kvPut store scope cacheKey value) globalScope = w.readCache store globalScope := by
  rw [readCache_kvPut hkv, if_neg hscope.symm]

/-- A store of a scan merges its cache into the projection. -/
theorem Worker.globalCache_storeScanCache (hkv : w.kv.Lawful) (hserde : w.serde.Lawful)
    (hscope : w.executionId ≠ globalScope) {store : σ} (hacc : (w.globalCache (some store)).Accounted)
    (cache : TemplateCache) {store' : σ} (hstore : w.storeScanCache (some store) cache = some store') :
    w.globalCache (some store') = (w.globalCache (some store)).merge cache := by
  cases hstore
  have hread := w.readCache_kvPut_of_ne hkv hscope store (cache.toBytes w.serde)
  refine (w.readCache_kvPut_merge hkv hserde ?_ cache _).trans (congrArg (·.merge cache) hread)
  rw [hread]
  exact hacc

/-- Batches keep the mirror, with the use counts of the batches after which each template was first stored. -/
theorem Worker.processBatches_mirrors (hkv : w.kv.Lawful) (hserde : w.serde.Lawful)
    (hscope : w.executionId ≠ globalScope) (batches : List (List Call)) {store : σ}
    {counts : TemplateKey → Option UInt64} (hload : w.loadScanCache (some store) = c) (hacc : c.Accounted)
    (hcap : c.WithinCap) (hfits : c.Fits keys) (h : Mirrors keys c (w.globalCache (some store)) counts)
    (hkeys : ∀ p ∈ batches.flatten.flatMap Call.learned, p.1 ∈ keys) :
    Mirrors keys (runCalls batches.flatten c).2 (w.globalCache (w.processBatches batches (some store)).2)
      (countsShown batches c counts) := by
  induction batches generalizing c store counts with
  | nil => exact h
  | cons calls batches ih =>
    rw [List.flatten_cons, List.flatMap_append, List.forall_mem_append] at hkeys
    have hfits' : (runCalls calls c).2.Fits keys := by
      rw [runCalls_eq_trace]
      exact (stable_fits hkeys.1 _).run hfits
    obtain ⟨hacc', hcap'⟩ := runCalls_storable hacc hcap
    obtain ⟨store', hbatch, hstore, hload'⟩ := w.processCalls_eq hkv hserde calls hload hacc hcap
    have hmirror := h.merge hfits hkeys.1 rfl
    rw [← w.globalCache_storeScanCache hkv hserde hscope h.accounted _ hstore] at hmirror
    rw [List.flatten_cons, runCalls_append, countsShown]
    simp only [processBatches, hbatch]
    exact ih hload' hacc' hcap' hfits' hmirror hkeys.2

/-- A store in which no scope has a cache yet. -/
def Worker.Cold (w : Worker σ) (store : σ) : Prop :=
  ∀ scope, w.kv.kvGet store scope cacheKey = none

/-- The templates the calls of the batches can learn. -/
def learnedKeys (batches : List (List Call)) : Finset TemplateKey :=
  ((batches.flatten.flatMap Call.learned).map Prod.fst).toFinset

/-- A cold store reads as the empty cache in every scope. -/
theorem Worker.Cold.readCache {store : σ} (hcold : w.Cold store) (scope : Bytes) :
    w.readCache store scope = .new := by
  simp [Worker.readCache, hcold scope, TemplateCache.fromBytes]

/-- From a cold start, batches that fit the cap leave the projection a mirror of the scan. -/
theorem Worker.Cold.processBatches_mirrors (hkv : w.kv.Lawful) (hserde : w.serde.Lawful)
    (hscope : w.executionId ≠ globalScope) {store : σ} (hcold : w.Cold store) (batches : List (List Call))
    (hcap : (learnedKeys batches).card ≤ defaultCapEntries.toNat) :
    Mirrors (learnedKeys batches) (runCalls batches.flatten .new).2
      (w.globalCache (w.processBatches batches (some store)).2) (countsShown batches .new fun _ => none) := by
  have hfits : TemplateCache.new.Fits (learnedKeys batches) :=
    ⟨by simp [TemplateCache.new, TemplateCache.empty], hcap⟩
  have hempty : ∀ key : TemplateKey, key ∉ TemplateCache.new.entries := by
    simp [TemplateCache.new, TemplateCache.empty]
  have hstart : Mirrors (learnedKeys batches) .new (w.globalCache (some store)) fun _ => none := by
    rw [globalCache, hcold.readCache]
    exact ⟨hfits, TemplateCache.accounted_new, fun key => by simp [hempty key],
      fun key => by rw [ExtTreeMap.getElem?_eq_none (hempty key)]; rfl⟩
  exact w.processBatches_mirrors hkv hserde hscope batches (hcold.readCache _) TemplateCache.accounted_new
    (UInt32.zero_le (a := _)) hfits hstart fun p hp => List.mem_toFinset.mpr (List.mem_map_of_mem hp)

/-- On a cold start and below the entry cap, the projection shows every template of the scan as the scan has
it exactly if the scan runs under the scope of the projection, or no template has been used since the batch
after which it was first stored. -/
theorem Worker.globalCache_mirrors_iff (hkv : w.kv.Lawful) (hserde : w.serde.Lawful) {store : σ}
    (hcold : w.Cold store) (batches : List (List Call))
    (hcap : (learnedKeys batches).card ≤ defaultCapEntries.toNat) :
    let processed := (w.processBatches batches (some store)).2
    (∀ (key : TemplateKey) (entry : TemplateEntry), (w.loadScanCache processed).entries[key]? = some entry →
        (w.globalCache processed).entries[key]? = some entry) ↔
      w.executionId = globalScope ∨
        ∀ (key : TemplateKey) (entry : TemplateEntry),
          (runCalls batches.flatten .new).2.entries[key]? = some entry →
            countsShown batches .new (fun _ => none) key = some entry.useCount := by
  obtain ⟨store', hbatches, hloaded⟩ := w.processBatches_eq hkv hserde batches
    (hcold.readCache w.executionId) TemplateCache.accounted_new (UInt32.zero_le (a := _))
  by_cases hscope : w.executionId = globalScope
  · refine iff_of_true ?_ (.inl hscope)
    rw [hbatches]
    intro key entry hentry
    rw [loadScanCache, hscope] at hentry
    exact hentry
  · have hmirror := hcold.processBatches_mirrors hkv hserde hscope batches hcap
    rw [or_iff_right hscope]
    rw [hbatches] at hmirror ⊢
    simp only [hloaded, hmirror.entries]
    refine forall₂_congr fun key entry => imp_congr_right fun hentry => ?_
    rw [hentry, Option.bind_some, Option.map_eq_some_iff]
    constructor
    · rintro ⟨u, hu, hsame⟩
      rw [hu, ← congrArg TemplateEntry.useCount hsame]
    · intro hcount
      exact ⟨entry.useCount, hcount, rfl⟩

/-- The execution of the cases below, over a store in memory. -/
noncomputable def Worker.inMemory (caches : List TemplateCache) : Worker (Bytes → Bytes → Option Bytes) :=
  ⟨SerdeJson.writing (caches.map TemplateCache.toDto), .memory, [1]⟩

/-- A template and its first record in one batch: the projection is exact if the count stored is the last. -/
theorem Worker.globalCache_mirrors_iff_one :
    let batches := [[Call.of sampleTemplate "10.0.0.1", Call.of sampleData "10.0.0.1"]]
    let w := Worker.inMemory [(runCalls batches.flatten .new).2]
    let processed := (w.processBatches batches (some fun _ _ => none)).2
    (∀ (key : TemplateKey) (entry : TemplateEntry), (w.loadScanCache processed).entries[key]? = some entry →
        (w.globalCache processed).entries[key]? = some entry) ↔
      w.executionId = globalScope ∨
        ∀ (key : TemplateKey) (entry : TemplateEntry),
          (runCalls batches.flatten .new).2.entries[key]? = some entry →
            countsShown batches .new (fun _ => none) key = some entry.useCount :=
  Worker.globalCache_mirrors_iff ⟨fun _ _ _ _ _ _ => rfl⟩ (SerdeJson.writing_lawful (by decide +kernel))
    (fun _ => rfl) [[Call.of sampleTemplate "10.0.0.1", Call.of sampleData "10.0.0.1"]] (by decide +kernel)

/-- A template in one batch and its first record in the next: the projection still shows no use. -/
theorem Worker.not_forall_globalCache_mirrors :
    ¬ ∀ (σ : Type) (w : Worker σ) (store : σ) (batches : List (List Call)), w.kv.Lawful → w.serde.Lawful →
      w.Cold store → (learnedKeys batches).card ≤ defaultCapEntries.toNat →
        ∀ (key : TemplateKey) (entry : TemplateEntry),
          (w.loadScanCache (w.processBatches batches (some store)).2).entries[key]? = some entry →
            (w.globalCache (w.processBatches batches (some store)).2).entries[key]? = some entry := by
  intro hall
  obtain ⟨batches, hb⟩ : ∃ batches, batches =
    [[Call.of sampleTemplate "10.0.0.1"], [Call.of sampleData "10.0.0.1"]] := ⟨_, rfl⟩
  obtain ⟨w, hw⟩ : ∃ w, w = Worker.inMemory [(runCalls (batches.take 1).flatten .new).2,
    (runCalls batches.flatten .new).2] := ⟨_, rfl⟩
  have hkv : w.kv.Lawful := hw ▸ ⟨fun _ _ _ _ _ _ => rfl⟩
  have hserde : w.serde.Lawful := by
    subst hw hb
    exact SerdeJson.writing_lawful (by decide +kernel)
  have hid : w.executionId = [1] := hw ▸ rfl
  have hscope : w.executionId ≠ globalScope := by
    rw [hid]
    decide +kernel
  have hcold : w.Cold fun _ _ => none := fun _ => by subst hw; rfl
  have hcap : (learnedKeys batches).card ≤ defaultCapEntries.toNat := by subst hb; decide +kernel
  obtain ⟨store', hbatches, hloaded⟩ := w.processBatches_eq hkv hserde batches
    (hcold.readCache w.executionId) TemplateCache.accounted_new (UInt32.zero_le (a := _))
  have hmirror := hcold.processBatches_mirrors hkv hserde hscope batches hcap
  have hscan : (runCalls batches.flatten .new).2.entries[(⟨"10.0.0.1", 7, 256⟩ : TemplateKey)]? =
      some ⟨.data, [⟨8, 0, 4, "sourceIPv4Address", .ipv4Address⟩], 0, 0, 0, 1⟩ := by subst hb; decide +kernel
  have hshown : countsShown batches .new (fun _ => none) ⟨"10.0.0.1", 7, 256⟩ = some 0 := by
    subst hb
    decide +kernel
  have hsame := hall _ w _ batches hkv hserde hcold hcap ⟨"10.0.0.1", 7, 256⟩ _
    (by rw [hbatches, hloaded, hscan])
  rw [hmirror.entries, hscan, Option.bind_some, hshown] at hsame
  exact absurd hsame (by decide)

end Mirror

end Netflow
