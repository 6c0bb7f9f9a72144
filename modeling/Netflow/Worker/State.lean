import Netflow.Cache

/-!
# Externalized scan state

The cache of a scan is loaded from the worker storage before each batch and stored after
it, under the execution's own scope. Each store also merges the learned layouts into one
global projection. The storage is a parameter, given by its two operations.
-/

namespace Netflow

/-- The two storage operations the worker calls, on a store of type `σ`. -/
structure KvStore (σ : Type) where
  kvGet : σ → Bytes → Bytes → Option Bytes
  kvPut : σ → Bytes → Bytes → Bytes → σ

/-- What is relied on: a read returns the last value put under its scope and key. -/
structure KvStore.Lawful {σ : Type} (kv : KvStore σ) : Prop where
  kvGet_kvPut : ∀ store scope key value scope' key',
    kv.kvGet (kv.kvPut store scope key value) scope' key' =
      if scope' = scope ∧ key' = key then some value else kv.kvGet store scope' key'

/-- The key a cache is stored under, in every scope. -/
def cacheKey : Bytes := "netflow.cache".toUTF8.toList

/-- The scope of the global projection. -/
def globalScope : Bytes := "netflow:global".toUTF8.toList

/-- The external pieces one execution works with. -/
structure Worker (σ : Type) where
  serde : SerdeJson
  kv : KvStore σ
  executionId : Bytes

variable {σ : Type} (w : Worker σ)

/-- Read a cache from a scope of the store; a missing value reads as empty bytes. -/
def Worker.readCache (store : σ) (scope : Bytes) : TemplateCache :=
  .fromBytes w.serde ((w.kv.kvGet store scope cacheKey).getD [])

/-- Load the cache of this scan; it is empty on a cold start and without storage. -/
def Worker.loadScanCache (storage : Option σ) : TemplateCache :=
  match storage with
  | some store => w.readCache store w.executionId
  | none => .new

/-- Store the cache of this scan and merge its layouts into the global projection. -/
def Worker.storeScanCache (storage : Option σ) (cache : TemplateCache) : Option σ :=
  storage.map fun store =>
    let store := w.kv.kvPut store w.executionId cacheKey (cache.toBytes w.serde)
    let merged := cache.entries.toList.foldl (fun (g : TemplateCache) (key, entry) => g.upsert key entry)
      (w.readCache store globalScope)
    w.kv.kvPut store globalScope cacheKey (merged.toBytes w.serde)

end Netflow
