import Netflow.Capacity
import Netflow.Common.Eviction

/-!
# Which templates are evicted

After every upsert the cache evicts its least recently seen templates until it is within the
cap. The size is compared with the cap in 32 bits. So below `2 ^ 32` entries the number of
evicted templates is the excess over the cap, and the cache is within it afterwards; a map
of more entries stays over any cap.
-/

namespace Netflow

open Std (ExtTreeMap)

section Definitions

/-- The number of entries over a cap, the size read as 32 bits. -/
def excess (cap : UInt32) (entries : EntryMap) : ℕ := entries.size % 2 ^ 32 - cap.toNat

/-- The entries of a cache with an upserted one in place, before any is evicted. -/
def TemplateCache.inserted (c : TemplateCache) (key : TemplateKey) (entry : TemplateEntry) : EntryMap :=
  c.entries.insert key (c.stored key entry)

end Definitions

section Loop

/-- The eviction loop evicts the excess. -/
theorem evictLoop_eq_evict {cap : UInt32} {rounds : ℕ} {entries : EntryMap} (h : excess cap entries ≤ rounds) :
    TemplateCache.evictLoop cap rounds entries =
      Eviction.evict TemplateEntry.lastSeen (excess cap entries) entries := by
  induction rounds generalizing entries with
  | zero =>
    rw [Nat.le_zero.mp h]
    rfl
  | succ rounds ih =>
    have hover : UInt32.ofNat entries.size > cap ↔ 0 < excess cap entries := by
      rw [gt_iff_lt, UInt32.lt_iff_toNat_lt, UInt32.toNat_ofNat', excess]
      omega
    rw [TemplateCache.evictLoop]
    split
    · rename_i hgt
      obtain ⟨n, hn⟩ := Nat.exists_eq_succ_of_ne_zero (hover.mp hgt).ne'
      have holdest : TemplateCache.oldest entries = Eviction.first TemplateEntry.lastSeen entries := rfl
      rw [hn, Eviction.evict, holdest]
      cases hfirst : Eviction.first TemplateEntry.lastSeen entries with
      | none => rfl
      | some victim =>
        obtain ⟨e, he, -⟩ := Eviction.first_eq_some hfirst
        have hsize : (entries.erase victim).size = entries.size - 1 := by
          rw [ExtTreeMap.size_erase, if_pos (ExtTreeMap.contains_iff_mem.mpr
            (KeyedQueue.mem_of_getElem? he))]
        have hrest : excess cap (entries.erase victim) = n := by
          unfold excess at hn ⊢
          rw [hsize]
          omega
        dsimp only
        rw [ih (by omega), hrest]
    · rename_i hle
      rw [Nat.eq_zero_of_not_pos (mt hover.mpr hle)]
      rfl

/-- An upsert evicts the excess from the entries with the upserted one in place. -/
theorem upsert_entries_eq (c : TemplateCache) (key : TemplateKey) (entry : TemplateEntry) :
    (c.upsert key entry).entries = Eviction.evict TemplateEntry.lastSeen
      (excess c.capEntries (c.inserted key entry)) (c.inserted key entry) := by
  refine evictLoop_eq_evict ?_
  exact (Nat.sub_le _ _).trans (Nat.mod_le _ _)

end Loop

section Runs

variable {calls : List Call} {capEntries capPendingBytes : UInt32}

end Runs

end Netflow
