import Mathlib.Data.List.Perm.Basic
import Mathlib.Data.List.Nodup
import Mathlib.Algebra.BigOperators.Group.List.Basic

/-!
# First-in first-out queues by key

An ordered map whose values are queues. The contents of all queues are listed in key order
and, inside a key, in arrival order; enqueueing and removing a key change that list by
exactly the items involved, up to reordering.
-/

namespace KeyedQueue

open Std

variable {K P : Type} {cmp : K → K → Ordering}

section Entries

variable {V : Type} [TransCmp cmp]

/-- A key is in an ordered map exactly if it has a value there. -/
theorem mem_iff_exists_getElem? {map : ExtTreeMap K V cmp} {key : K} :
    key ∈ map ↔ ∃ value, map[key]? = some value := by
  rw [ExtTreeMap.mem_iff_isSome_getElem?, Option.isSome_iff_exists]

/-- A key with a value is in the map. -/
theorem mem_of_getElem? {map : ExtTreeMap K V cmp} {key : K} {value : V} (h : map[key]? = some value) :
    key ∈ map :=
  mem_iff_exists_getElem?.mpr ⟨value, h⟩

/-- A key without a value is not in the map. -/
theorem notMem_of_getElem? {map : ExtTreeMap K V cmp} {key : K} (h : map[key]? = none) : key ∉ map := by
  rw [mem_iff_exists_getElem?, h]
  simp

variable [LawfulEqCmp cmp]

/-- The entries of an ordered map have pairwise different keys, so they are never repeated. -/
theorem nodup_toList (map : ExtTreeMap K V cmp) : map.toList.Nodup := by
  have hdistinct := ExtTreeMap.distinct_keys_toList (t := map)
  refine hdistinct.imp ?_
  rintro a b hab rfl
  exact hab (ReflCmp.compare_self)

/-- Removing a present key takes exactly its entry out of the listing. -/
theorem toList_perm_cons_erase [DecidableEq K] {map : ExtTreeMap K V cmp} {key : K} {value : V}
    (h : map[key]? = some value) : map.toList.Perm ((key, value) :: (map.erase key).toList) := by
  have hnew : (key, value) ∉ (map.erase key).toList := by
    simp [ExtTreeMap.mem_toList_iff_getElem?_eq_some]
  rw [List.perm_ext_iff_of_nodup (nodup_toList map)
    (List.nodup_cons.mpr ⟨hnew, nodup_toList _⟩)]
  rintro ⟨k, v⟩
  simp only [List.mem_cons, ExtTreeMap.mem_toList_iff_getElem?_eq_some, ExtTreeMap.getElem?_erase,
    LawfulEqCmp.compare_eq_iff_eq, Prod.mk.injEq]
  by_cases hk : key = k
  · subst hk
    simp [h, eq_comm]
  · simp [hk, Ne.symm hk]

/-- Removing an absent key changes nothing. -/
theorem erase_of_getElem?_eq_none {map : ExtTreeMap K V cmp} {key : K} (h : map[key]? = none) :
    map.erase key = map := by
  apply ExtTreeMap.ext_getElem?
  intro k
  rw [ExtTreeMap.getElem?_erase]
  split
  · rename_i hk
    rw [← LawfulEqCmp.eq_of_compare hk, h]
  · rfl

/-- Inserting what is already there changes nothing. -/
theorem insert_of_getElem?_eq_some {map : ExtTreeMap K V cmp} {key : K} {value : V}
    (h : map[key]? = some value) : map.insert key value = map := by
  apply ExtTreeMap.ext_getElem?
  intro k
  rw [ExtTreeMap.getElem?_insert]
  split
  · rename_i hk
    rw [← LawfulEqCmp.eq_of_compare hk, h]
  · rfl

/-- Rebuilding an ordered map from its listing gives it back. -/
theorem ofList_toList [DecidableEq K] (map : ExtTreeMap K V cmp) :
    ExtTreeMap.ofList map.toList cmp = map := by
  apply ExtTreeMap.ext_getElem?
  intro key
  cases h : map[key]? with
  | some value =>
    exact ExtTreeMap.getElem?_ofList_of_mem ReflCmp.compare_self
      ExtTreeMap.distinct_keys_toList (ExtTreeMap.mem_toList_iff_getElem?_eq_some.mpr h)
  | none =>
    refine ExtTreeMap.getElem?_ofList_of_contains_eq_false ?_
    rw [ExtTreeMap.map_fst_toList_eq_keys]
    simpa using h

end Entries

/-- Append an item to the queue of a key, starting an empty queue where there was none. -/
def enqueue (queues : ExtTreeMap K (List P) cmp) [TransCmp cmp] (key : K) (item : P) :
    ExtTreeMap K (List P) cmp :=
  queues.alter key fun queue => some (queue.getD [] ++ [item])

/-- Every queued item with its key, in key order and then in arrival order. -/
def contents [TransCmp cmp] (queues : ExtTreeMap K (List P) cmp) : List (K × P) :=
  queues.toList.flatMap fun (key, queue) => queue.map fun item => (key, item)

variable [TransCmp cmp] [LawfulEqCmp cmp] {queues : ExtTreeMap K (List P) cmp} {key : K}

omit [LawfulEqCmp cmp] in
@[simp] theorem contents_empty : contents (∅ : ExtTreeMap K (List P) cmp) = [] := rfl

/-- An item is queued exactly when its key has a queue holding it. -/
theorem mem_contents {item : P} :
    (key, item) ∈ contents queues ↔ ∃ queue, queues[key]? = some queue ∧ item ∈ queue := by
  simp only [contents, List.mem_flatMap, List.mem_map, Prod.exists, Prod.mk.injEq,
    ExtTreeMap.mem_toList_iff_getElem?_eq_some]
  constructor
  · rintro ⟨k, queue, hqueue, p, hp, rfl, rfl⟩
    exact ⟨queue, hqueue, hp⟩
  · rintro ⟨queue, hqueue, hitem⟩
    exact ⟨key, queue, hqueue, item, hitem, rfl, rfl⟩

/-- The queue of one key after an item was enqueued at another or the same key. -/
theorem getElem?_enqueue [DecidableEq K] {item : P} (k : K) :
    (enqueue queues key item)[k]? =
      if key = k then some ((queues[key]?).getD [] ++ [item]) else queues[k]? := by
  rw [enqueue, ExtTreeMap.getElem?_alter]
  simp only [LawfulEqCmp.compare_eq_iff_eq]

/-- Removing the key just enqueued at forgets what was enqueued. -/
theorem erase_enqueue [DecidableEq K] {item : P} :
    (enqueue queues key item).erase key = queues.erase key := by
  apply ExtTreeMap.ext_getElem?
  intro k
  simp only [ExtTreeMap.getElem?_erase, getElem?_enqueue, LawfulEqCmp.compare_eq_iff_eq]
  split <;> rfl

/-- The contents are the queue of one key together with the contents of all other keys. -/
theorem contents_perm_erase [DecidableEq K] (queues : ExtTreeMap K (List P) cmp) (key : K) :
    (contents queues).Perm
      (((queues[key]?).getD []).map (fun item => (key, item)) ++ contents (queues.erase key)) := by
  cases h : queues[key]? with
  | none => simp [erase_of_getElem?_eq_none h]
  | some queue => exact (toList_perm_cons_erase h).flatMap_right _

/-- Enqueueing adds exactly one item to the contents. -/
theorem contents_enqueue_perm [DecidableEq K] (queues : ExtTreeMap K (List P) cmp) (key : K) (item : P) :
    (contents (enqueue queues key item)).Perm ((key, item) :: contents queues) := by
  have hself : (enqueue queues key item)[key]? = some ((queues[key]?).getD [] ++ [item]) := by
    rw [getElem?_enqueue, if_pos rfl]
  refine (contents_perm_erase _ key).trans ?_
  rw [erase_enqueue, hself, Option.getD_some, List.map_append, List.append_assoc]
  refine (List.perm_append_comm_assoc _ _ _).trans ?_
  exact (contents_perm_erase queues key).symm.cons _

omit [LawfulEqCmp cmp] in
/-- The contents of some of the keys are the contents that lie under these keys. -/
theorem contents_filter (queues : ExtTreeMap K (List P) cmp) (keep : K → Bool) :
    contents (queues.filter fun key _ => keep key) = (contents queues).filter fun p => keep p.1 := by
  rw [contents, ExtTreeMap.toList_filter, contents]
  induction queues.toList with
  | nil => rfl
  | cons entry entries ih =>
    obtain ⟨key, queue⟩ := entry
    rw [List.flatMap_cons, List.filter_append, ← ih, List.filter_cons]
    cases hkeep : keep key <;> simp [hkeep, List.filter_map, Function.comp_def]

end KeyedQueue
