import Netflow.Common.KeyedQueue
import Netflow.Normalize
import Netflow.Registry.Enterprise

/-!
# The template cache

The externalized scan state: the template layouts learned so far, keyed by exporter,
observation domain and template id, and the bounded buffer of Data Sets that arrived
before their template. Machine integers wrap as in a release build.
-/

namespace Netflow

open Std (ExtTreeMap)

/-- Whether a template describes data records or exporter metadata. -/
inductive TemplateKind
  | data | options
  deriving DecidableEq, Repr

/-- One field specifier of a template layout. -/
structure FieldSpec where
  ieId : UInt16
  /-- `0` for a standard element, else the Private Enterprise Number. -/
  enterpriseNumber : UInt32
  /-- The declared length; `0xFFFF` marks a variable-length element. -/
  length : UInt16
  name : String
  ieType : IeType
  deriving DecidableEq, Repr

/-- A field is of variable length exactly when its declared length is `0xFFFF`. -/
def FieldSpec.isVariable (f : FieldSpec) : Bool := f.length = 0xFFFF

/-- The cache key: two exporters, or two domains of one exporter, may reuse a template id. -/
structure TemplateKey where
  exporter : String
  obsDomain : UInt32
  templateId : UInt16
  deriving DecidableEq, Repr, Ord

/-- The derived key order is lexicographic in the three components. -/
theorem TemplateKey.compare_eq_compareLex :
    (compare : TemplateKey → TemplateKey → Ordering) =
      compareLex (compareOn TemplateKey.exporter)
        (compareLex (compareOn TemplateKey.obsDomain) (compareOn TemplateKey.templateId)) := by
  funext a b
  simp [compare, instOrdTemplateKey.ord, compareLex, compareOn]

instance : Std.TransOrd TemplateKey := by
  unfold Std.TransOrd
  rw [TemplateKey.compare_eq_compareLex]
  infer_instance

instance : Std.LawfulEqOrd TemplateKey where
  eq_of_compare {a b} h := by
    rw [TemplateKey.compare_eq_compareLex] at h
    simp only [compareLex, compareOn, Ordering.then_eq_eq, Std.LawfulEqCmp.compare_eq_iff_eq] at h
    cases a
    cases b
    simp_all

/-- A cached template layout with its usage statistics. -/
structure TemplateEntry where
  kind : TemplateKind
  fields : List FieldSpec
  /-- The number of leading scope fields of an Options template; `0` for Data. -/
  scopeFieldCount : UInt16
  firstSeen : Int64
  lastSeen : Int64
  useCount : UInt64
  deriving DecidableEq, Repr

/-- A Data Set buffered because its template is not known yet, with its header context. -/
structure PendingRecord where
  exportTime : Option Int64
  sequence : Option UInt64
  version : Version
  sysUptimeMs : Option UInt64
  bytes : Bytes
  deriving DecidableEq, Repr

/-- The template layouts by key, in key order. -/
abbrev EntryMap := ExtTreeMap TemplateKey TemplateEntry compare

/-- The buffered Data Sets by key, each key's in arrival order. -/
abbrev PendingMap := ExtTreeMap TemplateKey (List PendingRecord) compare

/-- The scan state. `pendingBytes` is the private running total of buffered bytes. -/
@[ext] structure TemplateCache where
  entries : EntryMap
  pending : PendingMap
  capEntries : UInt32
  capPendingBytes : UInt32
  pendingBytes : UInt32

/-- The default cap on cached layouts. -/
def defaultCapEntries : UInt32 := 100000

/-- The default cap on buffered bytes. -/
def defaultCapPendingBytes : UInt32 := 4 * 1024 * 1024

/-- `u32::saturating_add`. -/
def saturatingAdd (a b : UInt32) : UInt32 := .ofNat (min (a.toNat + b.toNat) (2 ^ 32 - 1))

/-- `u32::saturating_sub`. -/
def saturatingSub (a b : UInt32) : UInt32 := .ofNat (a.toNat - b.toNat)

namespace TemplateCache

/-- A cache holding nothing, with the given caps. -/
def empty (capEntries capPendingBytes : UInt32) : TemplateCache :=
  ⟨∅, ∅, capEntries, capPendingBytes, 0⟩

/-- A cache holding nothing, with the default caps. -/
def new : TemplateCache := empty defaultCapEntries defaultCapPendingBytes

/-- The key of the entry seen least recently, the first one in key order on a tie. -/
def oldest (entries : EntryMap) : Option TemplateKey :=
  (entries.toList.minOn? fun (_, e) => e.lastSeen).map (·.1)

/-- The eviction loop, for at most the given number of rounds. -/
def evictLoop (cap : UInt32) : ℕ → EntryMap → EntryMap
  | 0, entries => entries
  | rounds + 1, entries =>
    if UInt32.ofNat entries.size > cap then
      match oldest entries with
      | some victim => evictLoop cap rounds (entries.erase victim)
      | none => entries
    else entries

/-- Evict least recently seen entries while over the cap; each round removes one entry. -/
def evictIfNeeded (c : TemplateCache) : TemplateCache :=
  { c with entries := evictLoop c.capEntries c.entries.size c.entries }

/-- Insert or replace a layout. A redefinition keeps `firstSeen` and `useCount`. -/
def upsert (c : TemplateCache) (key : TemplateKey) (entry : TemplateEntry) : TemplateCache :=
  let entry := match c.entries[key]? with
    | some old => { entry with firstSeen := old.firstSeen, useCount := old.useCount }
    | none => entry
  { c with entries := c.entries.insert key entry }.evictIfNeeded

/-- Look up a layout and bump its statistics, returning the bumped entry. -/
def useTemplate (c : TemplateCache) (key : TemplateKey) (now : Int64) :
    Option (TemplateEntry × TemplateCache) :=
  (c.entries[key]?).map fun e =>
    let e := { e with useCount := e.useCount + 1, lastSeen := now }
    (e, { c with entries := c.entries.insert key e })

/-- Read a layout without touching its statistics. -/
def peek (c : TemplateCache) (key : TemplateKey) : Option TemplateEntry := c.entries[key]?

/-- Buffer a record awaiting its template, or refuse it when the buffer is full. -/
def pushPending (c : TemplateCache) (key : TemplateKey) (rec : PendingRecord) :
    Bool × TemplateCache :=
  let cost := UInt32.ofNat rec.bytes.length
  if saturatingAdd c.pendingBytes cost > c.capPendingBytes then (false, c)
  else (true, { c with
    pendingBytes := c.pendingBytes + cost
    pending := KeyedQueue.enqueue c.pending key rec })

/-- The total length of some buffered bodies. -/
def totalBytes (recs : List PendingRecord) : ℕ := (recs.map (·.bytes.length)).sum

/-- Remove and return the records buffered for a key. -/
def takePending (c : TemplateCache) (key : TemplateKey) : List PendingRecord × TemplateCache :=
  let recs := (c.pending[key]?).getD []
  (recs, { c with
    pending := c.pending.erase key
    pendingBytes := saturatingSub c.pendingBytes (.ofNat (totalBytes recs)) })

/-- The keys with buffered records, in key order. -/
def pendingKeys (c : TemplateCache) : List TemplateKey := c.pending.keys

/-- Remove and return everything buffered. -/
def drainPending (c : TemplateCache) : List (TemplateKey × List PendingRecord) × TemplateCache :=
  (c.pending.toList, { c with pending := ∅, pendingBytes := 0 })

/-- Whether nothing is buffered. -/
def pendingIsEmpty (c : TemplateCache) : Bool := c.pending.isEmpty

section Frame

variable (c : TemplateCache) (key : TemplateKey) (entry : TemplateEntry) (rec : PendingRecord)

@[simp] theorem takePending_entries : (c.takePending key).2.entries = c.entries := rfl

@[simp] theorem takePending_pending : (c.takePending key).2.pending = c.pending.erase key := rfl

@[simp] theorem takePending_capPendingBytes :
    (c.takePending key).2.capPendingBytes = c.capPendingBytes := rfl

/-- A refused record leaves the cache alone; a stored one is queued under its key. -/
theorem pushPending_cases :
    c.pushPending key rec = (false, c) ∨
      c.pushPending key rec = (true, { c with
        pendingBytes := c.pendingBytes + UInt32.ofNat rec.bytes.length
        pending := KeyedQueue.enqueue c.pending key rec }) := by
  simp only [pushPending]
  split
  · exact .inl rfl
  · exact .inr rfl

@[simp] theorem pushPending_entries : (c.pushPending key rec).2.entries = c.entries := by
  rcases c.pushPending_cases key rec with h | h <;> rw [h]

@[simp] theorem pushPending_capEntries : (c.pushPending key rec).2.capEntries = c.capEntries := by
  rcases c.pushPending_cases key rec with h | h <;> rw [h]

@[simp] theorem pushPending_capPendingBytes :
    (c.pushPending key rec).2.capPendingBytes = c.capPendingBytes := by
  rcases c.pushPending_cases key rec with h | h <;> rw [h]

variable {c key}

/-- What storing a record does. -/
theorem eq_of_pushPending {rec : PendingRecord} {c' : TemplateCache}
    (h : c.pushPending key rec = (true, c')) :
    c' = { c with
      pendingBytes := c.pendingBytes + UInt32.ofNat rec.bytes.length
      pending := KeyedQueue.enqueue c.pending key rec } := by
  rcases c.pushPending_cases key rec with hpush | hpush
  · simp [hpush] at h
  · rw [hpush] at h
    exact (Prod.mk.inj h).2.symm

/-- Using a template bumps the statistics of its entry and changes nothing else. -/
theorem useTemplate_eq_some {now : Int64} {tpl : TemplateEntry} {c' : TemplateCache} :
    c.useTemplate key now = some (tpl, c') ↔
      ∃ e, c.entries[key]? = some e ∧
        tpl = { e with useCount := e.useCount + 1, lastSeen := now } ∧
        c' = { c with entries := c.entries.insert key tpl } := by
  simp only [useTemplate, Option.map_eq_some_iff, Prod.mk.injEq]
  constructor
  · rintro ⟨e, he, rfl, rfl⟩
    exact ⟨e, he, rfl, rfl⟩
  · rintro ⟨e, he, rfl, rfl⟩
    exact ⟨e, he, rfl, rfl⟩

/-- Using finds a template exactly when one is cached. -/
theorem useTemplate_eq_none {now : Int64} : c.useTemplate key now = none ↔ key ∉ c.entries := by
  simp [useTemplate]

/-- Only a cached template is used. -/
theorem mem_of_useTemplate {now : Int64} {tpl : TemplateEntry} {c' : TemplateCache}
    (h : c.useTemplate key now = some (tpl, c')) : key ∈ c.entries := by
  obtain ⟨e, he, -, -⟩ := useTemplate_eq_some.mp h
  exact KeyedQueue.mem_of_getElem? he

/-- Using a template neither adds nor removes a cached key. -/
theorem mem_useTemplate {now : Int64} {tpl : TemplateEntry} {c' : TemplateCache} {k : TemplateKey}
    (h : c.useTemplate key now = some (tpl, c')) : k ∈ c'.entries ↔ k ∈ c.entries := by
  have hmem := mem_of_useTemplate h
  obtain ⟨e, -, -, rfl⟩ := useTemplate_eq_some.mp h
  simp only [ExtTreeMap.mem_insert, Std.LawfulEqCmp.compare_eq_iff_eq, or_iff_right_iff_imp]
  rintro rfl
  exact hmem

end Frame

section Eviction

/-- The eviction loop only removes entries. -/
theorem getElem?_of_evictLoop {cap : UInt32} {rounds : ℕ} {entries : EntryMap} {key : TemplateKey}
    {e : TemplateEntry} (h : (evictLoop cap rounds entries)[key]? = some e) :
    entries[key]? = some e := by
  induction rounds generalizing entries with
  | zero => exact h
  | succ rounds ih =>
    simp only [evictLoop] at h
    split at h
    · split at h
      · have herase := ih h
        rw [ExtTreeMap.getElem?_erase] at herase
        split at herase
        · contradiction
        · exact herase
      · exact h
    · exact h

/-- Within the cap nothing is evicted. -/
theorem evictLoop_of_le {cap : UInt32} {rounds : ℕ} {entries : EntryMap}
    (h : UInt32.ofNat entries.size ≤ cap) : evictLoop cap rounds entries = entries := by
  cases rounds with
  | zero => rfl
  | succ rounds => rw [evictLoop, if_neg (UInt32.not_lt.mpr h)]

/-- The least recently seen key is a cached one. -/
theorem mem_of_oldest {entries : EntryMap} {victim : TemplateKey} (h : oldest entries = some victim) :
    victim ∈ entries := by
  obtain ⟨⟨key, e⟩, hmin, rfl⟩ := Option.map_eq_some_iff.mp h
  have hmem := List.minOn?_mem hmin
  exact KeyedQueue.mem_of_getElem? (ExtTreeMap.mem_toList_iff_getElem?_eq_some.mp hmem)

/-- Only an empty cache has no least recently seen key. -/
theorem oldest_eq_none {entries : EntryMap} (h : oldest entries = none) : entries.size = 0 := by
  have hnone := Option.map_eq_none_iff.mp h
  rw [← ExtTreeMap.length_toList]
  cases hlist : entries.toList with
  | nil => rfl
  | cons p rest => simp [hlist, List.minOn?] at hnone

/-- With a round for each entry, the loop ends within the cap. -/
theorem evictLoop_size_le {cap : UInt32} {rounds : ℕ} {entries : EntryMap} (h : entries.size ≤ rounds) :
    UInt32.ofNat (evictLoop cap rounds entries).size ≤ cap := by
  induction rounds generalizing entries with
  | zero =>
    rw [evictLoop, Nat.le_zero.mp h]
    exact UInt32.zero_le
  | succ rounds ih =>
    rw [evictLoop]
    split
    · cases hvictim : oldest entries with
      | some victim =>
        refine ih ?_
        have hmem := ExtTreeMap.contains_iff_mem.mpr (mem_of_oldest hvictim)
        rw [ExtTreeMap.size_erase, if_pos hmem]
        omega
      | none =>
        rw [oldest_eq_none hvictim]
        exact UInt32.zero_le
    · exact UInt32.not_lt.mp ‹_›

/-- The entry an upsert stores: a redefinition keeps the statistics it inherits. -/
def stored (c : TemplateCache) (key : TemplateKey) (entry : TemplateEntry) : TemplateEntry :=
  match c.entries[key]? with
  | some old => { entry with firstSeen := old.firstSeen, useCount := old.useCount }
  | none => entry

/-- Whatever is cached after an upsert was just stored or was cached before. -/
theorem getElem?_of_upsert {c : TemplateCache} {key k : TemplateKey} {entry e : TemplateEntry}
    (h : (c.upsert key entry).entries[k]? = some e) :
    key = k ∧ c.stored key entry = e ∨ key ≠ k ∧ c.entries[k]? = some e := by
  have hinsert := getElem?_of_evictLoop h
  rw [ExtTreeMap.getElem?_insert] at hinsert
  split at hinsert
  · rename_i hk
    exact .inl ⟨Std.LawfulEqCmp.eq_of_compare hk, Option.some.inj hinsert⟩
  · rename_i hk
    exact .inr ⟨by simpa using hk, hinsert⟩

/-- Within the cap an upsert evicts nothing. -/
theorem upsert_entries_of_le {c : TemplateCache} {key : TemplateKey} {entry : TemplateEntry}
    (h : UInt32.ofNat (c.entries.insert key (c.stored key entry)).size ≤ c.capEntries) :
    (c.upsert key entry).entries = c.entries.insert key (c.stored key entry) :=
  evictLoop_of_le h

/-- Within the cap, upserting an entry that is cached already changes nothing. -/
theorem upsert_of_getElem?_eq_some {c : TemplateCache} {key : TemplateKey} {entry : TemplateEntry}
    (hcap : UInt32.ofNat c.entries.size ≤ c.capEntries) (h : c.entries[key]? = some entry) :
    c.upsert key entry = c := by
  have hstored : c.stored key entry = entry := by rw [stored, h]
  have hinsert : c.entries.insert key (c.stored key entry) = c.entries := by
    rw [hstored]
    exact KeyedQueue.insert_of_getElem?_eq_some h
  ext1
  · rw [upsert_entries_of_le (by rwa [hinsert]), hinsert]
  · rfl
  · rfl
  · rfl
  · rfl

end Eviction

end TemplateCache

/-- The serialized form of a cache: its maps as pair lists, without the running total. -/
structure CacheDto where
  entries : List (TemplateKey × TemplateEntry)
  pending : List (TemplateKey × List PendingRecord)
  capEntries : UInt32
  capPendingBytes : UInt32
  deriving DecidableEq, Repr

/-- The two JSON functions the cache calls. -/
structure SerdeJson where
  toVec : CacheDto → Option Bytes
  fromSlice : Bytes → Option CacheDto

/-- What is relied on: serialization succeeds, reading undoes it, and empty input is no JSON. -/
structure SerdeJson.Lawful (serde : SerdeJson) : Prop where
  roundTrip : ∀ dto, ∃ bytes, serde.toVec dto = some bytes ∧ serde.fromSlice bytes = some dto
  fromSlice_nil : serde.fromSlice [] = none

namespace TemplateCache

/-- The serialized form of this cache. -/
def toDto (c : TemplateCache) : CacheDto :=
  ⟨c.entries.toList, c.pending.toList, c.capEntries, c.capPendingBytes⟩

/-- The cache a serialized form describes, its running total recomputed. -/
def ofDto (dto : CacheDto) : TemplateCache :=
  let pending : PendingMap := ExtTreeMap.ofList dto.pending compare
  { entries := ExtTreeMap.ofList dto.entries compare
    pending
    capEntries := dto.capEntries
    capPendingBytes := dto.capPendingBytes
    pendingBytes := ((KeyedQueue.contents pending).map (UInt32.ofNat ·.2.bytes.length)).sum }

/-- Serialize for hand-off between scan batches. -/
def toBytes (serde : SerdeJson) (c : TemplateCache) : Bytes := (serde.toVec c.toDto).getD []

/-- Deserialize; an empty or corrupt token degrades to a fresh cache. -/
def fromBytes (serde : SerdeJson) (bytes : Bytes) : TemplateCache :=
  if bytes.isEmpty then new
  else match serde.fromSlice bytes with
    | some dto => ofDto dto
    | none => new

/-- Deserializing what was serialized gives the cache its serialized form describes. -/
theorem fromBytes_toBytes_eq_ofDto {serde : SerdeJson} (hserde : serde.Lawful) (c : TemplateCache) :
    fromBytes serde (c.toBytes serde) = ofDto c.toDto := by
  obtain ⟨bytes, hvec, hslice⟩ := hserde.roundTrip c.toDto
  have hbytes : c.toBytes serde = bytes := by rw [toBytes, hvec, Option.getD_some]
  have hne : bytes.isEmpty = false := by
    cases bytes with
    | nil => rw [hserde.fromSlice_nil] at hslice; contradiction
    | cons => rfl
  rw [hbytes, fromBytes, hne, hslice]
  rfl

/-- The serialized form keeps the cached layouts. -/
theorem ofDto_toDto_entries (c : TemplateCache) : (ofDto c.toDto).entries = c.entries :=
  KeyedQueue.ofList_toList c.entries

/-- The serialized form keeps the buffered records. -/
theorem ofDto_toDto_pending (c : TemplateCache) : (ofDto c.toDto).pending = c.pending :=
  KeyedQueue.ofList_toList c.pending

end TemplateCache

end Netflow
