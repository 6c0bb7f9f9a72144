import Netflow.Reachable

/-!
# What the flush reports

The flush empties the buffer into one row for each record, key by key and in order of
arrival. A row has the header context of its record but for the version, which is taken from
the first record of the key. So the rows are right exactly where no key has buffered records
of both protocols, which share their keys.
-/

namespace Netflow

/-- The rows that report each buffered record in its own context, in key order and in order of arrival. -/
def TemplateCache.missingRows (c : TemplateCache) : List FlowRecord :=
  (KeyedQueue.contents c.pending).map fun (key, rec) =>
    missingTemplate key rec.version rec.exportTime rec.sequence

/-- Whether the records buffered under any one key are all of one version. -/
def TemplateCache.Unmixed (c : TemplateCache) : Prop :=
  ∀ (key : TemplateKey) (queue : List PendingRecord), c.pending[key]? = some queue →
    ∀ rec ∈ queue, ∀ rec' ∈ queue, rec.version = rec'.version

/-- Two versions of one text are the same. -/
theorem Version.asStr_inj {v v' : Version} (h : v.asStr = v'.asStr) : v = v' := by
  cases v <;> cases v' <;> first | rfl | exact absurd h (by decide)

/-- The flush gives a record its own version exactly if it is the version of the first record. -/
theorem missingTemplate_inj {key : TemplateKey} {v v' : Version} {rec : PendingRecord} :
    missingTemplate key v rec.exportTime rec.sequence = missingTemplate key v' rec.exportTime rec.sequence ↔
      v = v' := by
  constructor
  · intro h
    exact Version.asStr_inj (congrArg FlowRecord.flowVersion h)
  · rintro rfl
    rfl

/-- Records of the two template-stateful versions have the version of the first exactly if they have one
version. -/
theorem forall_flushVersion_iff {queue : List PendingRecord}
    (h : ∀ rec ∈ queue, rec.version = .v9 ∨ rec.version = .v10) :
    (∀ rec ∈ queue, flushVersion queue = rec.version) ↔
      ∀ rec ∈ queue, ∀ rec' ∈ queue, rec.version = rec'.version := by
  cases queue with
  | nil => simp
  | cons first queue =>
    have hfirst : flushVersion (first :: queue) = first.version := by
      rcases h first List.mem_cons_self with hv | hv <;> simp [flushVersion, hv]
    rw [hfirst]
    constructor
    · intro hall rec hrec rec' hrec'
      rw [← hall rec hrec, hall rec' hrec']
    · intro hall
      exact hall first List.mem_cons_self

/-- Lists put together from blocks of the same lengths are equal exactly if the blocks are. -/
theorem flatMap_eq_iff {α β : Type} {f g : α → List β} {l : List α}
    (hlength : ∀ a ∈ l, (f a).length = (g a).length) : l.flatMap f = l.flatMap g ↔ ∀ a ∈ l, f a = g a := by
  induction l with
  | nil => simp
  | cons a l ih =>
    rw [List.forall_mem_cons] at hlength ⊢
    rw [List.flatMap_cons, List.flatMap_cons, ← ih hlength.2]
    constructor
    · intro h
      exact List.append_inj h hlength.1
    · rintro ⟨hhead, htail⟩
      rw [hhead, htail]

/-- From a reachable cache the flush reports every buffered record in its own context exactly if no key
has records of both protocols. The buffer is empty then, and the templates are as they were. -/
theorem flushPending_missingRows_iff {serde : SerdeJson} (hserde : serde.Lawful) {c : TemplateCache}
    (hreach : Reachable serde c) :
    ((flushPending c).1 = c.missingRows ↔ c.Unmixed) ∧
      (flushPending c).2.pending = ∅ ∧ (flushPending c).2.pendingBytes = 0 ∧
      (flushPending c).2.entries = c.entries := by
  refine ⟨?_, rfl, rfl, rfl⟩
  have hversions : c.PendingAll fun _ rec => rec.version = .v9 ∨ rec.version = .v10 :=
    hreach.pendingAll hserde fun _ _ => Call.version_of_mem_arrivals
  have hexpected : c.missingRows = c.pending.toList.flatMap fun p =>
      p.2.map fun rec => missingTemplate p.1 rec.version rec.exportTime rec.sequence := by
    simp only [TemplateCache.missingRows, KeyedQueue.contents, List.map_flatMap, List.map_map]
    rfl
  rw [hexpected]
  unfold flushPending TemplateCache.drainPending
  dsimp only
  rw [flatMap_eq_iff (by simp)]
  simp only [Prod.forall, Std.ExtTreeMap.mem_toList_iff_getElem?_eq_some, List.map_inj_left, missingTemplate_inj]
  apply forall₂_congr
  intro key queue
  apply imp_congr_right
  intro hqueue
  exact forall_flushVersion_iff (hversions key queue hqueue)

/-- An IPFIX message of domain 7 whose only Set holds one record of template 256. -/
def sampleIpfixData : Bytes :=
  [0, 10, 0, 24, 0, 0, 0, 6, 0, 0, 0, 2, 0, 0, 0, 7] ++ [1, 0, 0, 8, 10, 0, 0, 1]

/-- The cache after a NetFlow v9 and an IPFIX Data Set of the same exporter, domain and template id. -/
def sampleMixed : TemplateCache :=
  ((Call.of sampleIpfixData "10.0.0.1").decode ((Call.of sampleData "10.0.0.1").decode .new).2).2

/-- The flush of a cache with a Data Set of each protocol under one key. -/
theorem flushPending_missingRows_iff_mixed :
    ((flushPending sampleMixed).1 = sampleMixed.missingRows ↔ sampleMixed.Unmixed) ∧
      (flushPending sampleMixed).2.pending = ∅ ∧ (flushPending sampleMixed).2.pendingBytes = 0 ∧
      (flushPending sampleMixed).2.entries = sampleMixed.entries :=
  flushPending_missingRows_iff (@SerdeJson.writing_lawful [] (by simp)) (.decode _ (.decode _ (.empty _ _)))

/-- The flush does not always report a buffered record in its own context. -/
theorem not_forall_flushPending :
    ¬ ∀ (serde : SerdeJson) (c : TemplateCache), serde.Lawful → Reachable serde c →
      (flushPending c).1 = c.missingRows := by
  intro h
  have hrows := h (SerdeJson.writing []) sampleMixed (SerdeJson.writing_lawful (by simp))
    (.decode _ (.decode _ (.empty _ _)))
  revert hrows
  decide +kernel

end Netflow
