import Netflow.Invariant

/-!
# Reachable scan states

Between two calls nothing decodable stays buffered: a key with buffered records has no
cached layout, and no key is buffered without a record. Every call restores this, by its
final retry or by not touching the cache at all. So the retry that follows a rejected
datagram finds nothing to do, and a rejected datagram leaves the state as it was.
-/

namespace Netflow

open Std (ExtTreeMap)

section Retry

/-- The retry neither adds nor removes a cached key. -/
theorem Retries.mem_entries {now : Int64} {keys : List TemplateKey} {c c' : TemplateCache}
    {trace : List Emission} (h : Retries now keys c trace c') (k : TemplateKey) :
    k ∈ c'.entries ↔ k ∈ c.entries := by
  induction h with
  | nil => rfl
  | skip _ _ ih => exact ih
  | @release key keys c c₁ c' trace tpl huse _ ih =>
    have hstep : k ∈ c₁.entries ↔ k ∈ c.entries := TemplateCache.mem_useTemplate huse
    exact ih.trans hstep

/-- The retry empties exactly the queues of the keys it was given that have a cached layout. -/
theorem Retries.getElem?_pending {now : Int64} {keys : List TemplateKey} {c c' : TemplateCache}
    {trace : List Emission} (h : Retries now keys c trace c') (k : TemplateKey) :
    c'.pending[k]? = if k ∈ keys ∧ k ∈ c.entries then none else c.pending[k]? := by
  induction h with
  | nil => simp
  | @skip key keys c c' trace habsent _ ih =>
    rw [ih]
    by_cases hk : k = key
    · simp [hk, habsent]
    · simp [hk]
  | @release key keys c c₁ c' trace tpl huse _ ih =>
    have hmem := TemplateCache.mem_useTemplate (k := k) huse
    have hpresent := TemplateCache.mem_of_useTemplate huse
    obtain ⟨e, -, -, rfl⟩ := TemplateCache.useTemplate_eq_some.mp huse
    simp only [ih, TemplateCache.takePending_entries, TemplateCache.takePending_pending, hmem,
      ExtTreeMap.getElem?_erase, Std.LawfulEqCmp.compare_eq_iff_eq]
    by_cases hk : k = key
    · simp [hk, hpresent]
    · simp [hk, Ne.symm hk]

/-- Where no given key has a cached layout, the retry does nothing. -/
theorem Retries.eq_of_notMem {now : Int64} {keys : List TemplateKey} {c c' : TemplateCache}
    {trace : List Emission} (h : Retries now keys c trace c') (habsent : ∀ key ∈ keys, key ∉ c.entries) :
    trace = [] ∧ c' = c := by
  induction h with
  | nil => exact ⟨rfl, rfl⟩
  | skip _ _ ih => exact ih fun key hkey => habsent key (List.mem_cons_of_mem _ hkey)
  | release huse => exact absurd (TemplateCache.mem_of_useTemplate huse) (habsent _ List.mem_cons_self)

end Retry

section Invariant

/-- No key is buffered without a record. -/
def TemplateCache.NonemptyQueues (c : TemplateCache) : Prop :=
  ∀ (key : TemplateKey) (queue : List PendingRecord), c.pending[key]? = some queue → queue ≠ []

/-- What holds between two calls: no decodable record is buffered, and every buffered key has
a record. -/
structure TemplateCache.Settled (c : TemplateCache) : Prop where
  disjoint : ∀ key, key ∈ c.pending → key ∉ c.entries
  nonempty : c.NonemptyQueues

/-- A cache without buffered keys is settled. -/
theorem TemplateCache.settled_of_pending_empty {c : TemplateCache} (h : c.pending = ∅) :
    c.Settled :=
  ⟨by simp [h], fun key queue hqueue => by simp [h] at hqueue⟩

/-- Learning a template that nothing waits for keeps a cache settled. -/
theorem TemplateCache.Settled.upsert {c : TemplateCache} (h : c.Settled) {key : TemplateKey}
    (hwaiting : key ∉ c.pending) (entry : TemplateEntry) :
    (c.upsert key entry).Settled := by
  refine ⟨?_, h.nonempty⟩
  intro k hk hmem
  obtain ⟨e, he⟩ := KeyedQueue.mem_iff_exists_getElem?.mp hmem
  rcases TemplateCache.getElem?_of_upsert he with ⟨rfl, -⟩ | ⟨-, hold⟩
  · exact hwaiting hk
  · exact h.disjoint k hk (KeyedQueue.mem_of_getElem? hold)

/-- Using a template keeps a cache settled. -/
theorem TemplateCache.Settled.useTemplate {c c' : TemplateCache} (h : c.Settled) {key : TemplateKey}
    {now : Int64} {tpl : TemplateEntry} (huse : c.useTemplate key now = some (tpl, c')) : c'.Settled := by
  have hmem : ∀ k, k ∈ c'.entries ↔ k ∈ c.entries := fun k => TemplateCache.mem_useTemplate huse
  obtain ⟨e, -, -, rfl⟩ := TemplateCache.useTemplate_eq_some.mp huse
  exact ⟨fun k hk hk' => h.disjoint k hk ((hmem k).mp hk'), h.nonempty⟩

/-- Buffering a record keeps every queue nonempty. -/
theorem TemplateCache.NonemptyQueues.pushPending {c : TemplateCache} (h : c.NonemptyQueues)
    (key : TemplateKey) (rec : PendingRecord) : (c.pushPending key rec).2.NonemptyQueues := by
  rcases c.pushPending_cases key rec with hpush | hpush
  · rwa [hpush]
  · rw [hpush]
    intro k queue hqueue
    simp only [KeyedQueue.getElem?_enqueue] at hqueue
    split at hqueue
    · rw [← Option.some.inj hqueue]
      simp
    · exact h k queue hqueue

/-- Every operation keeps every queue nonempty. -/
theorem stable_nonemptyQueues (learned : List (TemplateKey × Layout))
    (arrivals : List (TemplateKey × PendingRecord)) :
    Stable learned arrivals TemplateCache.NonemptyQueues where
  upsert _ _ _ _ h := h
  useTemplate c c' key now tpl huse h := by
    obtain ⟨e, -, -, rfl⟩ := TemplateCache.useTemplate_eq_some.mp huse
    exact h
  pushPending c key rec _ h := h.pushPending key rec
  takePending c key h := by
    intro k queue hqueue
    rw [TemplateCache.takePending_pending, ExtTreeMap.getElem?_erase] at hqueue
    split at hqueue
    · contradiction
    · exact h k queue hqueue

/-- A call that ends without a retry ran no template pass. -/
theorem Call.passes_of_not_retries {call : Call} (h : ¬ call.retries) (c : TemplateCache) :
    (call.passes c).2 = c := by
  rcases call.passes_cases c with ⟨-, hpasses⟩ | ⟨fmt, ctx, sets, trace, c', hparsed, -, -⟩
  · rw [hpasses]
  · obtain ⟨hformat, -⟩ := Call.parsed_eq_some hparsed
    exact absurd (by rcases call.format_version hformat with ⟨-, hv⟩ | ⟨-, hv⟩ <;> simp [retries, hv]) h

/-- Every call leaves a settled cache. -/
theorem Call.trace_settled (call : Call) {c : TemplateCache} (h : c.Settled) :
    (call.trace c).2.Settled := by
  have hqueues : (call.passes c).2.NonemptyQueues := (stable_nonemptyQueues _ _).passes h.nonempty
  rcases call.trace_cases c with ⟨hnot, htrace⟩ | ⟨retried, c', hretries, htrace⟩
  · rw [htrace, call.passes_of_not_retries hnot]
    exact h
  · rw [htrace]
    constructor
    · intro key hkey
      rw [ExtTreeMap.mem_iff_isSome_getElem?, hretries.getElem?_pending] at hkey
      rw [hretries.mem_entries]
      intro hmem
      split at hkey
      · contradiction
      · rename_i hnot
        exact hnot ⟨ExtTreeMap.mem_keys.mpr (ExtTreeMap.mem_iff_isSome_getElem?.mpr hkey), hmem⟩
    · intro key queue hqueue
      rw [hretries.getElem?_pending] at hqueue
      split at hqueue
      · contradiction
      · exact hqueues key queue hqueue

/-- Every run leaves a settled cache. -/
theorem runTrace_settled (calls : List Call) {c : TemplateCache} (h : c.Settled) :
    (runTrace calls c).2.Settled := by
  induction calls generalizing c with
  | nil => exact h
  | cons call calls ih => exact ih (call.trace_settled h)

/-- On a settled cache the retry does nothing. -/
theorem TemplateCache.Settled.retryKeysTrace {c : TemplateCache} (h : c.Settled) (now : Int64) :
    retryKeysTrace now c.pendingKeys c = ([], c) :=
  Prod.ext_iff.mpr ((retryKeysTrace_retries _ _ _).eq_of_notMem fun key hkey =>
    h.disjoint key (ExtTreeMap.mem_keys.mp hkey))

/-- A call whose passes leave a settled cache as it was is not changed by its retry. -/
theorem Call.trace_eq_of_passes {call : Call} {c : TemplateCache} {trace : List Emission}
    (h : c.Settled) (hpasses : call.passes c = (trace, c)) : call.trace c = (trace, c) := by
  simp only [Call.trace, hpasses, h.retryKeysTrace, List.append_nil, ite_self]

/-- The states a scan reaches from an empty cache: by decode calls, flushes and rehydration. -/
inductive Reachable (serde : SerdeJson) : TemplateCache → Prop
  | empty (capEntries capPendingBytes : UInt32) : Reachable serde (.empty capEntries capPendingBytes)
  | decode {c : TemplateCache} (call : Call) (h : Reachable serde c) : Reachable serde (call.decode c).2
  | flush {c : TemplateCache} (h : Reachable serde c) : Reachable serde (flushPending c).2
  | rehydrate {c : TemplateCache} (h : Reachable serde c) :
      Reachable serde (.fromBytes serde (c.toBytes serde))

/-- In every reachable state every buffered record is as every Data Set that arrives. -/
theorem Reachable.pendingAll {serde : SerdeJson} (hserde : serde.Lawful)
    {good : TemplateKey → PendingRecord → Prop} (hgood : ∀ call : Call, ∀ p ∈ call.arrivals, good p.1 p.2)
    {c : TemplateCache} (h : Reachable serde c) : c.PendingAll good := by
  induction h with
  | empty =>
    intro key queue hqueue
    simp [TemplateCache.empty] at hqueue
  | decode call _ ih =>
    rw [call.decode_eq_trace]
    exact (stable_pendingAll _ (hgood call)).call ih
  | flush =>
    intro key queue hqueue
    simp [flushPending, TemplateCache.drainPending] at hqueue
  | @rehydrate c _ ih =>
    rw [TemplateCache.fromBytes_toBytes_eq_ofDto hserde]
    unfold TemplateCache.PendingAll
    rwa [c.ofDto_toDto_pending]

/-- Only the two maps matter to being settled. -/
theorem TemplateCache.Settled.of_maps {c c' : TemplateCache} (h : c.Settled)
    (hentries : c'.entries = c.entries) (hpending : c'.pending = c.pending) : c'.Settled := by
  constructor
  · rw [hentries, hpending]
    exact h.disjoint
  · unfold NonemptyQueues
    rw [hpending]
    exact h.nonempty

/-- Every reachable state is settled. -/
theorem Reachable.isSettled {serde : SerdeJson} (hserde : serde.Lawful) {c : TemplateCache}
    (h : Reachable serde c) : c.Settled := by
  induction h with
  | empty => exact TemplateCache.settled_of_pending_empty rfl
  | decode call _ ih =>
    rw [call.decode_eq_trace]
    exact call.trace_settled ih
  | flush => exact TemplateCache.settled_of_pending_empty rfl
  | @rehydrate c _ ih =>
    -- The running total may have drifted here, but both maps are restored.
    rw [TemplateCache.fromBytes_toBytes_eq_ofDto hserde]
    exact ih.of_maps c.ofDto_toDto_entries c.ofDto_toDto_pending

/-- In every reachable state the buffered keys and the cached keys are disjoint, and every
buffered key has a record. -/
theorem Reachable.settled {serde : SerdeJson} (hserde : serde.Lawful) {c : TemplateCache}
    (h : Reachable serde c) :
    (∀ key, key ∈ c.pending → key ∉ c.entries) ∧
      ∀ (key : TemplateKey) (queue : List PendingRecord), c.pending[key]? = some queue → queue ≠ [] :=
  ⟨(h.isSettled hserde).disjoint, (h.isSettled hserde).nonempty⟩

/-- A Data Set without its template, buffered and rehydrated. -/
theorem Reachable.settled_buffered :
    let buffered := ((Call.of sampleData "10.0.0.1").decode .new).2
    let serde := SerdeJson.writing [buffered.toDto]
    let c := TemplateCache.fromBytes serde (buffered.toBytes serde)
    (∀ key, key ∈ c.pending → key ∉ c.entries) ∧
      ∀ (key : TemplateKey) (queue : List PendingRecord), c.pending[key]? = some queue → queue ≠ [] :=
  Reachable.settled (SerdeJson.writing_lawful (by simp)) (.rehydrate (.decode _ (.empty _ _)))

end Invariant

end Netflow
