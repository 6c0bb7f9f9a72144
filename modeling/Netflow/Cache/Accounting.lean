import Netflow.Cache.Json

/-!
# Byte accounting of the pending buffer

The running total is adjusted in four places and recomputed on rehydration. Over every
sequence of cache operations it equals the bytes actually buffered and stays within the
cap, so the refusal of a record is decided on the true total and rehydration restores the
very cache that was serialized.
-/

namespace Netflow

open Std (ExtTreeMap)

/-- The total length of the bodies buffered in a pending map. -/
def bufferedBytes (pending : PendingMap) : ℕ :=
  ((KeyedQueue.contents pending).map (·.2.bytes.length)).sum

/-- Buffering a record adds its length. -/
theorem bufferedBytes_enqueue (pending : PendingMap) (key : TemplateKey) (rec : PendingRecord) :
    bufferedBytes (KeyedQueue.enqueue pending key rec) = bufferedBytes pending + rec.bytes.length := by
  rw [bufferedBytes, ((KeyedQueue.contents_enqueue_perm pending key rec).map _).sum_eq, List.map_cons,
    List.sum_cons, add_comm, bufferedBytes]

/-- The bytes of one key and those of all others add up. -/
theorem bufferedBytes_erase (pending : PendingMap) (key : TemplateKey) :
    bufferedBytes pending =
      TemplateCache.totalBytes ((pending[key]?).getD []) + bufferedBytes (pending.erase key) := by
  rw [bufferedBytes, ((KeyedQueue.contents_perm_erase pending key).map _).sum_eq, List.map_append,
    List.sum_append, List.map_map, bufferedBytes, TemplateCache.totalBytes]
  rfl

/-- `u32` addition capped at the largest value. -/
theorem saturatingAdd_toNat (a b : UInt32) :
    (saturatingAdd a b).toNat = min (a.toNat + b.toNat) (2 ^ 32 - 1) := by
  rw [saturatingAdd, UInt32.toNat_ofNat_of_lt']
  exact lt_of_le_of_lt (min_le_right _ _) (by decide)

/-- `u32` subtraction capped at zero. -/
theorem saturatingSub_toNat (a b : UInt32) : (saturatingSub a b).toNat = a.toNat - b.toNat := by
  rw [saturatingSub, UInt32.toNat_ofNat_of_lt']
  exact lt_of_le_of_lt (Nat.sub_le _ _) a.toNat_lt

namespace TemplateCache

/-- The running total is the true total and within the cap, and the cap leaves the saturating
sum room to exceed it. -/
structure Accounted (c : TemplateCache) : Prop where
  total : c.pendingBytes.toNat = bufferedBytes c.pending
  le_cap : bufferedBytes c.pending ≤ c.capPendingBytes.toNat
  cap_lt : c.capPendingBytes.toNat < 2 ^ 32 - 1

variable {c : TemplateCache}

/-- An empty cache is accounted for. -/
theorem accounted_empty {capEntries capPendingBytes : UInt32}
    (hcap : capPendingBytes.toNat < 2 ^ 32 - 1) : (empty capEntries capPendingBytes).Accounted :=
  ⟨rfl, Nat.zero_le _, hcap⟩

/-- A new cache is accounted for. -/
theorem accounted_new : new.Accounted := accounted_empty (by decide)

/-- Learning a layout does not touch the buffer. -/
theorem Accounted.upsert (h : c.Accounted) (key : TemplateKey) (entry : TemplateEntry) :
    (c.upsert key entry).Accounted :=
  ⟨h.total, h.le_cap, h.cap_lt⟩

/-- Using a layout does not touch the buffer. -/
theorem Accounted.useTemplate (h : c.Accounted) {key : TemplateKey} {now : Int64}
    {tpl : TemplateEntry} {c' : TemplateCache} (huse : c.useTemplate key now = some (tpl, c')) :
    c'.Accounted := by
  obtain ⟨e, -, -, rfl⟩ := useTemplate_eq_some.mp huse
  exact ⟨h.total, h.le_cap, h.cap_lt⟩

/-- A record is refused exactly when it would push the true total over the cap. -/
theorem Accounted.pushPending_eq_false (h : c.Accounted) (key : TemplateKey) {rec : PendingRecord}
    (hlen : rec.bytes.length < 2 ^ 32) :
    (c.pushPending key rec).1 = false ↔
      c.capPendingBytes.toNat < bufferedBytes c.pending + rec.bytes.length := by
  have hcost : (UInt32.ofNat rec.bytes.length).toNat = rec.bytes.length :=
    UInt32.toNat_ofNat_of_lt' hlen
  have hcap := h.cap_lt
  simp only [pushPending, gt_iff_lt, UInt32.lt_iff_toNat_lt, saturatingAdd_toNat, hcost, h.total]
  split <;> simp <;> omega

/-- A refused record leaves the whole cache unchanged. -/
theorem pushPending_of_refused {key : TemplateKey} {rec : PendingRecord}
    (hrefused : (c.pushPending key rec).1 = false) : (c.pushPending key rec).2 = c := by
  rcases c.pushPending_cases key rec with hpush | hpush <;> simp_all

/-- Buffering a record keeps the account, since the exact sum fits. -/
theorem Accounted.pushPending (h : c.Accounted) (key : TemplateKey) {rec : PendingRecord}
    (hlen : rec.bytes.length < 2 ^ 32) : (c.pushPending key rec).2.Accounted := by
  have hrefused := h.pushPending_eq_false key hlen
  rcases c.pushPending_cases key rec with hpush | hpush
  · rwa [hpush]
  · rw [hpush] at hrefused ⊢
    have hfits : bufferedBytes c.pending + rec.bytes.length ≤ c.capPendingBytes.toNat := by
      simpa using hrefused
    have hcap := h.cap_lt
    refine ⟨?_, ?_, hcap⟩
    · change (c.pendingBytes + UInt32.ofNat rec.bytes.length).toNat = _
      rw [bufferedBytes_enqueue, UInt32.toNat_add, UInt32.toNat_ofNat_of_lt' hlen, h.total]
      exact Nat.mod_eq_of_lt (by omega)
    · rwa [bufferedBytes_enqueue]

/-- The bytes taken for a key never exceed the running total. -/
theorem Accounted.totalBytes_le (h : c.Accounted) (key : TemplateKey) :
    totalBytes (c.takePending key).1 ≤ c.pendingBytes.toNat := by
  rw [h.total, bufferedBytes_erase c.pending key]
  exact Nat.le_add_right _ _

/-- The subtraction on taking records is exact. -/
theorem Accounted.takePending_pendingBytes (h : c.Accounted) (key : TemplateKey) :
    (c.takePending key).2.pendingBytes.toNat =
      c.pendingBytes.toNat - totalBytes (c.takePending key).1 := by
  have hle := h.totalBytes_le key
  have hlt := c.pendingBytes.toNat_lt
  change (saturatingSub c.pendingBytes (.ofNat (totalBytes (c.takePending key).1))).toNat = _
  rw [saturatingSub_toNat, UInt32.toNat_ofNat_of_lt']
  exact lt_of_le_of_lt hle hlt

/-- Taking the records of a key keeps the account. -/
theorem Accounted.takePending (h : c.Accounted) (key : TemplateKey) :
    (c.takePending key).2.Accounted := by
  have hsplit := bufferedBytes_erase c.pending key
  have hle := h.le_cap
  have htotal := h.total
  have htaken : (c.takePending key).1 = (c.pending[key]?).getD [] := rfl
  refine ⟨?_, ?_, h.cap_lt⟩
  · rw [h.takePending_pendingBytes, htaken, takePending_pending]
    omega
  · rw [takePending_pending, takePending_capPendingBytes]
    omega

/-- Draining the buffer keeps the account. -/
theorem Accounted.drainPending (h : c.Accounted) : c.drainPending.2.Accounted :=
  ⟨rfl, Nat.zero_le _, h.cap_lt⟩

/-- A wrapping sum of lengths is the true sum when that fits. -/
theorem sum_ofNat_toNat {lengths : List ℕ} (h : lengths.sum < 2 ^ 32) :
    (lengths.map UInt32.ofNat).sum.toNat = lengths.sum := by
  induction lengths with
  | nil => rfl
  | cons length lengths ih =>
    rw [List.sum_cons] at h
    have hhead : (UInt32.ofNat length).toNat = length :=
      UInt32.toNat_ofNat_of_lt' (show length < 2 ^ 32 by omega)
    have htail := ih (by omega)
    rw [List.map_cons, List.sum_cons, List.sum_cons, UInt32.toNat_add, hhead, htail]
    exact Nat.mod_eq_of_lt h

/-- The total recomputed from the serialized form is the running total. -/
theorem Accounted.ofDto_toDto_pendingBytes (h : c.Accounted) :
    (ofDto c.toDto).pendingBytes = c.pendingBytes := by
  have hlt : bufferedBytes c.pending < 2 ^ 32 := by
    have hle := h.le_cap
    have hcap := h.cap_lt
    omega
  have hsum := sum_ofNat_toNat hlt
  rw [List.map_map, ← c.ofDto_toDto_pending] at hsum
  apply UInt32.toNat_inj.mp
  rw [h.total, ← c.ofDto_toDto_pending]
  exact hsum

/-- An accounted cache survives the serialized form, the recomputed total included. -/
theorem Accounted.ofDto_toDto (h : c.Accounted) : ofDto c.toDto = c := by
  ext1
  · exact c.ofDto_toDto_entries
  · exact c.ofDto_toDto_pending
  · rfl
  · rfl
  · exact h.ofDto_toDto_pendingBytes

/-- An accounted cache survives serialization. -/
theorem Accounted.fromBytes_toBytes {serde : SerdeJson} (hserde : serde.Lawful) (h : c.Accounted) :
    fromBytes serde (c.toBytes serde) = c := by
  rw [fromBytes_toBytes_eq_ofDto hserde, h.ofDto_toDto]

/-- The caches reachable from a new one by the cache operations. -/
inductive OpReachable (serde : SerdeJson) : TemplateCache → Prop
  | new : OpReachable serde new
  | upsert {c : TemplateCache} (key : TemplateKey) (entry : TemplateEntry) (h : OpReachable serde c) :
      OpReachable serde (c.upsert key entry)
  | useTemplate {c c' : TemplateCache} {key : TemplateKey} {now : Int64} {tpl : TemplateEntry}
      (h : OpReachable serde c) (huse : c.useTemplate key now = some (tpl, c')) :
      OpReachable serde c'
  | pushPending {c : TemplateCache} (key : TemplateKey) (rec : PendingRecord)
      (h : OpReachable serde c) (hlen : rec.bytes.length < 2 ^ 32) :
      OpReachable serde (c.pushPending key rec).2
  | takePending {c : TemplateCache} (key : TemplateKey) (h : OpReachable serde c) :
      OpReachable serde (c.takePending key).2
  | drainPending {c : TemplateCache} (h : OpReachable serde c) : OpReachable serde c.drainPending.2
  | rehydrate {c : TemplateCache} (h : OpReachable serde c) :
      OpReachable serde (fromBytes serde (c.toBytes serde))

/-- Every operation keeps the account. -/
theorem OpReachable.accounted {serde : SerdeJson} (hserde : serde.Lawful)
    (h : OpReachable serde c) : c.Accounted := by
  induction h with
  | new => exact accounted_new
  | upsert key entry _ ih => exact ih.upsert key entry
  | useTemplate _ huse ih => exact ih.useTemplate huse
  | pushPending key rec _ hlen ih => exact ih.pushPending key hlen
  | takePending key _ ih => exact ih.takePending key
  | drainPending _ ih => exact ih.drainPending
  | rehydrate _ ih => rwa [ih.fromBytes_toBytes hserde]

/-- Over every sequence of cache operations the running total is the bytes buffered and within
the cap, a record is refused exactly when it would exceed the cap, refusal changes nothing, and
taking records subtracts exactly what they hold. -/
theorem OpReachable.pending_accounting {serde : SerdeJson} (hserde : serde.Lawful)
    (h : OpReachable serde c) :
    c.pendingBytes.toNat = bufferedBytes c.pending ∧
    bufferedBytes c.pending ≤ c.capPendingBytes.toNat ∧
    (∀ key rec, rec.bytes.length < 2 ^ 32 →
      ((c.pushPending key rec).1 = false ↔
        c.capPendingBytes.toNat < bufferedBytes c.pending + rec.bytes.length) ∧
      ((c.pushPending key rec).1 = false → (c.pushPending key rec).2 = c)) ∧
    ∀ key, UInt32.ofNat (totalBytes (c.takePending key).1) ≤ c.pendingBytes ∧
      (c.takePending key).2.pendingBytes.toNat + totalBytes (c.takePending key).1 =
        c.pendingBytes.toNat := by
  have hacc := h.accounted hserde
  refine ⟨hacc.total, hacc.le_cap, fun key rec hlen => ⟨hacc.pushPending_eq_false key hlen,
    pushPending_of_refused⟩, fun key => ⟨?_, ?_⟩⟩
  · have hle := hacc.totalBytes_le key
    rw [UInt32.le_iff_toNat_le, UInt32.toNat_ofNat_of_lt' (lt_of_le_of_lt hle c.pendingBytes.toNat_lt)]
    exact hle
  · rw [hacc.takePending_pendingBytes key]
    exact Nat.sub_add_cancel (hacc.totalBytes_le key)

/-- A key of a concrete run. -/
def sampleKey : TemplateKey := ⟨"10.0.0.1", 7, 256⟩

/-- A buffered record of a concrete run. -/
def sampleRecord : PendingRecord := ⟨some 5000000, some 42, .v9, some 60000, [10, 0, 0, 1]⟩

/-- A buffered record is still accounted for after serialization. -/
theorem OpReachable.pending_accounting_rehydrated :
    let buffered := (TemplateCache.new.pushPending sampleKey sampleRecord).2
    let serde := SerdeJson.writing [buffered.toDto]
    let c := fromBytes serde (buffered.toBytes serde)
    c.pendingBytes.toNat = bufferedBytes c.pending ∧ bufferedBytes c.pending ≤ c.capPendingBytes.toNat :=
  have h := OpReachable.pending_accounting (SerdeJson.writing_lawful (by simp))
    (.rehydrate (.pushPending sampleKey sampleRecord .new (by decide)))
  ⟨h.1, h.2.1⟩

end TemplateCache

end Netflow
