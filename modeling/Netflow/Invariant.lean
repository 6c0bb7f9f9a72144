import Netflow.Cache.Accounting
import Netflow.Ledger

/-!
# Invariants of the cache over a run

A call touches the cache through four operations only: it upserts the definitions of its
datagram, uses layouts, buffers its Data Sets and takes buffered records. What these four
keep, every call and every run keeps.
-/

namespace Netflow

/-- A property of caches that the four operations keep, for the given definitions and Data Sets. -/
structure Stable (learned : List (TemplateKey × Layout)) (arrivals : List (TemplateKey × PendingRecord))
    (P : TemplateCache → Prop) : Prop where
  upsert : ∀ (c : TemplateCache) (key : TemplateKey) (entry : TemplateEntry),
    (key, entry.layout) ∈ learned → P c → P (c.upsert key entry)
  useTemplate : ∀ (c c' : TemplateCache) (key : TemplateKey) (now : Int64) (tpl : TemplateEntry),
    c.useTemplate key now = some (tpl, c') → P c → P c'
  pushPending : ∀ (c : TemplateCache) (key : TemplateKey) (rec : PendingRecord),
    (key, rec) ∈ arrivals → P c → P (c.pushPending key rec).2
  takePending : ∀ (c : TemplateCache) (key : TemplateKey), P c → P (c.takePending key).2

namespace Stable

variable {learned : List (TemplateKey × Layout)} {arrivals : List (TemplateKey × PendingRecord)}
  {P : TemplateCache → Prop}

/-- Fewer definitions and Data Sets keep no less. -/
theorem mono {learned' : List (TemplateKey × Layout)} {arrivals' : List (TemplateKey × PendingRecord)}
    (h : Stable learned arrivals P) (hlearned : learned' ⊆ learned) (harrivals : arrivals' ⊆ arrivals) :
    Stable learned' arrivals' P :=
  ⟨fun c key entry hmem => h.upsert c key entry (hlearned hmem), h.useTemplate,
    fun c key rec hmem => h.pushPending c key rec (harrivals hmem), h.takePending⟩

/-- Pass 1 keeps a stable property. -/
theorem learnDefs {exporter : String} {obsDomain : UInt32} {now : Int64} {defs : List TemplateDef}
    (h : Stable (defs.map fun d => (d.key exporter obsDomain, d.layout)) arrivals P) {c : TemplateCache}
    (hc : P c) : P (Netflow.learnDefs exporter obsDomain now defs c) := by
  induction defs generalizing c with
  | nil => exact hc
  | cons d defs ih =>
    refine ih (h.mono ?_ fun _ => id) (h.upsert c _ (d.entry now) List.mem_cons_self hc)
    exact List.subset_cons_self _ _

/-- Pass 2 keeps a stable property. -/
theorem settles {ctx : Ctx} {now : Int64} {sets : List FlowSet} {c c' : TemplateCache}
    {trace : List Emission} (h : Stable learned (ctx.arrivals sets) P)
    (hsettles : Settles ctx now sets c trace c') (hc : P c) : P c' := by
  induction hsettles with
  | nil => exact hc
  | skip hid _ ih => exact ih (by rwa [Ctx.arrivals_cons_of_lt hid] at h) hc
  | known hid huse _ ih =>
    rw [Ctx.arrivals_cons_of_not_lt hid] at h
    exact ih (h.mono (fun _ => id) (List.subset_cons_self _ _)) (h.useTemplate _ _ _ _ _ huse hc)
  | stored hid _ hpush _ ih =>
    rw [Ctx.arrivals_cons_of_not_lt hid] at h
    have hpushed := h.pushPending _ _ _ List.mem_cons_self hc
    rw [hpush] at hpushed
    exact ih (h.mono (fun _ => id) (List.subset_cons_self _ _)) hpushed
  | refused hid _ _ _ ih =>
    rw [Ctx.arrivals_cons_of_not_lt hid] at h
    exact ih (h.mono (fun _ => id) (List.subset_cons_self _ _)) hc

/-- The retry keeps a stable property. -/
theorem retries {now : Int64} {keys : List TemplateKey} {c c' : TemplateCache} {trace : List Emission}
    (h : Stable learned arrivals P) (hretries : Retries now keys c trace c') (hc : P c) : P c' := by
  induction hretries with
  | nil => exact hc
  | skip _ _ ih => exact ih hc
  | release huse _ ih => exact ih (h.takePending _ _ (h.useTemplate _ _ _ _ _ huse hc))

/-- The passes of a call keep a property stable under its definitions and Data Sets. -/
theorem passes {call : Call} (h : Stable call.learned call.arrivals P) {c : TemplateCache} (hc : P c) :
    P (call.passes c).2 := by
  rcases call.passes_cases c with ⟨-, hpasses⟩ |
      ⟨fmt, ctx, sets, trace, c', hparsed, hsettles, hpasses⟩
  · rwa [hpasses]
  · simp only [Call.learned, Call.arrivals, hparsed] at h
    rw [hpasses]
    exact h.settles hsettles (h.learnDefs hc)

/-- A call keeps a property stable under its definitions and Data Sets. -/
theorem call {call : Call} (h : Stable call.learned call.arrivals P) {c : TemplateCache} (hc : P c) :
    P (call.trace c).2 := by
  rcases call.trace_cases c with ⟨-, htrace⟩ | ⟨retried, c', hretries, htrace⟩
  · rw [htrace]
    exact h.passes hc
  · rw [htrace]
    exact h.retries hretries (h.passes hc)

/-- A run keeps a property stable under all its definitions and Data Sets. -/
theorem run {calls : List Call} (h : Stable (calls.flatMap Call.learned) (calls.flatMap Call.arrivals) P)
    {c : TemplateCache} (hc : P c) : P (runTrace calls c).2 := by
  induction calls generalizing c with
  | nil => exact hc
  | cons call calls ih =>
    simp only [List.flatMap_cons] at h
    have hcall := (h.mono (List.subset_append_left _ _) (List.subset_append_left _ _)).call hc
    exact ih (h.mono (List.subset_append_right _ _) (List.subset_append_right _ _)) hcall

end Stable

section Instances

/-- The body of a Data Set is shorter than the largest declarable Set length. -/
theorem Call.length_of_mem_arrivals {call : Call} {key : TemplateKey} {rec : PendingRecord}
    (h : (key, rec) ∈ call.arrivals) : rec.bytes.length < 65536 := by
  unfold Call.arrivals at h
  split at h
  · rename_i fmt ctx sets hparsed
    obtain ⟨-, hsplit, -⟩ := Call.parsed_eq_some hparsed
    obtain ⟨fs, hfs, heq⟩ := List.mem_map.mp h
    cases heq
    exact splitRegion_body_length hsplit fs (List.mem_of_mem_filter hfs)
  · contradiction

/-- A Data Set comes from a v9 or an IPFIX datagram. -/
theorem Call.version_of_mem_arrivals {call : Call} {key : TemplateKey} {rec : PendingRecord}
    (h : (key, rec) ∈ call.arrivals) : rec.version = .v9 ∨ rec.version = .v10 := by
  unfold Call.arrivals at h
  split at h
  · rename_i fmt ctx sets hparsed
    obtain ⟨fs, -, heq⟩ := List.mem_map.mp h
    cases heq
    exact Call.version_of_parsed hparsed
  · contradiction

/-- The bodies of a call's Data Sets fit the counter. -/
theorem Call.length_lt_of_mem_arrivals (call : Call) : ∀ p ∈ call.arrivals, p.2.bytes.length < 2 ^ 32 :=
  fun _ hp => (Call.length_of_mem_arrivals hp).trans (by decide)

/-- The bodies of a run's Data Sets fit the counter. -/
theorem length_of_mem_flatMap_arrivals (calls : List Call) :
    ∀ p ∈ calls.flatMap Call.arrivals, p.2.bytes.length < 2 ^ 32 := by
  intro p hp
  obtain ⟨call, -, hcall⟩ := List.mem_flatMap.mp hp
  exact call.length_lt_of_mem_arrivals p hcall

/-- Every operation keeps the account of the buffer. -/
theorem stable_accounted {learned : List (TemplateKey × Layout)}
    {arrivals : List (TemplateKey × PendingRecord)} (hlen : ∀ p ∈ arrivals, p.2.bytes.length < 2 ^ 32) :
    Stable learned arrivals TemplateCache.Accounted where
  upsert _ key entry _ h := h.upsert key entry
  useTemplate _ _ _ _ _ huse h := h.useTemplate huse
  pushPending _ key _ hmem h := h.pushPending key (hlen _ hmem)
  takePending _ key h := h.takePending key

/-- Every run keeps the account of the buffer. -/
theorem runTrace_accounted (calls : List Call) {c : TemplateCache} (h : c.Accounted) :
    (runTrace calls c).2.Accounted :=
  (stable_accounted (length_of_mem_flatMap_arrivals calls)).run h

/-- Every operation keeps the caps. -/
theorem stable_caps (learned : List (TemplateKey × Layout))
    (arrivals : List (TemplateKey × PendingRecord)) (capEntries capPendingBytes : UInt32) :
    Stable learned arrivals fun c => c.capEntries = capEntries ∧ c.capPendingBytes = capPendingBytes where
  upsert _ _ _ _ h := h
  useTemplate c c' key now tpl huse h := by
    obtain ⟨e, -, -, rfl⟩ := TemplateCache.useTemplate_eq_some.mp huse
    exact h
  pushPending c key rec _ h := by simpa using h
  takePending _ _ h := h

/-- Whether something holds of every buffered record and its key. -/
def TemplateCache.PendingAll (good : TemplateKey → PendingRecord → Prop) (c : TemplateCache) : Prop :=
  ∀ (key : TemplateKey) (queue : List PendingRecord), c.pending[key]? = some queue → ∀ rec ∈ queue, good key rec

/-- Every operation keeps what holds of every buffered record and of the Data Sets that arrive. -/
theorem stable_pendingAll (learned : List (TemplateKey × Layout)) {arrivals : List (TemplateKey × PendingRecord)}
    {good : TemplateKey → PendingRecord → Prop} (hgood : ∀ p ∈ arrivals, good p.1 p.2) :
    Stable learned arrivals (TemplateCache.PendingAll good) where
  upsert _ _ _ _ h := h
  useTemplate c c' key now tpl huse h := by
    obtain ⟨e, -, -, rfl⟩ := TemplateCache.useTemplate_eq_some.mp huse
    exact h
  pushPending c key rec hmem h := by
    rcases c.pushPending_cases key rec with hpush | hpush
    · rwa [hpush]
    · rw [hpush]
      intro k queue hqueue rec' hrec'
      simp only [KeyedQueue.getElem?_enqueue] at hqueue
      split at hqueue
      · rename_i hkey
        cases hqueue
        subst hkey
        rcases List.mem_append.mp hrec' with hold | hnew
        · cases hheld : c.pending[key]? with
          | none => simp [hheld] at hold
          | some held =>
            rw [hheld, Option.getD_some] at hold
            exact h key held hheld rec' hold
        · rw [List.mem_singleton.mp hnew]
          exact hgood _ hmem
      · exact h k queue hqueue rec' hrec'
  takePending c key h := by
    intro k queue hqueue
    rw [TemplateCache.takePending_pending, Std.ExtTreeMap.getElem?_erase] at hqueue
    split at hqueue
    · contradiction
    · exact h k queue hqueue

/-- The number of cached layouts is within the cap. -/
def TemplateCache.WithinCap (c : TemplateCache) : Prop := UInt32.ofNat c.entries.size ≤ c.capEntries

/-- Every operation keeps the number of cached layouts within the cap. -/
theorem stable_withinCap (learned : List (TemplateKey × Layout))
    (arrivals : List (TemplateKey × PendingRecord)) :
    Stable learned arrivals TemplateCache.WithinCap where
  upsert _ _ _ _ _ := TemplateCache.evictLoop_size_le le_rfl
  useTemplate c c' key now tpl huse h := by
    obtain ⟨e, he, -, rfl⟩ := TemplateCache.useTemplate_eq_some.mp huse
    have hmem : c.entries.contains key :=
      Std.ExtTreeMap.contains_iff_mem.mpr (KeyedQueue.mem_of_getElem? he)
    unfold TemplateCache.WithinCap
    rwa [Std.ExtTreeMap.size_insert, if_pos hmem]
  pushPending c key rec _ h := by simpa [TemplateCache.WithinCap] using h
  takePending _ _ h := h

end Instances

end Netflow
