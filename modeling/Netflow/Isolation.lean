import Mathlib.Algebra.Order.BigOperators.Group.List
import Mathlib.Algebra.Order.Group.Nat
import Netflow.Capacity

/-!
# Isolation between template scopes

The cache is shared by all exporters, and the retry goes over every buffered key. Still a
datagram changes only keys of its own exporter and domain: it learns, decodes and buffers
under these, and no key of another scope is both buffered and cached, so the retry passes
over them. While no cap is reached, a stream therefore sees the merged cache as its own.
-/

namespace Netflow

open Std (ExtTreeMap)

section Frame

/-- Two caches agree on the selected keys. -/
structure SameOn (S : TemplateKey → Bool) (m m' : TemplateCache) : Prop where
  entries : ∀ k, S k → m'.entries[k]? = m.entries[k]?
  pending : ∀ k, S k → m'.pending[k]? = m.pending[k]?

variable {S : TemplateKey → Bool} {keys : Finset TemplateKey} {m m' m'' : TemplateCache}

/-- A cache agrees with itself. -/
theorem SameOn.refl (m : TemplateCache) : SameOn S m m := ⟨fun _ _ => rfl, fun _ _ => rfl⟩

/-- Agreement composes. -/
theorem SameOn.trans (h : SameOn S m m') (h' : SameOn S m' m'') : SameOn S m m'' :=
  ⟨fun k hk => (h'.entries k hk).trans (h.entries k hk),
    fun k hk => (h'.pending k hk).trans (h.pending k hk)⟩

/-- A selected key is not an unselected one. -/
theorem ne_of_selected {key k : TemplateKey} (hkey : S key = false) (hk : S k) : ¬ key = k := by
  rintro rfl
  exact absurd hk (by simp [hkey])

/-- Learning under an unselected key leaves the selected ones alone. -/
theorem sameOn_upsert (hfits : m.Fits keys) {key : TemplateKey} (hmem : key ∈ keys)
    (hkey : S key = false) (entry : TemplateEntry) : SameOn S m (m.upsert key entry) where
  entries k hk := by
    rw [hfits.upsert_entries hmem, ExtTreeMap.getElem?_insert, if_neg]
    simpa using ne_of_selected hkey hk
  pending _ _ := rfl

/-- Using an unselected key leaves the selected ones alone. -/
theorem sameOn_useTemplate {key : TemplateKey} {now : Int64} {tpl : TemplateEntry}
    (huse : m.useTemplate key now = some (tpl, m')) (hkey : S key = false) : SameOn S m m' := by
  obtain ⟨e, -, -, rfl⟩ := TemplateCache.useTemplate_eq_some.mp huse
  refine ⟨?_, fun _ _ => rfl⟩
  intro k hk
  rw [ExtTreeMap.getElem?_insert, if_neg]
  simpa using ne_of_selected hkey hk

/-- Buffering under an unselected key leaves the selected ones alone. -/
theorem sameOn_pushPending {key : TemplateKey} (hkey : S key = false) (rec : PendingRecord) :
    SameOn S m (m.pushPending key rec).2 := by
  rcases m.pushPending_cases key rec with hpush | hpush <;> rw [hpush]
  · exact .refl m
  · refine ⟨fun _ _ => rfl, ?_⟩
    intro k hk
    rw [KeyedQueue.getElem?_enqueue, if_neg (ne_of_selected hkey hk)]

/-- Taking the records of an unselected key leaves the selected ones alone. -/
theorem sameOn_takePending {key : TemplateKey} (hkey : S key = false) :
    SameOn S m (m.takePending key).2 := by
  refine ⟨fun _ _ => rfl, ?_⟩
  intro k hk
  rw [TemplateCache.takePending_pending, ExtTreeMap.getElem?_erase, if_neg]
  simpa using ne_of_selected hkey hk

/-- Pass 1 in an unselected scope leaves the selected keys alone. -/
theorem sameOn_learnDefs {exporter : String} {obsDomain : UInt32} {now : Int64} {defs : List TemplateDef}
    (hkeys : ∀ d ∈ defs, d.key exporter obsDomain ∈ keys)
    (hscope : ∀ d : TemplateDef, S (d.key exporter obsDomain) = false) (hfits : m.Fits keys) :
    SameOn S m (learnDefs exporter obsDomain now defs m) := by
  induction defs generalizing m with
  | nil => exact .refl m
  | cons d defs ih =>
    have hmem := hkeys d List.mem_cons_self
    have hfits' := hfits.upsert hmem (d.entry now)
    exact (sameOn_upsert hfits hmem (hscope d) _).trans
      (ih (fun e he => hkeys e (List.mem_cons_of_mem _ he)) hfits')

/-- Pass 2 in an unselected scope leaves the selected keys alone. -/
theorem Settles.sameOn {ctx : Ctx} {now : Int64} {sets : List FlowSet} {trace : List Emission}
    (h : Settles ctx now sets m trace m') (hscope : ∀ id, S (ctx.key id) = false) : SameOn S m m' := by
  induction h with
  | nil c => exact .refl c
  | skip _ _ ih => exact ih
  | known _ huse _ ih => exact (sameOn_useTemplate huse (hscope _)).trans ih
  | @stored fs _ c _ _ _ _ _ hpush _ ih =>
    have hpushed := sameOn_pushPending (m := c) (hscope fs.id) (ctx.pendingRecord fs.body)
    rw [hpush] at hpushed
    exact hpushed.trans ih
  | refused _ _ _ _ ih => exact ih

/-- A retry that finds no selected key cached leaves the selected keys alone. -/
theorem Retries.sameOn {now : Int64} {retried : List TemplateKey} {trace : List Emission}
    (h : Retries now retried m trace m') (habsent : ∀ k ∈ retried, S k → k ∉ m.entries) :
    SameOn S m m' := by
  induction h with
  | nil c => exact .refl c
  | skip _ _ ih => exact ih fun k hk => habsent k (List.mem_cons_of_mem _ hk)
  | @release key retried c c₁ c' trace tpl huse _ ih =>
    have hpresent := TemplateCache.mem_of_useTemplate huse
    have hkey : S key = false := by
      cases hS : S key with
      | false => rfl
      | true => exact absurd hpresent (habsent key List.mem_cons_self hS)
    apply ((sameOn_useTemplate huse hkey).trans (sameOn_takePending hkey)).trans
    apply ih
    intro k hk hSk hin
    exact habsent k (List.mem_cons_of_mem _ hk) hSk ((TemplateCache.mem_useTemplate huse).mp hin)

/-- Whether all keys of a call's datagram are selected, or none is. -/
def Call.AllKeys (S : TemplateKey → Bool) (selected : Bool) (call : Call) : Prop :=
  ∀ (fmt : TemplatedFormat) (ctx : Ctx) (sets : List FlowSet),
    call.parsed = some (fmt, ctx, sets) → ∀ id, S (ctx.key id) = selected

/-- The passes of a call in an unselected scope leave the selected keys alone. -/
theorem Call.passes_sameOn {call : Call} (hscope : call.AllKeys S false)
    (hkeys : ∀ p ∈ call.learned, p.1 ∈ keys) (hfits : m.Fits keys) : SameOn S m (call.passes m).2 := by
  rcases call.passes_cases m with ⟨-, hpasses⟩ |
      ⟨fmt, ctx, sets, trace, c', hparsed, hsettles, hpasses⟩
  · rw [hpasses]
    exact .refl m
  · have hctx := hscope fmt ctx sets hparsed
    simp only [Call.learned, hparsed] at hkeys
    have hdefs : ∀ d ∈ fmt.definitions sets, d.key ctx.exporter ctx.obsDomain ∈ keys :=
      fun d hd => hkeys _ (List.mem_map_of_mem hd)
    rw [hpasses]
    exact (sameOn_learnDefs hdefs (fun d => hctx d.templateId) hfits).trans (hsettles.sameOn hctx)

/-- What the retry of a call finds of a scope its passes left alone: nothing to do. -/
theorem Call.absent_of_passes_sameOn {call : Call} (hsettled : m.Settled)
    (hsame : SameOn S m (call.passes m).2) :
    ∀ k ∈ (call.passes m).2.pendingKeys, S k → k ∉ (call.passes m).2.entries := by
  intro k hk hSk hin
  have hwaiting : k ∈ m.pending := by
    rw [ExtTreeMap.mem_iff_isSome_getElem?, ← hsame.pending k hSk, ← ExtTreeMap.mem_iff_isSome_getElem?]
    exact ExtTreeMap.mem_keys.mp hk
  refine hsettled.disjoint k hwaiting ?_
  rwa [ExtTreeMap.mem_iff_isSome_getElem?, ← hsame.entries k hSk, ← ExtTreeMap.mem_iff_isSome_getElem?]

/-- A call in an unselected scope leaves the selected keys alone. -/
theorem Call.trace_sameOn {call : Call} (hscope : call.AllKeys S false)
    (hkeys : ∀ p ∈ call.learned, p.1 ∈ keys) (hfits : m.Fits keys) (hsettled : m.Settled) :
    SameOn S m (call.trace m).2 := by
  have hpasses := call.passes_sameOn hscope hkeys hfits
  rcases call.trace_cases m with ⟨-, htrace⟩ | ⟨retried, c', hretries, htrace⟩
  · rwa [htrace]
  · rw [htrace]
    exact hpasses.trans (hretries.sameOn (Call.absent_of_passes_sameOn hsettled hpasses))

end Frame

section Shadow

/-- One cache is the other restricted to the selected keys. -/
structure Shadows (S : TemplateKey → Bool) (l m : TemplateCache) : Prop where
  entries : ∀ k, l.entries[k]? = if S k then m.entries[k]? else none
  pending : ∀ k, l.pending[k]? = if S k then m.pending[k]? else none
  capEntries : l.capEntries = m.capEntries
  capPendingBytes : l.capPendingBytes = m.capPendingBytes

/-- The running total is exact, unless the byte cap is the largest value, where nothing is ever
refused. -/
def TemplateCache.Exact (c : TemplateCache) : Prop :=
  c.capPendingBytes.toNat < 2 ^ 32 - 1 → c.Accounted

/-- Every operation keeps the running total exact. -/
theorem stable_exact (learned : List (TemplateKey × Layout))
    {arrivals : List (TemplateKey × PendingRecord)} (hlen : ∀ p ∈ arrivals, p.2.bytes.length < 2 ^ 32) :
    Stable learned arrivals TemplateCache.Exact where
  upsert _ key entry _ h hcap := (h hcap).upsert key entry
  useTemplate c c' key now tpl huse h hcap := by
    refine (h ?_).useTemplate huse
    obtain ⟨e, -, -, rfl⟩ := TemplateCache.useTemplate_eq_some.mp huse
    exact hcap
  pushPending _ key _ hmem h hcap := (h (by simpa using hcap)).pushPending key (hlen _ hmem)
  takePending _ key h hcap := (h hcap).takePending key

variable {S : TemplateKey → Bool} {keys : Finset TemplateKey} {l m m' : TemplateCache}

/-- The cached layouts of the restriction, as a map. -/
theorem Shadows.entries_eq (h : Shadows S l m) : l.entries = m.entries.filter fun k _ => S k := by
  apply ExtTreeMap.ext_getElem?
  intro k
  rw [h.entries, ExtTreeMap.getElem?_filter']
  cases S k <;> cases m.entries[k]? <;> rfl

/-- The buffered records of the restriction, as a map. -/
theorem Shadows.pending_eq (h : Shadows S l m) : l.pending = m.pending.filter fun k _ => S k := by
  apply ExtTreeMap.ext_getElem?
  intro k
  rw [h.pending, ExtTreeMap.getElem?_filter']
  cases S k <;> cases m.pending[k]? <;> rfl

/-- A restriction caches no more keys. -/
theorem Shadows.fits (h : Shadows S l m) (hfits : m.Fits keys) : l.Fits keys := by
  refine ⟨fun k hk => hfits.subset k ?_, h.capEntries ▸ hfits.card_le⟩
  rw [ExtTreeMap.mem_iff_isSome_getElem?, h.entries] at hk
  rw [ExtTreeMap.mem_iff_isSome_getElem?]
  split at hk
  · exact hk
  · contradiction

/-- A selected key is cached in the restriction exactly when it is cached. -/
theorem Shadows.mem_entries (h : Shadows S l m) {key : TemplateKey} (hkey : S key) :
    key ∈ l.entries ↔ key ∈ m.entries := by
  rw [ExtTreeMap.mem_iff_isSome_getElem?, h.entries, if_pos hkey, ← ExtTreeMap.mem_iff_isSome_getElem?]

/-- A restriction buffers no more bytes. -/
theorem Shadows.bufferedBytes_le (h : Shadows S l m) : bufferedBytes l.pending ≤ bufferedBytes m.pending := by
  rw [h.pending_eq, bufferedBytes, KeyedQueue.contents_filter]
  exact (List.filter_sublist.map _).sum_le_sum fun _ _ => Nat.zero_le _

/-- What leaves the selected keys alone keeps a restriction to them. -/
theorem Shadows.of_sameOn (h : Shadows S l m) (hsame : SameOn S m m')
    (hcaps : m'.capEntries = m.capEntries ∧ m'.capPendingBytes = m.capPendingBytes) : Shadows S l m' where
  entries k := by
    rw [h.entries]
    split
    · rw [hsame.entries k ‹_›]
    · rfl
  pending k := by
    rw [h.pending]
    split
    · rw [hsame.pending k ‹_›]
    · rfl
  capEntries := h.capEntries.trans hcaps.1.symm
  capPendingBytes := h.capPendingBytes.trans hcaps.2.symm

/-- Learning under a selected key goes alike in the restriction. -/
theorem Shadows.upsert (h : Shadows S l m) (hfits : m.Fits keys) {key : TemplateKey} (hmem : key ∈ keys)
    (hkey : S key) (entry : TemplateEntry) : Shadows S (l.upsert key entry) (m.upsert key entry) where
  entries k := by
    have hstored : l.stored key entry = m.stored key entry := by
      simp only [TemplateCache.stored, h.entries, if_pos hkey]
    rw [hfits.upsert_entries hmem, (h.fits hfits).upsert_entries hmem, hstored,
      ExtTreeMap.getElem?_insert, ExtTreeMap.getElem?_insert, h.entries]
    split
    · rename_i heq
      rw [← Std.LawfulEqCmp.eq_of_compare heq, if_pos hkey]
    · rfl
  pending := h.pending
  capEntries := h.capEntries
  capPendingBytes := h.capPendingBytes

/-- Using a selected key goes alike in the restriction. -/
theorem Shadows.useTemplate (h : Shadows S l m) {key : TemplateKey} (hkey : S key) {now : Int64}
    {tpl : TemplateEntry} (huse : m.useTemplate key now = some (tpl, m')) :
    ∃ l', l.useTemplate key now = some (tpl, l') ∧ Shadows S l' m' := by
  obtain ⟨e, he, htpl, rfl⟩ := TemplateCache.useTemplate_eq_some.mp huse
  refine ⟨_, TemplateCache.useTemplate_eq_some.mpr ⟨e, ?_, htpl, rfl⟩, ?_, h.pending, h.capEntries,
    h.capPendingBytes⟩
  · rw [h.entries, if_pos hkey, he]
  · intro k
    rw [ExtTreeMap.getElem?_insert, ExtTreeMap.getElem?_insert, h.entries]
    split
    · rename_i heq
      rw [← Std.LawfulEqCmp.eq_of_compare heq, if_pos hkey]
    · rfl

/-- Where the merged cache stores a record, so does the restriction. -/
theorem Shadows.stores (h : Shadows S l m) (hl : l.Exact) (hm : m.Exact) (key : TemplateKey)
    {rec : PendingRecord} (hlen : rec.bytes.length < 2 ^ 32) (hpush : (m.pushPending key rec).1 = true) :
    (l.pushPending key rec).1 = true := by
  by_cases hcap : m.capPendingBytes.toNat < 2 ^ 32 - 1
  · have hle := h.bufferedBytes_le
    have hcaps := congrArg UInt32.toNat h.capPendingBytes
    have hmrefused := (hm hcap).pushPending_eq_false key hlen
    have hlrefused := (hl (by rwa [hcaps])).pushPending_eq_false key hlen
    rw [hpush] at hmrefused
    by_contra hnot
    have hover := hlrefused.mp (by simpa using hnot)
    exact absurd (hmrefused.mpr (by omega)) (by simp)
  · have hcaps := congrArg UInt32.toNat h.capPendingBytes
    have hfree : ¬ saturatingAdd l.pendingBytes (.ofNat rec.bytes.length) > l.capPendingBytes := by
      rw [gt_iff_lt, UInt32.lt_iff_toNat_lt, saturatingAdd_toNat, hcaps]
      omega
    simp only [TemplateCache.pushPending, if_neg hfree]

/-- Buffering under a selected key goes alike in the restriction. -/
theorem Shadows.pushPending (h : Shadows S l m) (hl : l.Exact) (hm : m.Exact) {key : TemplateKey}
    (hkey : S key) {rec : PendingRecord} (hlen : rec.bytes.length < 2 ^ 32)
    (hpush : m.pushPending key rec = (true, m')) :
    ∃ l', l.pushPending key rec = (true, l') ∧ Shadows S l' m' := by
  have hstores := h.stores hl hm key hlen (by rw [hpush])
  obtain ⟨l', hpush'⟩ : ∃ l', l.pushPending key rec = (true, l') := ⟨_, Prod.ext hstores rfl⟩
  obtain rfl := TemplateCache.eq_of_pushPending hpush
  obtain rfl := TemplateCache.eq_of_pushPending hpush'
  refine ⟨_, hpush', h.entries, fun k => ?_, h.capEntries, h.capPendingBytes⟩
  rw [KeyedQueue.getElem?_enqueue, KeyedQueue.getElem?_enqueue, h.pending, h.pending, if_pos hkey]
  split
  · rename_i heq
    rw [← heq, if_pos hkey]
  · rfl

/-- Taking the records of a selected key goes alike in the restriction. -/
theorem Shadows.takePending (h : Shadows S l m) {key : TemplateKey} (hkey : S key) :
    (l.takePending key).1 = (m.takePending key).1 ∧
      Shadows S (l.takePending key).2 (m.takePending key).2 := by
  refine ⟨?_, h.entries, fun k => ?_, h.capEntries, h.capPendingBytes⟩
  · simp only [TemplateCache.takePending, h.pending, if_pos hkey]
  · rw [TemplateCache.takePending_pending, TemplateCache.takePending_pending, ExtTreeMap.getElem?_erase,
      ExtTreeMap.getElem?_erase, h.pending]
    split <;> simp

/-- Pass 1 in the selected scope goes alike in the restriction. -/
theorem Shadows.learnDefs (h : Shadows S l m) {exporter : String} {obsDomain : UInt32} {now : Int64}
    {defs : List TemplateDef} (hkeys : ∀ d ∈ defs, d.key exporter obsDomain ∈ keys)
    (hscope : ∀ d : TemplateDef, S (d.key exporter obsDomain) = true) (hfits : m.Fits keys) :
    Shadows S (Netflow.learnDefs exporter obsDomain now defs l)
      (Netflow.learnDefs exporter obsDomain now defs m) := by
  induction defs generalizing l m with
  | nil => exact h
  | cons d defs ih =>
    have hmem := hkeys d List.mem_cons_self
    have hfits' := hfits.upsert hmem (d.entry now)
    exact ih (h.upsert hfits hmem (hscope d) _) (fun e he => hkeys e (List.mem_cons_of_mem _ he)) hfits'

/-- Pass 2 in the selected scope goes alike in the restriction, when nothing is refused. -/
theorem Settles.shadow {ctx : Ctx} {now : Int64} {sets : List FlowSet} {trace : List Emission}
    (hsettles : Settles ctx now sets m trace m') (hscope : ∀ id, S (ctx.key id) = true)
    (hrefused : ∀ e ∈ trace, e.isMissing = false)
    (hlen : ∀ p ∈ ctx.arrivals sets, p.2.bytes.length < 2 ^ 32) (hl : l.Exact) (hm : m.Exact)
    (h : Shadows S l m) : ∃ l', Settles ctx now sets l trace l' ∧ Shadows S l' m' := by
  induction hsettles generalizing l with
  | nil => exact ⟨l, .nil l, h⟩
  | skip hid _ ih =>
    rw [Ctx.arrivals_cons_of_lt hid] at hlen
    obtain ⟨l', hrun, hshadow⟩ := ih hrefused hlen hl hm h
    exact ⟨l', .skip hid hrun, hshadow⟩
  | known hid huse _ ih =>
    rw [Ctx.arrivals_cons_of_not_lt hid] at hlen
    obtain ⟨l₁, huse', h₁⟩ := h.useTemplate (hscope _) huse
    have hstable := stable_exact [] hlen
    obtain ⟨l', hrun, hshadow⟩ := ih (fun e he => hrefused e (List.mem_cons_of_mem _ he))
      (fun p hp => hlen p (List.mem_cons_of_mem _ hp)) (hstable.useTemplate _ _ _ _ _ huse' hl)
      (hstable.useTemplate _ _ _ _ _ huse hm) h₁
    exact ⟨l', .known hid huse' hrun, hshadow⟩
  | stored hid habsent hpush _ ih =>
    rw [Ctx.arrivals_cons_of_not_lt hid] at hlen
    have hstable := stable_exact [] hlen
    obtain ⟨l₁, hpush', h₁⟩ := h.pushPending hl hm (hscope _) (hlen _ List.mem_cons_self) hpush
    have hl₁ := hstable.pushPending _ _ _ List.mem_cons_self hl
    have hm₁ := hstable.pushPending _ _ _ List.mem_cons_self hm
    rw [hpush'] at hl₁
    rw [hpush] at hm₁
    obtain ⟨l', hrun, hshadow⟩ := ih hrefused (fun p hp => hlen p (List.mem_cons_of_mem _ hp)) hl₁ hm₁ h₁
    exact ⟨l', .stored hid ((h.mem_entries (hscope _)).not.mpr habsent) hpush' hrun, hshadow⟩
  | refused => exact absurd (hrefused _ List.mem_cons_self) (by simp [Emission.isMissing])

/-- The retry goes alike in the restriction, when no unselected key it is given is cached. -/
theorem Retries.shadow {now : Int64} {retried : List TemplateKey} {trace : List Emission}
    (hretries : Retries now retried m trace m')
    (habsent : ∀ k ∈ retried, S k = false → k ∉ m.entries) (h : Shadows S l m) :
    ∃ l', Retries now (retried.filter S) l trace l' ∧ Shadows S l' m' := by
  induction hretries generalizing l with
  | nil => exact ⟨l, .nil l, h⟩
  | @skip key retried c c' trace hkey _ ih =>
    obtain ⟨l', hrun, hshadow⟩ := ih (fun k hk => habsent k (List.mem_cons_of_mem _ hk)) h
    refine ⟨l', ?_, hshadow⟩
    rw [List.filter_cons]
    split
    · exact .skip ((h.mem_entries ‹_›).not.mpr hkey) hrun
    · exact hrun
  | @release key retried c c₁ c' trace tpl huse _ ih =>
    have hpresent := TemplateCache.mem_of_useTemplate huse
    have hkey : S key = true := by
      cases hS : S key with
      | true => rfl
      | false => exact absurd hpresent (habsent key List.mem_cons_self hS)
    obtain ⟨l₁, huse', h₁⟩ := h.useTemplate hkey huse
    obtain ⟨htaken, h₂⟩ := h₁.takePending hkey
    obtain ⟨l', hrun, hshadow⟩ := ih (fun k hk hSk hin =>
      habsent k (List.mem_cons_of_mem _ hk) hSk ((TemplateCache.mem_useTemplate huse).mp hin)) h₂
    refine ⟨l', ?_, hshadow⟩
    rw [List.filter_cons, if_pos hkey, ← htaken]
    exact .release huse' hrun

/-- The keys the retry of the restriction starts from. -/
theorem Shadows.pendingKeys (h : Shadows S l m) : l.pendingKeys = m.pendingKeys.filter S := by
  rw [TemplateCache.pendingKeys, TemplateCache.pendingKeys, h.pending_eq]
  exact ExtTreeMap.keys_filter_key

/-- The passes of a call in the selected scope go alike in the restriction, when nothing is refused. -/
theorem Shadows.passes (h : Shadows S l m) {call : Call} (hscope : call.AllKeys S true)
    (hkeys : ∀ p ∈ call.learned, p.1 ∈ keys) (hfits : m.Fits keys) (hl : l.Exact) (hm : m.Exact)
    (hrefused : ∀ e ∈ (call.passes m).1, e.isMissing = false) :
    (call.passes l).1 = (call.passes m).1 ∧ Shadows S (call.passes l).2 (call.passes m).2 := by
  cases hparsed : call.parsed with
  | none => simpa only [Call.passes, hparsed, true_and] using h
  | some parsed =>
    obtain ⟨fmt, ctx, sets⟩ := parsed
    have hctx := hscope fmt ctx sets hparsed
    have hlen := call.length_lt_of_mem_arrivals
    simp only [Call.learned, Call.arrivals, hparsed] at hkeys hlen
    simp only [Call.passes, hparsed, learnSets_eq] at hrefused ⊢
    have hstable := stable_exact ((fmt.definitions sets).map fun d =>
      (d.key ctx.exporter ctx.obsDomain, d.layout)) hlen
    obtain ⟨l', hrun, hshadow⟩ := (settleSets_settles _ _ _ _).shadow hctx hrefused hlen
      (hstable.learnDefs hl) (hstable.learnDefs hm)
      (h.learnDefs (fun d hd => hkeys _ (List.mem_map_of_mem hd)) (fun d => hctx d.templateId) hfits)
    rw [hrun.eq]
    exact ⟨rfl, hshadow⟩

/-- A call in the selected scope goes alike in the restriction, when nothing is refused. -/
theorem Shadows.call (h : Shadows S l m) {call : Call} (hscope : call.AllKeys S true)
    (hkeys : ∀ p ∈ call.learned, p.1 ∈ keys) (hfits : m.Fits keys) (hsettled : m.Settled)
    (hl : l.Exact) (hm : m.Exact) (hrefused : ∀ e ∈ (call.trace m).1, e.isMissing = false) :
    (call.trace l).1 = (call.trace m).1 ∧ Shadows S (call.trace l).2 (call.trace m).2 := by
  by_cases hretries : call.retries
  · simp only [Call.trace_of_retries hretries, List.forall_mem_append] at hrefused ⊢
    obtain ⟨hrows, hpasses⟩ := h.passes hscope hkeys hfits hl hm hrefused.1
    -- Seen from the other scopes, this call is a foreign one.
    have hforeign : call.AllKeys (fun k => !S k) false := fun fmt ctx sets hparsed id => by
      simp [hscope fmt ctx sets hparsed id]
    have habsent := Call.absent_of_passes_sameOn hsettled (call.passes_sameOn hforeign hkeys hfits)
    obtain ⟨l', hrun, hshadow⟩ := (retryKeysTrace_retries call.opts.nowMicros
      (call.passes m).2.pendingKeys _).shadow (fun k hk hS => habsent k hk (by simp [hS])) hpasses
    rw [hrows, hpasses.pendingKeys, hrun.eq]
    exact ⟨rfl, hshadow⟩
  · simp only [Call.trace_of_not_retries hretries] at hrefused ⊢
    exact h.passes hscope hkeys hfits hl hm hrefused

end Shadow

end Netflow
