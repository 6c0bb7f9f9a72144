import Netflow.Ledger
import Netflow.Reachable

/-!
# The Data Sets a call decodes

A v9 or IPFIX call decodes the Data Sets of its datagram and those already buffered whose
key has a template once the templates of the datagram are learned, and no others. So what
is to hold of every origin of a call's rows can be asked of these Data Sets and of the
datagram, before any of them is decoded.
-/

namespace Netflow

open Std (ExtTreeMap)

/-- A property of origins that does not look at the statistics of a template. -/
def Emission.Blind (good : Emission → Prop) : Prop :=
  ∀ key (tpl : TemplateEntry) useCount lastSeen rec,
    good (.dataSet key { tpl with useCount, lastSeen } rec) ↔ good (.dataSet key tpl rec)

/-- What holds of a Data Set decoded with the template its key has, if it has one. -/
def TemplateCache.Gives (c : TemplateCache) (good : Emission → Prop) (key : TemplateKey)
    (rec : PendingRecord) : Prop :=
  ∀ tpl, c.entries[key]? = some tpl → good (.dataSet key tpl rec)

/-- The Data Sets a call has before it: those of its datagram and those already buffered. -/
def Call.Presents (call : Call) (c : TemplateCache) (key : TemplateKey) (rec : PendingRecord) : Prop :=
  (key, rec) ∈ call.arrivals ∨ ∃ queue, c.pending[key]? = some queue ∧ rec ∈ queue

section Steps

variable {good : Emission → Prop}

/-- Only the entries matter to what a cache gives. -/
theorem TemplateCache.gives_congr {c c' : TemplateCache} (h : c'.entries = c.entries) (key : TemplateKey)
    (rec : PendingRecord) : c'.Gives good key rec ↔ c.Gives good key rec := by
  unfold Gives
  rw [h]

/-- A cache without a template of the key gives nothing. -/
theorem TemplateCache.gives_of_notMem {c : TemplateCache} {key : TemplateKey} (h : key ∉ c.entries)
    (rec : PendingRecord) : c.Gives good key rec := by
  intro tpl htpl
  rw [ExtTreeMap.getElem?_eq_none h] at htpl
  contradiction

/-- A template in use gives what it gave. -/
theorem TemplateCache.gives_useTemplate (hgood : Emission.Blind good) {c c' : TemplateCache}
    {used : TemplateKey} {now : Int64} {tpl : TemplateEntry} (huse : c.useTemplate used now = some (tpl, c'))
    (key : TemplateKey) (rec : PendingRecord) : c'.Gives good key rec ↔ c.Gives good key rec := by
  obtain ⟨e, he, rfl, rfl⟩ := TemplateCache.useTemplate_eq_some.mp huse
  simp only [Gives, ExtTreeMap.getElem?_insert, Std.LawfulEqCmp.compare_eq_iff_eq]
  by_cases hkey : used = key
  · subst hkey
    simp only [if_true, he, Option.some_inj, forall_eq']
    exact hgood _ _ _ _ _
  · simp only [if_neg hkey]

/-- A template in use is the one its key had. -/
theorem TemplateCache.gives_of_useTemplate (hgood : Emission.Blind good) {c c' : TemplateCache}
    {key : TemplateKey} {now : Int64} {tpl : TemplateEntry} (huse : c.useTemplate key now = some (tpl, c'))
    (rec : PendingRecord) : c.Gives good key rec ↔ good (.dataSet key tpl rec) := by
  obtain ⟨e, he, rfl, -⟩ := TemplateCache.useTemplate_eq_some.mp huse
  simp only [Gives, he, Option.some_inj, forall_eq']
  exact (hgood _ _ _ _ _).symm

/-- Pass 2 leaves what the templates give, and the queue of a key with a template. -/
theorem Settles.gives (hgood : Emission.Blind good) {ctx : Ctx} {now : Int64} {sets : List FlowSet}
    {c c' : TemplateCache} {trace : List Emission} (h : Settles ctx now sets c trace c') (key : TemplateKey)
    (rec : PendingRecord) :
    (c'.Gives good key rec ↔ c.Gives good key rec) ∧
      (key ∈ c.entries → c'.pending[key]? = c.pending[key]?) := by
  induction h with
  | nil => exact ⟨Iff.rfl, fun _ => rfl⟩
  | skip _ _ ih | refused _ _ _ _ ih => exact ih
  | known _ huse _ ih =>
    refine ⟨ih.1.trans (TemplateCache.gives_useTemplate hgood huse key rec), ?_⟩
    intro hmem
    rw [ih.2 ((TemplateCache.mem_useTemplate huse).mpr hmem)]
    obtain ⟨e, -, -, rfl⟩ := TemplateCache.useTemplate_eq_some.mp huse
    rfl
  | stored _ habsent hpush _ ih =>
    obtain rfl := TemplateCache.eq_of_pushPending hpush
    refine ⟨ih.1.trans (TemplateCache.gives_congr rfl key rec), ?_⟩
    intro hmem
    rw [ih.2 hmem, KeyedQueue.getElem?_enqueue, if_neg]
    rintro rfl
    exact habsent hmem

/-- What pass 2 decodes: the Data Sets of the datagram whose key has a template. -/
theorem Settles.forall_trace (hgood : Emission.Blind good)
    (hmissing : ∀ key rec version, good (.missing key rec version)) {ctx : Ctx} {now : Int64}
    {sets : List FlowSet} {c c' : TemplateCache} {trace : List Emission}
    (h : Settles ctx now sets c trace c') :
    (∀ e ∈ trace, good e) ↔ ∀ p ∈ ctx.arrivals sets, c.Gives good p.1 p.2 := by
  induction h with
  | nil => simp [Ctx.arrivals]
  | skip hid _ ih => rw [ih, Ctx.arrivals_cons_of_lt hid]
  | known hid huse _ ih =>
    simp only [Ctx.arrivals_cons_of_not_lt hid, List.forall_mem_cons, ih,
      TemplateCache.gives_useTemplate hgood huse, TemplateCache.gives_of_useTemplate hgood huse]
  | stored hid habsent hpush _ ih =>
    obtain rfl := TemplateCache.eq_of_pushPending hpush
    rw [ih, Ctx.arrivals_cons_of_not_lt hid, List.forall_mem_cons]
    simp only [TemplateCache.gives_of_notMem habsent, true_and]
    exact Iff.rfl
  | refused hid habsent _ _ ih =>
    rw [List.forall_mem_cons, ih, Ctx.arrivals_cons_of_not_lt hid, List.forall_mem_cons]
    simp only [TemplateCache.gives_of_notMem habsent, hmissing]

/-- What the retry decodes: the queues of the keys it was given that have a template. -/
theorem Retries.forall_trace (hgood : Emission.Blind good) {now : Int64} {keys : List TemplateKey}
    {c c' : TemplateCache} {trace : List Emission} (h : Retries now keys c trace c') :
    (∀ e ∈ trace, good e) ↔
      ∀ key ∈ keys, ∀ queue, c.pending[key]? = some queue → ∀ rec ∈ queue, c.Gives good key rec := by
  induction h with
  | nil => simp
  | @skip key keys c c' trace habsent _ ih =>
    simp only [ih, List.forall_mem_cons, TemplateCache.gives_of_notMem habsent, implies_true, true_and]
  | @release key keys c c₁ c' trace tpl huse _ ih =>
    have hpending : c₁.pending = c.pending := by
      obtain ⟨e, -, -, rfl⟩ := TemplateCache.useTemplate_eq_some.mp huse
      rfl
    have hgives : ∀ k rec, (c₁.takePending key).2.Gives good k rec ↔ c.Gives good k rec := fun k rec =>
      (TemplateCache.gives_congr rfl k rec).trans (TemplateCache.gives_useTemplate hgood huse k rec)
    have hkey : (∀ rec ∈ (c₁.takePending key).1, good (.dataSet key tpl rec)) ↔
        ∀ queue, c.pending[key]? = some queue → ∀ rec ∈ queue, c.Gives good key rec := by
      simp only [TemplateCache.takePending, hpending, TemplateCache.gives_of_useTemplate hgood huse]
      cases c.pending[key]? with
      | none => simp
      | some queue => simp
    rw [List.forall_mem_append, ih, List.forall_mem_map, hkey, List.forall_mem_cons]
    apply and_congr_right
    intro hreleased
    apply forall₂_congr
    intro k hk
    simp only [TemplateCache.takePending_pending, hpending, ExtTreeMap.getElem?_erase,
      Std.LawfulEqCmp.compare_eq_iff_eq, hgives]
    by_cases hagain : key = k
    · -- A key that comes again finds its queue already released.
      subst hagain
      simp only [if_true, reduceCtorEq, false_implies, implies_true, true_iff]
      exact hreleased
    · simp only [if_neg hagain]

end Steps

section Calls

variable {good : Emission → Prop}

/-- Pass 1 leaves the buffer alone. -/
theorem Call.pass1_pending (call : Call) (c : TemplateCache) : (call.pass1 c).pending = c.pending := by
  cases hparsed : call.parsed with
  | none => simp only [Call.pass1, hparsed]
  | some parsed =>
    obtain ⟨fmt, ctx, sets⟩ := parsed
    obtain ⟨entries, hframe⟩ :=
      learnDefs_frame ctx.exporter ctx.obsDomain call.opts.nowMicros (fmt.definitions sets) c
    simp only [Call.pass1, hparsed, learnSets_eq, hframe]

/-- Where no template pass runs, pass 1 leaves the cache alone and no Data Set arrives. -/
theorem Call.of_parsed_eq_none {call : Call} (h : call.parsed = none) (c : TemplateCache) :
    call.pass1 c = c ∧ call.arrivals = [] := by
  simp only [Call.pass1, Call.arrivals, h, and_self]

/-- What the passes of a call decode: the Data Sets of its datagram whose key has a template after
pass 1. They leave what the templates give, and the queue of a key with a template. -/
theorem Call.forall_passes (hgood : Emission.Blind good)
    (hmissing : ∀ key rec version, good (.missing key rec version)) (call : Call) (c : TemplateCache) :
    ((∀ e ∈ (call.passes c).1, good e) ↔
        (call.parsed = none → ∀ e ∈ call.statelessTrace, good e) ∧
          ∀ p ∈ call.arrivals, (call.pass1 c).Gives good p.1 p.2) ∧
      ∀ key rec, ((call.passes c).2.Gives good key rec ↔ (call.pass1 c).Gives good key rec) ∧
        (key ∈ (call.pass1 c).entries → (call.passes c).2.pending[key]? = c.pending[key]?) := by
  rcases call.passes_cases c with ⟨hparsed, hpasses⟩ | ⟨fmt, ctx, sets, trace, c', hparsed, hsettles, hpasses⟩
  · obtain ⟨hpass1, harrivals⟩ := Call.of_parsed_eq_none hparsed c
    rw [hpasses, hpass1, harrivals]
    exact ⟨by simp [hparsed], fun key rec => ⟨Iff.rfl, fun _ => rfl⟩⟩
  · have hpass1 : call.pass1 c =
        learnDefs ctx.exporter ctx.obsDomain call.opts.nowMicros (fmt.definitions sets) c := by
      simp only [Call.pass1, hparsed, learnSets_eq]
    rw [← hpass1] at hsettles
    rw [hpasses, ← call.pass1_pending c]
    refine ⟨?_, hsettles.gives hgood⟩
    simp only [hparsed, reduceCtorEq, false_implies, true_and, Call.arrivals]
    exact hsettles.forall_trace hgood hmissing

/-- What a call decodes: the Data Sets before it whose key has a template after pass 1. -/
theorem Call.forall_trace (hgood : Emission.Blind good)
    (hmissing : ∀ key rec version, good (.missing key rec version)) (call : Call) (c : TemplateCache) :
    (∀ e ∈ (call.trace c).1, good e) ↔
      (call.parsed = none → ∀ e ∈ call.statelessTrace, good e) ∧
        (call.retries → ∀ key rec, call.Presents c key rec → (call.pass1 c).Gives good key rec) := by
  obtain ⟨hpasses, hafter⟩ := call.forall_passes hgood hmissing c
  by_cases hretries : call.retries
  · have hretried :=
      retryKeysTrace_retries call.opts.nowMicros (call.passes c).2.pendingKeys (call.passes c).2
    simp only [Call.trace_of_retries hretries, List.forall_mem_append, hpasses, hretried.forall_trace hgood,
      and_assoc, hretries, true_implies]
    apply and_congr_right
    intro hstateless
    constructor
    · rintro ⟨harrivals, hreleased⟩ key rec (harrived | ⟨queue, hqueue, hrec⟩)
      · exact harrivals (key, rec) harrived
      · by_cases hmem : key ∈ (call.pass1 c).entries
        · have hpending := ((hafter key rec).2 hmem).trans hqueue
          have hkey : key ∈ (call.passes c).2.pendingKeys :=
            ExtTreeMap.mem_keys.mpr (KeyedQueue.mem_of_getElem? hpending)
          exact (hafter key rec).1.mp (hreleased key hkey queue hpending rec hrec)
        · exact TemplateCache.gives_of_notMem hmem rec
    · intro h
      refine ⟨fun p hp => h p.1 p.2 (.inl hp), ?_⟩
      intro key hkey queue hqueue rec hrec
      rw [(hafter key rec).1]
      by_cases hmem : key ∈ (call.pass1 c).entries
      · rw [(hafter key rec).2 hmem] at hqueue
        exact h key rec (.inr ⟨queue, hqueue, hrec⟩)
      · exact TemplateCache.gives_of_notMem hmem rec
  · have hparsed : call.parsed = none := by
      cases hparsed : call.parsed with
      | none => rfl
      | some parsed => exact absurd (Call.retries_of_parsed hparsed) hretries
    rw [Call.trace_of_not_retries hretries, hpasses, (Call.of_parsed_eq_none hparsed c).2]
    simp [hretries]

end Calls

end Netflow
