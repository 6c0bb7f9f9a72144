import Netflow.Eviction
import Netflow.InForce

/-!
# Whether a template just learned is usable

The template an upsert stores takes part in the eviction that follows. A worker stamps a
whole batch with one clock value, so many templates may tie with the new one, and on a tie
the smaller key goes first. The new template stays exactly if the entries to be evicted are
no more than those that do not tie with it under a greater key.
-/

namespace Netflow

open Std (ExtTreeMap)

section Definitions

/-- Whether no cached template was seen after the given time. -/
def TemplateCache.SeenBy (c : TemplateCache) (now : Int64) : Prop :=
  ∀ (key : TemplateKey) e, c.entries[key]? = some e → e.lastSeen ≤ now

/-- The number of cached templates with a greater key that were seen no earlier than an upserted one. -/
def TemplateCache.ties (c : TemplateCache) (key : TemplateKey) (entry : TemplateEntry) : ℕ :=
  Eviction.laterTies TemplateEntry.lastSeen (c.inserted key entry) (key, entry)

/-- Whether the entries besides an upserted one and its ties are enough to be evicted. -/
def TemplateCache.Outlives (c : TemplateCache) (key : TemplateKey) (entry : TemplateEntry) : Prop :=
  excess c.capEntries (c.inserted key entry) + c.ties key entry < (c.inserted key entry).size

end Definitions

section Entries

variable {c : TemplateCache} {key : TemplateKey} {entry : TemplateEntry}

/-- The stored entry has the layout and the clock value of the upserted one. -/
theorem TemplateCache.stored_lastSeen (c : TemplateCache) (key : TemplateKey) (entry : TemplateEntry) :
    (c.stored key entry).lastSeen = entry.lastSeen := by
  unfold stored
  split <;> rfl

/-- The upserted entry is in place. -/
theorem TemplateCache.getElem?_inserted (c : TemplateCache) (key : TemplateKey) (entry : TemplateEntry) :
    (c.inserted key entry)[key]? = some (c.stored key entry) := by
  rw [inserted, ExtTreeMap.getElem?_insert_self]

/-- Before an upserted entry seen last come all the others but its ties. -/
theorem TemplateCache.rank_add_ties (hseen : c.SeenBy entry.lastSeen) :
    Eviction.rank TemplateEntry.lastSeen (c.inserted key entry) (key, c.stored key entry) +
      c.ties key entry + 1 = (c.inserted key entry).size := by
  have hgreatest : ∀ (k : TemplateKey) w, (c.inserted key entry)[k]? = some w →
      w.lastSeen ≤ (c.stored key entry).lastSeen := by
    intro k w hw
    rw [c.stored_lastSeen]
    rw [inserted, ExtTreeMap.getElem?_insert] at hw
    split at hw
    · rw [← Option.some.inj hw, c.stored_lastSeen]
      exact Int64.le_refl _
    · exact hseen k w hw
  have hties : c.ties key entry =
      Eviction.laterTies TemplateEntry.lastSeen (c.inserted key entry) (key, c.stored key entry) := by
    simp only [ties, Eviction.laterTies, c.stored_lastSeen]
  rw [hties]
  exact Eviction.rank_add_laterTies (c.getElem?_inserted key entry) hgreatest

/-- Below `2 ^ 32` entries an upserted one outlives the others exactly if its ties are fewer than the cap. -/
theorem TemplateCache.outlives_iff_of_lt (hseen : c.SeenBy entry.lastSeen)
    (hsize : (c.inserted key entry).size < 2 ^ 32) :
    c.Outlives key entry ↔ c.ties key entry < c.capEntries.toNat := by
  have hrank := @rank_add_ties c key entry hseen
  rw [Outlives, excess, Nat.mod_eq_of_lt hsize]
  omega

/-- An upserted entry seen last stays cached exactly if it outlives the others. -/
theorem getElem?_upsert_iff (hseen : c.SeenBy entry.lastSeen) :
    (c.upsert key entry).entries[key]? = some (c.stored key entry) ↔ c.Outlives key entry := by
  rw [upsert_entries_eq, Eviction.getElem?_evict, TemplateCache.Outlives,
    ← @TemplateCache.rank_add_ties c key entry hseen]
  simp only [c.getElem?_inserted, true_and]
  omega

/-- Whatever is cached under the key of an upserted entry is what was stored. -/
theorem exists_upsert_iff (hseen : c.SeenBy entry.lastSeen) (good : TemplateEntry → Prop)
    (hgood : good (c.stored key entry)) :
    (∃ e, (c.upsert key entry).entries[key]? = some e ∧ good e) ↔ c.Outlives key entry := by
  rw [← getElem?_upsert_iff hseen]
  constructor
  · rintro ⟨e, he, -⟩
    rcases TemplateCache.getElem?_of_upsert he with ⟨-, rfl⟩ | ⟨hne, -⟩
    · exact he
    · contradiction
  · intro h
    exact ⟨_, h, hgood⟩

end Entries

section Datagrams

variable {call : Call} {fmt : TemplatedFormat} {ctx : Ctx} {before after : List FlowSet} {fs : FlowSet}
  {c : TemplateCache}

/-- A Data Set is decoded against a layout exactly if that is what pass 1 leaves cached for its key. -/
theorem Call.decodesAgainst_iff_known (hparsed : call.parsed = some (fmt, ctx, before ++ fs :: after))
    (hdata : ¬ fs.id < 256) (layout : Layout) :
    call.DecodesAgainst ctx c before fs layout ↔
      (call.pass1 c).binding.known (ctx.key fs.id) = some layout := by
  constructor
  · rintro ⟨tpl, c', huse, rfl, -⟩
    rw [decodeSets_eq_trace (Call.version_of_parsed hparsed)] at huse
    have hknown := (useTemplate_binding huse).2
    rwa [(settleSets_settles _ _ _ _).known_eq] at hknown
  · exact Call.decodesAgainst_of_known hparsed hdata

/-- The Data Sets of the only template a datagram defines are decoded against it exactly if it outlives the
others. -/
theorem Call.decodesAgainst_iff_outlives (hseen : c.SeenBy call.opts.nowMicros)
    (hparsed : call.parsed = some (fmt, ctx, before ++ fs :: after)) (hdata : ¬ fs.id < 256) {d : TemplateDef}
    (hdefs : fmt.definitions (before ++ fs :: after) = [d]) (hid : d.templateId = fs.id) :
    call.DecodesAgainst ctx c before fs d.layout ↔ c.Outlives (ctx.key fs.id) (d.entry call.opts.nowMicros) := by
  have hkey : d.key ctx.exporter ctx.obsDomain = ctx.key fs.id := by
    rw [TemplateDef.key, hid, Ctx.key]
  have hpass1 : call.pass1 c = c.upsert (ctx.key fs.id) (d.entry call.opts.nowMicros) := by
    simp only [Call.pass1, hparsed, learnSets_eq, hdefs, learnDefs, List.foldl_cons, List.foldl_nil, hkey]
  have hseen' : c.SeenBy (d.entry call.opts.nowMicros).lastSeen := hseen
  rw [Call.decodesAgainst_iff_known hparsed hdata, hpass1,
    ← exists_upsert_iff hseen' (fun e => e.layout = d.layout) (c.stored_layout _ _)]
  simp only [TemplateCache.binding, Option.map_eq_some_iff]

/-- A template just learned, seen no earlier than any cached one, stays cached with its layout exactly if it
outlives the others. The Data Sets of the only template a datagram defines are decoded against it exactly
then. -/
theorem justLearned_usable_iff (c : TemplateCache) :
    (∀ (key : TemplateKey) (entry : TemplateEntry), c.SeenBy entry.lastSeen →
      ((∃ e, (c.upsert key entry).entries[key]? = some e ∧ e.layout = entry.layout ∧
        e.scopeFieldCount = entry.scopeFieldCount) ↔ c.Outlives key entry)) ∧
    ∀ (call : Call) (fmt : TemplatedFormat) (ctx : Ctx) (before after : List FlowSet) (fs : FlowSet)
      (d : TemplateDef), c.SeenBy call.opts.nowMicros →
      call.parsed = some (fmt, ctx, before ++ fs :: after) → ¬ fs.id < 256 →
      fmt.definitions (before ++ fs :: after) = [d] → d.templateId = fs.id →
      (call.DecodesAgainst ctx c before fs d.layout ↔
        c.Outlives (ctx.key fs.id) (d.entry call.opts.nowMicros)) := by
  constructor
  · intro key entry hseen
    refine exists_upsert_iff hseen _ ⟨c.stored_layout key entry, ?_⟩
    unfold TemplateCache.stored
    split <;> rfl
  · intro call fmt ctx before after fs d hseen hparsed hdata hdefs hid
    exact Call.decodesAgainst_iff_outlives hseen hparsed hdata hdefs hid

/-- A datagram that defines template 257 as one source address. -/
def sampleOther : Bytes := sampleHeader ++ [0, 0, 0, 12, 1, 1, 0, 1, 0, 8, 0, 4]

/-- The cache of the given cap after that datagram. -/
def sampleFull (capEntries : UInt32) : TemplateCache :=
  ((Call.of sampleOther "10.0.0.1").decode (.empty capEntries 1024)).2

/-- A datagram that defines template 256 as one source address and sends one record of it. -/
def sampleUsed : Bytes :=
  [0, 9, 0, 2, 0, 0, 0, 0, 0, 0, 0, 5, 0, 0, 0, 1, 0, 0, 0, 7] ++
    ([0, 0, 0, 12, 1, 0, 0, 1, 0, 8, 0, 4] ++ [1, 0, 0, 8, 10, 0, 0, 1])

theorem Call.sampleUsed_parsed :
    (Call.of sampleUsed "10.0.0.1").parsed =
      some (V9.format, sampleRedefinedCtx, [⟨0, [1, 0, 0, 1, 0, 8, 0, 4]⟩] ++ ⟨256, [10, 0, 0, 1]⟩ :: []) := by
  rfl

/-- The only template of that cache was seen at time zero. -/
theorem sampleFull_seenBy : (sampleFull 1).SeenBy 0 := by
  have hentries : (sampleFull 1).entries.toList.all fun p => decide (p.2.lastSeen ≤ 0) := by
    decide +kernel
  intro key e he
  simpa using List.all_eq_true.mp hentries _ (ExtTreeMap.mem_toList_iff_getElem?_eq_some.mpr he)

/-- Template 256, learned at the same time by a cache of one entry. -/
theorem justLearned_usable_iff_full :
    ((∃ e, ((sampleFull 1).upsert ⟨"10.0.0.1", 7, 256⟩ ⟨.data, [], 0, 0, 0, 0⟩).entries[
        (⟨"10.0.0.1", 7, 256⟩ : TemplateKey)]? = some e ∧ e.layout = ⟨.data, []⟩ ∧ e.scopeFieldCount = 0) ↔
      (sampleFull 1).Outlives ⟨"10.0.0.1", 7, 256⟩ ⟨.data, [], 0, 0, 0, 0⟩) ∧
    ((Call.of sampleUsed "10.0.0.1").DecodesAgainst sampleRedefinedCtx (sampleFull 1)
        [⟨0, [1, 0, 0, 1, 0, 8, 0, 4]⟩] ⟨256, [10, 0, 0, 1]⟩ (sampleLayout 8) ↔
      (sampleFull 1).Outlives ⟨"10.0.0.1", 7, 256⟩ ⟨.data, [fieldSpec 0 8 4], 0, 0, 0, 0⟩) :=
  ⟨(justLearned_usable_iff (sampleFull 1)).1 ⟨"10.0.0.1", 7, 256⟩ ⟨.data, [], 0, 0, 0, 0⟩ sampleFull_seenBy,
    (justLearned_usable_iff (sampleFull 1)).2 _ V9.format _ _ [] _ ⟨256, .data, [fieldSpec 0 8 4], 0⟩
      sampleFull_seenBy Call.sampleUsed_parsed (by decide) (by decide +kernel) rfl⟩

/-- In a full cache whose template ties with it under a greater key, a template just learned is not usable. -/
theorem not_forall_usable :
    ¬ ∀ (c : TemplateCache) (key : TemplateKey) (entry : TemplateEntry), 1 ≤ c.capEntries →
      c.SeenBy entry.lastSeen → ∃ e, (c.upsert key entry).entries[key]? = some e ∧ e.layout = entry.layout := by
  intro h
  obtain ⟨e, he, -⟩ := h (sampleFull 1) ⟨"10.0.0.1", 7, 256⟩ ⟨.data, [], 0, 0, 0, 0⟩ (by decide +kernel)
    sampleFull_seenBy
  have habsent : ((sampleFull 1).upsert ⟨"10.0.0.1", 7, 256⟩ ⟨.data, [], 0, 0, 0, 0⟩).entries[
      (⟨"10.0.0.1", 7, 256⟩ : TemplateKey)]? = none := by
    decide +kernel
  rw [habsent] at he
  contradiction

end Datagrams

end Netflow
