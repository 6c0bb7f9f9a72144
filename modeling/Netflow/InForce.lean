import Netflow.Reachable

/-!
# The layout in force

A datagram is decoded in two passes: the first learns all its templates, the second decodes
its Data Sets. So every Data Set of a datagram sees the last definition its key has anywhere
in the datagram, also one that stands behind it, and only without any the layout cached
before. Where no later Set redefines the key, this is the nearest preceding definition.
-/

namespace Netflow

open Std (ExtTreeMap)

/-- The layout of a key after some definitions: that of the last one for it, else the one it had. -/
def Ctx.layoutAfter (ctx : Ctx) (defs : List TemplateDef) (key : TemplateKey) (cached : Option Layout) :
    Option Layout :=
  ((defs.filter fun d => d.key ctx.exporter ctx.obsDomain = key).getLast?.map TemplateDef.layout).or cached

section LayoutAfter

variable {ctx : Ctx} {key : TemplateKey} {cached cached' : Option Layout} {layout : Layout}

/-- Definitions in a row act one after the other. -/
theorem layoutAfter_append (first second : List TemplateDef) :
    ctx.layoutAfter (first ++ second) key cached =
      ctx.layoutAfter second key (ctx.layoutAfter first key cached) := by
  simp only [Ctx.layoutAfter, List.filter_append, List.getLast?_append]
  cases (second.filter _).getLast? <;> rfl

/-- Definitions of other keys do not matter. -/
theorem layoutAfter_of_ne {defs : List TemplateDef}
    (h : ∀ d ∈ defs, d.key ctx.exporter ctx.obsDomain ≠ key) : ctx.layoutAfter defs key cached = cached := by
  have hnone : (defs.filter fun d => d.key ctx.exporter ctx.obsDomain = key) = [] :=
    List.filter_eq_nil_iff.mpr fun d hd => by simpa using h d hd
  rw [Ctx.layoutAfter, hnone]
  rfl

/-- What was cached before matters only where it stays. -/
theorem layoutAfter_mono {defs : List TemplateDef} (h : ctx.layoutAfter defs key cached = some layout)
    (hcached : cached = some layout → cached' = some layout) :
    ctx.layoutAfter defs key cached' = some layout := by
  unfold Ctx.layoutAfter at h ⊢
  cases hlast : (defs.filter fun d => d.key ctx.exporter ctx.obsDomain = key).getLast? with
  | none =>
    rw [hlast] at h
    exact hcached h
  | some d => rwa [hlast] at h

/-- A layout known after pass 1 is the last one defined for its key, or was cached before. -/
theorem known_learnDefs {now : Int64} {defs : List TemplateDef} {c : TemplateCache}
    (h : (learnDefs ctx.exporter ctx.obsDomain now defs c).binding.known key = some layout) :
    ctx.layoutAfter defs key (c.binding.known key) = some layout := by
  induction defs generalizing c with
  | nil => exact h
  | cons d defs ih =>
    rw [← List.singleton_append, layoutAfter_append]
    refine layoutAfter_mono (ih h) fun hknown => ?_
    have hupdate := known_of_upsert hknown
    by_cases hkey : d.key ctx.exporter ctx.obsDomain = key
    · subst hkey
      rw [Function.update_self] at hupdate
      have hlayout : (d.entry now).layout = d.layout := rfl
      simpa [Ctx.layoutAfter, hlayout] using hupdate
    · rw [Function.update_of_ne (Ne.symm hkey)] at hupdate
      rwa [layoutAfter_of_ne (by simpa using hkey)]

end LayoutAfter

section Places

/-- Pass 2 goes through the Sets in order. -/
theorem settleSets_append (ctx : Ctx) (now : Int64) (first second : List FlowSet) (c : TemplateCache) :
    settleSets ctx now (first ++ second) c =
      ((settleSets ctx now first c).1 ++ (settleSets ctx now second (settleSets ctx now first c).2).1,
        (settleSets ctx now second (settleSets ctx now first c).2).2) := by
  induction first generalizing c with
  | nil => rfl
  | cons fs first ih =>
    simp only [List.cons_append, settleSets]
    split
    · exact ih c
    · cases c.useTemplate (ctx.key fs.id) now with
      | some used => simp only [ih, List.cons_append]
      | none =>
        simp only [ih]
        split <;> rfl

/-- A Data Set holds no template. -/
theorem setDefs_of_not_lt {call : Call} {fmt : TemplatedFormat} (hformat : call.format = some fmt)
    {fs : FlowSet} (hdata : ¬ fs.id < 256) : fmt.setDefs fs = [] := by
  have hid : ∀ id : UInt16, id < 256 → ¬ fs.id = id := fun id hlt heq => hdata (heq ▸ hlt)
  have htemplates : fmt.templates fs.id = none := by
    rcases call.format_version hformat with ⟨rfl, -⟩ | ⟨rfl, -⟩
    · simp only [V9.format, if_neg (hid 0 (by decide)), if_neg (hid 1 (by decide))]
    · simp only [Ipfix.format, if_neg (hid 2 (by decide)), if_neg (hid 3 (by decide))]
  rw [TemplatedFormat.setDefs, htemplates]

end Places

/-- A Data Set is decoded against the given layout: after the Sets before it, pass 2 finds that
layout cached and appends the rows it gives. -/
def Call.DecodesAgainst (call : Call) (ctx : Ctx) (c : TemplateCache) (before : List FlowSet) (fs : FlowSet)
    (layout : Layout) : Prop :=
  let flowsOnly := call.opts.mode.isFlowsOnly
  let passed := decodeSets ctx call.opts.nowMicros flowsOnly before (call.pass1 c)
  ∃ tpl c', passed.2.useTemplate (ctx.key fs.id) call.opts.nowMicros = some (tpl, c') ∧
    tpl.layout = layout ∧
    passed.1 ++ decodeDataSet tpl fs.body { ctx with templateId := fs.id } flowsOnly <+: (call.decode c).1

section Decoding

variable {call : Call} {fmt : TemplatedFormat} {ctx : Ctx} {before after : List FlowSet} {fs : FlowSet}
  {c : TemplateCache}

/-- A Data Set is decoded against the layout its key has after pass 1. -/
theorem Call.decodesAgainst_of_known (hparsed : call.parsed = some (fmt, ctx, before ++ fs :: after))
    (hdata : ¬ fs.id < 256) {layout : Layout}
    (hknown : (call.pass1 c).binding.known (ctx.key fs.id) = some layout) :
    call.DecodesAgainst ctx c before fs layout := by
  have hversion := Call.version_of_parsed hparsed
  have hpasses : call.passes c =
      settleSets ctx call.opts.nowMicros (before ++ fs :: after) (call.pass1 c) := by
    simp only [Call.passes, Call.pass1, hparsed]
  -- The Sets before it have changed no layout.
  rw [← (settleSets_settles ctx call.opts.nowMicros before (call.pass1 c)).known_eq] at hknown
  obtain ⟨tpl, c', huse, hlayout⟩ := exists_useTemplate_of_known hknown call.opts.nowMicros
  obtain ⟨rest, hrest⟩ := call.passes_prefix c
  rw [hpasses, settleSets_append] at hrest
  simp only [settleSets, if_neg hdata, huse] at hrest
  refine ⟨tpl, c', ?_, hlayout, ?_⟩
  · rwa [decodeSets_eq_trace hversion]
  · rw [decodeSets_eq_trace hversion, call.decode_eq_trace, ← hrest]
    simp only [traceRows_append, traceRows_cons, Emission.rows, ctx_pendingRecord hversion,
      List.append_assoc, List.prefix_append_right_inj]
    exact List.prefix_append _ _

/-- A Data Set whose key is cached after pass 1 is decoded against the last definition of its key
in its whole datagram, else against the layout cached before. That is the nearest preceding
definition when no later Set defines the key. -/
theorem Call.decodesAgainst_layoutAfter (hparsed : call.parsed = some (fmt, ctx, before ++ fs :: after))
    (hdata : ¬ fs.id < 256) (hcached : ctx.key fs.id ∈ (call.pass1 c).entries) :
    let key := ctx.key fs.id
    let cached := (c.entries[key]?).map TemplateEntry.layout
    (∃ layout, ctx.layoutAfter (fmt.definitions (before ++ fs :: after)) key cached = some layout ∧
      call.DecodesAgainst ctx c before fs layout) ∧
    ((∀ d ∈ fmt.definitions after, d.key ctx.exporter ctx.obsDomain ≠ key) →
      ctx.layoutAfter (fmt.definitions (before ++ fs :: after)) key cached =
        ctx.layoutAfter (fmt.definitions before) key cached) := by
  intro key cached
  constructor
  · obtain ⟨e, he⟩ := KeyedQueue.mem_iff_exists_getElem?.mp hcached
    have hknown : (call.pass1 c).binding.known key = some e.layout := by
      simp only [TemplateCache.binding, key, he, Option.map_some]
    refine ⟨e.layout, ?_, Call.decodesAgainst_of_known hparsed hdata hknown⟩
    simp only [Call.pass1, hparsed, learnSets_eq] at hknown
    exact known_learnDefs hknown
  · intro hafter
    obtain ⟨hformat, -⟩ := Call.parsed_eq_some hparsed
    rw [TemplatedFormat.definitions, List.flatMap_append, List.flatMap_cons, setDefs_of_not_lt hformat hdata,
      List.nil_append, layoutAfter_append]
    exact layoutAfter_of_ne hafter

/-- A datagram that defines template 256 as one source address, sends one record of it, and
redefines it as one destination address. -/
def sampleRedefined : Bytes :=
  [0, 9, 0, 3, 0, 0, 0, 0, 0, 0, 0, 5, 0, 0, 0, 1, 0, 0, 0, 7] ++
    ([0, 0, 0, 12, 1, 0, 0, 1, 0, 8, 0, 4] ++ [1, 0, 0, 8, 10, 0, 0, 1] ++
      [0, 0, 0, 12, 1, 0, 0, 1, 0, 12, 0, 4])

/-- The header context of that datagram. -/
def sampleRedefinedCtx : Ctx := ⟨"10.0.0.1", 7, .v9, some 5000000, some 1, some 0, 0⟩

/-- The layout of a single IPv4 address, as source or as destination. -/
def sampleLayout (ieId : UInt16) : Layout := ⟨.data, [fieldSpec 0 ieId 4]⟩

theorem Call.sampleRedefined_parsed :
    (Call.of sampleRedefined "10.0.0.1").parsed =
      some (V9.format, sampleRedefinedCtx, [⟨0, [1, 0, 0, 1, 0, 8, 0, 4]⟩] ++
        ⟨256, [10, 0, 0, 1]⟩ :: [⟨0, [1, 0, 0, 1, 0, 12, 0, 4]⟩]) := by
  rfl

/-- The Data Set between two definitions sees the later one. -/
theorem Call.decodesAgainst_layoutAfter_redefined :
    let call := Call.of sampleRedefined "10.0.0.1"
    let key := sampleRedefinedCtx.key 256
    let before : List FlowSet := [⟨0, [1, 0, 0, 1, 0, 8, 0, 4]⟩]
    let fs : FlowSet := ⟨256, [10, 0, 0, 1]⟩
    let after : List FlowSet := [⟨0, [1, 0, 0, 1, 0, 12, 0, 4]⟩]
    (∃ layout, sampleRedefinedCtx.layoutAfter (V9.format.definitions (before ++ fs :: after)) key none =
        some layout ∧ call.DecodesAgainst sampleRedefinedCtx .new before fs layout) ∧
      ((∀ d ∈ V9.format.definitions after, d.key "10.0.0.1" 7 ≠ key) →
        sampleRedefinedCtx.layoutAfter (V9.format.definitions (before ++ fs :: after)) key none =
          sampleRedefinedCtx.layoutAfter (V9.format.definitions before) key none) :=
  Call.decodesAgainst_layoutAfter (c := .new) Call.sampleRedefined_parsed (by decide) (by decide +kernel)

/-- It is not always the nearest preceding definition that a Data Set is decoded against. -/
theorem Call.not_decodesAgainst_preceding :
    ¬ ∀ (serde : SerdeJson) (c : TemplateCache) (call : Call) (fmt : TemplatedFormat) (ctx : Ctx)
      (before after : List FlowSet) (fs : FlowSet) (layout : Layout),
      serde.Lawful → Reachable serde c → call.parsed = some (fmt, ctx, before ++ fs :: after) → ¬ fs.id < 256 →
      ctx.key fs.id ∈ (call.pass1 c).entries →
      ctx.layoutAfter (fmt.definitions before) (ctx.key fs.id)
        ((c.entries[ctx.key fs.id]?).map TemplateEntry.layout) = some layout →
      call.DecodesAgainst ctx c before fs layout := by
  intro h
  obtain ⟨tpl, c', huse, hlayout, -⟩ := h (.writing []) .new (.of sampleRedefined "10.0.0.1") V9.format
    sampleRedefinedCtx _ _ _ (sampleLayout 8) (SerdeJson.writing_lawful (by simp)) (.empty _ _)
    Call.sampleRedefined_parsed (by decide) (by decide +kernel) (by decide +kernel)
  have hused : (((decodeSets sampleRedefinedCtx 0 false [⟨0, [1, 0, 0, 1, 0, 8, 0, 4]⟩]
      ((Call.of sampleRedefined "10.0.0.1").pass1 .new)).2.useTemplate (sampleRedefinedCtx.key 256) 0).map
        fun used => used.1.layout) = some (sampleLayout 12) := by decide +kernel
  have hfound := congrArg (Option.map fun used : TemplateEntry × TemplateCache => used.1.layout) huse
  have hsame : sampleLayout 12 = tpl.layout := Option.some.inj (hused.symm.trans hfound)
  exact absurd (hsame.trans hlayout) (by decide)

end Decoding

end Netflow
