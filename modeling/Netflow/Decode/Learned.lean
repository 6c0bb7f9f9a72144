import Mathlib.Algebra.Order.Group.Nat
import Mathlib.Data.List.Induction
import Netflow.Decode.Ipfix
import Netflow.Decode.V9

/-!
# What a datagram teaches and carries

The template loop only ever upserts, so a template Set amounts to the list of definitions
it holds, independently of the cache. The Data Sets of a datagram likewise amount to a list
of keyed records. The round counts of the loops are never what ends them.
-/

namespace Netflow

/-- The definitions the template loop upserts, in order. -/
def templateDefs (syn : TemplateSyntax) : ℕ → Cursor → List TemplateDef
  | 0, _ => []
  | rounds + 1, c =>
    if c.remaining < syn.minLen then []
    else match syn.parseOne c with
      | none => []
      | some (d, c) =>
        if syn.stopAtZeros ∧ c.peek 2 = some [0, 0] then [d] else d :: templateDefs syn rounds c

/-- The definitions of one Set; a Set that holds no templates has none. -/
def TemplatedFormat.setDefs (fmt : TemplatedFormat) (fs : FlowSet) : List TemplateDef :=
  match fmt.templates fs.id with
  | some syn => templateDefs syn fs.body.length (.new fs.body)
  | none => []

/-- The definitions of a datagram, in order. -/
def TemplatedFormat.definitions (fmt : TemplatedFormat) (sets : List FlowSet) : List TemplateDef :=
  sets.flatMap fmt.setDefs

/-- Learn definitions one after the other. -/
def learnDefs (exporter : String) (obsDomain : UInt32) (now : Int64) (defs : List TemplateDef)
    (cache : TemplateCache) : TemplateCache :=
  defs.foldl (fun cache d => cache.upsert (d.key exporter obsDomain) (d.entry now)) cache

/-- Learning changes the layouts only. -/
theorem learnDefs_frame (exporter : String) (obsDomain : UInt32) (now : Int64) (defs : List TemplateDef)
    (cache : TemplateCache) :
    ∃ entries, learnDefs exporter obsDomain now defs cache = { cache with entries } := by
  induction defs generalizing cache with
  | nil => exact ⟨cache.entries, rfl⟩
  | cons d defs ih => exact ih _

/-- Learning does not touch the buffer. -/
theorem learnDefs_pending (exporter : String) (obsDomain : UInt32) (now : Int64) (defs : List TemplateDef)
    (cache : TemplateCache) : (learnDefs exporter obsDomain now defs cache).pending = cache.pending := by
  obtain ⟨entries, h⟩ := learnDefs_frame exporter obsDomain now defs cache
  rw [h]

/-- The template loop upserts exactly the definitions it parses. -/
theorem learnTemplates_eq (syn : TemplateSyntax) (exporter : String) (obsDomain : UInt32)
    (now : Int64) (rounds : ℕ) (c : Cursor) (cache : TemplateCache) :
    learnTemplates syn exporter obsDomain now rounds c cache =
      learnDefs exporter obsDomain now (templateDefs syn rounds c) cache := by
  induction rounds generalizing c cache with
  | zero => rfl
  | succ rounds ih =>
    simp only [learnTemplates, templateDefs]
    split
    · rfl
    · cases syn.parseOne c with
      | none => rfl
      | some result =>
        obtain ⟨d, c'⟩ := result
        simp only
        split
        · rfl
        · rw [ih]
          rfl

/-- Pass 1 upserts exactly the definitions of the datagram. -/
theorem learnSets_eq (fmt : TemplatedFormat) (exporter : String) (obsDomain : UInt32) (now : Int64)
    (sets : List FlowSet) (cache : TemplateCache) :
    learnSets fmt exporter obsDomain now sets cache =
      learnDefs exporter obsDomain now (fmt.definitions sets) cache := by
  induction sets generalizing cache with
  | nil => rfl
  | cons fs sets ih =>
    have hset : learnSet fmt exporter obsDomain now cache fs =
        learnDefs exporter obsDomain now (fmt.setDefs fs) cache := by
      unfold learnSet TemplatedFormat.setDefs
      cases fmt.templates fs.id with
      | none => rfl
      | some syn => exact learnTemplates_eq _ _ _ _ _ _ _
    rw [learnSets, List.foldl_cons, hset, TemplatedFormat.definitions, List.flatMap_cons, learnDefs,
      learnDefs, List.foldl_append]
    exact ih _

/-- The Data Sets of a datagram, each under its key and with its header context. -/
def Ctx.arrivals (ctx : Ctx) (sets : List FlowSet) : List (TemplateKey × PendingRecord) :=
  (sets.filter fun fs => ¬ fs.id < 256).map fun fs => (ctx.key fs.id, ctx.pendingRecord fs.body)

/-- A Set below id 256 is no Data Set. -/
theorem Ctx.arrivals_cons_of_lt {ctx : Ctx} {fs : FlowSet} (h : fs.id < 256) (sets : List FlowSet) :
    ctx.arrivals (fs :: sets) = ctx.arrivals sets := by
  simp [arrivals, h]

/-- A Set from id 256 on is a Data Set. -/
theorem Ctx.arrivals_cons_of_not_lt {ctx : Ctx} {fs : FlowSet} (h : ¬ fs.id < 256)
    (sets : List FlowSet) :
    ctx.arrivals (fs :: sets) = (ctx.key fs.id, ctx.pendingRecord fs.body) :: ctx.arrivals sets := by
  simp [arrivals, UInt16.not_lt.mp h]

section Rounds

/-- A declared Set length fits 16 bits. -/
theorem declaredLength_lt (region : Bytes) : declaredLength region < 65536 := by
  have hlen : ((region.drop 2).take 2).length ≤ 2 := by simp
  calc beNat ((region.drop 2).take 2)
      < 256 ^ ((region.drop 2).take 2).length := beNat_lt _
    _ ≤ 256 ^ 2 := Nat.pow_le_pow_right (by omega) hlen

/-- Once there are as many rounds as bytes, further rounds do not change the split. -/
theorem splitRegion_rounds (badSet : String) {region : Bytes} {rounds rounds' : ℕ}
    (h : region.length ≤ rounds) (h' : region.length ≤ rounds') :
    splitRegion badSet rounds region = splitRegion badSet rounds' region := by
  induction rounds generalizing region rounds' with
  | zero => cases rounds' <;> simp [splitRegion, show region.length < 4 by omega]
  | succ rounds ih =>
    cases rounds' with
    | zero => simp [splitRegion, show region.length < 4 by omega]
    | succ rounds' =>
      rw [splitRegion_succ, splitRegion_succ]
      split
      · rfl
      · split
        · rfl
        · have hrest : (region.drop (declaredLength region)).length ≤ region.length - 4 := by
            rw [List.length_drop]
            omega
          rw [ih (hrest.trans (by omega)) (hrest.trans (show _ ≤ rounds' by omega))]

/-- Every Set body is shorter than the largest declarable length. -/
theorem splitRegion_body_length {badSet : String} {rounds : ℕ} {region : Bytes} {sets : List FlowSet}
    (h : splitRegion badSet rounds region = .ok sets) : ∀ fs ∈ sets, fs.body.length < 65536 := by
  induction rounds generalizing region sets with
  | zero =>
    cases h
    simp
  | succ rounds ih =>
    rcases splitRegion_succ_eq_ok h with ⟨-, rfl⟩ | ⟨-, -, out, hrest, rfl⟩
    · simp
    · intro fs hfs
      rcases List.mem_cons.mp hfs with rfl | hfs
      · have := declaredLength_lt region
        simp only [List.length_drop, List.length_take]
        omega
      · exact ih hrest fs hfs

/-- A template parser makes progress when every template it reads takes some bytes. -/
def TemplateSyntax.Progress (syn : TemplateSyntax) : Prop :=
  ∀ c d c', syn.parseOne c = some (d, c') → c'.remaining < c.remaining

/-- Once there are as many rounds as bytes, further rounds do not change what is learned. -/
theorem templateDefs_rounds {syn : TemplateSyntax} (hprogress : syn.Progress) {c : Cursor}
    {rounds rounds' : ℕ} (h : c.remaining ≤ rounds) (h' : c.remaining ≤ rounds') (hmin : 0 < syn.minLen) :
    templateDefs syn rounds c = templateDefs syn rounds' c := by
  induction rounds generalizing c rounds' with
  | zero => cases rounds' <;> simp [templateDefs, show c.remaining < syn.minLen by omega]
  | succ rounds ih =>
    cases rounds' with
    | zero => simp [templateDefs, show c.remaining < syn.minLen by omega]
    | succ rounds' =>
      simp only [templateDefs]
      split
      · rfl
      · cases hparse : syn.parseOne c with
        | none => rfl
        | some result =>
          obtain ⟨d, c'⟩ := result
          have := hprogress c d c' hparse
          simp only
          split
          · rfl
          · rw [ih (by omega) (show c'.remaining ≤ rounds' by omega)]

/-- Reading fields never gives bytes back. -/
theorem readFields_remaining {readOne : Cursor → Option (FieldSpec × Cursor)}
    (hread : ∀ c f c', readOne c = some (f, c') → c'.remaining ≤ c.remaining) {count : ℕ}
    {c c' : Cursor} {fields : List FieldSpec} (h : readFields readOne count c = some (fields, c')) :
    c'.remaining ≤ c.remaining := by
  induction count generalizing c fields with
  | zero =>
    cases h
    exact le_rfl
  | succ count ih =>
    obtain ⟨⟨f, c₁⟩, hone, h⟩ := Option.bind_eq_some_iff.mp h
    obtain ⟨⟨rest, c₂⟩, hrest, h⟩ := Option.bind_eq_some_iff.mp h
    cases h
    exact (ih hrest).trans (hread _ _ _ hone)

/-- A v9 field specifier takes four bytes. -/
theorem V9.readField_remaining {c c' : Cursor} {f : FieldSpec} (h : V9.readField c = some (f, c')) :
    c'.remaining ≤ c.remaining := by
  obtain ⟨⟨ty, c₁⟩, hty, h⟩ := Option.bind_eq_some_iff.mp h
  obtain ⟨⟨len, c₂⟩, hlen, h⟩ := Option.bind_eq_some_iff.mp h
  cases h
  have := Cursor.u16_remaining hty
  have := Cursor.u16_remaining hlen
  omega

/-- A v9 scope specifier takes four bytes. -/
theorem V9.readScopeField_remaining {c c' : Cursor} {f : FieldSpec}
    (h : V9.readScopeField c = some (f, c')) : c'.remaining ≤ c.remaining := by
  obtain ⟨⟨ty, c₁⟩, hty, h⟩ := Option.bind_eq_some_iff.mp h
  obtain ⟨⟨len, c₂⟩, hlen, h⟩ := Option.bind_eq_some_iff.mp h
  cases h
  have := Cursor.u16_remaining hty
  have := Cursor.u16_remaining hlen
  omega

/-- An IPFIX field specifier takes four or eight bytes. -/
theorem Ipfix.readField_remaining {c c' : Cursor} {f : FieldSpec}
    (h : Ipfix.readField c = some (f, c')) : c'.remaining ≤ c.remaining := by
  obtain ⟨⟨rawId, c₁⟩, hid, h⟩ := Option.bind_eq_some_iff.mp h
  obtain ⟨⟨len, c₂⟩, hlen, h⟩ := Option.bind_eq_some_iff.mp h
  have := Cursor.u16_remaining hid
  have := Cursor.u16_remaining hlen
  simp only at h
  split at h
  · obtain ⟨⟨pen, c₃⟩, hpen, h⟩ := Option.bind_eq_some_iff.mp h
    have := Cursor.u32_remaining hpen
    simp only [Option.some.injEq, Prod.mk.injEq] at h
    obtain ⟨-, rfl⟩ := h
    omega
  · simp only [Option.some.injEq, Prod.mk.injEq] at h
    obtain ⟨-, rfl⟩ := h
    omega

/-- Every v9 template takes its id and its field count at least. -/
theorem V9.templateSyntax_progress : V9.templateSyntax.Progress := by
  intro c d c' h
  obtain ⟨⟨templateId, c₁⟩, hid, h⟩ := Option.bind_eq_some_iff.mp h
  obtain ⟨⟨fieldCount, c₂⟩, hcount, h⟩ := Option.bind_eq_some_iff.mp h
  obtain ⟨⟨fields, c₃⟩, hfields, h⟩ := Option.bind_eq_some_iff.mp h
  have := Cursor.u16_remaining hid
  have := Cursor.u16_remaining hcount
  have := readFields_remaining (fun _ _ _ => V9.readField_remaining) hfields
  simp only at h
  split at h
  · contradiction
  · cases h
    omega

/-- Every v9 options template takes its id and its two lengths at least. -/
theorem V9.optionsTemplateSyntax_progress : V9.optionsTemplateSyntax.Progress := by
  intro c d c' h
  obtain ⟨⟨templateId, c₁⟩, hid, h⟩ := Option.bind_eq_some_iff.mp h
  obtain ⟨⟨scopeLen, c₂⟩, hscope, h⟩ := Option.bind_eq_some_iff.mp h
  obtain ⟨⟨optionLen, c₃⟩, hoption, h⟩ := Option.bind_eq_some_iff.mp h
  obtain ⟨⟨scopes, c₄⟩, hscopes, h⟩ := Option.bind_eq_some_iff.mp h
  obtain ⟨⟨options, c₅⟩, hoptions, h⟩ := Option.bind_eq_some_iff.mp h
  have := Cursor.u16_remaining hid
  have := Cursor.u16_remaining hscope
  have := Cursor.u16_remaining hoption
  have := readFields_remaining (fun _ _ _ => V9.readScopeField_remaining) hscopes
  have := readFields_remaining (fun _ _ _ => V9.readField_remaining) hoptions
  simp only at h
  split at h
  · contradiction
  · cases h
    omega

/-- Every IPFIX template takes its id and its field count at least. -/
theorem Ipfix.templateSyntax_progress (options : Bool) : (Ipfix.templateSyntax options).Progress := by
  intro c d c' h
  obtain ⟨⟨templateId, c₁⟩, hid, h⟩ := Option.bind_eq_some_iff.mp h
  obtain ⟨⟨fieldCount, c₂⟩, hcount, h⟩ := Option.bind_eq_some_iff.mp h
  have := Cursor.u16_remaining hid
  have := Cursor.u16_remaining hcount
  simp only at h
  split at h
  · contradiction
  · obtain ⟨⟨scopeFieldCount, c₃⟩, hscope, h⟩ := Option.bind_eq_some_iff.mp h
    obtain ⟨⟨fields, c₄⟩, hfields, h⟩ := Option.bind_eq_some_iff.mp h
    have : c₄.remaining ≤ c₃.remaining :=
      readFields_remaining (fun _ _ _ => Ipfix.readField_remaining) hfields
    have : c₃.remaining ≤ c₂.remaining := by
      unfold Ipfix.readScopeFieldCount at hscope
      split at hscope
      · have := Cursor.u16_remaining hscope
        omega
      · cases hscope
        exact le_rfl
    simp only [Option.some.injEq, Prod.mk.injEq] at h
    obtain ⟨-, rfl⟩ := h
    omega

/-- Every template Set of v9 makes progress and ends where no template fits. -/
theorem V9.progress_of_templates {id : UInt16} {syn : TemplateSyntax}
    (h : V9.format.templates id = some syn) : syn.Progress ∧ 0 < syn.minLen := by
  simp only [V9.format] at h
  split at h
  · cases h
    exact ⟨V9.templateSyntax_progress, by decide⟩
  · split at h
    · cases h
      exact ⟨V9.optionsTemplateSyntax_progress, by decide⟩
    · contradiction

/-- Every template Set of IPFIX makes progress and ends where no template fits. -/
theorem Ipfix.progress_of_templates {id : UInt16} {syn : TemplateSyntax}
    (h : Ipfix.format.templates id = some syn) : syn.Progress ∧ 0 < syn.minLen := by
  simp only [Ipfix.format] at h
  split at h
  · cases h
    exact ⟨Ipfix.templateSyntax_progress false, by decide⟩
  · split at h
    · cases h
      exact ⟨Ipfix.templateSyntax_progress true, by decide⟩
    · contradiction

/-- More rounds than a body has bytes learn no further template from it. -/
theorem learnTemplates_rounds {syn : TemplateSyntax} (h : syn.Progress ∧ 0 < syn.minLen) {body : Bytes}
    {rounds : ℕ} (hrounds : body.length ≤ rounds) (exporter : String) (obsDomain : UInt32) (now : Int64)
    (cache : TemplateCache) :
    learnTemplates syn exporter obsDomain now rounds (.new body) cache =
      parseTemplateSet syn body exporter obsDomain now cache := by
  have hdefs : templateDefs syn rounds (.new body) = templateDefs syn body.length (.new body) :=
    templateDefs_rounds h.1 hrounds le_rfl h.2
  rw [parseTemplateSet, learnTemplates_eq, learnTemplates_eq, hdefs]

/-- More rounds than a datagram has bytes split no further Set off it. -/
theorem TemplatedFormat.split_rounds (fmt : TemplatedFormat) {data : Bytes} {rounds : ℕ}
    (hrounds : data.length ≤ rounds) :
    splitRegion fmt.badSet rounds (data.drop (min fmt.headerLen data.length)) = fmt.split data := by
  apply splitRegion_rounds
  · rw [List.length_drop]
    omega
  · exact le_rfl

end Rounds

end Netflow
