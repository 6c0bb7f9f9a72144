import Netflow.Decode.Record

/-!
# What the two template-stateful decoders share

NetFlow v9 and IPFIX have the same shape: a header, a run of length-prefixed Sets, a first
pass that learns every template of the datagram and a second pass that decodes or buffers
its Data Sets. The source writes that shape twice; here it is written once, over a
`TemplatedFormat` holding the points where the two differ.
-/

namespace Netflow

/-- One Set (FlowSet) of a datagram. -/
structure FlowSet where
  id : UInt16
  body : Bytes
  deriving DecidableEq, Repr

/-- Split a Set region, for at most the given number of Sets, checking each declared length
against the bytes that remain. -/
def splitRegion (badSet : String) : ℕ → Bytes → Except String (List FlowSet)
  | 0, _ => .ok []
  | rounds + 1, region =>
    if region.length < 4 then .ok []
    else
      let id := UInt16.ofNat (beNat (region.take 2))
      let length := beNat ((region.drop 2).take 2)
      if length < 4 ∨ length > region.length then .error badSet
      else do
        let out ← splitRegion badSet rounds (region.drop length)
        .ok (⟨id, (region.take length).drop 4⟩ :: out)

/-- The length a Set region declares for its first Set. -/
def declaredLength (region : Bytes) : ℕ := beNat ((region.drop 2).take 2)

section Split

variable {badSet diag : String} {rounds : ℕ} {region : Bytes} {sets : List FlowSet}

/-- One round of the split. -/
theorem splitRegion_succ (badSet : String) (rounds : ℕ) (region : Bytes) :
    splitRegion badSet (rounds + 1) region =
      if region.length < 4 then .ok []
      else if declaredLength region < 4 ∨ region.length < declaredLength region then .error badSet
      else (splitRegion badSet rounds (region.drop (declaredLength region))).map
        (⟨.ofNat (beNat (region.take 2)), (region.take (declaredLength region)).drop 4⟩ :: ·) := by
  rw [splitRegion]
  by_cases hshort : region.length < 4
  · rw [if_pos hshort, if_pos hshort]
  · rw [if_neg hshort, if_neg hshort]
    by_cases hbad : declaredLength region < 4 ∨ region.length < declaredLength region
    · exact (if_pos hbad).trans (if_pos hbad).symm
    · refine (if_neg hbad).trans ?_
      rw [if_neg hbad, ← declaredLength]
      cases splitRegion badSet rounds (region.drop (declaredLength region)) <;> rfl

/-- A region that splits is too short for a Set, or starts with a whole one. -/
theorem splitRegion_succ_eq_ok (h : splitRegion badSet (rounds + 1) region = .ok sets) :
    region.length < 4 ∧ sets = [] ∨
      4 ≤ declaredLength region ∧ declaredLength region ≤ region.length ∧
        ∃ out, splitRegion badSet rounds (region.drop (declaredLength region)) = .ok out ∧
          sets = ⟨.ofNat (beNat (region.take 2)), (region.take (declaredLength region)).drop 4⟩ :: out := by
  rw [splitRegion_succ] at h
  split at h
  · cases h
    exact .inl ⟨‹_›, rfl⟩
  · split at h
    · contradiction
    · cases hrest : splitRegion badSet rounds (region.drop (declaredLength region)) with
      | error => rw [hrest] at h; contradiction
      | ok out =>
        rw [hrest] at h
        cases h
        exact .inr ⟨by omega, by omega, out, rfl, rfl⟩

/-- A region that does not split starts with a misframed Set, or with a whole one and the rest does not. -/
theorem splitRegion_succ_eq_error (h : splitRegion badSet (rounds + 1) region = .error diag) :
    4 ≤ region.length ∧ (declaredLength region < 4 ∨ region.length < declaredLength region) ∧ diag = badSet ∨
      4 ≤ declaredLength region ∧ declaredLength region ≤ region.length ∧
        splitRegion badSet rounds (region.drop (declaredLength region)) = .error diag := by
  rw [splitRegion_succ] at h
  split at h
  · contradiction
  · split at h
    · cases h
      exact .inl ⟨by omega, ‹_›, rfl⟩
    · cases hrest : splitRegion badSet rounds (region.drop (declaredLength region)) with
      | error =>
        rw [hrest] at h
        cases h
        exact .inr ⟨by omega, by omega, rfl⟩
      | ok out => rw [hrest] at h; contradiction

end Split

/-- A template definition as it stands on the wire. -/
structure TemplateDef where
  templateId : UInt16
  kind : TemplateKind
  fields : List FieldSpec
  scopeFieldCount : UInt16
  deriving DecidableEq, Repr

/-- The cache key a definition is learned under. -/
def TemplateDef.key (d : TemplateDef) (exporter : String) (obsDomain : UInt32) : TemplateKey :=
  ⟨exporter, obsDomain, d.templateId⟩

/-- The fresh cache entry of a definition. -/
def TemplateDef.entry (d : TemplateDef) (now : Int64) : TemplateEntry :=
  ⟨d.kind, d.fields, d.scopeFieldCount, now, now, 0⟩

/-- How a kind of template Set is parsed: one template at a time while `minLen` bytes remain,
stopping where `parseOne` fails or, in some Sets, at an all-zero tail. -/
structure TemplateSyntax where
  minLen : ℕ
  parseOne : Cursor → Option (TemplateDef × Cursor)
  stopAtZeros : Bool

/-- Read the given number of field specifiers, failing if the body ends first. -/
def readFields (readOne : Cursor → Option (FieldSpec × Cursor)) :
    ℕ → Cursor → Option (List FieldSpec × Cursor)
  | 0, c => some ([], c)
  | count + 1, c => do
    let (f, c) ← readOne c
    let (fields, c) ← readFields readOne count c
    some (f :: fields, c)

/-- The template loop, for at most the given number of rounds, upserting each definition. -/
def learnTemplates (syn : TemplateSyntax) (exporter : String) (obsDomain : UInt32) (now : Int64) :
    ℕ → Cursor → TemplateCache → TemplateCache
  | 0, _, cache => cache
  | rounds + 1, c, cache =>
    if c.remaining < syn.minLen then cache
    else match syn.parseOne c with
      | none => cache
      | some (d, c) =>
        let cache := cache.upsert (d.key exporter obsDomain) (d.entry now)
        if syn.stopAtZeros ∧ c.peek 2 = some [0, 0] then cache
        else learnTemplates syn exporter obsDomain now rounds c cache

/-- Parse a whole template Set body; every template takes at least one of its bytes. -/
def parseTemplateSet (syn : TemplateSyntax) (body : Bytes) (exporter : String) (obsDomain : UInt32)
    (now : Int64) (cache : TemplateCache) : TemplateCache :=
  learnTemplates syn exporter obsDomain now body.length (.new body) cache

/-- The points where the two template-stateful formats differ. -/
structure TemplatedFormat where
  version : Version
  headerLen : ℕ
  /-- The diagnostic of an unparsable header. -/
  badHeader : String
  /-- The diagnostic of a Set length that does not fit. -/
  badSet : String
  /-- The header uptime kept for time resolution. -/
  uptime : ExportHeader → Option UInt64
  /-- The syntax of a template Set, by Set id. -/
  templates : UInt16 → Option TemplateSyntax

/-- Learn the templates of one Set, if it is a template Set. -/
def learnSet (fmt : TemplatedFormat) (exporter : String) (obsDomain : UInt32) (now : Int64)
    (cache : TemplateCache) (fs : FlowSet) : TemplateCache :=
  match fmt.templates fs.id with
  | some syn => parseTemplateSet syn fs.body exporter obsDomain now cache
  | none => cache

/-- Pass 1: learn every template of the datagram, so that Data Sets resolve wherever their
template stands. -/
def learnSets (fmt : TemplatedFormat) (exporter : String) (obsDomain : UInt32) (now : Int64)
    (sets : List FlowSet) (cache : TemplateCache) : TemplateCache :=
  sets.foldl (learnSet fmt exporter obsDomain now) cache

/-- The buffered form of a Data Set body under this header context. -/
def Ctx.pendingRecord (ctx : Ctx) (body : Bytes) : PendingRecord :=
  ⟨ctx.exportTime, ctx.sequence, ctx.version, ctx.sysUptimeMs, body⟩

/-- The cache key of a template id under this header context. -/
def Ctx.key (ctx : Ctx) (templateId : UInt16) : TemplateKey :=
  ⟨ctx.exporter, ctx.obsDomain, templateId⟩

/-- The `missing-template` row of a Data Set. -/
def missingTemplate (key : TemplateKey) (version : Version) (exportTime : Option Int64)
    (sequence : Option UInt64) : FlowRecord :=
  .diagnostic key.exporter version.asStr key.obsDomain exportTime sequence
    s!"missing-template:{key.obsDomain}/{key.templateId}"

/-- Pass 2: decode each Data Set against its cached layout, or buffer it; a refused one is
answered at once. -/
def decodeSets (ctxBase : Ctx) (now : Int64) (modeFlowsOnly : Bool) :
    List FlowSet → TemplateCache → List FlowRecord × TemplateCache
  | [], cache => ([], cache)
  | fs :: rest, cache =>
    if fs.id < 256 then decodeSets ctxBase now modeFlowsOnly rest cache
    else
      let key := ctxBase.key fs.id
      match cache.useTemplate key now with
      | some (tpl, cache) =>
        let (out, cache) := decodeSets ctxBase now modeFlowsOnly rest cache
        (decodeDataSet tpl fs.body { ctxBase with templateId := fs.id } modeFlowsOnly ++ out, cache)
      | none =>
        let (stored, cache) := cache.pushPending key (ctxBase.pendingRecord fs.body)
        let (out, cache) := decodeSets ctxBase now modeFlowsOnly rest cache
        if stored then (out, cache)
        else (missingTemplate key ctxBase.version ctxBase.exportTime ctxBase.sequence :: out, cache)

/-- The header context of a datagram under an optional domain override. -/
def TemplatedFormat.ctxBase (fmt : TemplatedFormat) (exporter : String)
    (obsOverride : Option UInt32) (hdr : ExportHeader) : Ctx :=
  { exporter, obsDomain := obsOverride.getD (hdr.obsDomain.getD 0), version := fmt.version
    exportTime := hdr.exportTime, sequence := hdr.sequence, sysUptimeMs := fmt.uptime hdr
    templateId := 0 }

/-- Split the Set region of a datagram. -/
def TemplatedFormat.split (fmt : TemplatedFormat) (data : Bytes) : Except String (List FlowSet) :=
  let region := data.drop (min fmt.headerLen data.length)
  splitRegion fmt.badSet region.length region

/-- Decode a datagram of a template-stateful format. -/
def decodeTemplated (fmt : TemplatedFormat) (data : Bytes) (exporter : String)
    (obsOverride : Option UInt32) (cache : TemplateCache) (now : Int64) (modeFlowsOnly : Bool) :
    List FlowRecord × TemplateCache :=
  match parseHeader data with
  | none => ([.diagnostic exporter fmt.version.asStr 0 none none fmt.badHeader], cache)
  | some hdr =>
    let ctxBase := fmt.ctxBase exporter obsOverride hdr
    match fmt.split data with
    | .error diag =>
      ([.diagnostic exporter fmt.version.asStr ctxBase.obsDomain hdr.exportTime hdr.sequence diag],
        cache)
    | .ok sets =>
      decodeSets ctxBase now modeFlowsOnly sets
        (learnSets fmt exporter ctxBase.obsDomain now sets cache)

end Netflow
