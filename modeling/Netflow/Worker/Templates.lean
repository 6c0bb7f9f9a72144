import Netflow.Worker.ArrowMap
import Netflow.Worker.Projection
import Netflow.WorkingSet

/-!
# The templates function

A projection of the template cache as a relation: one row for each template that was learned, with the list of its
fields. After a scan below the entry cap it has exactly the templates that the datagrams of the scan define, each
with the layout it was given last.
-/

namespace Netflow

open Columnar
open Std (ExtTreeMap)

variable {ArrayRef RecordBatch : Type}

section Model

/-- The kind of a template as text. -/
def TemplateKind.asStr : TemplateKind → String
  | data => "data"
  | options => "options"

/-- The fields of a field specifier. -/
def fieldStructFields : List Field :=
  [⟨"ie_id", .primitive .uInt16, false⟩, ⟨"enterprise", .primitive .uInt32, false⟩,
    ⟨"length", .primitive .uInt16, false⟩, ⟨"name", .utf8, false⟩, ⟨"ie_type", .utf8, false⟩]

/-- The elements of a list of field specifiers. -/
def fieldItem : Field := ⟨"item", .struct fieldStructFields, false⟩

/-- The type of a list of field specifiers. -/
def fieldsListType : DataType := .list fieldItem

/-- The output schema of `templates()`. -/
def templatesSchema : Schema :=
  [col "exporter" .utf8, col "obs_domain" (.primitive .uInt32), col "template_id" (.primitive .uInt16),
    col "kind" .utf8, col "field_count" (.primitive .uInt32), col "fields" fieldsListType,
    col "scope_field_count" (.primitive .uInt16), col "first_seen" ts, col "last_seen" ts,
    col "use_count" (.primitive .uInt64)]

variable (arrow : Arrow ArrayRef RecordBatch)

/-- The list column of the fields, one list a template. -/
def Arrow.buildFields (entries : List (TemplateKey × TemplateEntry)) : Except Failure ArrayRef := do
  let fields := entries.flatMap fun e => e.2.fields
  let name ← orPanic (arrow.stringArray (fields.map fun f => some f.name))
  let ieType ← orPanic (arrow.stringArray (fields.map fun f => some f.ieType.asStr))
  let child ← orPanic (arrow.structArray fieldStructFields
    [arrow.primitiveArray .uInt16 (fields.map fun f => some f.ieId),
      arrow.primitiveArray .uInt32 (fields.map fun f => some f.enterpriseNumber),
      arrow.primitiveArray .uInt16 (fields.map fun f => some f.length), name, ieType] none)
  orPanic (arrow.listArray fieldItem
    (runningOffsets 0 ((entries.map fun e => e.2.fields).map List.length)) child)

/-- The columns of some templates, in the order of the schema. -/
def Arrow.templateColumns (entries : List (TemplateKey × TemplateEntry)) (exporter kind fields : ArrayRef) :
    List ArrayRef :=
  [exporter, arrow.primitiveArray .uInt32 (entries.map fun e => some e.1.obsDomain),
    arrow.primitiveArray .uInt16 (entries.map fun e => some e.1.templateId), kind,
    arrow.primitiveArray .uInt32 (entries.map fun e => some (.ofNat e.2.fields.length)), fields,
    arrow.primitiveArray .uInt16 (entries.map fun e => some e.2.scopeFieldCount),
    arrow.primitiveArray .timestampUtc (entries.map fun e => some e.2.firstSeen),
    arrow.primitiveArray .timestampUtc (entries.map fun e => some e.2.lastSeen),
    arrow.primitiveArray .uInt64 (entries.map fun e => some e.2.useCount)]

/-- A record batch of some templates. -/
def Arrow.templatesToBatch (entries : List (TemplateKey × TemplateEntry)) (schema : Schema) :
    Except Failure RecordBatch := do
  let exporter ← arrow.strCol (entries.map fun e => some e.1.exporter)
  let kind ← arrow.strCol (entries.map fun e => some e.2.kind.asStr)
  let fields ← arrow.buildFields entries
  arrow.newBatch schema (arrow.templateColumns entries exporter kind fields)

/-- A snapshot of the projection, given out as a single batch. -/
structure TemplatesProducer where
  schema : Schema
  cache : TemplateCache
  filter : Option String
  done : Bool

/-- The templates of the exporter that is asked for, or all of them, in key order. -/
def TemplatesProducer.shown (p : TemplatesProducer) : List (TemplateKey × TemplateEntry) :=
  p.cache.entries.toList.filter fun e => p.filter.all (e.1.exporter = ·)

/-- The next batch, and the producer after it. -/
def TemplatesProducer.nextBatch (p : TemplatesProducer) :
    Except Failure (Option RecordBatch) × TemplatesProducer :=
  if p.done then (.ok none, p)
  else ((arrow.templatesToBatch p.shown p.schema).map some, { p with done := true })

variable {σ : Type}

/-- The producer of a call of `templates()`. -/
def Worker.templates (w : Worker σ) (filter : Option String) (storage : Option σ) : TemplatesProducer :=
  ⟨templatesSchema, w.globalCache storage, filter, false⟩

end Model

section Read

/-- The cells of a field specifier. -/
def FieldSpec.cells (f : FieldSpec) : UInt16 × UInt32 × UInt16 × String × String :=
  (f.ieId, f.enterpriseNumber, f.length, f.name, f.ieType.asStr)

/-- A row of `templates()`. -/
structure TemplateRow where
  exporter : String
  obsDomain : UInt32
  templateId : UInt16
  kind : String
  fieldCount : UInt32
  fields : List (UInt16 × UInt32 × UInt16 × String × String)
  scopeFieldCount : UInt16
  firstSeen : Int64
  lastSeen : Int64
  useCount : UInt64
  deriving DecidableEq, Repr

/-- The row of a template. -/
def TemplateRow.of (key : TemplateKey) (e : TemplateEntry) : TemplateRow :=
  ⟨key.exporter, key.obsDomain, key.templateId, e.kind.asStr, .ofNat e.fields.length, e.fields.map FieldSpec.cells,
    e.scopeFieldCount, e.firstSeen, e.lastSeen, e.useCount⟩

namespace Arrow

variable (arrow : Arrow ArrayRef RecordBatch)

/-- An element of a column of template fields. -/
def fieldAt (child : ArrayRef) (i : ℕ) : Option (UInt16 × UInt32 × UInt16 × String × String) :=
  match arrow.children child with
  | [ieId, enterprise, length, name, ieType] => do
    let ieId ← arrow.cell (arrow.primitive .uInt16) ieId i
    let enterprise ← arrow.cell (arrow.primitive .uInt32) enterprise i
    let length ← arrow.cell (arrow.primitive .uInt16) length i
    let name ← arrow.cell arrow.string name i
    let ieType ← arrow.cell arrow.string ieType i
    some (ieId, enterprise, length, name, ieType)
  | _ => none

/-- A cell of a column of template fields. -/
def templateFieldsAt (col : ArrayRef) (row : ℕ) : Option (List (UInt16 × UInt32 × UInt16 × String × String)) := do
  let values ← (List.range (arrow.len (arrow.values col))).mapM (arrow.fieldAt (arrow.values col))
  (slices values (arrow.offsets col))[row]?

/-- A row of a batch, read by the names of the columns. -/
def templateRow (batch : RecordBatch) (row : ℕ) : Option TemplateRow := do
  let exporter ← arrow.cell arrow.string (← arrow.named batch "exporter") row
  let obsDomain ← arrow.cell (arrow.primitive .uInt32) (← arrow.named batch "obs_domain") row
  let templateId ← arrow.cell (arrow.primitive .uInt16) (← arrow.named batch "template_id") row
  let kind ← arrow.cell arrow.string (← arrow.named batch "kind") row
  let fieldCount ← arrow.cell (arrow.primitive .uInt32) (← arrow.named batch "field_count") row
  let fields ← arrow.templateFieldsAt (← arrow.named batch "fields") row
  let scopeFieldCount ← arrow.cell (arrow.primitive .uInt16) (← arrow.named batch "scope_field_count") row
  let firstSeen ← arrow.cell (arrow.primitive .timestampUtc) (← arrow.named batch "first_seen") row
  let lastSeen ← arrow.cell (arrow.primitive .timestampUtc) (← arrow.named batch "last_seen") row
  let useCount ← arrow.cell (arrow.primitive .uInt64) (← arrow.named batch "use_count") row
  some ⟨exporter, obsDomain, templateId, kind, fieldCount, fields, scopeFieldCount, firstSeen, lastSeen, useCount⟩

/-- The rows of a batch. -/
def templateRows (batch : RecordBatch) : Option (List TemplateRow) :=
  (List.range (arrow.numRows batch)).mapM (arrow.templateRow batch)

end Arrow

end Read

section RoundTrip

variable {entries : List (TemplateKey × TemplateEntry)}

theorem TemplateKind.asStr_inj {k k' : TemplateKind} (h : k.asStr = k'.asStr) : k = k' := by
  cases k <;> cases k' <;> simp [asStr] at h ⊢

theorem IeType.asStr_inj {t t' : IeType} (h : t.asStr = t'.asStr) : t = t' := by
  cases t <;> cases t' <;> simp [asStr] at h ⊢

/-- Field specifiers with the same cells are the same. -/
theorem FieldSpec.cells_injective : Function.Injective FieldSpec.cells := by
  rintro ⟨ieId, enterpriseNumber, length, name, ieType⟩ ⟨ieId', enterpriseNumber', length', name', ieType'⟩ h
  simp only [cells, Prod.mk.injEq] at h
  obtain ⟨rfl, rfl, rfl, rfl, htype⟩ := h
  rw [IeType.asStr_inj htype]

/-- A row tells everything about its template. -/
theorem TemplateRow.of_inj {key key' : TemplateKey} {e e' : TemplateEntry} (h : of key e = of key' e') :
    key = key' ∧ e = e' := by
  obtain ⟨exporter, obsDomain, templateId⟩ := key
  obtain ⟨exporter', obsDomain', templateId'⟩ := key'
  obtain ⟨kind, fields, scopeFieldCount, firstSeen, lastSeen, useCount⟩ := e
  obtain ⟨kind', fields', scopeFieldCount', firstSeen', lastSeen', useCount'⟩ := e'
  simp only [of, mk.injEq] at h
  obtain ⟨rfl, rfl, rfl, hkind, -, hfields, rfl, rfl, rfl, rfl⟩ := h
  rw [TemplateKind.asStr_inj hkind, List.map_injective_iff.mpr FieldSpec.cells_injective hfields]
  exact ⟨rfl, rfl⟩

/-- Templates whose texts and fields have offsets of 32 bits. -/
structure TemplatesFit (entries : List (TemplateKey × TemplateEntry)) : Prop where
  exporter : fitsOffsets (textBytes (entries.map fun e => some e.1.exporter))
  kind : fitsOffsets (textBytes (entries.map fun e => some e.2.kind.asStr))
  names : fitsOffsets (textBytes ((entries.flatMap fun e => e.2.fields).map fun f => some f.name))
  types : fitsOffsets (textBytes ((entries.flatMap fun e => e.2.fields).map fun f => some f.ieType.asStr))
  fields : (entries.flatMap fun e => e.2.fields).length < 2 ^ 31

variable {arrow : Arrow ArrayRef RecordBatch} {batch : RecordBatch}

open Arrow

/-- The list column of the fields is built from templates that fit, and the lists are read back. -/
theorem TemplatesFit.exists_buildFields (h : TemplatesFit entries) (harrow : arrow.Lawful) :
    ∃ column, arrow.buildFields entries = .ok column ∧
      arrow.FitsField entries.length (col "fields" fieldsListType) column ∧
      ∀ row e, entries[row]? = some e → arrow.templateFieldsAt column row = some (e.2.fields.map FieldSpec.cells) := by
  obtain ⟨fields, hfields⟩ : ∃ fields, fields = entries.flatMap fun e => e.2.fields := ⟨_, rfl⟩
  obtain ⟨hnames, htypes, hcount⟩ := And.intro h.names (And.intro h.types h.fields)
  unfold buildFields
  dsimp only
  rw [← hfields] at hnames htypes hcount ⊢
  obtain ⟨ieIds, hieIds⟩ := harrow.primitiveArray .uInt16 (fields.map fun f => some f.ieId)
  obtain ⟨enterprises, henterprises⟩ := harrow.primitiveArray .uInt32 (fields.map fun f => some f.enterpriseNumber)
  obtain ⟨lengths, hlengths⟩ := harrow.primitiveArray .uInt16 (fields.map fun f => some f.length)
  obtain ⟨name, hname, hnameType, hnameCells⟩ := harrow.stringArray _ hnames
  obtain ⟨ieType, hieType, hieTypeType, hieTypeCells⟩ := harrow.stringArray _ htypes
  generalize arrow.primitiveArray .uInt16 (fields.map fun f => some f.ieId) = ieId at ieIds hieIds ⊢
  generalize arrow.primitiveArray .uInt32 _ = enterprise at enterprises henterprises ⊢
  generalize arrow.primitiveArray .uInt16 _ = length at lengths hlengths ⊢
  have hsome : ∀ {α : Type} (f : FieldSpec → α), ∀ c ∈ fields.map fun x => some (f x), c.isSome :=
    fun f => List.forall_mem_map.mpr fun _ _ => rfl
  have hfits : List.Forall₂ (arrow.FitsField fields.length) fieldStructFields
      [ieId, enterprise, length, name, ieType] :=
    .cons (fitsField_of_forall ieIds hieIds (List.length_map _) rfl (hsome _))
      (.cons (fitsField_of_forall enterprises henterprises (List.length_map _) rfl (hsome _))
        (.cons (fitsField_of_forall lengths hlengths (List.length_map _) rfl (hsome _))
          (.cons (fitsField_of_forall hnameType hnameCells (List.length_map _) rfl (hsome _))
            (.cons (fitsField_of_forall hieTypeType hieTypeCells (List.length_map _) rfl (hsome _)) .nil))))
  obtain ⟨child, hchild, hchildren, hitem⟩ := harrow.exists_structArray (List.cons_ne_nil _ _) hfits
  obtain ⟨horder, hfinal⟩ := @inOrder_runningOffsets _ (entries.map fun e => e.2.fields)
    (by rwa [← List.flatMap_def, ← hfields])
  obtain ⟨built, hbuilt, hlists⟩ := harrow.listArray fieldItem _ child (hitem.len ▸ hitem) horder
    (by rw [hfinal, hitem.len, ← List.flatMap_def, hfields])
  refine ⟨built, ?_, ⟨hlists.dataType, ?_, fun hnot => Bool.noConfusion hnot⟩, fun row e he => ?_⟩
  · simp only [hname, hieType, orPanic, bind, Except.bind, hchild, hbuilt]
  · rw [hlists.len, length_runningOffsets]
    simp
  · have hread : (List.range fields.length).mapM (arrow.fieldAt child) = some (fields.map FieldSpec.cells) := by
      rw [mapM_eq_some_iff]
      refine List.ext_getElem (by simp) fun i hrange hi => ?_
      have hlt : i < fields.length := by simpa using hi
      have hat : ∀ {α : Type} (f : FieldSpec → α), (fields.map f)[i]? = some (f fields[i]) := fun f => by
        rw [List.getElem?_map, List.getElem?_eq_getElem hlt, Option.map_some]
      simp only [List.getElem_map, List.getElem_range, fieldAt, hchildren, cell_of_cells hieIds (hat _),
        cell_of_cells henterprises (hat _), cell_of_cells hlengths (hat _), cell_of_cells hnameCells (hat _),
        cell_of_cells hieTypeCells (hat _)]
      rfl
    have hlists' : slices (fields.map FieldSpec.cells) (runningOffsets 0 ((entries.map fun e => e.2.fields).map
        List.length)) = entries.map fun e => e.2.fields.map FieldSpec.cells := by
      have hflatten : (entries.map fun e => e.2.fields.map FieldSpec.cells).flatten = fields.map FieldSpec.cells := by
        rw [hfields, List.map_flatMap, List.flatMap_def]
      have hslices := ((slices_runningOffsets_iff (entries.map fun e => e.2.fields.map FieldSpec.cells)).mpr
        (by rwa [hflatten, List.length_map])).2
      rw [hflatten] at hslices
      simpa [Function.comp_def] using hslices
    simp only [templateFieldsAt, hlists.values, hlists.offsets, hitem.len, hread, Option.bind_eq_bind, Option.bind_some,
      hlists', List.getElem?_map, he, Option.map_some]

/-- Templates that fit become a batch that has them. -/
theorem TemplatesFit.exists_templatesToBatch (h : TemplatesFit entries) (harrow : arrow.Lawful) :
    ∃ batch, arrow.templatesToBatch entries templatesSchema = .ok batch ∧
      arrow.templateRows batch = some (entries.map fun e => .of e.1 e.2) := by
  obtain ⟨exporter, hexporter⟩ := harrow.exists_strCol h.exporter
  obtain ⟨kind, hkind⟩ := harrow.exists_strCol h.kind
  obtain ⟨fields, hfields, hfieldsCol, hfieldsAt⟩ := h.exists_buildFields harrow
  obtain ⟨-, hexporterCol, hexporters⟩ := harrow.of_strCol hexporter (List.length_map _) "exporter"
  obtain ⟨-, hkindCol, hkinds⟩ := harrow.of_strCol hkind (List.length_map _) "kind"
  have hprimitive : ∀ (type : PrimitiveType) (f : TemplateKey × TemplateEntry → Option type.Native) (name : String),
      arrow.FitsField entries.length (col name (.primitive type)) (arrow.primitiveArray type (entries.map f)) := by
    intro type f name
    obtain ⟨htype, hcells⟩ := harrow.primitiveArray type (entries.map f)
    exact fitsField_of_cells htype hcells (List.length_map _)
  obtain ⟨batch, hbuilt, hschema, hcount, hcolumn⟩ := harrow.tryNew entries.length templatesSchema
    (arrow.templateColumns entries exporter kind fields) (List.cons_ne_nil _ _) (by
      simp only [templatesSchema, templateColumns, ts, List.forall₂_cons, List.Forall₂.nil, and_true]
      exact ⟨hexporterCol, hprimitive _ _ _, hprimitive _ _ _, hkindCol, hprimitive _ _ _, hfieldsCol,
        hprimitive _ _ _, hprimitive _ _ _, hprimitive _ _ _, hprimitive _ _ _⟩)
  refine ⟨batch, ?_, ?_⟩
  · simp only [templatesToBatch, hexporter, hkind, hfields, bind, Except.bind, newBatch, hbuilt]
  · rw [templateRows, hcount, mapM_eq_some_iff]
    refine List.ext_getElem (by simp) fun row hrange hrow => ?_
    have hlt : row < entries.length := by simpa using hrange
    have hat : ∀ {α : Type} (f : TemplateKey × TemplateEntry → α), (entries.map f)[row]? = some (f entries[row]) :=
      fun f => by rw [List.getElem?_map, List.getElem?_eq_getElem hlt, Option.map_some]
    have hnumber : ∀ (type : PrimitiveType) (f : TemplateKey × TemplateEntry → Option type.Native),
        arrow.cell (arrow.primitive type) (arrow.primitiveArray type (entries.map f)) row = f entries[row] :=
      fun type f => cell_of_cells (harrow.primitiveArray type (entries.map f)).2 (hat f)
    have hexporterAt := cell_of_cells hexporters (hat fun e => some e.1.exporter)
    have hkindAt := cell_of_cells hkinds (hat fun e => some e.2.kind.asStr)
    have hnamed := named_eq hschema rfl hcolumn
    rw [List.getElem_map, List.getElem_range, List.getElem_map, List.getElem_map]
    simp only [templateRow, hnamed, templateColumns, templatesSchema, col, List.map_cons, List.map_nil,
      List.zip_cons_cons]
    simp [List.lookup_cons, hnumber, hexporterAt, hkindAt, hfieldsAt row _ (List.getElem?_eq_getElem hlt),
      TemplateRow.of]

end RoundTrip

section Shown

variable {arrow : Arrow ArrayRef RecordBatch} {σ : Type} {w : Worker σ} {c g : TemplateCache}
  {keys : Finset TemplateKey}

/-- A mirror of a scan knows the layouts of the scan. -/
theorem Mirrors.known_eq {counts : TemplateKey → Option UInt64} (h : Mirrors keys c g counts) :
    g.binding.known = c.binding.known := by
  funext key
  simp only [TemplateCache.binding, h.entries]
  cases he : c.entries[key]? with
  | none => rfl
  | some e =>
    obtain ⟨u, hu⟩ := Option.isSome_iff_exists.mp ((h.counted key).mpr (KeyedQueue.mem_of_getElem? he))
    rw [Option.bind_some, hu]
    rfl

/-- From a cold start and below the entry cap, the projection knows the layouts that are given last. -/
theorem Worker.Cold.known_globalCache (hkv : w.kv.Lawful) (hserde : w.serde.Lawful) {store : σ}
    (hcold : w.Cold store) (batches : List (List Call))
    (hcap : (learnedKeys batches).card ≤ defaultCapEntries.toNat) (key : TemplateKey) :
    (w.globalCache (w.processBatches batches (some store)).2).binding.known key =
      lastDefined (batches.flatten.flatMap Call.learned) key := by
  have hempty : ∀ key : TemplateKey, key ∉ TemplateCache.new.entries := by
    simp [TemplateCache.new, TemplateCache.empty]
  have hfits : TemplateCache.new.Fits (learnedKeys batches) :=
    ⟨fun key hkey => absurd hkey (hempty key), hcap⟩
  have hnone : TemplateCache.new.binding.known key = none := by
    simp only [TemplateCache.binding, ExtTreeMap.getElem?_eq_none (hempty key), Option.map_none]
  have hlast : (runCalls batches.flatten .new).2.binding.known key =
      lastDefined (batches.flatten.flatMap Call.learned) key := by
    rw [runCalls_eq_trace]
    refine (hfits.known_runTrace fun p hp => List.mem_toFinset.mpr (List.mem_map_of_mem hp)).trans ?_
    rw [hnone, Option.or_none]
  rw [← hlast]
  by_cases hscope : w.executionId = globalScope
  · -- The scan runs under the scope of the projection, which is its own cache.
    obtain ⟨store', hbatches, hloaded⟩ := w.processBatches_eq hkv hserde batches
      (hcold.readCache w.executionId) TemplateCache.accounted_new (UInt32.zero_le (a := _))
    rw [loadScanCache, hscope] at hloaded
    rw [hbatches, globalCache, hloaded]
  · rw [(hcold.processBatches_mirrors hkv hserde hscope batches hcap).known_eq]

/-- The templates shown are those in the projection that the filter lets through. -/
theorem TemplatesProducer.mem_shown {p : TemplatesProducer} {key : TemplateKey} {e : TemplateEntry} :
    (key, e) ∈ p.shown ↔ (∀ exporter ∈ p.filter, key.exporter = exporter) ∧ p.cache.entries[key]? = some e := by
  rw [shown, List.mem_filter, ExtTreeMap.mem_toList_iff_getElem?_eq_some, and_comm]
  cases p.filter <;> simp

/-- From a cold start and below the entry cap, `templates()` gives one batch, after any batches of a scan: its rows
are in key order, each of another key, and they are those of exactly the templates that the datagrams of the scan
define for the exporter asked for, with the layout each was given last. -/
theorem Worker.templates_defined (harrow : arrow.Lawful) (hkv : w.kv.Lawful) (hserde : w.serde.Lawful) {store : σ}
    (hcold : w.Cold store) (batches : List (List Call)) (hcap : (learnedKeys batches).card ≤ defaultCapEntries.toNat)
    (filter : Option String)
    (hfits : TemplatesFit (w.templates filter (w.processBatches batches (some store)).2).shown) :
    let producer := w.templates filter (w.processBatches batches (some store)).2
    ∃ (batch : RecordBatch) (shown : List (TemplateKey × TemplateEntry)),
      producer.nextBatch arrow = (.ok (some batch), { producer with done := true }) ∧
      { producer with done := true }.nextBatch arrow = (.ok none, { producer with done := true }) ∧
      arrow.templateRows batch = some (shown.map fun e => .of e.1 e.2) ∧
      (shown.map Prod.fst).Pairwise (compare · · = .lt) ∧
      ∀ key layout, (∃ e, (key, e) ∈ shown ∧ e.layout = layout) ↔
        (∀ exporter ∈ filter, key.exporter = exporter) ∧
          lastDefined (batches.flatten.flatMap Call.learned) key = some layout := by
  intro producer
  obtain ⟨batch, hbatch, hrows⟩ := hfits.exists_templatesToBatch harrow
  refine ⟨batch, producer.shown, ?_, rfl, hrows, ?_, fun key layout => ?_⟩
  · change ((arrow.templatesToBatch producer.shown templatesSchema).map some, _) = _
    rw [hbatch]
    rfl
  · rw [List.pairwise_map]
    exact ExtTreeMap.ordered_keys_toList.filter _
  · simp only [TemplatesProducer.mem_shown, ← hcold.known_globalCache hkv hserde batches hcap, TemplateCache.binding,
      Option.map_eq_some_iff]
    constructor
    · rintro ⟨e, ⟨hfilter, he⟩, hlayout⟩
      exact ⟨hfilter, e, he, hlayout⟩
    · rintro ⟨hfilter, e, he, hlayout⟩
      exact ⟨e, ⟨hfilter, he⟩, hlayout⟩

/-- A template of one exporter, defined twice, and one of another: `templates()` shows the one it is asked for. -/
theorem Worker.templates_defined_one :
    let calls := [Call.of sampleTemplate "10.0.0.1", Call.of sampleTemplate "10.0.0.2",
      Call.of sampleTemplate "10.0.0.1"]
    let filter := some "10.0.0.1"
    let w := Worker.inMemory [(runCalls calls .new).2]
    let producer := w.templates filter (w.processBatches [calls] (some fun _ _ => none)).2
    ∃ (batch : PlainBatch) (shown : List (TemplateKey × TemplateEntry)),
      producer.nextBatch plainArrow = (.ok (some batch), { producer with done := true }) ∧
      { producer with done := true }.nextBatch plainArrow = (.ok none, { producer with done := true }) ∧
      plainArrow.templateRows batch = some (shown.map fun e => .of e.1 e.2) ∧
      (shown.map Prod.fst).Pairwise (compare · · = .lt) ∧
      ∀ key layout, (∃ e, (key, e) ∈ shown ∧ e.layout = layout) ↔
        (∀ exporter ∈ filter, key.exporter = exporter) ∧
          lastDefined ([calls].flatten.flatMap Call.learned) key = some layout := by
  intro calls filter w
  have hkv : w.kv.Lawful := ⟨fun _ _ _ _ _ _ => rfl⟩
  have hserde : w.serde.Lawful := SerdeJson.writing_lawful (by decide +kernel)
  have hcold : w.Cold fun _ _ => none := fun _ => rfl
  obtain ⟨store, hbatch, hstore, -⟩ := w.processCalls_eq hkv hserde calls (hcold.readCache _)
    TemplateCache.accounted_new (UInt32.zero_le (a := _))
  have hempty : w.globalCache (some fun _ _ => none) = .new := hcold.readCache globalScope
  have hglobal := w.globalCache_storeScanCache hkv hserde (by decide +kernel)
    (hempty ▸ TemplateCache.accounted_new) _ hstore
  have hcache : w.globalCache (w.processBatches [calls] (some fun _ _ => none)).2 =
      TemplateCache.new.merge (runCalls calls .new).2 := by
    simp only [processBatches, hbatch]
    exact hglobal.trans (congrArg (TemplateCache.merge · _) hempty)
  have hfits : TemplatesFit (w.templates filter (w.processBatches [calls] (some fun _ _ => none)).2).shown := by
    rw [templates, hcache]
    constructor <;> decide +kernel
  exact Worker.templates_defined plainArrow_lawful hkv hserde hcold [calls] (by decide +kernel) filter hfits

end Shown

end Netflow
