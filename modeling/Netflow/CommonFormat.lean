import Netflow.Decode.Columns
import Netflow.Encode
import Netflow.Ledger

/-!
# The format v9 and IPFIX have in common

Without enterprise elements, empty templates and uptime-relative times the two formats say
the same under two headers. Their decoders then agree up to the version they note: on the
rows, on what is learned and on what is buffered. The version and the uptime are erased on
both sides, and erasing commutes with every step.
-/

namespace Netflow

open Std (ExtTreeMap)

section Erasure

/-- A row without its version; the text of v9 stands for all. -/
def FlowRecord.unversioned (row : FlowRecord) : FlowRecord := { row with flowVersion := Version.v9.asStr }

/-- A header context without its version and uptime. -/
def Ctx.unversioned (ctx : Ctx) : Ctx := { ctx with version := .v9, sysUptimeMs := none }

/-- A buffered record without its version and uptime. -/
def PendingRecord.unversioned (rec : PendingRecord) : PendingRecord :=
  { rec with version := .v9, sysUptimeMs := none }

/-- A cache without the versions and uptimes of its buffered records. -/
def TemplateCache.unversioned (c : TemplateCache) : TemplateCache :=
  { c with pending := c.pending.map fun _ recs => recs.map PendingRecord.unversioned }

/-- A record being decoded, without its version. -/
def PartialRecord.unversioned (p : PartialRecord) : PartialRecord := { p with row := p.row.unversioned }

/-- An origin without versions and uptimes. -/
def Emission.unversioned : Emission → Emission
  | .row record => .row record.unversioned
  | .counterSample record => .counterSample record.unversioned
  | .dataSet key tpl rec => .dataSet key tpl rec.unversioned
  | .missing key rec _ => .missing key rec.unversioned .v9

end Erasure

section Rows

/-- The standard elements for the uptime at a flow's start and end. -/
def FieldSpec.IsUptime (f : FieldSpec) : Prop := f.enterpriseNumber = 0 ∧ (f.ieId = 21 ∨ f.ieId = 22)

/-- A layout without uptime-relative times. -/
def Layout.Timeless (layout : Layout) : Prop := ∀ f ∈ layout.fields, ¬ f.IsUptime

variable (p : PartialRecord)

/-- Columns other than the version do not look at it. -/
theorem PartialRecord.get_unversioned (col : Column) : p.unversioned.get col = p.get col := by
  cases col <;> rfl

/-- Columns are set whatever the version. -/
theorem PartialRecord.set_unversioned (col : Column) (v : Option col.Value) :
    p.unversioned.set col v = (p.set col v).unversioned := by
  cases col <;> rfl

/-- A note is left whatever the version. -/
theorem FlowRecord.note_unversioned (row : FlowRecord) (msg : String) :
    row.unversioned.note msg = (row.note msg).unversioned := by
  unfold FlowRecord.note FlowRecord.unversioned
  simp only
  split
  · split <;> rfl
  · rfl

/-- A field is mapped whatever the version. -/
theorem mapField_unversioned (f : FieldSpec) (bytes : Bytes) :
    mapField p.unversioned f bytes = (mapField p f bytes).unversioned := by
  rw [mapField_eq, mapField_eq]
  cases f.column with
  | some col =>
    simp only
    rw [PartialRecord.get_unversioned, PartialRecord.set_unversioned]
  | none =>
    simp only [keepRaw, PartialRecord.unversioned, FlowRecord.note_unversioned]
    split <;> rfl

/-- So is a whole record. -/
theorem mapFields_unversioned (fields : List FieldSpec) (slices : List Bytes) :
    mapFields p.unversioned fields slices = (mapFields p fields slices).unversioned := by
  unfold mapFields
  induction fields.zip slices generalizing p with
  | nil => rfl
  | cons pair pairs ih =>
    simp only [List.foldl_cons]
    rw [mapField_unversioned, ih]

/-- Only the uptime elements leave an uptime stamp. -/
theorem FieldSpec.column_ne_of_not_isUptime {f : FieldSpec} (h : ¬ f.IsUptime) :
    f.column ≠ some .startSysup ∧ f.column ≠ some .endSysup := by
  have hstart : ∀ n, columnOf n = some .startSysup → n = 22 := by
    intro n
    unfold columnOf
    split <;> simp
  have hend : ∀ n, columnOf n = some .endSysup → n = 21 := by
    intro n
    unfold columnOf
    split <;> simp
  unfold FieldSpec.IsUptime at h
  unfold FieldSpec.column
  by_cases hent : f.enterpriseNumber = 0
  · simp only [hent, true_and, not_or, ← UInt16.toNat_inj] at h
    rw [if_pos hent]
    exact ⟨fun heq => h.2 (hstart _ heq), fun heq => h.1 (hend _ heq)⟩
  · rw [if_neg hent]
    exact ⟨nofun, nofun⟩

/-- Without uptime stamps there is nothing to resolve. -/
theorem resolveTimes_of_none {p : PartialRecord} (hstart : p.startSysup = none) (hend : p.endSysup = none)
    (ctx : Ctx) : resolveTimes p ctx = p.row := by
  unfold resolveTimes
  split
  · simp only [hstart, hend, Option.map_none, Option.or_none]
  · rfl

variable {tpl : TemplateEntry} (htpl : tpl.layout.Timeless) (ctx : Ctx)
include htpl

/-- A record of a timeless layout is decoded alike in every version. -/
theorem decodeOneRecord_unversioned (cur : Cursor) :
    decodeOneRecord tpl cur ctx.unversioned =
      (decodeOneRecord tpl cur ctx).map fun (row, cur) => (row.unversioned, cur) := by
  have hcolumns : ∀ f ∈ tpl.fields, f.column ≠ some .startSysup ∧ f.column ≠ some .endSysup :=
    fun f hf => FieldSpec.column_ne_of_not_isUptime (htpl f hf)
  have hresolve : ∀ (row : FlowRecord) (slices : List Bytes) (ctx : Ctx),
      resolveTimes (mapFields { row } tpl.fields slices) ctx = (mapFields { row } tpl.fields slices).row := by
    intro row slices ctx
    apply resolveTimes_of_none
    · exact mapFields_get_of_ne { row } (fun f hf => (hcolumns f hf).1) slices
    · exact mapFields_get_of_ne { row } (fun f hf => (hcolumns f hf).2) slices
  rw [decodeOneRecord_eq, decodeOneRecord_eq, Option.map_map]
  congr 1
  funext sliced
  obtain ⟨slices, cur'⟩ := sliced
  simp only [hresolve, Function.comp_apply]
  exact congrArg (·.row, cur') (mapFields_unversioned { row := ctx.baseRecord } tpl.fields slices)

/-- So are all records of a Data Set. -/
theorem decodeRecords_unversioned (rounds : ℕ) (cur : Cursor) :
    decodeRecords tpl ctx.unversioned rounds cur =
      (decodeRecords tpl ctx rounds cur).map FlowRecord.unversioned := by
  induction rounds generalizing cur with
  | zero => rfl
  | succ rounds ih =>
    simp only [decodeRecords, decodeOneRecord_unversioned htpl]
    split
    · rfl
    · split
      · rfl
      · cases decodeOneRecord tpl cur ctx with
        | none => rfl
        | some sliced =>
          simp only [Option.map_some, ih]
          split <;> rfl

/-- And the Data Set as a whole. -/
theorem decodeDataSet_unversioned (payload : Bytes) (flowsOnly : Bool) :
    decodeDataSet tpl payload ctx.unversioned flowsOnly =
      (decodeDataSet tpl payload ctx flowsOnly).map FlowRecord.unversioned := by
  unfold decodeDataSet
  split
  · rfl
  · exact decodeRecords_unversioned htpl ctx _ _

end Rows

section Traces

/-- An origin that decodes a Data Set does so against a timeless layout. -/
def Emission.Timeless : Emission → Prop
  | .dataSet _ tpl _ => tpl.layout.Timeless
  | _ => True

/-- The rows of a timeless origin are the same in every version but for the version. -/
theorem Emission.rows_unversioned {e : Emission} (h : e.Timeless) (flowsOnly : Bool) :
    e.unversioned.rows flowsOnly = (e.rows flowsOnly).map FlowRecord.unversioned := by
  cases e with
  | row record => rfl
  | counterSample record => cases flowsOnly <;> rfl
  | dataSet key tpl rec => exact decodeDataSet_unversioned h (rec.ctx key) rec.bytes flowsOnly
  | missing key rec version => rfl

/-- So are those of a whole trace. -/
theorem traceRows_unversioned {trace : List Emission} (h : ∀ e ∈ trace, e.Timeless) (flowsOnly : Bool) :
    traceRows flowsOnly (trace.map Emission.unversioned) =
      (traceRows flowsOnly trace).map FlowRecord.unversioned := by
  induction trace with
  | nil => rfl
  | cons e trace ih =>
    obtain ⟨hhead, htail⟩ := List.forall_mem_cons.mp h
    rw [List.map_cons, traceRows_cons, traceRows_cons, List.map_append, Emission.rows_unversioned hhead,
      ih htail]

end Traces

section Caches

variable (c : TemplateCache)

/-- Learning does not look at what is buffered. -/
theorem learnDefs_unversioned (exporter : String) (obsDomain : UInt32) (now : Int64) (defs : List TemplateDef) :
    learnDefs exporter obsDomain now defs c.unversioned =
      (learnDefs exporter obsDomain now defs c).unversioned := by
  induction defs generalizing c with
  | nil => rfl
  | cons d defs ih => exact ih (c.upsert _ _)

/-- Neither does using a layout. -/
theorem TemplateCache.useTemplate_unversioned (key : TemplateKey) (now : Int64) :
    c.unversioned.useTemplate key now =
      (c.useTemplate key now).map fun (tpl, c) => (tpl, c.unversioned) := by
  rw [TemplateCache.useTemplate, TemplateCache.useTemplate, Option.map_map]
  rfl

/-- A record is stored or refused whatever its version. -/
theorem TemplateCache.pushPending_unversioned (key : TemplateKey) (rec : PendingRecord) :
    c.unversioned.pushPending key rec.unversioned =
      ((c.pushPending key rec).1, (c.pushPending key rec).2.unversioned) := by
  have henqueue : KeyedQueue.enqueue c.unversioned.pending key rec.unversioned =
      (KeyedQueue.enqueue c.pending key rec).map fun _ recs => recs.map PendingRecord.unversioned := by
    apply ExtTreeMap.ext_getElem?
    intro k
    simp only [KeyedQueue.getElem?_enqueue, ExtTreeMap.getElem?_map, TemplateCache.unversioned]
    split
    · cases c.pending[key]? <;> simp
    · rfl
  simp only [TemplateCache.pushPending, henqueue]
  simp only [TemplateCache.unversioned, PendingRecord.unversioned]
  by_cases hfull : saturatingAdd c.pendingBytes (.ofNat rec.bytes.length) > c.capPendingBytes
  · simp only [if_pos hfull]
    exact if_pos hfull
  · simp only [if_neg hfull]
    exact if_neg hfull

/-- The same records are released. -/
theorem TemplateCache.takePending_unversioned (key : TemplateKey) :
    c.unversioned.takePending key =
      ((c.takePending key).1.map PendingRecord.unversioned, (c.takePending key).2.unversioned) := by
  have hqueue : (c.unversioned.pending[key]?).getD [] =
      ((c.pending[key]?).getD []).map PendingRecord.unversioned := by
    simp only [TemplateCache.unversioned, ExtTreeMap.getElem?_map]
    cases c.pending[key]? <;> rfl
  have herase : c.unversioned.pending.erase key =
      (c.pending.erase key).map fun _ recs => recs.map PendingRecord.unversioned := by
    apply ExtTreeMap.ext_getElem?
    intro k
    simp only [TemplateCache.unversioned, ExtTreeMap.getElem?_erase, ExtTreeMap.getElem?_map]
    split <;> rfl
  have hbytes : ∀ recs : List PendingRecord, totalBytes (recs.map PendingRecord.unversioned) = totalBytes recs := by
    intro recs
    rw [totalBytes, List.map_map]
    rfl
  simp only [TemplateCache.takePending, hqueue, herase, hbytes]
  rfl

/-- Pass 2 goes the same way in every version. -/
theorem settleSets_unversioned (ctx : Ctx) (now : Int64) (sets : List FlowSet) :
    settleSets ctx.unversioned now sets c.unversioned =
      ((settleSets ctx now sets c).1.map Emission.unversioned, (settleSets ctx now sets c).2.unversioned) := by
  induction sets generalizing c with
  | nil => rfl
  | cons fs sets ih =>
    have hkey : ctx.unversioned.key fs.id = ctx.key fs.id := rfl
    have hrec : ctx.unversioned.pendingRecord fs.body = (ctx.pendingRecord fs.body).unversioned := rfl
    simp only [settleSets, hkey, hrec, TemplateCache.useTemplate_unversioned,
      TemplateCache.pushPending_unversioned]
    split
    · exact ih c
    · cases c.useTemplate (ctx.key fs.id) now with
      | some used => simp only [Option.map_some, ih, List.map_cons]; rfl
      | none =>
        simp only [Option.map_none, ih]
        split <;> rfl

/-- So does the retry. -/
theorem retryKeysTrace_unversioned (now : Int64) (keys : List TemplateKey) :
    retryKeysTrace now keys c.unversioned =
      ((retryKeysTrace now keys c).1.map Emission.unversioned, (retryKeysTrace now keys c).2.unversioned) := by
  induction keys generalizing c with
  | nil => rfl
  | cons key keys ih =>
    simp only [retryKeysTrace, TemplateCache.useTemplate_unversioned]
    cases c.useTemplate key now with
    | none => exact ih c
    | some used =>
      simp only [Option.map_some, TemplateCache.takePending_unversioned, ih, List.map_append, List.map_map]
      rfl

/-- The same keys are retried. -/
theorem TemplateCache.pendingKeys_unversioned : c.unversioned.pendingKeys = c.pendingKeys :=
  ExtTreeMap.keys_map

end Caches

section Templates

/-- A definition both formats write alike: some fields, none of them of an enterprise or an uptime. -/
structure TemplateDef.Common (d : TemplateDef) : Prop where
  nonempty : d.fields ≠ []
  standard : ∀ f ∈ d.fields, f.ieId &&& 0x8000 = 0
  timeless : d.layout.Timeless

/-- v9 reads as many field specifiers as fit. -/
theorem V9.readFields_isSome {count : ℕ} {c : Cursor} (h : 4 * count ≤ c.remaining) :
    (readFields V9.readField count c).isSome := by
  induction count generalizing c with
  | zero => rfl
  | succ count ih =>
    have hfield : V9.readField c = some (fieldSpec 0 (.ofNat (beNat (c.rest.take 2)))
        (.ofNat (beNat ((c.rest.drop 2).take 2))), ⟨(c.rest.drop 2).drop 2⟩) := by
      rw [V9.readField, Cursor.u16_of_le (by omega)]
      simp only [Option.bind_eq_bind, Option.bind_some]
      rw [Cursor.u16_of_le (by simp only [Cursor.remaining, List.length_drop] at h ⊢; omega)]
      rfl
    obtain ⟨read, hread⟩ := Option.isSome_iff_exists.mp
      (@ih ⟨(c.rest.drop 2).drop 2⟩ (by simp only [Cursor.remaining, List.length_drop] at h ⊢; omega))
    rw [readFields, hfield]
    simp only [Option.bind_eq_bind, Option.bind_some, hread]
    rfl

/-- IPFIX takes four bytes for each field specifier at least. -/
theorem Ipfix.readFields_le {count : ℕ} {c c' : Cursor} {fields : List FieldSpec}
    (h : readFields Ipfix.readField count c = some (fields, c')) : 4 * count ≤ c.remaining := by
  induction count generalizing c fields with
  | zero => omega
  | succ count ih =>
    obtain ⟨⟨f, c₁⟩, hone, h⟩ := Option.bind_eq_some_iff.mp h
    obtain ⟨⟨rest, c₂⟩, hrest, h⟩ := Option.bind_eq_some_iff.mp h
    cases h
    have hmore := ih hrest
    obtain ⟨⟨rawId, d₁⟩, hid, hone⟩ := Option.bind_eq_some_iff.mp hone
    obtain ⟨⟨len, d₂⟩, hlen, hone⟩ := Option.bind_eq_some_iff.mp hone
    have := Cursor.u16_remaining hid
    have := Cursor.u16_remaining hlen
    simp only at hone
    split at hone
    · obtain ⟨⟨pen, d₃⟩, hpen, hone⟩ := Option.bind_eq_some_iff.mp hone
      have := Cursor.u32_remaining hpen
      simp only [Option.some.injEq, Prod.mk.injEq] at hone
      obtain ⟨-, rfl⟩ := hone
      omega
    · simp only [Option.some.injEq, Prod.mk.injEq] at hone
      obtain ⟨-, rfl⟩ := hone
      omega

/-- Where v9 reads no enterprise bit, IPFIX reads the same field specifiers. -/
theorem Ipfix.readFields_of_v9 {count : ℕ} {c c' : Cursor} {fields : List FieldSpec}
    (h : readFields V9.readField count c = some (fields, c'))
    (hstandard : ∀ f ∈ fields, f.ieId &&& 0x8000 = 0) :
    readFields Ipfix.readField count c = some (fields, c') := by
  induction count generalizing c fields with
  | zero => exact h
  | succ count ih =>
    obtain ⟨⟨f, c₁⟩, hone, h⟩ := Option.bind_eq_some_iff.mp h
    obtain ⟨⟨rest, c₂⟩, hrest, h⟩ := Option.bind_eq_some_iff.mp h
    cases h
    obtain ⟨hf, hothers⟩ := List.forall_mem_cons.mp hstandard
    obtain ⟨⟨ty, d₁⟩, hty, hone⟩ := Option.bind_eq_some_iff.mp hone
    obtain ⟨⟨len, d₂⟩, hlen, hone⟩ := Option.bind_eq_some_iff.mp hone
    cases hone
    rw [fieldSpec_ieId] at hf
    have hfield : Ipfix.readField c = some (fieldSpec 0 ty len, c₁) := by
      rw [Ipfix.readField, hty]
      simp only [Option.bind_eq_bind, Option.bind_some, hlen, hf, ne_eq, not_true_eq_false, if_false]
    rw [readFields, hfield]
    simp only [Option.bind_eq_bind, Option.bind_some, ih hrest hothers]

/-- Where two zero bytes follow, v9 learns nothing more. -/
theorem V9.templateDefs_of_zeros {c : Cursor} (h : c.peek 2 = some [0, 0]) (rounds : ℕ) :
    templateDefs V9.templateSyntax rounds c = [] := by
  cases rounds with
  | zero => rfl
  | succ rounds =>
    rw [templateDefs]
    split
    · rfl
    · have hnone : V9.templateSyntax.parseOne c = none := by
        have hid : c.u16 = some (0, ⟨c.rest.drop 2⟩) := by
          unfold Cursor.peek at h
          split at h
          · contradiction
          · rw [Cursor.u16_of_le (by omega), Option.some.inj h]
            rfl
        change V9.parseTemplate c = none
        rw [V9.parseTemplate, hid]
        simp only [Option.bind_eq_bind, Option.bind_some, if_true]
        cases (Cursor.mk (c.rest.drop 2)).u16 with
        | none => rfl
        | some counted =>
          simp only [Option.bind_some]
          cases readFields V9.readField counted.1.toNat counted.2 <;> rfl
      rw [hnone]

/-- What v9 fails to parse, IPFIX fails to parse. -/
theorem Ipfix.parseTemplate_of_v9_eq_none {c : Cursor} (h : V9.parseTemplate c = none) :
    Ipfix.parseTemplate false c = none := by
  by_contra hsome
  obtain ⟨⟨d, c'⟩, hparse⟩ := Option.ne_none_iff_exists'.mp hsome
  obtain ⟨⟨templateId, c₁⟩, hid, hparse⟩ := Option.bind_eq_some_iff.mp hparse
  obtain ⟨⟨fieldCount, c₂⟩, hcount, hparse⟩ := Option.bind_eq_some_iff.mp hparse
  simp only at hparse
  split at hparse
  · contradiction
  · rename_i hnonzero
    obtain ⟨⟨scope, c₃⟩, hscope, hparse⟩ := Option.bind_eq_some_iff.mp hparse
    cases hscope
    obtain ⟨⟨fields, c₄⟩, hfields, -⟩ := Option.bind_eq_some_iff.mp hparse
    obtain ⟨read, hread⟩ := Option.isSome_iff_exists.mp (V9.readFields_isSome (Ipfix.readFields_le hfields))
    rw [V9.parseTemplate, hid] at h
    simp only [Option.bind_eq_bind, Option.bind_some, hcount, hread] at h
    rw [if_neg (not_or.mp hnonzero).1] at h
    contradiction

/-- What v9 parses as a common definition, IPFIX parses as the same. -/
theorem Ipfix.parseTemplate_of_v9 {c c' : Cursor} {d : TemplateDef} (h : V9.parseTemplate c = some (d, c'))
    (hcommon : d.Common) : Ipfix.parseTemplate false c = some (d, c') := by
  obtain ⟨⟨templateId, c₁⟩, hid, h⟩ := Option.bind_eq_some_iff.mp h
  obtain ⟨⟨fieldCount, c₂⟩, hcount, h⟩ := Option.bind_eq_some_iff.mp h
  obtain ⟨⟨fields, c₃⟩, hfields, h⟩ := Option.bind_eq_some_iff.mp h
  simp only at h
  split at h
  · contradiction
  · rename_i hne
    cases h
    have hsome : fieldCount ≠ 0 := by
      rintro rfl
      cases hfields
      exact hcommon.nonempty rfl
    rw [Ipfix.parseTemplate, hid]
    simp only [Option.bind_eq_bind, Option.bind_some, hcount, hne, hsome, or_self, if_false,
      Ipfix.readScopeFieldCount, Bool.false_eq_true, Ipfix.readFields_of_v9 hfields hcommon.standard]

/-- A template Set of common definitions teaches both formats the same. -/
theorem Ipfix.templateDefs_eq_v9 {rounds : ℕ} {c : Cursor}
    (h : ∀ d ∈ templateDefs V9.templateSyntax rounds c, d.Common) :
    templateDefs (Ipfix.templateSyntax false) rounds c = templateDefs V9.templateSyntax rounds c := by
  induction rounds generalizing c with
  | zero => rfl
  | succ rounds ih =>
    rw [templateDefs] at h
    rw [templateDefs, templateDefs]
    simp only [V9.templateSyntax, Ipfix.templateSyntax, Bool.false_eq_true, false_and, if_false, true_and] at h ⊢
    split
    · rfl
    · rename_i hlen
      rw [if_neg hlen] at h
      cases hparse : V9.parseTemplate c with
      | none => rw [Ipfix.parseTemplate_of_v9_eq_none hparse]
      | some parsed =>
        obtain ⟨d, c'⟩ := parsed
        rw [hparse] at h
        obtain ⟨hd, hrest⟩ := List.forall_mem_cons.mp h
        rw [Ipfix.parseTemplate_of_v9 hparse hd]
        simp only
        split
        · rename_i hzeros
          exact congrArg (d :: ·) (V9.templateDefs_of_zeros hzeros rounds).symm
        · exact congrArg (d :: ·) (ih hrest)

end Templates

section Agreement

/-- A Set of the common format: some templates, or the data of one. -/
inductive CommonSet
  | templates (body : Bytes)
  | data (id : UInt16) (body : Bytes) (hid : ¬ id < 256)

/-- The bytes of a common Set behind its header. -/
def CommonSet.body : CommonSet → Bytes
  | .templates body => body
  | .data _ body _ => body

/-- A common Set as a Set of a format, under that format's id for templates. -/
def CommonSet.toSet (templatesId : UInt16) : CommonSet → FlowSet
  | .templates body => ⟨templatesId, body⟩
  | .data id body _ => ⟨id, body⟩

/-- Pass 2 only looks at the Data Sets. -/
theorem settleSets_filter (ctx : Ctx) (now : Int64) (sets : List FlowSet) (c : TemplateCache) :
    settleSets ctx now (sets.filter fun fs => ¬ fs.id < 256) c = settleSets ctx now sets c := by
  induction sets generalizing c with
  | nil => rfl
  | cons fs sets ih =>
    by_cases hid : fs.id < 256
    · rw [List.filter_cons_of_neg (by simpa using hid), ih, settleSets, if_pos hid]
    · rw [List.filter_cons_of_pos (by simpa using hid)]
      simp only [settleSets, if_neg hid, ih]

/-- Both formats find the same Data Sets. -/
theorem CommonSet.filter_map_toSet {id id' : UInt16} (h : id < 256) (h' : id' < 256) (sets : List CommonSet) :
    (sets.map (CommonSet.toSet id)).filter (fun fs => ¬ fs.id < 256) =
      (sets.map (CommonSet.toSet id')).filter fun fs => ¬ fs.id < 256 := by
  induction sets with
  | nil => rfl
  | cons s sets ih =>
    cases s with
    | templates body => simpa [CommonSet.toSet, h, h'] using ih
    | data id body hid => simpa [CommonSet.toSet, UInt16.not_lt.mp hid] using ih

/-- Both formats learn the same common definitions. -/
theorem CommonSet.definitions_eq {sets : List CommonSet}
    (h : ∀ s ∈ sets, ∀ d ∈ V9.format.setDefs (s.toSet 0), d.Common) :
    Ipfix.format.definitions (sets.map (CommonSet.toSet 2)) =
      V9.format.definitions (sets.map (CommonSet.toSet 0)) := by
  simp only [TemplatedFormat.definitions, List.flatMap_map]
  apply List.flatMap_congr
  intro s hs
  cases s with
  | templates body => exact Ipfix.templateDefs_eq_v9 (h _ hs)
  | data id body hid =>
    have hne : ∀ small : UInt16, small < 256 → ¬ id = small := fun small hlt heq => hid (heq ▸ hlt)
    simp only [TemplatedFormat.setDefs, CommonSet.toSet, Ipfix.format, V9.format, hne 0 (by decide),
      hne 1 (by decide), hne 2 (by decide), hne 3 (by decide), if_false]

/-- A parsed call, without versions: what it does depends on its context, its definitions and its
Data Sets only. -/
theorem Call.trace_unversioned {call : Call} {fmt : TemplatedFormat} {ctx : Ctx} {sets : List FlowSet}
    (h : call.parsed = some (fmt, ctx, sets)) (c : TemplateCache) :
    let now := call.opts.nowMicros
    let learned := learnDefs ctx.exporter ctx.obsDomain now (fmt.definitions sets) c.unversioned
    let passed := settleSets ctx.unversioned now (sets.filter fun fs => ¬ fs.id < 256) learned
    let retried := retryKeysTrace now passed.2.pendingKeys passed.2
    (call.trace c).1.map Emission.unversioned = passed.1 ++ retried.1 ∧
      (call.trace c).2.unversioned = retried.2 := by
  have hpasses : call.passes c = settleSets ctx call.opts.nowMicros sets
      (learnDefs ctx.exporter ctx.obsDomain call.opts.nowMicros (fmt.definitions sets) c) := by
    simp only [Call.passes, h, learnSets_eq]
  simp only [Call.trace_of_retries (Call.retries_of_parsed h), hpasses, settleSets_filter, learnDefs_unversioned,
    settleSets_unversioned, TemplateCache.pendingKeys_unversioned, retryKeysTrace_unversioned, List.map_append]
  exact ⟨trivial, trivial⟩

/-- A call that teaches timeless layouts only, on a cache that holds no others, decodes against
no others. -/
theorem Call.timeless_of_mem_trace {call : Call} {c : TemplateCache}
    (hentries : ∀ (key : TemplateKey) (e : TemplateEntry), c.entries[key]? = some e → e.layout.Timeless)
    (hlearned : ∀ p ∈ call.learned, p.2.Timeless) : ∀ e ∈ (call.trace c).1, e.Timeless := by
  have hrun := @Call.trace_run (fun _ layout => layout.Timeless) call (fun key layout h => hlearned _ h) c
  have hstart : c.binding.Sound fun _ layout => layout.Timeless := by
    intro key layout hknown
    obtain ⟨e, he, rfl⟩ := Option.map_eq_some_iff.mp hknown
    exact hentries key e he
  intro e he
  cases e with
  | row | counterSample | missing => trivial
  | dataSet key tpl rec =>
    exact (hrun.sound hstart).2 (.resolved key tpl.layout rec) (List.mem_filterMap.mpr ⟨_, he, rfl⟩)

/-- Two calls that differ in version and uptime, teach the same timeless layouts and carry the same
Data Sets agree without versions. -/
theorem Call.decode_unversioned {call call' : Call} {fmt fmt' : TemplatedFormat} {ctx ctx' : Ctx}
    {sets sets' : List FlowSet} {c : TemplateCache} (h : call.parsed = some (fmt, ctx, sets))
    (h' : call'.parsed = some (fmt', ctx', sets')) (hopts : call'.opts = call.opts)
    (hctx : ctx'.unversioned = ctx.unversioned) (hdefs : fmt'.definitions sets' = fmt.definitions sets)
    (hdata : (sets'.filter fun fs => ¬ fs.id < 256) = sets.filter fun fs => ¬ fs.id < 256)
    (htimeless : ∀ d ∈ fmt.definitions sets, d.layout.Timeless)
    (hentries : ∀ (key : TemplateKey) (e : TemplateEntry), c.entries[key]? = some e → e.layout.Timeless) :
    (call.decode c).1.map FlowRecord.unversioned = (call'.decode c).1.map FlowRecord.unversioned ∧
      (call.decode c).2.unversioned = (call'.decode c).2.unversioned := by
  have hexporter : ctx'.exporter = ctx.exporter := (Ctx.mk.inj hctx).1
  have hdomain : ctx'.obsDomain = ctx.obsDomain := (Ctx.mk.inj hctx).2.1
  have hlearned : ∀ p ∈ call.learned, p.2.Timeless := by
    simp only [Call.learned, h, List.forall_mem_map]
    exact htimeless
  have hlearned' : ∀ p ∈ call'.learned, p.2.Timeless := by
    simp only [Call.learned, h', hdefs, List.forall_mem_map]
    exact htimeless
  obtain ⟨hrows, hcache⟩ := Call.trace_unversioned h c
  obtain ⟨hrows', hcache'⟩ := Call.trace_unversioned h' c
  rw [hopts, hexporter, hdomain, hdefs, hctx, hdata] at hrows' hcache'
  rw [call.decode_eq_trace, call'.decode_eq_trace, hopts,
    ← traceRows_unversioned (Call.timeless_of_mem_trace hentries hlearned),
    ← traceRows_unversioned (Call.timeless_of_mem_trace hentries hlearned'), hrows, hrows', hcache, hcache']
  exact ⟨rfl, rfl⟩

/-- v9 and IPFIX agree on their common format. Some common Sets, written as a v9 datagram and as
an IPFIX datagram with the same times, sequence and domain, are decoded from the same cache to
the same rows but for the version, and leave the same cache but for the versions and uptimes of
what is buffered. Variable lengths may occur: both formats read them alike. -/
theorem decodeDatagram_common {sets : List CommonSet} {c : TemplateCache}
    (hfits : ∀ s ∈ sets, s.body.length + 4 < 65536)
    (hdefs : ∀ s ∈ sets, ∀ d ∈ V9.format.setDefs (s.toSet 0), d.Common)
    (hentries : ∀ (key : TemplateKey) (e : TemplateEntry), c.entries[key]? = some e → e.layout.Timeless)
    (opts : DecodeOptions) (count length : UInt16) (sysUptime exportSecs sequence domain : UInt32)
    {restrict restrict' : Restrict} (hv9 : restrict = .any ∨ restrict = .netflowOnly)
    (hipfix : restrict' = .any ∨ restrict' = .ipfixOnly) :
    let v9 := decodeDatagram (encodeV9 count sysUptime exportSecs sequence domain
      (sets.map (CommonSet.toSet 0))) opts c restrict
    let ipfix := decodeDatagram (encodeIpfix length exportSecs sequence domain
      (sets.map (CommonSet.toSet 2))) opts c restrict'
    v9.1.map FlowRecord.unversioned = ipfix.1.map FlowRecord.unversioned ∧
      v9.2.unversioned = ipfix.2.unversioned := by
  have hsets : ∀ id, ∀ fs ∈ sets.map (CommonSet.toSet id), fs.body.length + 4 < 65536 := by
    intro id
    rw [List.forall_mem_map]
    intro s hs
    have hbody : (s.toSet id).body = s.body := by cases s <;> rfl
    exact hbody ▸ hfits s hs
  apply Call.decode_unversioned (parsed_encodeV9 opts (hsets 0) count sysUptime exportSecs sequence domain hv9)
    (parsed_encodeIpfix opts (hsets 2) length exportSecs sequence domain hipfix)
  · rfl
  · rfl
  · exact CommonSet.definitions_eq hdefs
  · exact CommonSet.filter_map_toSet (by decide) (by decide) sets
  · intro d hd
    obtain ⟨fs, hfs, hd⟩ := List.mem_flatMap.mp hd
    obtain ⟨s, hs, rfl⟩ := List.mem_map.mp hfs
    exact (hdefs s hs d hd).timeless
  · exact hentries

/-- A template and a record of it, from an empty cache. -/
theorem decodeDatagram_common_two :
    let sets : List CommonSet :=
      [.templates [1, 0, 0, 1, 0, 8, 0, 4], .data 256 [10, 0, 0, 1] (by decide)]
    let v9 := decodeDatagram (encodeV9 2 7 5 1 7 (sets.map (CommonSet.toSet 0))) {} .new .any
    let ipfix := decodeDatagram (encodeIpfix 36 5 1 7 (sets.map (CommonSet.toSet 2))) {} .new .any
    v9.1.map FlowRecord.unversioned = ipfix.1.map FlowRecord.unversioned ∧
      v9.2.unversioned = ipfix.2.unversioned := by
  intro sets
  have hdef : TemplateDef.Common ⟨256, .data, [fieldSpec 0 8 4], 0⟩ := by
    refine ⟨by decide, by decide, ?_⟩
    intro f hf
    rw [List.mem_singleton.mp hf]
    unfold FieldSpec.IsUptime
    decide
  apply @decodeDatagram_common sets .new
  · decide
  · intro s hs d hd
    rcases List.mem_cons.mp hs with rfl | hs
    · have heq : V9.format.setDefs ⟨0, [1, 0, 0, 1, 0, 8, 0, 4]⟩ = [⟨256, .data, [fieldSpec 0 8 4], 0⟩] := by
        decide
      change d ∈ V9.format.setDefs ⟨0, [1, 0, 0, 1, 0, 8, 0, 4]⟩ at hd
      rw [heq, List.mem_singleton] at hd
      rw [hd]
      exact hdef
    · rw [List.mem_singleton.mp hs] at hd
      contradiction
  · intro key e he
    simp [TemplateCache.new, TemplateCache.empty] at he
  · exact .inl rfl
  · exact .inl rfl

end Agreement

end Netflow
