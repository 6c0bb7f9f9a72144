import Netflow.Encode
import Netflow.Decode.Writes

/-!
# Fields without a column

A field of an enterprise, a v9 scope field and a standard element that no column holds are kept
raw, in template order, whatever their ids. They touch nothing else: the row of the record
without them is the same row without its raw fields and notes.
-/

namespace Netflow

section Definitions

/-- Whether no column holds a field: it belongs to an enterprise or to the scope of options, or its
element has no column. -/
def FieldSpec.Unmapped (f : FieldSpec) : Prop := f.enterpriseNumber ≠ 0 ∨ columnOf f.ieId.toNat = none

instance (f : FieldSpec) : Decidable f.Unmapped := inferInstanceAs (Decidable (_ ∨ _))

/-- The fields of a template that a column holds. -/
def mappedFields (fields : List FieldSpec) : List FieldSpec := fields.filter fun f => ¬ f.Unmapped

/-- The values of these fields in a record. -/
def mappedSlices (fields : List FieldSpec) (slices : List Bytes) : List Bytes :=
  ((fields.zip slices).filter fun r => ¬ r.1.Unmapped).map (·.2)

/-- A row without its raw fields and notes. -/
def FlowRecord.normalized (row : FlowRecord) : FlowRecord := { row with rawFields := [], diagnostics := none }

/-- A record being decoded without its raw fields and notes. -/
def PartialRecord.normalized (p : PartialRecord) : PartialRecord := { p with row := p.row.normalized }

end Definitions

section Rows

variable (p : PartialRecord)

/-- No column holds a field exactly if it has none. -/
theorem FieldSpec.unmapped_iff (f : FieldSpec) : f.Unmapped ↔ f.column = none := by
  unfold Unmapped column
  split <;> simp [*]

/-- A scope field of v9 options is held by no column, whatever its scope type. -/
theorem V9.unmapped_of_readScopeField {c c' : Cursor} {f : FieldSpec} (h : V9.readScopeField c = some (f, c')) :
    f.Unmapped := by
  obtain ⟨⟨ty, c₁⟩, -, h⟩ := Option.bind_eq_some_iff.mp h
  obtain ⟨⟨len, c₂⟩, -, h⟩ := Option.bind_eq_some_iff.mp h
  cases h
  exact .inl (by decide : V9.scopePen ≠ 0)

/-- A field that no column holds touches no column, any other maps its column alone. -/
theorem mapField_normalized (f : FieldSpec) (bytes : Bytes) :
    (mapField p f bytes).normalized = if f.Unmapped then p.normalized else mapField p.normalized f bytes := by
  rw [mapField_eq, mapField_eq]
  cases hcolumn : f.column with
  | none =>
    obtain ⟨diagnostics, hkept⟩ := keepRaw_eq p f bytes
    rw [if_pos (f.unmapped_iff.mpr hcolumn), hkept]
    rfl
  | some col =>
    rw [if_neg (by simp [f.unmapped_iff, hcolumn])]
    cases col <;> rfl

/-- The fields with a column come field by field. -/
theorem mappedFields_cons (f : FieldSpec) (fields : List FieldSpec) :
    mappedFields (f :: fields) = if f.Unmapped then mappedFields fields else f :: mappedFields fields := by
  rw [mappedFields, List.filter_cons]
  split <;> simp_all [mappedFields]

/-- So do their values. -/
theorem mappedSlices_cons (f : FieldSpec) (fields : List FieldSpec) (bytes : Bytes) (slices : List Bytes) :
    mappedSlices (f :: fields) (bytes :: slices) =
      if f.Unmapped then mappedSlices fields slices else bytes :: mappedSlices fields slices := by
  rw [mappedSlices, List.zip_cons_cons, List.filter_cons]
  split <;> simp_all [mappedSlices]

/-- The columns of a record are those of the record without the fields that no column holds. -/
theorem mapFields_normalized (fields : List FieldSpec) (slices : List Bytes) :
    (mapFields p fields slices).normalized =
      mapFields p.normalized (mappedFields fields) (mappedSlices fields slices) := by
  induction fields generalizing p slices with
  | nil => rfl
  | cons f fields ih =>
    cases slices with
    | nil => simp [mapFields, mappedSlices]
    | cons bytes slices =>
      rw [mapFields_cons, ih, mapField_normalized, mappedFields_cons, mappedSlices_cons]
      by_cases hf : f.Unmapped
      · rw [if_pos hf, if_pos hf, if_pos hf]
      · rw [if_neg hf, if_neg hf, if_neg hf, mapFields_cons]

/-- Resolving times leaves raw fields and notes alone. -/
theorem resolveTimes_normalized (ctx : Ctx) : (resolveTimes p ctx).normalized = resolveTimes p.normalized ctx := by
  unfold resolveTimes
  cases ctx.exportTime with
  | none => rfl
  | some exportTime => cases ctx.sysUptimeMs <;> rfl

/-- A record without the fields that no column holds has the same row but for raw fields and notes. -/
theorem recordRow_mapped (ctx : Ctx) (fields : List FieldSpec) (slices : List Bytes) :
    ctx.recordRow (mappedFields fields) (mappedSlices fields slices) =
      (ctx.recordRow fields slices).normalized := by
  rw [Ctx.recordRow, Ctx.recordRow, resolveTimes_normalized, mapFields_normalized]
  rfl

/-- The bytes of the fields that no column holds can be deleted from a record. -/
theorem RecordEncodes.exists_mapped {fields : List FieldSpec} {slices : List Bytes} {enc : Bytes}
    (h : RecordEncodes fields slices enc) :
    ∃ enc', List.Sublist enc' enc ∧ RecordEncodes (mappedFields fields) (mappedSlices fields slices) enc' := by
  induction h with
  | nil => exact ⟨[], .refl _, .nil⟩
  | @cons f fields bytes slices enc rest head _ ih =>
    obtain ⟨enc', hsublist, hencodes⟩ := ih
    rw [mappedFields_cons, mappedSlices_cons]
    by_cases hf : f.Unmapped
    · rw [if_pos hf, if_pos hf]
      exact ⟨enc', hsublist.trans (List.sublist_append_right _ _), hencodes⟩
    · rw [if_neg hf, if_neg hf]
      exact ⟨enc ++ enc', hsublist.append_left enc, .cons head hencodes⟩

/-- The raw fields of a row are the fields that no column holds, in template order, each under its name with
its bytes. The record without these fields has the same row but for raw fields and notes. -/
theorem decodeOneRecord_unmapped (tpl : TemplateEntry) (ctx : Ctx) {slices : List Bytes} {enc : Bytes}
    (h : RecordEncodes tpl.fields slices enc) (rest : Bytes) :
    ∃ row, decodeOneRecord tpl ⟨enc ++ rest⟩ ctx = some (row, ⟨rest⟩) ∧
      row.rawFields = ((tpl.fields.zip slices).filter fun r => r.1.Unmapped).map (fun r => (r.1.name, r.2)) ∧
      (∃ enc', List.Sublist enc' enc ∧
        RecordEncodes (mappedFields tpl.fields) (mappedSlices tpl.fields slices) enc') ∧
      ∀ enc' rest', RecordEncodes (mappedFields tpl.fields) (mappedSlices tpl.fields slices) enc' →
        ∃ row', decodeOneRecord { tpl with fields := mappedFields tpl.fields } ⟨enc' ++ rest'⟩ ctx =
            some (row', ⟨rest'⟩) ∧ row'.normalized = row.normalized := by
  refine ⟨_, decodeOneRecord_of_encodes h ctx rest, ?_, h.exists_mapped, ?_⟩
  · rw [Ctx.recordRow, resolveTimes_rawFields, mapFields_rawFields, rawPairs, ← List.filterMap_eq_map',
      List.filterMap_filter]
    simp only [← FieldSpec.unmapped_iff]
    exact (List.nil_append _).trans (by simp)
  · intro enc' rest' h'
    refine ⟨_, @decodeOneRecord_of_encodes { tpl with fields := mappedFields tpl.fields } _ _ h' ctx rest', ?_⟩
    rw [recordRow_mapped]
    rfl

/-- A template of a source address, a vendor's element of the same id and an element without a column. -/
def sampleVendor : TemplateEntry :=
  { kind := .data, fields := [fieldSpec 0 8 4, fieldSpec 9 8 0xFFFF, fieldSpec 0 82 2], scopeFieldCount := 0
    firstSeen := 0, lastSeen := 0, useCount := 0 }

theorem sampleVendor_encodes :
    RecordEncodes sampleVendor.fields [[10, 0, 0, 1], [7, 7], [97, 98]]
      ([10, 0, 0, 1] ++ ([2, 7, 7] ++ ([97, 98] ++ []))) :=
  .cons (.fixed (by decide) rfl) (.cons (.short (by decide) (by decide)) (.cons (.fixed (by decide) rfl) .nil))

/-- A record of it keeps both raw, and the source address in its column. -/
theorem decodeOneRecord_unmapped_sample :
    ∃ row, decodeOneRecord sampleVendor ⟨[10, 0, 0, 1, 2, 7, 7, 97, 98] ++ []⟩
        ⟨"10.0.0.1", 7, .v10, some 5000000, some 1, none, 256⟩ = some (row, ⟨[]⟩) ∧
      row.rawFields = ((sampleVendor.fields.zip [[10, 0, 0, 1], [7, 7], [97, 98]]).filter fun r => r.1.Unmapped).map
        fun r => (r.1.name, r.2) := by
  obtain ⟨row, hrow, hraw, -⟩ := decodeOneRecord_unmapped sampleVendor
    ⟨"10.0.0.1", 7, .v10, some 5000000, some 1, none, 256⟩ sampleVendor_encodes []
  exact ⟨row, hrow, hraw⟩

end Rows

end Netflow
