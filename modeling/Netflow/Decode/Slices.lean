import Netflow.Decode.Record

/-!
# Slicing and mapping

Decoding a record cuts its bytes into fields and maps each field onto the row. How the
bytes are cut does not depend on the row, so the two can be told apart: a record is its
slices, and the row is what mapping the slices in order makes of the empty row.
-/

namespace Netflow

/-- Cut the bytes of one field off the cursor. -/
def sliceField (f : FieldSpec) (cur : Cursor) : Option (Bytes × Cursor) :=
  (if f.isVariable then readVarlen cur else some (f.length.toNat, cur)).bind fun (len, cur) => cur.take len

/-- Cut the fields of a record off the cursor, in template order. -/
def sliceFields : List FieldSpec → Cursor → Option (List Bytes × Cursor)
  | [], cur => some ([], cur)
  | f :: fields, cur => do
    let (bytes, cur) ← sliceField f cur
    let (slices, cur) ← sliceFields fields cur
    some (bytes :: slices, cur)

/-- Map the slices of a record onto a row, in template order. -/
def mapFields (p : PartialRecord) (fields : List FieldSpec) (slices : List Bytes) : PartialRecord :=
  (fields.zip slices).foldl (fun p (f, bytes) => mapField p f bytes) p

@[simp] theorem mapFields_nil (p : PartialRecord) (slices : List Bytes) : mapFields p [] slices = p := rfl

@[simp] theorem mapFields_cons (p : PartialRecord) (f : FieldSpec) (fields : List FieldSpec) (bytes : Bytes)
    (slices : List Bytes) :
    mapFields p (f :: fields) (bytes :: slices) = mapFields (mapField p f bytes) fields slices := rfl

/-- The row of a record with the given slices. -/
def Ctx.recordRow (ctx : Ctx) (fields : List FieldSpec) (slices : List Bytes) : FlowRecord :=
  resolveTimes (mapFields { row := ctx.baseRecord } fields slices) ctx

/-- The fewest bytes a field takes: its declared length, or the prefix of a value of no bytes. -/
def FieldSpec.minLength (f : FieldSpec) : ℕ := if f.isVariable then 1 else f.length.toNat

/-- The fewest bytes a record takes. -/
def minRecord (fields : List FieldSpec) : ℕ := (fields.map FieldSpec.minLength).sum

/-- Slicing one field and mapping it is one round of the field loop. -/
theorem decodeFields_cons (f : FieldSpec) (fields : List FieldSpec) (p : PartialRecord) (cur : Cursor) :
    decodeFields (f :: fields) p cur =
      (sliceField f cur).bind fun (bytes, cur) => decodeFields fields (mapField p f bytes) cur := by
  rw [decodeFields, sliceField]
  split
  · rw [Option.bind_assoc]
    rfl
  · rfl

/-- Decoding a record slices it and maps the slices. -/
theorem decodeFields_eq (fields : List FieldSpec) (p : PartialRecord) (cur : Cursor) :
    decodeFields fields p cur =
      (sliceFields fields cur).map fun (slices, cur) => (mapFields p fields slices, cur) := by
  induction fields generalizing p cur with
  | nil => rfl
  | cons f fields ih =>
    rw [decodeFields_cons, sliceFields]
    cases sliceField f cur with
    | none => rfl
    | some sliced =>
      obtain ⟨bytes, cur'⟩ := sliced
      simp only [Option.bind_some, Option.bind_eq_bind, ih]
      cases sliceFields fields cur' with
      | none => rfl
      | some rest => rfl

/-- A record is its slices. -/
theorem decodeOneRecord_eq (tpl : TemplateEntry) (cur : Cursor) (ctx : Ctx) :
    decodeOneRecord tpl cur ctx = (sliceFields tpl.fields cur).map fun (slices, cur) =>
      (resolveTimes (mapFields { row := ctx.baseRecord } tpl.fields slices) ctx, cur) := by
  rw [decodeOneRecord, decodeFields_eq]
  cases sliceFields tpl.fields cur with
  | none => rfl
  | some sliced => rfl

/-- A record has a slice for each field. -/
theorem sliceFields_length {fields : List FieldSpec} {c c' : Cursor} {slices : List Bytes}
    (h : sliceFields fields c = some (slices, c')) : slices.length = fields.length := by
  induction fields generalizing c slices with
  | nil =>
    cases h
    rfl
  | cons f fields ih =>
    obtain ⟨⟨bytes, c₁⟩, -, h⟩ := Option.bind_eq_some_iff.mp h
    obtain ⟨⟨rest, c₂⟩, hrest, h⟩ := Option.bind_eq_some_iff.mp h
    cases h
    rw [List.length_cons, List.length_cons, ih hrest]

section Lengths

/-- A field takes no less than its least length off the cursor. -/
theorem sliceField_remaining {f : FieldSpec} {cur cur' : Cursor} {bytes : Bytes}
    (h : sliceField f cur = some (bytes, cur')) : f.minLength + cur'.remaining ≤ cur.remaining := by
  obtain ⟨⟨len, c₁⟩, hlen, htake⟩ := Option.bind_eq_some_iff.mp h
  have hbytes := Cursor.take_remaining htake
  unfold FieldSpec.minLength
  cases hvar : f.isVariable with
  | true =>
    simp only [hvar, if_true] at hlen ⊢
    have hprefix := readVarlen_remaining hlen
    omega
  | false =>
    simp only [hvar, Bool.false_eq_true, if_false] at hlen ⊢
    cases hlen
    omega

/-- A record takes no less than the least lengths of its fields. -/
theorem minRecord_le_of_sliceFields {fields : List FieldSpec} {cur cur' : Cursor} {slices : List Bytes}
    (h : sliceFields fields cur = some (slices, cur')) : minRecord fields + cur'.remaining ≤ cur.remaining := by
  induction fields generalizing cur slices with
  | nil =>
    cases h
    simp [minRecord]
  | cons f fields ih =>
    obtain ⟨⟨bytes, c₁⟩, hfield, h⟩ := Option.bind_eq_some_iff.mp h
    obtain ⟨⟨rest, c₂⟩, hrest, h⟩ := Option.bind_eq_some_iff.mp h
    cases h
    have hhere := sliceField_remaining hfield
    have hthere := ih hrest
    rw [minRecord, List.map_cons, List.sum_cons, ← minRecord]
    omega

/-- The least length of a record counts the fixed-length fields and a prefix for each of the others. -/
theorem minRecord_eq (tpl : TemplateEntry) :
    minRecord tpl.fields = minFixed tpl + tpl.fields.countP FieldSpec.isVariable := by
  rw [minRecord, minFixed]
  induction tpl.fields with
  | nil => rfl
  | cons f fields ih =>
    rw [List.map_cons, List.sum_cons, ih, List.filter_cons, List.countP_cons, FieldSpec.minLength]
    cases hvar : f.isVariable with
    | true =>
      simp only [if_true, Bool.not_true, Bool.false_eq_true, if_false]
      omega
    | false =>
      simp only [Bool.false_eq_true, if_false, Bool.not_false, if_true, List.map_cons, List.sum_cons]
      omega

/-- A whole record is at least as long as the fixed-length fields of its template. -/
theorem minFixed_le_of_sliceFields {tpl : TemplateEntry} {cur cur' : Cursor} {slices : List Bytes}
    (h : sliceFields tpl.fields cur = some (slices, cur')) : minFixed tpl ≤ cur.remaining := by
  have hle := minRecord_le_of_sliceFields h
  rw [minRecord_eq] at hle
  omega

end Lengths

end Netflow
