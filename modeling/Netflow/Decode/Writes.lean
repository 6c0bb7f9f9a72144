import Netflow.Decode.Columns

/-!
# The columns of a record as registers

Mapping a record writes each column in the order of its fields. What a column holds in the
end is a run of its writes, and how each write acts is known from the template alone, as
long as the fields of the column have fixed lengths. A field of a column touches nothing
else, so a record with another value in one field is the same row with that column set.
-/

namespace Netflow

open Register (Write Kind)

section Definitions

/-- The number of bytes an address element reads. -/
def inetLength (id : ℕ) : ℕ := if id = 27 ∨ id = 131 ∨ id = 28 ∨ id = 62 ∨ id = 63 then 16 else 4

/-- How an element of the given length writes its column. -/
def columnKind (id length : ℕ) : Column → Kind
  | .srcAddr | .dstAddr | .nextHop => if length = inetLength id then .overwrite else .skip
  | .bytes => if id = 1 then .overwrite else .fill
  | .packets => if id = 2 then .overwrite else .fill
  | .flowStart | .flowEnd =>
    if id = 150 ∨ id = 151 then .overwrite
    else if id = 152 ∨ id = 153 then .overwrite
    else if length = 8 then .overwrite else .skip
  | _ => .overwrite

/-- What the fields of a record write to a column, in order. -/
def columnWrites (col : Column) (fields : List FieldSpec) (slices : List Bytes) : List (Write col.Value) :=
  (fields.zip slices).filterMap fun (f, bytes) =>
    if f.column = some col then some (columnWrite f.ieId.toNat bytes col) else none

/-- How the fields of a template write a column, in order, by their declared lengths. -/
def columnKinds (col : Column) (fields : List FieldSpec) : List Kind :=
  fields.filterMap fun f =>
    if f.column = some col then some (columnKind f.ieId.toNat f.length.toNat col) else none

/-- The raw fields of a record, in order. -/
def rawPairs (fields : List FieldSpec) (slices : List Bytes) : List (String × Bytes) :=
  (fields.zip slices).filterMap fun (f, bytes) => if f.column = none then some (f.name, bytes) else none

end Definitions

section Kinds

/-- A write that comes from an option does nothing exactly when there is nothing. -/
theorem kind_ofOption {V : Type} (value : Option V) :
    (Write.ofOption value).kind = if value.isSome then .overwrite else .skip := by
  cases value <;> rfl

/-- An address element reads exactly its number of bytes. -/
theorem isSome_inetOf (id : ℕ) (bytes : Bytes) : (inetOf id bytes).isSome ↔ bytes.length = inetLength id := by
  unfold inetOf inetLength inet4 inet6
  split <;> split <;> simp_all

/-- An NTP timestamp has eight bytes. -/
theorem isSome_ntpMicros (bytes : Bytes) : (ntpMicros bytes).isSome ↔ bytes.length = 8 := by
  unfold ntpMicros
  split <;> simp_all

/-- How a value is written is a matter of its length. -/
theorem columnWrite_kind (id : ℕ) (bytes : Bytes) (col : Column) :
    (columnWrite id bytes col).kind = columnKind id bytes.length col := by
  cases col with
  | srcAddr | dstAddr | nextHop => simp only [columnWrite, columnKind, kind_ofOption, isSome_inetOf]
  | bytes | packets =>
    simp only [columnWrite, columnKind]
    split <;> rfl
  | flowStart | flowEnd =>
    simp only [columnWrite, columnKind, timeWrite]
    split
    · rfl
    · split
      · rfl
      · rw [kind_ofOption]
        simp only [isSome_ntpMicros]
  | _ => rfl

end Kinds

section Set

variable (p : PartialRecord)

/-- The last setting of a column counts. -/
@[simp] theorem set_set (col : Column) (v w : Option col.Value) : (p.set col v).set col w = p.set col w := by
  cases col <;> rfl

/-- Two columns are set in either order. -/
theorem set_comm {col col' : Column} (h : col ≠ col') (v : Option col.Value) (w : Option col'.Value) :
    (p.set col v).set col' w = (p.set col' w).set col v := by
  cases col <;> cases col' <;> first | rfl | exact absurd rfl h

/-- Keeping a field raw leaves the columns alone. -/
theorem keepRaw_set (col : Column) (v : Option col.Value) (f : FieldSpec) (bytes : Bytes) :
    keepRaw (p.set col v) f bytes = (keepRaw p f bytes).set col v := by
  have hnote : ∀ (row : FlowRecord) (msg : String), row.note msg =
      { row with diagnostics := ({ diagnostics := row.diagnostics } : FlowRecord).note msg |>.diagnostics } := by
    intro row msg
    unfold FlowRecord.note
    dsimp only
    split
    · split <;> rfl
    · rfl
  unfold keepRaw
  dsimp only
  split
  · rw [hnote (p.set col v).row, hnote p.row, set_diagnostics]
    cases col <;> rfl
  · cases col <;> rfl

/-- A field maps a record with a column set as it maps the record, and writes the column if it is its
own. -/
theorem mapField_set (col : Column) (v : Option col.Value) (f : FieldSpec) (bytes : Bytes) :
    mapField (p.set col v) f bytes = (mapField p f bytes).set col
      (if f.column = some col then (columnWrite f.ieId.toNat bytes col).apply v else v) := by
  rw [mapField_eq, mapField_eq]
  cases hcolumn : f.column with
  | none => rw [if_neg (Option.some_ne_none col).symm, keepRaw_set]
  | some own =>
    by_cases hcol : own = col
    · subst hcol
      simp only [if_true, get_set_self, set_set]
    · dsimp only
      rw [if_neg (fun heq => hcol (Option.some.inj heq)), get_set_ne p (Ne.symm hcol), set_comm p (Ne.symm hcol)]

end Set

section Records

variable (p : PartialRecord)

/-- A column is written by the fields that have it. -/
theorem mem_columnWrites {col : Column} {fields : List FieldSpec} {slices : List Bytes} {write : Write col.Value} :
    write ∈ columnWrites col fields slices ↔
      ∃ r ∈ fields.zip slices, r.1.column = some col ∧ columnWrite r.1.ieId.toNat r.2 col = write := by
  simp [columnWrites, List.mem_filterMap]

/-- The writes of a record come field by field. -/
theorem columnWrites_cons (col : Column) (f : FieldSpec) (fields : List FieldSpec) (bytes : Bytes)
    (slices : List Bytes) :
    columnWrites col (f :: fields) (bytes :: slices) =
      if f.column = some col then columnWrite f.ieId.toNat bytes col :: columnWrites col fields slices
      else columnWrites col fields slices := by
  unfold columnWrites
  rw [List.zip_cons_cons, List.filterMap_cons]
  dsimp only
  split <;> split <;> simp_all

/-- Mapping a record cut in two maps its parts in order. -/
theorem mapFields_append {before : List FieldSpec} {slices : List Bytes} (h : before.length = slices.length)
    (after : List FieldSpec) (slices' : List Bytes) :
    mapFields p (before ++ after) (slices ++ slices') = mapFields (mapFields p before slices) after slices' := by
  rw [mapFields, List.zip_append h, List.foldl_append]
  rfl

/-- A column holds what its writes leave. -/
theorem mapFields_get (fields : List FieldSpec) (slices : List Bytes) (col : Column) :
    (mapFields p fields slices).get col = Register.run (columnWrites col fields slices) (p.get col) := by
  induction fields generalizing p slices with
  | nil => rfl
  | cons f fields ih =>
    cases slices with
    | nil => rfl
    | cons bytes slices =>
      rw [mapFields_cons, ih, mapField_get, columnWrites_cons]
      split <;> rfl

/-- A record maps a row with a column set as it maps the row, and runs the column's writes. -/
theorem mapFields_set (col : Column) (v : Option col.Value) (fields : List FieldSpec) (slices : List Bytes) :
    mapFields (p.set col v) fields slices =
      (mapFields p fields slices).set col (Register.run (columnWrites col fields slices) v) := by
  induction fields generalizing p v slices with
  | nil => rfl
  | cons f fields ih =>
    cases slices with
    | nil => rfl
    | cons bytes slices =>
      rw [mapFields_cons, mapField_set, ih, columnWrites_cons, mapFields_cons]
      split <;> rfl

/-- The raw fields of a record are appended in order. -/
theorem mapFields_rawFields (fields : List FieldSpec) (slices : List Bytes) :
    (mapFields p fields slices).row.rawFields = p.row.rawFields ++ rawPairs fields slices := by
  induction fields generalizing p slices with
  | nil => exact (List.append_nil _).symm
  | cons f fields ih =>
    cases slices with
    | nil => exact (List.append_nil _).symm
    | cons bytes slices =>
      rw [mapFields_cons, ih, mapField_rawFields, List.append_assoc, rawPairs, rawPairs, List.zip_cons_cons,
        List.filterMap_cons]
      dsimp only
      split <;> simp_all

/-- One value more or less in a field changes its column only: the record is the row without that field,
with the column set to what its writes leave. -/
theorem mapFields_split {before after : List FieldSpec} {f : FieldSpec} {col : Column} (hcol : f.column = some col)
    {slices : List Bytes} (hlength : before.length = slices.length) (bytes : Bytes) (slices' : List Bytes) :
    mapFields p (before ++ f :: after) (slices ++ bytes :: slices') =
      (mapFields (mapFields p before slices) after slices').set col
        (Register.run (columnWrites col before slices ++
          columnWrite f.ieId.toNat bytes col :: columnWrites col after slices') (p.get col)) := by
  rw [mapFields_append p hlength, mapFields_cons, mapField_eq, hcol]
  dsimp only
  rw [mapFields_set, mapFields_get, Register.run_append, Register.run_cons]

end Records

end Netflow
