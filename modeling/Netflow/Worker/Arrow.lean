import Netflow.Common.Columnar
import Netflow.Worker.Flows

/-!
# The array library

The relations that go into the worker and come out of it are batches of columns of a library that is not part of
the sources. It is a parameter, given by the operations that the worker calls: how arrays and batches are read, and
how they are built. Of the library only this is relied on, that what is built reads back as what was given, that it
refuses what does not fit 32-bit offsets, and that the columns of a batch are those of its schema.
-/

namespace Netflow

open Columnar

section Types

/-- The primitive types of the library that the worker names. -/
inductive PrimitiveType
  | uInt8 | uInt16 | uInt32 | uInt64
  | int8 | int16 | int32 | int64
  | timestampUtc
  deriving DecidableEq, Repr

/-- The values of a primitive type. -/
abbrev PrimitiveType.Native : PrimitiveType → Type
  | uInt8 => UInt8
  | uInt16 => UInt16
  | uInt32 => UInt32
  | uInt64 => UInt64
  | int8 => Int8
  | int16 => Int16
  | int32 => Int32
  | int64 | timestampUtc => Int64

mutual

/-- The types of arrays. -/
inductive DataType
  | null | boolean
  | utf8 | largeUtf8
  | binary | largeBinary
  | fixedSizeBinary (size : ℕ)
  | primitive (type : PrimitiveType)
  | struct (fields : List Field)
  | list (item : Field)
  | map (entries : Field)
  | other (name : String)

/-- A named column of a schema, or a child of a type. -/
structure Field where
  name : String
  dataType : DataType
  nullable : Bool

end

/-- Whether the nulls of the arrays of a type are those that they store. -/
def DataType.storesNulls : DataType → Bool
  | .null | .other _ => false
  | _ => true

/-- The columns of a batch, by position. -/
abbrev Schema := List Field

/-- The bytes of some texts. -/
def textBytes (cells : List (Option String)) : ℕ := (cells.map fun cell => cell.elim 0 String.utf8ByteSize).sum

/-- Whether so many bytes or elements have offsets of 32 bits. -/
def fitsOffsets (count : ℕ) : Prop := count < 2 ^ 31

instance (count : ℕ) : Decidable (fitsOffsets count) := inferInstanceAs (Decidable (_ < _))

end Types

/-- The operations of the library that the worker calls. A value is only asked for where a cell is not null. A result
that is missing is a panic, or of `tryNew` an error. -/
structure Arrow (ArrayRef RecordBatch : Type) where
  dataType : ArrayRef → DataType
  len : ArrayRef → ℕ
  isNull : ArrayRef → ℕ → Bool
  boolean : ArrayRef → ℕ → Bool
  string : ArrayRef → ℕ → String
  binary : ArrayRef → ℕ → Bytes
  fixedSizeBinary : (size : ℕ) → ArrayRef → ℕ → Vector UInt8 size
  primitive : (type : PrimitiveType) → ArrayRef → ℕ → type.Native
  /-- The columns of a struct array. -/
  children : ArrayRef → List ArrayRef
  /-- Where the lists of a list or map array begin and end. -/
  offsets : ArrayRef → List Int32
  /-- The elements of a list or map array. -/
  values : ArrayRef → ArrayRef
  booleanArray : List (Option Bool) → ArrayRef
  stringArray : List (Option String) → Option ArrayRef
  binaryArray : List Bytes → Option ArrayRef
  fixedSizeBinaryArray : (size : ℕ) → List (Vector UInt8 size) → ArrayRef
  primitiveArray : (type : PrimitiveType) → List (Option type.Native) → ArrayRef
  structArray : List Field → List ArrayRef → Option (List Bool) → Option ArrayRef
  listArray : Field → List Int32 → ArrayRef → Option ArrayRef
  mapArray : Field → List Int32 → ArrayRef → Option ArrayRef
  tryNew : Schema → List ArrayRef → Option RecordBatch
  schema : RecordBatch → Schema
  numRows : RecordBatch → ℕ
  column : RecordBatch → ℕ → ArrayRef

namespace Arrow

variable {ArrayRef RecordBatch : Type} (arrow : Arrow ArrayRef RecordBatch)

section Laws

/-- A cell of an array under one of the ways to read values; none if it is null. -/
def cell {α : Type} (read : ArrayRef → ℕ → α) (col : ArrayRef) (row : ℕ) : Option α :=
  if arrow.isNull col row then none else some (read col row)

/-- The cells of an array. -/
def cells {α : Type} (read : ArrayRef → ℕ → α) (col : ArrayRef) : List (Option α) :=
  (List.range (arrow.len col)).map (arrow.cell read col)

/-- Which rows of an array are not null. -/
def validity (col : ArrayRef) : List Bool := (List.range (arrow.len col)).map fun row => !arrow.isNull col row

/-- Whether an array of so many rows has the type of a field, and no null if the field allows none. -/
structure FitsField (rows : ℕ) (field : Field) (col : ArrayRef) : Prop where
  dataType : arrow.dataType col = field.dataType
  len : arrow.len col = rows
  not_null : field.nullable = false → field.dataType.storesNulls ∧ ∀ row < rows, arrow.isNull col row = false

/-- Whether an array is of lists of some elements, none of the lists null. -/
structure Lists (col : ArrayRef) (type : DataType) (offsets : List Int32) (values : ArrayRef) : Prop where
  dataType : arrow.dataType col = type
  len : arrow.len col = offsets.length - 1
  not_null : ∀ row < arrow.len col, arrow.isNull col row = false
  offsets : arrow.offsets col = offsets
  values : arrow.values col = values

/-- What is relied on. -/
structure Lawful : Prop where
  booleanArray : ∀ cells, arrow.dataType (arrow.booleanArray cells) = .boolean ∧
    arrow.cells arrow.boolean (arrow.booleanArray cells) = cells
  primitiveArray : ∀ type cells, arrow.dataType (arrow.primitiveArray type cells) = .primitive type ∧
    arrow.cells (arrow.primitive type) (arrow.primitiveArray type cells) = cells
  fixedSizeBinaryArray : ∀ size values,
    arrow.dataType (arrow.fixedSizeBinaryArray size values) = .fixedSizeBinary size ∧
      arrow.cells (arrow.fixedSizeBinary size) (arrow.fixedSizeBinaryArray size values) = values.map some
  stringArray : ∀ cells, fitsOffsets (textBytes cells) →
    ∃ col, arrow.stringArray cells = some col ∧ arrow.dataType col = .utf8 ∧ arrow.cells arrow.string col = cells
  /-- Texts that are too long overflow the offsets. -/
  stringArray_overflow : ∀ cells, ¬ fitsOffsets (textBytes cells) → arrow.stringArray cells = none
  binaryArray : ∀ values, fitsOffsets (values.map List.length).sum → ∃ col, arrow.binaryArray values = some col ∧
    arrow.dataType col = .binary ∧ arrow.cells arrow.binary col = values.map some
  binaryArray_overflow : ∀ values, ¬ fitsOffsets (values.map List.length).sum → arrow.binaryArray values = none
  structArray : ∀ rows fields columns validity, columns ≠ [] →
    List.Forall₂ (arrow.FitsField rows) fields columns → (∀ valid ∈ validity, valid.length = rows) →
    ∃ col, arrow.structArray fields columns validity = some col ∧ arrow.dataType col = .struct fields ∧
      arrow.children col = columns ∧ arrow.validity col = validity.getD (List.replicate rows true)
  listArray : ∀ item offsets values, arrow.FitsField (arrow.len values) item values → InOrder offsets →
    finalOffset offsets ≤ arrow.len values →
    ∃ col, arrow.listArray item offsets values = some col ∧ arrow.Lists col (.list item) offsets values
  mapArray : ∀ entries key value offsets values, entries.dataType = .struct [key, value] → entries.nullable = false →
    arrow.FitsField (arrow.len values) entries values → InOrder offsets → finalOffset offsets ≤ arrow.len values →
    ∃ col, arrow.mapArray entries offsets values = some col ∧ arrow.Lists col (.map entries) offsets values
  /-- Offsets that are out of order are refused. -/
  mapArray_inOrder : ∀ entries offsets values col, arrow.mapArray entries offsets values = some col →
    InOrder offsets ∧ finalOffset offsets ≤ arrow.len values
  tryNew : ∀ rows schema columns, columns ≠ [] → List.Forall₂ (arrow.FitsField rows) schema columns →
    ∃ batch, arrow.tryNew schema columns = some batch ∧ arrow.schema batch = schema ∧ arrow.numRows batch = rows ∧
      ∀ i col, columns[i]? = some col → arrow.column batch i = col
  column : ∀ batch i field, (arrow.schema batch)[i]? = some field →
    arrow.dataType (arrow.column batch i) = field.dataType ∧ arrow.len (arrow.column batch i) = arrow.numRows batch
  /-- The nulls of an array are those it stores, and an array of the null type stores none. -/
  isNull_null : ∀ col row, arrow.dataType col = .null → arrow.isNull col row = false

end Laws

section Reads

variable {arrow} {α : Type} {read : ArrayRef → ℕ → α} {col : ArrayRef} {list : List (Option α)}

/-- An array is as long as its cells are many. -/
theorem len_of_cells (h : arrow.cells read col = list) : arrow.len col = list.length := by
  rw [← h, cells, List.length_map, List.length_range]

/-- A cell is one of the cells. -/
theorem cell_of_cells (h : arrow.cells read col = list) {row : ℕ} {c : Option α} (hc : list[row]? = some c) :
    arrow.cell read col row = c := by
  rw [← h, cells, List.getElem?_map] at hc
  obtain ⟨i, hi, hcell⟩ := Option.map_eq_some_iff.mp hc
  rwa [← (List.getElem?_eq_some_iff.mp hi).2, List.getElem_range] at hcell

/-- A row is null if its cell is. -/
theorem isNull_of_cells (h : arrow.cells read col = list) {row : ℕ} {c : Option α} (hc : list[row]? = some c) :
    arrow.isNull col row = c.isNone := by
  rw [← cell_of_cells h hc, cell]
  cases arrow.isNull col row <;> rfl

/-- The value of a cell that is not null. -/
theorem read_of_cells (h : arrow.cells read col = list) {row : ℕ} {a : α} (ha : list[row]? = some (some a)) :
    read col row = a := by
  have hcell := cell_of_cells h ha
  have hnull : arrow.isNull col row = false := isNull_of_cells h ha
  rw [cell, hnull] at hcell
  exact Option.some_inj.mp hcell

/-- An array fits a field of its type that allows nulls. -/
theorem fitsField_of_cells {type : DataType} (htype : arrow.dataType col = type) (h : arrow.cells read col = list)
    {rows : ℕ} (hrows : list.length = rows) {name : String} : arrow.FitsField rows ⟨name, type, true⟩ col :=
  ⟨htype, (len_of_cells h).trans hrows, fun hnot => Bool.noConfusion hnot⟩

/-- An array without a null fits any field of its type. -/
theorem fitsField_of_forall {type : DataType} (htype : arrow.dataType col = type) (h : arrow.cells read col = list)
    {rows : ℕ} (hrows : list.length = rows) (hstores : type.storesNulls) (hsome : ∀ c ∈ list, c.isSome)
    {name : String} {nullable : Bool} : arrow.FitsField rows ⟨name, type, nullable⟩ col := by
  refine ⟨htype, (len_of_cells h).trans hrows, fun _ => ⟨hstores, fun row hrow => ?_⟩⟩
  rw [← hrows] at hrow
  rw [isNull_of_cells h (List.getElem?_eq_getElem hrow), Option.isNone_eq_false_iff]
  exact hsome _ (List.getElem_mem hrow)

/-- A struct is as long as its validity. -/
theorem len_of_validity {valid : List Bool} (h : arrow.validity col = valid) : arrow.len col = valid.length := by
  rw [← h, validity, List.length_map, List.length_range]

/-- A row of a struct is null if it is not valid. -/
theorem isNull_of_validity {valid : List Bool} (h : arrow.validity col = valid) {row : ℕ} {b : Bool}
    (hb : valid[row]? = some b) : arrow.isNull col row = !b := by
  rw [← h, validity, List.getElem?_map] at hb
  obtain ⟨i, hi, hrow⟩ := Option.map_eq_some_iff.mp hb
  rw [← (List.getElem?_eq_some_iff.mp hi).2, List.getElem_range] at hrow
  rw [← hrow, Bool.not_not]

end Reads

section Builders

variable {arrow} (h : arrow.Lawful) {cells : List (Option String)} {col : ArrayRef}

include h

/-- What an array of texts is. -/
theorem Lawful.of_stringArray (hcol : arrow.stringArray cells = some col) :
    fitsOffsets (textBytes cells) ∧ arrow.dataType col = .utf8 ∧ arrow.cells arrow.string col = cells := by
  have hfits : fitsOffsets (textBytes cells) := by
    by_contra hnot
    rw [h.stringArray_overflow cells hnot] at hcol
    contradiction
  obtain ⟨built, hbuilt, hread⟩ := h.stringArray cells hfits
  obtain rfl := Option.some_inj.mp (hbuilt.symm.trans hcol)
  exact ⟨hfits, hread⟩

/-- What an array of byte strings is. -/
theorem Lawful.of_binaryArray {values : List Bytes} (hcol : arrow.binaryArray values = some col) :
    fitsOffsets (values.map List.length).sum ∧ arrow.dataType col = .binary ∧
      arrow.cells arrow.binary col = values.map some := by
  have hfits : fitsOffsets (values.map List.length).sum := by
    by_contra hnot
    rw [h.binaryArray_overflow values hnot] at hcol
    contradiction
  obtain ⟨built, hbuilt, hread⟩ := h.binaryArray values hfits
  obtain rfl := Option.some_inj.mp (hbuilt.symm.trans hcol)
  exact ⟨hfits, hread⟩

/-- A struct array with nulls. -/
theorem Lawful.exists_structArray_valid (rows : ℕ) (fields : List Field) {columns : List ArrayRef}
    (hne : columns ≠ []) (hfits : List.Forall₂ (arrow.FitsField rows) fields columns) {valid : List Bool}
    (hvalid : valid.length = rows) (name : String) :
    ∃ col, arrow.structArray fields columns (some valid) = some col ∧ arrow.children col = columns ∧
      arrow.FitsField rows ⟨name, .struct fields, true⟩ col ∧
      ∀ row b, valid[row]? = some b → arrow.isNull col row = !b := by
  obtain ⟨col, hcol, htype, hchildren, hvalidity⟩ := h.structArray rows fields columns (some valid) hne hfits (by simpa)
  rw [Option.getD_some] at hvalidity
  exact ⟨col, hcol, hchildren, ⟨htype, (len_of_validity hvalidity).trans hvalid, fun hnot => Bool.noConfusion hnot⟩,
    fun row b hb => isNull_of_validity hvalidity hb⟩

/-- A struct array without a null. -/
theorem Lawful.exists_structArray {rows : ℕ} {fields : List Field} {columns : List ArrayRef} (hne : columns ≠ [])
    (hfits : List.Forall₂ (arrow.FitsField rows) fields columns) {name : String} {nullable : Bool} :
    ∃ col, arrow.structArray fields columns none = some col ∧ arrow.children col = columns ∧
      arrow.FitsField rows ⟨name, .struct fields, nullable⟩ col := by
  obtain ⟨col, hcol, htype, hchildren, hvalidity⟩ := h.structArray rows fields columns none hne hfits (by simp)
  refine ⟨col, hcol, hchildren, htype, (len_of_validity hvalidity).trans List.length_replicate, fun _ => ⟨rfl, ?_⟩⟩
  intro row hrow
  exact isNull_of_validity hvalidity (List.getElem?_replicate_of_lt hrow)

/-- What a map array is. -/
theorem Lawful.of_mapArray {entries key value : Field} {offsets : List Int32} {values : ArrayRef}
    (htype : entries.dataType = .struct [key, value]) (hnullable : entries.nullable = false)
    (hitem : arrow.FitsField (arrow.len values) entries values)
    (hcol : arrow.mapArray entries offsets values = some col) :
    InOrder offsets ∧ arrow.Lists col (.map entries) offsets values := by
  obtain ⟨horder, hfinal⟩ := h.mapArray_inOrder _ _ _ _ hcol
  obtain ⟨built, hbuilt, hlists⟩ := h.mapArray _ _ _ _ _ htype hnullable hitem horder hfinal
  obtain rfl := Option.some_inj.mp (hbuilt.symm.trans hcol)
  exact ⟨horder, hlists⟩

end Builders

end Arrow

/-- What goes wrong in the worker: an error it returns, or a panic. -/
inductive Failure
  | requiresInputRelation (function : String)
  | noDatagramColumn
  | notBlob (got : DataType)
  | badBatch
  | panic

/-- The text of an error that the worker words itself, given the text of a type. -/
def Failure.message (debug : DataType → String) : Failure → Option String
  | .requiresInputRelation function => some s!"{function}: requires an input relation"
  | .noDatagramColumn =>
    some "input relation must carry a `datagram` BLOB column of captured flow datagrams"
  | .notBlob got => some s!"expected a BLOB (binary) argument, got {debug got}"
  | .badBatch | .panic => none

/-- A call of the library that panics where it has no result. -/
def orPanic {α : Type} : Option α → Except Failure α
  | some a => .ok a
  | none => .error .panic

@[simp] theorem orPanic_eq_ok {α : Type} {result : Option α} {a : α} : orPanic result = .ok a ↔ result = some a := by
  cases result <;> simp [orPanic]

/-- A step that succeeds has a value, with which the rest succeeds. -/
theorem exceptBind_eq_ok {A B : Type} {first : Except Failure A} {rest : A → Except Failure B} {b : B} :
    first >>= rest = .ok b ↔ ∃ a, first = .ok a ∧ rest a = .ok b := by
  cases first with
  | error e => simp [bind, Except.bind]
  | ok a => simp [bind, Except.bind]

section Cells

variable {ArrayRef RecordBatch : Type} (arrow : Arrow ArrayRef RecordBatch)

/-- The bytes of a BLOB cell, if it is not null. A cell of another type is an error, but a null is not. -/
def Arrow.blobBytes (col : ArrayRef) (row : ℕ) : Except Failure (Option Bytes) :=
  if arrow.isNull col row then .ok none
  else match arrow.dataType col with
    | .binary | .largeBinary => .ok (some (arrow.binary col row))
    | other => .error (.notBlob other)

/-- The text of a VARCHAR cell; none if it is null or of another type. -/
def Arrow.textAt (col : ArrayRef) (row : ℕ) : Option String :=
  if arrow.isNull col row then none
  else match arrow.dataType col with
    | .utf8 | .largeUtf8 => some (arrow.string col row)
    | _ => none

/-- The low 32 bits of an integer cell, signs extended; none if it is null or of another type. -/
def Arrow.u32At (col : ArrayRef) (row : ℕ) : Option UInt32 :=
  if arrow.isNull col row then none
  else match arrow.dataType col with
    | .primitive .uInt64 => some (arrow.primitive .uInt64 col row).toUInt32
    | .primitive .uInt32 => some (arrow.primitive .uInt32 col row)
    | .primitive .uInt16 => some (arrow.primitive .uInt16 col row).toUInt32
    | .primitive .uInt8 => some (arrow.primitive .uInt8 col row).toUInt32
    | .primitive .int64 => some (arrow.primitive .int64 col row).toUInt64.toUInt32
    | .primitive .int32 => some (arrow.primitive .int32 col row).toUInt32
    | .primitive .int16 => some (arrow.primitive .int16 col row).toInt32.toUInt32
    | .primitive .int8 => some (arrow.primitive .int8 col row).toInt32.toUInt32
    | _ => none

/-- Whether a type is one of bytes. -/
def DataType.isBinary : DataType → Bool
  | .binary | .largeBinary => true
  | _ => false

/-- Whether two names are equal but for the case of their ASCII letters. -/
def eqIgnoreAsciiCase (a b : String) : Bool := a.toList.map Char.toLower = b.toList.map Char.toLower

/-- Where a column of a name is, whatever the case of its letters. -/
def findNamedCol (schema : Schema) (name : String) : Option ℕ :=
  schema.findIdx? fun f => eqIgnoreAsciiCase f.name name

/-- Where the datagrams are: under one of three names, in the order of these names, or else in the first column of
bytes. -/
def findDatagramCol (schema : Schema) : Except Failure ℕ :=
  match ["datagram", "content", "blob"].findSome? (findNamedCol schema) with
  | some i => .ok i
  | none =>
    match schema.findIdx? fun f => f.dataType.isBinary with
    | some i => .ok i
    | none => .error .noDatagramColumn

end Cells

end Netflow
