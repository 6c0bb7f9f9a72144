import Netflow.Worker.Arrow

/-!
# An array library of lists

The laws of the array library can be met: arrays are lists of cells, lists of lists are stored flat, and a batch
keeps its columns with the types and the length that its schema asks for.
-/

namespace Netflow

open Columnar
open scoped Classical

/-- A value where there is none. -/
def PrimitiveType.zero : (type : PrimitiveType) → type.Native
  | uInt8 => (0 : UInt8)
  | uInt16 => (0 : UInt16)
  | uInt32 => (0 : UInt32)
  | uInt64 => (0 : UInt64)
  | int8 => (0 : Int8)
  | int16 => (0 : Int16)
  | int32 => (0 : Int32)
  | int64 | timestampUtc => (0 : Int64)

/-- An array of cells; `none` is a null. -/
inductive PlainArray
  | null (length : ℕ)
  | boolean (cells : List (Option Bool))
  | utf8 (cells : List (Option String))
  | binary (large : Bool) (cells : List (Option Bytes))
  | fixedSizeBinary (size : ℕ) (cells : List (Option (Vector UInt8 size)))
  | primitive (type : PrimitiveType) (cells : List (Option type.Native))
  | struct (fields : List Field) (validity : List Bool) (columns : List PlainArray)
  | list (item : Field) (offsets : List Int32) (values : PlainArray)
  | map (entries : Field) (offsets : List Int32) (values : PlainArray)

namespace PlainArray

/-- The type of an array. -/
def dataType : PlainArray → DataType
  | null _ => .null
  | boolean _ => .boolean
  | utf8 _ => .utf8
  | binary large _ => if large then .largeBinary else .binary
  | fixedSizeBinary size _ => .fixedSizeBinary size
  | primitive type _ => .primitive type
  | struct fields _ _ => .struct fields
  | list item _ _ => .list item
  | map entries _ _ => .map entries

/-- Which rows are not null. An array of the null type stores no nulls. -/
def validity : PlainArray → List Bool
  | null length => List.replicate length true
  | boolean cells => cells.map Option.isSome
  | utf8 cells => cells.map Option.isSome
  | binary _ cells => cells.map Option.isSome
  | fixedSizeBinary _ cells => cells.map Option.isSome
  | primitive _ cells => cells.map Option.isSome
  | struct _ validity _ => validity
  | list _ offsets _ | map _ offsets _ => List.replicate (offsets.length - 1) true

/-- Whether a row is null. -/
def isNull (col : PlainArray) (row : ℕ) : Bool := col.validity[row]? = some false

/-- The number at a row. -/
def primitiveAt (type : PrimitiveType) (col : PlainArray) (row : ℕ) : type.Native :=
  match col with
  | primitive type' cells => if h : type' = type then h ▸ (cells[row]?.join.getD type'.zero) else type.zero
  | _ => type.zero

/-- The bytes of a size at a row. -/
def fixedSizeBinaryAt (size : ℕ) (col : PlainArray) (row : ℕ) : Vector UInt8 size :=
  match col with
  | fixedSizeBinary size' cells =>
    if h : size' = size then h ▸ (cells[row]?.join.getD (Vector.replicate size' 0)) else Vector.replicate size 0
  | _ => Vector.replicate size 0

/-- Whether an array of so many rows has the type of a field, and no null if the field allows none. -/
def Fits (rows : ℕ) (field : Field) (col : PlainArray) : Prop :=
  col.dataType = field.dataType ∧ col.validity.length = rows ∧
    (field.nullable = false → field.dataType.storesNulls ∧ ∀ row < rows, col.isNull row = false)

/-- Arrays that fit have the types of the fields, and one length. -/
theorem types_of_fits {rows : ℕ} {fields : List Field} {columns : List PlainArray}
    (h : List.Forall₂ (Fits rows) fields columns) :
    columns.map dataType = fields.map Field.dataType ∧ ∀ col ∈ columns, col.validity.length = rows := by
  induction h with
  | nil => exact ⟨rfl, by simp⟩
  | cons hfirst _ ih =>
    exact ⟨by rw [List.map_cons, List.map_cons, hfirst.1, ih.1], List.forall_mem_cons.mpr ⟨hfirst.2.1, ih.2⟩⟩

/-- The number at a row of an array of numbers. -/
theorem primitiveAt_primitive (type : PrimitiveType) (cells : List (Option type.Native)) (row : ℕ) :
    primitiveAt type (.primitive type cells) row = cells[row]?.join.getD type.zero := dif_pos rfl

/-- The bytes at a row of an array of bytes of a size. -/
theorem fixedSizeBinaryAt_fixedSizeBinary (size : ℕ) (cells : List (Option (Vector UInt8 size))) (row : ℕ) :
    fixedSizeBinaryAt size (.fixedSizeBinary size cells) row =
      cells[row]?.join.getD (Vector.replicate size 0) := dif_pos rfl

end PlainArray

/-- Columns of one length with the types of a schema. -/
structure PlainBatch where
  schema : Schema
  columns : List PlainArray
  numRows : ℕ
  types_eq : columns.map PlainArray.dataType = schema.map Field.dataType
  length_eq : ∀ col ∈ columns, col.validity.length = numRows

/-- A batch of one column. -/
def PlainBatch.single (name : String) (col : PlainArray) : PlainBatch :=
  ⟨[⟨name, col.dataType, true⟩], [col], col.validity.length, rfl, by simp⟩

/-- The library of lists. -/
noncomputable def plainArrow : Arrow PlainArray PlainBatch where
  dataType := PlainArray.dataType
  len col := col.validity.length
  isNull := PlainArray.isNull
  boolean col row := match col with
    | .boolean cells => cells[row]?.join.getD false
    | _ => false
  string col row := match col with
    | .utf8 cells => cells[row]?.join.getD ""
    | _ => ""
  binary col row := match col with
    | .binary _ cells => cells[row]?.join.getD []
    | _ => []
  fixedSizeBinary := PlainArray.fixedSizeBinaryAt
  primitive := PlainArray.primitiveAt
  children col := match col with
    | .struct _ _ columns => columns
    | _ => []
  offsets col := match col with
    | .list _ offsets _ | .map _ offsets _ => offsets
    | _ => []
  values col := match col with
    | .list _ _ values | .map _ _ values => values
    | col => col
  booleanArray := .boolean
  stringArray cells := if fitsOffsets (textBytes cells) then some (.utf8 cells) else none
  binaryArray values :=
    if fitsOffsets (values.map List.length).sum then some (.binary false (values.map some)) else none
  fixedSizeBinaryArray size values := .fixedSizeBinary size (values.map some)
  primitiveArray := .primitive
  structArray fields columns validity := match columns with
    | [] => none
    | col :: others =>
      let valid := validity.getD (List.replicate col.validity.length true)
      if List.Forall₂ (PlainArray.Fits valid.length) fields (col :: others) then
        some (.struct fields valid (col :: others))
      else none
  listArray item offsets values :=
    if PlainArray.Fits values.validity.length item values ∧ InOrder offsets ∧
        finalOffset offsets ≤ values.validity.length then some (.list item offsets values)
    else none
  mapArray entries offsets values :=
    if PlainArray.Fits values.validity.length entries values ∧ InOrder offsets ∧
        finalOffset offsets ≤ values.validity.length then some (.map entries offsets values)
    else none
  tryNew schema columns := match columns with
    | [] => none
    | col :: others =>
      if h : List.Forall₂ (PlainArray.Fits col.validity.length) schema (col :: others) then
        some ⟨schema, col :: others, col.validity.length, (PlainArray.types_of_fits h).1,
          (PlainArray.types_of_fits h).2⟩
      else none
  schema := PlainBatch.schema
  numRows := PlainBatch.numRows
  column batch i := batch.columns.getD i (.null batch.numRows)

/-- Cells are read back from an array whose rows are null where they are. -/
theorem plainArrow_cells {α : Type} {read : PlainArray → ℕ → α} {col : PlainArray} {list : List (Option α)} (zero : α)
    (hvalidity : col.validity = list.map Option.isSome) (hread : ∀ row, read col row = list[row]?.join.getD zero) :
    plainArrow.cells read col = list := by
  have hlen : plainArrow.len col = list.length := by
    change col.validity.length = _
    rw [hvalidity, List.length_map]
  refine List.ext_getElem (by rw [Arrow.cells, List.length_map, List.length_range, hlen]) fun row hcell hrow => ?_
  have hnull : plainArrow.isNull col row = list[row].isNone := by
    change PlainArray.isNull col row = _
    rw [PlainArray.isNull, hvalidity, List.getElem?_map, List.getElem?_eq_getElem hrow]
    cases list[row] <;> rfl
  simp only [Arrow.cells, List.getElem_map, List.getElem_range, Arrow.cell, hnull, hread,
    List.getElem?_eq_getElem hrow, Option.join_some]
  cases list[row] <;> rfl

/-- The validity of an array is read back. -/
theorem plainArrow_validity (col : PlainArray) : plainArrow.validity col = col.validity := by
  refine List.ext_getElem (by rw [Arrow.validity, List.length_map, List.length_range]; rfl) fun row hread hrow => ?_
  have hnull : plainArrow.isNull col row = !col.validity[row] := by
    change PlainArray.isNull col row = _
    rw [PlainArray.isNull, List.getElem?_eq_getElem hrow]
    cases col.validity[row] <;> rfl
  simp only [Arrow.validity, List.getElem_map, List.getElem_range, hnull, Bool.not_not]

/-- Arrays fit in the library as they fit. -/
theorem plainArrow_fitsField (rows : ℕ) (field : Field) (col : PlainArray) :
    plainArrow.FitsField rows field col ↔ PlainArray.Fits rows field col :=
  ⟨fun h => ⟨h.1, h.2, h.3⟩, fun h => ⟨h.1, h.2.1, h.2.2⟩⟩

/-- A column of lists has no null. -/
theorem PlainArray.isNull_replicate {col : PlainArray} {n : ℕ} (h : col.validity = List.replicate n true) (row : ℕ) :
    col.isNull row = false := by
  rw [isNull, h, decide_eq_false_iff_not, List.getElem?_replicate]
  split <;> simp

/-- The column at a position. -/
theorem plainArrow_column {batch : PlainBatch} {i : ℕ} {col : PlainArray} (h : batch.columns[i]? = some col) :
    plainArrow.column batch i = col := by
  change batch.columns.getD i _ = col
  rw [List.getD_eq_getElem?_getD, h, Option.getD_some]

/-- The library of lists keeps the laws. -/
theorem plainArrow_lawful : plainArrow.Lawful where
  booleanArray cells := ⟨rfl, plainArrow_cells false rfl fun _ => rfl⟩
  primitiveArray type cells :=
    ⟨rfl, plainArrow_cells type.zero rfl fun row => PlainArray.primitiveAt_primitive type cells row⟩
  fixedSizeBinaryArray size values :=
    ⟨rfl, plainArrow_cells (Vector.replicate size 0) rfl fun row =>
      PlainArray.fixedSizeBinaryAt_fixedSizeBinary size _ row⟩
  stringArray cells hfits := ⟨.utf8 cells, if_pos hfits, rfl, plainArrow_cells "" rfl fun _ => rfl⟩
  stringArray_overflow cells hnot := if_neg hnot
  binaryArray values hfits :=
    ⟨.binary false (values.map some), if_pos hfits, rfl, plainArrow_cells [] rfl fun _ => rfl⟩
  binaryArray_overflow values hnot := if_neg hnot
  structArray rows fields columns validity hne hfits hvalid := by
    obtain ⟨col, others, rfl⟩ := List.exists_cons_of_ne_nil hne
    have hfits' : List.Forall₂ (PlainArray.Fits rows) fields (col :: others) :=
      hfits.imp fun field col h => (plainArrow_fitsField rows field col).mp h
    have hrows : col.validity.length = rows := (PlainArray.types_of_fits hfits').2 col List.mem_cons_self
    have hlength : (validity.getD (List.replicate col.validity.length true)).length = rows := by
      cases validity with
      | none => exact List.length_replicate.trans hrows
      | some valid => exact hvalid valid rfl
    refine ⟨_, if_pos (hlength ▸ hfits'), rfl, rfl, ?_⟩
    rw [plainArrow_validity, PlainArray.validity, hrows]
  listArray item offsets values hitem horder hfinal := by
    refine ⟨_, if_pos ⟨(plainArrow_fitsField _ _ _).mp hitem, horder, hfinal⟩, rfl, ?_, ?_, rfl, rfl⟩
    · exact List.length_replicate
    · exact fun row _ => PlainArray.isNull_replicate rfl row
  mapArray entries key value offsets values _ _ hitem horder hfinal := by
    refine ⟨_, if_pos ⟨(plainArrow_fitsField _ _ _).mp hitem, horder, hfinal⟩, rfl, ?_, ?_, rfl, rfl⟩
    · exact List.length_replicate
    · exact fun row _ => PlainArray.isNull_replicate rfl row
  mapArray_inOrder entries offsets values col hcol := by
    by_contra hnot
    have hnone : plainArrow.mapArray entries offsets values = none := if_neg fun h => hnot h.2
    rw [hnone] at hcol
    contradiction
  tryNew rows schema columns hne hfits := by
    obtain ⟨col, others, rfl⟩ := List.exists_cons_of_ne_nil hne
    have hfits' : List.Forall₂ (PlainArray.Fits rows) schema (col :: others) :=
      hfits.imp fun field col h => (plainArrow_fitsField rows field col).mp h
    have hrows : col.validity.length = rows := (PlainArray.types_of_fits hfits').2 col List.mem_cons_self
    refine ⟨_, dif_pos (hrows.symm ▸ hfits'), rfl, hrows, fun i built hbuilt => plainArrow_column hbuilt⟩
  column batch i field hfield := by
    have htypes := congrArg (·[i]?) batch.types_eq
    have hfield' : batch.schema[i]? = some field := hfield
    simp only [List.getElem?_map, hfield', Option.map_some] at htypes
    obtain ⟨col, hcol, htype⟩ := Option.map_eq_some_iff.mp htypes
    rw [plainArrow_column hcol]
    exact ⟨htype, batch.length_eq col (List.mem_of_getElem? hcol)⟩
  isNull_null col row htype := by
    cases col with
    | null length => exact PlainArray.isNull_replicate rfl row
    | binary large cells => cases large <;> contradiction
    | _ => contradiction

end Netflow
