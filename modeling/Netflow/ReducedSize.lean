import Netflow.Lossless
import Netflow.Padding

/-!
# Reduced-size encoding

A number can be sent in fewer bytes than its element has. Its value is read from as many bytes
as there are, so a template that declares the field longer, and records that pad the value with
zeros in front, give the same rows: the longer field moves what stands behind it and nothing
else.
-/

namespace Netflow

section Definitions

/-- Whether a column holds a field that is a number or a time in seconds or milliseconds. -/
def FieldSpec.IsNumber (f : FieldSpec) : Prop :=
  ∃ col, f.column = some col ∧ col ∉ [Column.srcAddr, .dstAddr, .nextHop] ∧ f.ieId.toNat ∉ [154, 155, 156, 157]

/-- A field declared with another length. -/
def FieldSpec.widen (f : FieldSpec) (length : ℕ) : FieldSpec := { f with length := .ofNat length }

/-- A value with zeros in front, up to a length. -/
def leftPad (length : ℕ) (bytes : Bytes) : Bytes := zeros (length - bytes.length) ++ bytes

/-- A record of a template, cut at a field of fixed length. -/
structure CutRecord (before : List FieldSpec) (f : FieldSpec) (after : List FieldSpec) where
  lead : List Bytes
  leadEnc : Bytes
  value : Bytes
  trail : List Bytes
  trailEnc : Bytes
  lead_encodes : RecordEncodes before lead leadEnc
  value_length : value.length = f.length.toNat
  trail_encodes : RecordEncodes after trail trailEnc

variable {before after : List FieldSpec} {f : FieldSpec}

/-- The values of the record. -/
def CutRecord.slices (r : CutRecord before f after) : List Bytes := r.lead ++ r.value :: r.trail

/-- The bytes of the record. -/
def CutRecord.enc (r : CutRecord before f after) : Bytes := r.leadEnc ++ (r.value ++ r.trailEnc)

/-- The bytes of the record with the value at the cut padded to a length. -/
def CutRecord.encPadded (r : CutRecord before f after) (length : ℕ) : Bytes :=
  r.leadEnc ++ (leftPad length r.value ++ r.trailEnc)

/-- The record with the value at the cut padded to a length. -/
def CutRecord.pad (r : CutRecord before f after) {length : ℕ} (hle : f.length.toNat ≤ length) (hlt : length < 65536) :
    CutRecord before (f.widen length) after where
  lead := r.lead
  leadEnc := r.leadEnc
  value := leftPad length r.value
  trail := r.trail
  trailEnc := r.trailEnc
  lead_encodes := r.lead_encodes
  value_length := by
    have hvalue := r.value_length
    rw [leftPad, List.length_append, List.length_replicate, FieldSpec.widen, UInt16.toNat_ofNat_of_lt' hlt]
    omega
  trail_encodes := r.trail_encodes

end Definitions

section Values

/-- Zeros in front of a number leave it as it is. -/
theorem beNat_zeros_append (count : ℕ) (bytes : Bytes) : beNat (zeros count ++ bytes) = beNat bytes := by
  induction count with
  | zero => rfl
  | succ count ih =>
    rw [zeros, List.replicate_succ, List.cons_append, beNat_cons, ih, UInt8.toNat_zero, Nat.zero_mul, Nat.zero_add]

/-- A value of at most eight bytes reads the same when it is padded to at most eight. -/
theorem beUint_leftPad {length : ℕ} {bytes : Bytes} (hle : bytes.length ≤ length) (hlength : length ≤ 8) :
    beUint (leftPad length bytes) = beUint bytes := by
  rw [beUint_of_length_le (hle.trans hlength), leftPad, beUint_of_length_le, beNat_zeros_append]
  rw [List.length_append, List.length_replicate]
  omega

/-- A number writes its column by its value alone. -/
theorem columnWrite_congr {id : ℕ} {col : Column} (hcol : columnOf id = some col)
    (hinet : col ∉ [Column.srcAddr, .dstAddr, .nextHop]) (hntp : id ∉ [154, 155, 156, 157]) {bytes bytes' : Bytes}
    (h : beUint bytes = beUint bytes') : columnWrite id bytes col = columnWrite id bytes' col := by
  have hid := (columnOf_eq_some_iff id col).mp hcol
  cases col with
  | srcAddr | dstAddr | nextHop => exact absurd (by decide) hinet
  | flowStart | flowEnd =>
    simp only [Column.elements, List.mem_cons, List.not_mem_nil, or_false] at hid hntp
    have hscaled : id = 150 ∨ id = 151 ∨ id = 152 ∨ id = 153 := by omega
    simp only [columnWrite, timeWrite, h]
    split
    · rfl
    · rw [if_pos (by omega), if_pos (by omega)]
  | _ => simp only [columnWrite, h]

/-- A number maps a padded value as it maps the value. -/
theorem mapField_widen (p : PartialRecord) {f : FieldSpec} (hf : f.IsNumber) {length : ℕ} {bytes : Bytes}
    (hle : bytes.length ≤ length) (hlength : length ≤ 8) :
    mapField p (f.widen length) (leftPad length bytes) = mapField p f bytes := by
  obtain ⟨col, hcolumn, hinet, hntp⟩ := hf
  have hcol : columnOf f.ieId.toNat = some col := by
    unfold FieldSpec.column at hcolumn
    split at hcolumn
    · exact hcolumn
    · contradiction
  have hwide : (f.widen length).column = some col := hcolumn
  rw [mapField_eq, mapField_eq, hcolumn, hwide]
  exact congrArg (fun write => p.set col (write.apply (p.get col)))
    (columnWrite_congr hcol hinet hntp (beUint_leftPad hle hlength))

end Values

section Records

variable {before after : List FieldSpec} {f : FieldSpec}

/-- The bytes of a record at a cut are those of its values. -/
theorem CutRecord.encodes (r : CutRecord before f after) (hfixed : ¬ f.isVariable) :
    RecordEncodes (before ++ f :: after) r.slices r.enc :=
  r.lead_encodes.append (.cons (.fixed hfixed r.value_length) r.trail_encodes)

/-- A record with the value at the cut padded has the same row. -/
theorem CutRecord.recordRow_pad (r : CutRecord before f after) (hf : f.IsNumber) {length : ℕ}
    (hle : f.length.toNat ≤ length) (hlength : length ≤ 8) (hlt : length < 65536) (ctx : Ctx) :
    ctx.recordRow (before ++ f.widen length :: after) (r.pad hle hlt).slices =
      ctx.recordRow (before ++ f :: after) r.slices := by
  have hlead : before.length = r.lead.length := (sliceFields_length (sliceFields_of_encodes r.lead_encodes [])).symm
  have hvalue : r.value.length ≤ length := r.value_length.trans_le hle
  rw [Ctx.recordRow, Ctx.recordRow, slices, slices]
  change resolveTimes (mapFields _ _ (r.lead ++ leftPad length r.value :: r.trail)) ctx = _
  rw [mapFields_append _ hlead, mapFields_append _ hlead, mapFields_cons, mapFields_cons,
    mapField_widen _ hf hvalue hlength]

/-- Records cut at a field of at least one byte are decoded to their rows, whatever padding follows. -/
theorem decodeDataSet_cutRecords {tpl : TemplateEntry} (hfields : tpl.fields = before ++ f :: after)
    (hfixed : ¬ f.isVariable) (hpos : 1 ≤ f.length.toNat) (records : List (CutRecord before f after)) {padding : Bytes}
    (hpadding : padding = [] ∨ (∀ g ∈ tpl.fields, ¬ g.isVariable) ∧ padding.length < minRecord tpl.fields)
    (ctx : Ctx) {flowsOnly : Bool} (hmode : ¬ (flowsOnly ∧ tpl.kind = .options)) :
    decodeDataSet tpl (records.flatMap (·.enc) ++ padding) ctx flowsOnly =
      records.map fun r => ctx.recordRow (before ++ f :: after) r.slices := by
  have hencodes : ∀ r ∈ records.map fun r => (r.slices, r.enc),
      RecordEncodes tpl.fields r.1 r.2 ∧ r.2 ≠ [] := by
    rw [List.forall_mem_map, hfields]
    intro r _
    refine ⟨r.encodes hfixed, List.ne_nil_of_length_pos ?_⟩
    have hvalue := r.value_length
    simp only [CutRecord.enc, List.length_append]
    omega
  have hrows := @decodeDataSet_records tpl ctx flowsOnly hmode _ hencodes padding hpadding
  rw [List.flatMap_map, List.map_map, hfields] at hrows
  exact hrows

/-- Reduced-size encoding does not change the rows of a Data Set: a number that a template declares longer, up
to eight bytes, and that every record pads with zeros in front is decoded as before, and so is all else. -/
theorem decodeDataSet_widen {tpl : TemplateEntry} (hfields : tpl.fields = before ++ f :: after) (hf : f.IsNumber)
    (hpos : 1 ≤ f.length.toNat) {length : ℕ} (hle : f.length.toNat ≤ length) (hlength : length ≤ 8)
    (records : List (CutRecord before f after)) {padding : Bytes}
    (hpadding : padding = [] ∨ (∀ g ∈ tpl.fields, ¬ g.isVariable) ∧ padding.length < minRecord tpl.fields)
    (ctx : Ctx) (flowsOnly : Bool) :
    decodeDataSet { tpl with fields := before ++ f.widen length :: after }
        (records.flatMap (·.encPadded length) ++ padding) ctx flowsOnly =
      decodeDataSet tpl (records.flatMap (·.enc) ++ padding) ctx flowsOnly := by
  by_cases hmode : flowsOnly ∧ tpl.kind = .options
  · simp [decodeDataSet, hmode]
  · have hlt : length < 65536 := hlength.trans_lt (by decide)
    have hwide : (f.widen length).length.toNat = length := UInt16.toNat_ofNat_of_lt' hlt
    have hfixed : ∀ g : FieldSpec, g.length.toNat ≤ 8 → ¬ g.isVariable := by
      intro g hg hvar
      have hmax : g.length = 0xFFFF := of_decide_eq_true hvar
      rw [hmax] at hg
      contradiction
    -- What is padding behind the shorter records is too short for a longer one as well.
    have hpadding' : padding = [] ∨ (∀ g ∈ before ++ f.widen length :: after, ¬ g.isVariable) ∧
        padding.length < minRecord (before ++ f.widen length :: after) := by
      refine hpadding.imp_right ?_
      rintro ⟨hall, hshort⟩
      rw [hfields] at hall hshort
      have hmin : f.minLength ≤ (f.widen length).minLength := by
        rw [FieldSpec.minLength, FieldSpec.minLength, if_neg (hfixed f (hle.trans hlength)),
          if_neg (hfixed _ (hwide.trans_le hlength)), hwide]
        exact hle
      simp only [minRecord, List.map_append, List.map_cons, List.sum_append, List.sum_cons] at hshort ⊢
      refine ⟨?_, by omega⟩
      simp only [List.forall_mem_append, List.forall_mem_cons] at hall ⊢
      exact ⟨hall.1, hfixed _ (hwide.trans_le hlength), hall.2.2⟩
    rw [decodeDataSet_cutRecords hfields (hfixed f (hle.trans hlength)) hpos records hpadding ctx hmode]
    have hrows := @decodeDataSet_cutRecords before after (f.widen length)
      { tpl with fields := before ++ f.widen length :: after } rfl (hfixed _ (hwide.trans_le hlength))
      (by rw [hwide]; omega) (records.map (·.pad hle hlt)) padding hpadding' ctx flowsOnly hmode
    rw [List.flatMap_map, List.map_map] at hrows
    refine hrows.trans (List.map_congr_left fun r _ => ?_)
    exact r.recordRow_pad hf hle hlength hlt ctx

/-- A template of a protocol and a count of bytes in three bytes. -/
def sampleReduced : TemplateEntry :=
  { kind := .data, fields := [fieldSpec 0 4 1, fieldSpec 0 1 3], scopeFieldCount := 0
    firstSeen := 0, lastSeen := 0, useCount := 0 }

/-- A record of it. -/
def sampleReducedRecord : CutRecord [fieldSpec 0 4 1] (fieldSpec 0 1 3) [] where
  lead := [[6]]
  leadEnc := [6] ++ []
  value := [1, 2, 3]
  trail := []
  trailEnc := []
  lead_encodes := .cons (.fixed (by decide) rfl) .nil
  value_length := rfl
  trail_encodes := .nil

/-- Two such records with the count in eight bytes. -/
theorem decodeDataSet_widen_two :
    decodeDataSet { sampleReduced with fields := [fieldSpec 0 4 1] ++ (fieldSpec 0 1 3).widen 8 :: [] }
        ([sampleReducedRecord, sampleReducedRecord].flatMap (·.encPadded 8) ++ [])
        ⟨"10.0.0.1", 7, .v10, some 5000000, some 1, none, 256⟩ false =
      decodeDataSet sampleReduced ([sampleReducedRecord, sampleReducedRecord].flatMap (·.enc) ++ [])
        ⟨"10.0.0.1", 7, .v10, some 5000000, some 1, none, 256⟩ false :=
  decodeDataSet_widen rfl ⟨.bytes, by decide, by decide, by decide⟩ (by decide) (by decide) (by decide)
    [sampleReducedRecord, sampleReducedRecord] (.inl rfl) _ _

end Records

end Netflow
