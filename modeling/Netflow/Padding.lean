import Netflow.Decode.Columns
import Netflow.Encode

/-!
# Records and padding

A Data Set of written records is cut where the records were joined, whichever prefix form
each value has. Behind the records a rest too short for the fixed-length fields is padding.
The length prefixes are not counted, so zeros too short for a record are taken for a cut
record as soon as they are as long as the fixed-length fields.
-/

namespace Netflow

section Records

variable {tpl : TemplateEntry} {ctx : Ctx} {flowsOnly : Bool}

/-- The row of a record is not that of a record that is cut. -/
theorem recordRow_diagnostics (ctx : Ctx) (fields : List FieldSpec) (slices : List Bytes) :
    (ctx.recordRow fields slices).diagnostics ≠ some "truncated" := by
  have hnote : ∀ p : PartialRecord,
      p.row.diagnostics = none ∨ p.row.diagnostics = some "enterprise-unmapped" →
        (mapFields p fields slices).row.diagnostics = none ∨
          (mapFields p fields slices).row.diagnostics = some "enterprise-unmapped" := by
    unfold mapFields
    induction fields.zip slices with
    | nil => exact fun _ hp => hp
    | cons field rest ih => exact fun p hp => ih _ (mapField_diagnostics p field.1 field.2 hp)
  rw [Ctx.recordRow, resolveTimes_diagnostics]
  rcases hnote { row := ctx.baseRecord } (.inl rfl) with h | h <;> rw [h] <;> decide

/-- Written records give their rows, in order, whatever padding stands behind them that is none or too short for
a record of fixed-length fields. -/
theorem decodeDataSet_records (hmode : ¬ (flowsOnly ∧ tpl.kind = .options)) {records : List (List Bytes × Bytes)}
    (hrecords : ∀ r ∈ records, RecordEncodes tpl.fields r.1 r.2 ∧ r.2 ≠ []) {padding : Bytes}
    (hpadding : padding = [] ∨ (∀ f ∈ tpl.fields, ¬ f.isVariable) ∧ padding.length < minRecord tpl.fields) :
    decodeDataSet tpl (records.flatMap Prod.snd ++ padding) ctx flowsOnly =
      records.map fun r => ctx.recordRow tpl.fields r.1 := by
  have hnone : decodeRecords tpl ctx padding.length ⟨padding⟩ = [] := by
    refine (decodeRecords_eq_nil_iff tpl padding ctx).mpr (hpadding.imp_right ?_)
    rintro ⟨hfixed, hshort⟩
    rwa [minRecord_eq, List.countP_eq_zero.mpr hfixed] at hshort
  rw [decodeDataSet_of_not_filtered hmode]
  refine (decodeRecords_of_encodes ctx hrecords padding le_rfl).trans ?_
  rw [hnone, List.append_nil]

/-- A Data Set of written records is decoded to their rows, in order, and to no row of a cut record. Behind
records of fixed length there may be padding shorter than a record. -/
theorem decodeDataSet_of_encodes (hmode : ¬ (flowsOnly ∧ tpl.kind = .options))
    {records : List (List Bytes × Bytes)}
    (hrecords : ∀ r ∈ records, RecordEncodes tpl.fields r.1 r.2 ∧ r.2 ≠ []) {padding : Bytes}
    (hpadding : padding = [] ∨ (∀ f ∈ tpl.fields, ¬ f.isVariable) ∧ padding.length < minRecord tpl.fields) :
    decodeDataSet tpl (records.flatMap Prod.snd ++ padding) ctx flowsOnly =
        records.map (fun r => ctx.recordRow tpl.fields r.1) ∧
      ∀ row ∈ decodeDataSet tpl (records.flatMap Prod.snd ++ padding) ctx flowsOnly,
        row.diagnostics ≠ some "truncated" := by
  have hrows : decodeDataSet tpl (records.flatMap Prod.snd ++ padding) ctx flowsOnly =
      records.map (fun r => ctx.recordRow tpl.fields r.1) := decodeDataSet_records hmode hrecords hpadding
  refine ⟨hrows, ?_⟩
  rw [hrows, List.forall_mem_map]
  exact fun r _ => recordRow_diagnostics ctx tpl.fields r.1

/-- A template of a protocol and the name of an interface. -/
def sampleNamed : TemplateEntry :=
  { kind := .data, fields := [fieldSpec 0 4 1, fieldSpec 0 82 0xFFFF], scopeFieldCount := 0
    firstSeen := 0, lastSeen := 0, useCount := 0 }

/-- A header context for it. -/
def sampleNamedCtx : Ctx := ⟨"10.0.0.1", 7, .v10, some 5000000, some 1, none, 256⟩

/-- Two records of it, with the name behind a short and behind a long prefix. -/
def sampleNames : List (List Bytes × Bytes) :=
  [([[6], [97]], [6] ++ ([1, 97] ++ [])), ([[17], [98, 99]], [17] ++ ([255, 0, 2, 98, 99] ++ []))]

theorem sampleNames_encodes : ∀ r ∈ sampleNames, RecordEncodes sampleNamed.fields r.1 r.2 := by
  rw [sampleNames, List.forall_mem_cons, List.forall_mem_singleton]
  exact ⟨.cons (.fixed (by decide) rfl) (.cons (.short (by decide) (by decide)) .nil),
    .cons (.fixed (by decide) rfl) (.cons (.long (by decide) (by decide)) .nil)⟩

/-- The two records are decoded to their rows. -/
theorem decodeDataSet_of_encodes_two :
    decodeDataSet sampleNamed (sampleNames.flatMap Prod.snd ++ []) sampleNamedCtx false =
        sampleNames.map (fun r => sampleNamedCtx.recordRow sampleNamed.fields r.1) ∧
      ∀ row ∈ decodeDataSet sampleNamed (sampleNames.flatMap Prod.snd ++ []) sampleNamedCtx false,
        row.diagnostics ≠ some "truncated" :=
  decodeDataSet_of_encodes (by decide) (fun r hr => ⟨sampleNames_encodes r hr, by revert r; decide⟩) (.inl rfl)

end Records

section Zeros

variable {tpl : TemplateEntry} {ctx : Ctx} {flowsOnly : Bool}

/-- Zeros behind the records of a Data Set change nothing about its rows exactly if they are shorter than the
fixed-length fields. -/
theorem decodeDataSet_zeros_iff (hvar : ∃ f ∈ tpl.fields, f.isVariable) {records : List (List Bytes × Bytes)}
    (hrecords : ∀ r ∈ records, RecordEncodes tpl.fields r.1 r.2) (k : ℕ) :
    decodeDataSet tpl (records.flatMap Prod.snd ++ List.replicate k 0) ctx flowsOnly =
        decodeDataSet tpl (records.flatMap Prod.snd) ctx flowsOnly ↔
      (flowsOnly ∧ tpl.kind = .options) ∨ k = 0 ∨ k < minFixed tpl := by
  by_cases hmode : flowsOnly ∧ tpl.kind = .options
  · refine iff_of_true ?_ (.inl hmode)
    simp [decodeDataSet, hmode]
  -- Every record has a prefix, so none is empty.
  have hrecords' : ∀ r ∈ records, RecordEncodes tpl.fields r.1 r.2 ∧ r.2 ≠ [] := by
    intro r hr
    refine ⟨hrecords r hr, List.ne_nil_of_length_pos (lt_of_lt_of_le ?_ (minRecord_le_length (hrecords r hr)))⟩
    rw [minRecord_eq]
    exact Nat.add_pos_right _ (List.countP_pos_iff.mpr hvar)
  have hrows : ∀ padding : Bytes, decodeDataSet tpl (records.flatMap Prod.snd ++ padding) ctx flowsOnly =
      records.map (fun r => ctx.recordRow tpl.fields r.1) ++ decodeRecords tpl ctx padding.length ⟨padding⟩ := by
    intro padding
    rw [decodeDataSet_of_not_filtered hmode]
    exact decodeRecords_of_encodes ctx hrecords' padding le_rfl
  have hexact := hrows []
  rw [List.append_nil] at hexact
  rw [hrows, hexact, List.append_cancel_left_eq]
  refine (decodeRecords_eq_nil_iff tpl (List.replicate k 0) ctx).trans ?_
  simp [holdsNoRecord, hmode]

/-- One zero behind the two records. -/
theorem decodeDataSet_zeros_iff_two :
    decodeDataSet sampleNamed (sampleNames.flatMap Prod.snd ++ List.replicate 1 0) sampleNamedCtx false =
        decodeDataSet sampleNamed (sampleNames.flatMap Prod.snd) sampleNamedCtx false ↔
      (false ∧ sampleNamed.kind = .options) ∨ 1 = 0 ∨ 1 < minFixed sampleNamed :=
  decodeDataSet_zeros_iff (by decide) sampleNames_encodes 1

/-- Zeros shorter than the shortest record of a template are not always ignored. -/
theorem not_forall_zeros :
    ¬ ∀ (tpl : TemplateEntry) (ctx : Ctx) (flowsOnly : Bool) (records : List (List Bytes × Bytes)) (k : ℕ),
      (∃ f ∈ tpl.fields, f.isVariable) → records ≠ [] → (∀ r ∈ records, RecordEncodes tpl.fields r.1 r.2) →
        k < minRecord tpl.fields → decodeDataSet tpl (records.flatMap Prod.snd ++ List.replicate k 0) ctx flowsOnly =
          decodeDataSet tpl (records.flatMap Prod.snd) ctx flowsOnly := by
  intro h
  have hsame := h sampleNamed sampleNamedCtx false sampleNames 1 (by decide) (by decide) sampleNames_encodes
    (by decide)
  revert hsame
  decide +kernel

end Zeros

end Netflow
