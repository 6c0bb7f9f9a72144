import Netflow.FlowsOnly
import Netflow.Ledger

/-!
# Data Sets that leave no row

A payload that is cut inside a record is reported by a `truncated` row, but a rest shorter
than the fixed-length fields is taken for padding, also when it is the whole payload. So a
Data Set leaves a row exactly if it is as long as the fixed-length fields of its template,
and in a scan such Data Sets and those that are reported missing are all that do.
-/

namespace Netflow

section Payloads

variable {tpl : TemplateEntry} {payload : Bytes} {ctx : Ctx} {flowsOnly : Bool}

/-- A payload no record can be cut off is reported by one row, if it is not too short for one. -/
theorem decodeRecords_of_none (hnonempty : payload ≠ []) (hfixed : minFixed tpl ≤ payload.length)
    (hnone : decodeOneRecord tpl (.new payload) ctx = none) :
    decodeRecords tpl ctx payload.length (.new payload) = [ctx.truncated] := by
  obtain ⟨n, hn⟩ := Nat.exists_eq_succ_of_ne_zero (List.length_pos_iff.mpr hnonempty).ne'
  have hlength : (Cursor.new payload).remaining = n + 1 := hn
  rw [hn, decodeRecords, if_neg (by omega), if_neg (by omega), hnone]

/-- Outside flows-only filtering, a payload leaves a row, and just the diagnostic one if no record can be cut
off it, exactly if it is as long as the fixed-length fields. -/
theorem decodeDataSet_reports_iff (hnonempty : payload ≠ []) (hmode : ¬ (flowsOnly ∧ tpl.kind = .options)) :
    (decodeDataSet tpl payload ctx flowsOnly ≠ [] ∧
        (decodeOneRecord tpl (.new payload) ctx = none →
          decodeDataSet tpl payload ctx flowsOnly = [ctx.truncated])) ↔
      minFixed tpl ≤ payload.length := by
  rw [decodeDataSet_of_not_filtered hmode, ne_eq, decodeRecords_eq_nil_iff, holdsNoRecord, not_or, not_lt]
  constructor
  · exact fun h => h.1.2
  · exact fun hfixed => ⟨⟨hnonempty, hfixed⟩, decodeRecords_of_none hnonempty hfixed⟩

end Payloads

/-- Whether a Data Set is reported missing or is as long as the fixed-length fields it is decoded against. -/
def Emission.LongEnough : Emission → Prop
  | .dataSet _ tpl rec => minFixed tpl ≤ rec.bytes.length
  | _ => True

/-- Outside flows-only filtering, a Data Set that is not empty leaves a row exactly if it is long enough. -/
theorem Emission.rows_ne_nil_iff {e : Emission} {key : TemplateKey} {rec : PendingRecord}
    (hsubject : e.subject? = some (key, rec)) (hnonempty : rec.bytes ≠ []) {flowsOnly : Bool}
    (hmode : ¬ (flowsOnly ∧ ¬ e.isFlow)) : e.rows flowsOnly ≠ [] ↔ e.LongEnough := by
  cases e with
  | row | counterSample => contradiction
  | missing key' rec' version => simp [rows, LongEnough]
  | dataSet key' tpl rec' =>
    cases hsubject
    have hnotFiltered : ¬ (flowsOnly ∧ tpl.kind = .options) := by
      rintro ⟨hflows, hkind⟩
      exact hmode ⟨hflows, by simp [isFlow, hkind]⟩
    rw [LongEnough, rows, decodeDataSet_of_not_filtered hnotFiltered, ne_eq, decodeRecords_eq_nil_iff,
      holdsNoRecord, not_or, not_lt]
    exact and_iff_right hnonempty

/-- Outside flows-only filtering, a payload that is not empty leaves a row, and just the diagnostic one if no
record can be cut off it, exactly if it is as long as the fixed-length fields of the template. In a scan the
Data Sets decoded and reported missing are those that arrived, and one that is not empty has left a row
exactly if it was reported missing or was as long as the fixed-length fields of its template. -/
theorem scan_reports_iff (calls : List Call) (capEntries capPendingBytes : UInt32) :
    (∀ (tpl : TemplateEntry) (payload : Bytes) (ctx : Ctx) (flowsOnly : Bool), payload ≠ [] →
      ¬ (flowsOnly ∧ tpl.kind = .options) →
      ((decodeDataSet tpl payload ctx flowsOnly ≠ [] ∧
          (decodeOneRecord tpl (.new payload) ctx = none →
            decodeDataSet tpl payload ctx flowsOnly = [ctx.truncated])) ↔
        minFixed tpl ≤ payload.length)) ∧
    let start := TemplateCache.empty capEntries capPendingBytes
    (runCalls calls start).1 = List.zipWith Call.rows calls (runTrace calls start).1 ∧
    (∀ flowsOnly, (flushPending (runCalls calls start).2).1 =
      traceRows flowsOnly (flushTrace (runTrace calls start).2)) ∧
    ((scanTrace calls start).filterMap Emission.subject?).Perm (calls.flatMap Call.arrivals) ∧
    ∀ e ∈ scanTrace calls start, ∀ key rec, e.subject? = some (key, rec) → rec.bytes ≠ [] →
      ∀ flowsOnly : Bool, ¬ (flowsOnly ∧ ¬ e.isFlow) → (e.rows flowsOnly ≠ [] ↔ e.LongEnough) := by
  constructor
  · exact fun tpl payload ctx flowsOnly => decodeDataSet_reports_iff
  · intro start
    refine ⟨by rw [runCalls_eq_trace], fun flowsOnly => by rw [runCalls_eq_trace, flushPending_eq_trace],
      scanTrace_subjects calls rfl, ?_⟩
    exact fun e _ key rec hsubject hnonempty flowsOnly => Emission.rows_ne_nil_iff hsubject hnonempty

/-- A datagram with three bytes for template 256. -/
def sampleShort : Bytes := sampleHeader ++ [1, 0, 0, 7, 10, 0, 0]

/-- The Data Set of three bytes for a template of four. -/
theorem scan_reports_iff_short :
    let tpl : TemplateEntry := ⟨.data, [fieldSpec 0 8 4], 0, 0, 0, 1⟩
    let cut : PendingRecord := ⟨some 5000000, some 1, .v9, some 0, [10, 0, 0]⟩
    ((decodeDataSet tpl cut.bytes (cut.ctx ⟨"10.0.0.1", 7, 256⟩) false ≠ [] ∧
        (decodeOneRecord tpl (.new cut.bytes) (cut.ctx ⟨"10.0.0.1", 7, 256⟩) = none →
          decodeDataSet tpl cut.bytes (cut.ctx ⟨"10.0.0.1", 7, 256⟩) false =
            [(cut.ctx ⟨"10.0.0.1", 7, 256⟩).truncated])) ↔ minFixed tpl ≤ cut.bytes.length) ∧
      ((Emission.dataSet ⟨"10.0.0.1", 7, 256⟩ tpl cut).rows false ≠ [] ↔
        (Emission.dataSet ⟨"10.0.0.1", 7, 256⟩ tpl cut).LongEnough) := by
  intro tpl cut
  have hscan := scan_reports_iff [Call.of sampleTemplate "10.0.0.1", Call.of sampleShort "10.0.0.1"] 16 1024
  refine ⟨hscan.1 tpl cut.bytes _ false (by decide) (by decide), ?_⟩
  refine hscan.2.2.2.2 (.dataSet ⟨"10.0.0.1", 7, 256⟩ tpl cut) ?_ _ cut rfl (by decide) false (by decide)
  decide +kernel

/-- A Data Set shorter than a record of a template learned from the wire does not always leave a row. -/
theorem not_forall_reports :
    ¬ ∀ (calls : List Call) (key : TemplateKey) (tpl : TemplateEntry) (payload : Bytes) (ctx : Ctx)
        (flowsOnly : Bool), (runCalls calls .new).2.entries[key]? = some tpl → payload ≠ [] →
      ¬ (flowsOnly ∧ tpl.kind = .options) → decodeDataSet tpl payload ctx flowsOnly ≠ [] := by
  intro h
  have hrows := h [Call.of sampleTemplate "10.0.0.1"] ⟨"10.0.0.1", 7, 256⟩ ⟨.data, [fieldSpec 0 8 4], 0, 0, 0, 0⟩
    [10, 0, 0] ⟨"10.0.0.1", 7, .v9, some 5000000, some 1, some 0, 256⟩ false (by decide +kernel) (by decide)
    (by decide)
  exact hrows (by decide +kernel)

end Netflow
