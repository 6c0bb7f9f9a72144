import Netflow.Decode.Columns
import Netflow.Order
import Netflow.Rejection
import Netflow.WellFormed

/-!
# The validator against the decoders

Validation and decoding walk the Sets of a datagram separately, with different loop
conditions. Both find a Set misframed exactly when one is, so they agree on overruns; only
the validator minds a tail too short for a Set. For v5 both count whole records.
-/

namespace Netflow

section Sets

/-- A misframed region is not empty. -/
theorem BadFraming.length_le {region : Bytes} (h : BadFraming region) : 4 ≤ region.length := by
  cases h with
  | here h _ => exact h
  | later hmin hmax _ => exact hmin.trans hmax

/-- The validator reports an overrun exactly when some Set of the region is misframed. -/
theorem validateSets_kind {version : Version} {kind : String} (hkind : kind ≠ "truncated") {rounds : ℕ}
    {region : Bytes} (hrounds : region.length ≤ rounds) :
    (validateSets version kind rounds region).kind = some kind ↔ BadFraming region := by
  induction rounds generalizing region with
  | zero =>
    have hempty : ¬ BadFraming region := fun h => by
      have hlen := h.length_le
      omega
    simp [validateSets, WellFormed.okFor, hempty]
  | succ rounds ih =>
    rw [validateSets]
    by_cases hshort : region.length < 4
    · have hframed : ¬ BadFraming region := fun h => by
        have hlen := h.length_le
        omega
      simp only [hframed, iff_false, if_pos hshort]
      split
      · exact (Option.some_ne_none kind).symm
      · exact fun heq => hkind (Option.some.inj heq).symm
    · have hne : region.isEmpty = false := by
        cases region with
        | nil => simp at hshort
        | cons => rfl
      simp only [hne, Bool.false_eq_true, if_false, if_neg hshort]
      rw [← declaredLength]
      by_cases hmin : declaredLength region < 4
      · rw [if_pos hmin]
        exact iff_of_true rfl (.here (by omega) (.inl hmin))
      · rw [if_neg hmin]
        by_cases hmax : declaredLength region > region.length
        · rw [if_pos hmax]
          exact iff_of_true rfl (.here (by omega) (.inr hmax))
        · rw [if_neg hmax, ih (by rw [List.length_drop]; omega)]
          constructor
          · intro h
            exact .later (by omega) (by omega) h
          · intro h
            cases h with
            | here _ hlen => omega
            | later _ _ hrest => exact hrest

end Sets

section V5

/-- A whole v5 record has no diagnostic. -/
theorem V5.decodeRecord_diagnostics {cur : Cursor} (h : recordLen ≤ cur.remaining) (exporter : String)
    (obsDomain : UInt32) (hdr : ExportHeader) (bootMicros : Option Int64) :
    (V5.decodeRecord (cur.rest.take recordLen) exporter obsDomain hdr bootMicros).diagnostics = none := by
  rw [V5.decodeRecord_of_length (List.length_take_of_le h)]

/-- While all declared records are there, the v5 loop emits one row for each, without a
diagnostic. -/
theorem V5.decodeRecords_of_le {exporter : String} {obsDomain : UInt32} {hdr : ExportHeader}
    {bootMicros : Option Int64} {count : ℕ} {cur : Cursor} (h : count * recordLen ≤ cur.remaining) :
    (V5.decodeRecords exporter obsDomain hdr bootMicros count cur).length = count ∧
      ∀ row ∈ V5.decodeRecords exporter obsDomain hdr bootMicros count cur, row.diagnostics = none := by
  induction count generalizing cur with
  | zero => simp [V5.decodeRecords]
  | succ count ih =>
    have hwhole : recordLen ≤ cur.remaining := by
      simp only [recordLen] at h ⊢
      omega
    rw [V5.decodeRecords, Cursor.take_of_le hwhole]
    obtain ⟨hlength, hclean⟩ := @ih ⟨cur.rest.drop recordLen⟩ (by
      simp only [Cursor.remaining, recordLen, List.length_drop] at h ⊢
      omega)
    constructor
    · rw [List.length_cons, hlength]
    · exact List.forall_mem_cons.mpr ⟨V5.decodeRecord_diagnostics hwhole .., hclean⟩

/-- Where they are not, it emits a row for each whole record and a `truncated` one. -/
theorem V5.decodeRecords_of_lt {exporter : String} {obsDomain : UInt32} {hdr : ExportHeader}
    {bootMicros : Option Int64} {count : ℕ} {cur : Cursor} (h : cur.remaining < count * recordLen) :
    ∃ records last, V5.decodeRecords exporter obsDomain hdr bootMicros count cur = records ++ [last] ∧
      records.length = cur.remaining / recordLen ∧ (∀ row ∈ records, row.diagnostics = none) ∧
      last.diagnostics = some "truncated" := by
  induction count generalizing cur with
  | zero => omega
  | succ count ih =>
    rw [V5.decodeRecords]
    by_cases hshort : cur.remaining < recordLen
    · have hnone : cur.take recordLen = none := if_pos hshort
      rw [hnone]
      exact ⟨[], _, rfl, (Nat.div_eq_of_lt hshort).symm, by simp, rfl⟩
    · rw [Cursor.take_of_le (by omega)]
      have hrest : (Cursor.mk (cur.rest.drop recordLen)).remaining = cur.remaining - recordLen := by
        simp only [Cursor.remaining, List.length_drop]
      obtain ⟨records, last, hrecords, hlength, hclean, hlast⟩ := @ih ⟨cur.rest.drop recordLen⟩ (by
        simp only [recordLen] at h hshort hrest ⊢
        omega)
      have hwhole := V5.decodeRecord_diagnostics (Nat.not_lt.mp hshort) exporter obsDomain hdr bootMicros
      refine ⟨_ :: records, last, congrArg (List.cons _) hrecords, ?_,
        List.forall_mem_cons.mpr ⟨hwhole, hclean⟩, hlast⟩
      rw [List.length_cons, hlength, hrest]
      simp only [recordLen] at hshort ⊢
      omega

/-- The count of a v5 header that is all there. -/
theorem V5.parseHeader_count {data : Bytes} (hlen : 24 ≤ data.length)
    (hprobe : probeVersion data = some .v5) :
    ∃ hdr, parseHeader data = some hdr ∧ hdr.count = some (.ofNat (field data 2 2)) := by
  have hheader : parseHeader data = parseV5 data := by rw [parseHeader, hprobe]; rfl
  rw [hheader, parseV5_of_le hlen]
  exact ⟨_, rfl, rfl⟩

/-- The validator wants every record a v5 header declares. -/
theorem wellFormed_v5 {data : Bytes} (hlen : 24 ≤ data.length) (hprobe : probeVersion data = some .v5) :
    (wellFormed data).ok ↔ (UInt16.ofNat (field data 2 2)).toNat * 48 ≤ data.length - 24 := by
  obtain ⟨hdr, hheader, hcount⟩ := V5.parseHeader_count hlen hprobe
  simp only [wellFormed, hprobe, validateV5, if_neg (Nat.not_lt.mpr hlen), hheader, hcount,
    Option.getD_some]
  split
  · simp only [WellFormed.bad, Bool.false_eq_true, false_iff]
    omega
  · simp only [WellFormed.okFor, true_iff]
    omega

/-- What the v5 decoder answers, by the records declared and those that are there. -/
theorem V5.decode_cases {data : Bytes} (hlen : 24 ≤ data.length) (hprobe : probeVersion data = some .v5)
    (exporter : String) :
    let count := (UInt16.ofNat (field data 2 2)).toNat
    (count * 48 ≤ data.length - 24 → (V5.decode data exporter).length = count ∧
      ∀ row ∈ V5.decode data exporter, row.diagnostics = none) ∧
    (data.length - 24 < count * 48 → ∃ records last, V5.decode data exporter = records ++ [last] ∧
      records.length = (data.length - 24) / 48 ∧ (∀ row ∈ records, row.diagnostics = none) ∧
      last.diagnostics = some "truncated") := by
  intro count
  obtain ⟨hdr, hheader, hcount⟩ := V5.parseHeader_count hlen hprobe
  have hskip : ((Cursor.new data).skip 24).2.remaining = data.length - 24 := by
    rw [Cursor.skip, Cursor.take_of_le (show 24 ≤ (Cursor.new data).remaining from hlen)]
    exact List.length_drop
  rw [V5.decode, hheader]
  simp only [hcount, Option.getD_some]
  rw [← hskip]
  exact ⟨V5.decodeRecords_of_le, V5.decodeRecords_of_lt⟩

end V5

section Sets

/-- The diagnostics of rows that account for a Data Set: none, a note of the decoder, or a text
that starts like `missing-template`. -/
def FlowRecord.DataSetDiagnostic (row : FlowRecord) : Prop :=
  row.diagnostics = none ∨ row.diagnostics = some "enterprise-unmapped" ∨
    row.diagnostics = some "truncated" ∨ row.diagnostics.map (·.toList.head?) = some (some 'm')

/-- A row that accounts for a Data Set carries no diagnostic of a rejected datagram. -/
theorem FlowRecord.DataSetDiagnostic.ne {row : FlowRecord} (h : row.DataSetDiagnostic) {diag : String}
    (hdiag : diag ∉ ["enterprise-unmapped", "truncated"] ∧ diag.toList.head? ≠ some 'm') :
    row.diagnostics ≠ some diag := by
  intro heq
  simp only [DataSetDiagnostic, heq] at h
  simp at h hdiag
  tauto

/-- Every row that accounts for a Data Set has such a diagnostic. -/
theorem Emission.dataSetDiagnostic {e : Emission} (h : e.outcome?.isSome) {flowsOnly : Bool}
    {row : FlowRecord} (hrow : row ∈ e.rows flowsOnly) : row.DataSetDiagnostic := by
  cases e with
  | row | counterSample => contradiction
  | dataSet key tpl rec => exact (decodeDataSet_diagnostics hrow).imp_right (Or.imp_right .inl)
  | missing key rec version =>
    rw [List.mem_singleton.mp hrow]
    refine .inr (.inr (.inr ?_))
    simp only [missingTemplate, FlowRecord.diagnostic, Option.map_some, String.toList_append,
      List.head?_append]
    rfl

/-- A row of a call comes from a stateless origin, or accounts for a Data Set. -/
theorem Call.mem_decode_cases {call : Call} {c : TemplateCache} {row : FlowRecord}
    (h : row ∈ (call.decode c).1) :
    row ∈ traceRows call.opts.mode.isFlowsOnly call.stateless ∨ row.DataSetDiagnostic := by
  rw [call.decode_eq_trace] at h
  obtain ⟨e, he, hrow⟩ := List.mem_flatMap.mp h
  cases hstateless : e.isStateless with
  | true =>
    left
    rw [← call.filter_isStateless c]
    exact List.mem_flatMap.mpr ⟨e, List.mem_filter.mpr ⟨he, hstateless⟩, hrow⟩
  | false => exact .inr (e.dataSetDiagnostic (by simpa [Emission.isStateless] using hstateless) hrow)

/-- What a datagram that fails before its passes is answered with stays in the answer. -/
theorem Call.mem_decode_of_stateless {call : Call} (c : TemplateCache) {row : FlowRecord}
    (h : row ∈ traceRows call.opts.mode.isFlowsOnly call.stateless) : row ∈ (call.decode c).1 := by
  rw [call.decode_eq_trace]
  rw [← call.filter_isStateless c] at h
  obtain ⟨e, he, hrow⟩ := List.mem_flatMap.mp h
  exact List.mem_flatMap.mpr ⟨e, List.mem_of_mem_filter he, hrow⟩

/-- A datagram of a template-stateful format is answered with its rejection, if it is rejected. -/
theorem Call.stateless_of_format {call : Call} {fmt : TemplatedFormat} (hformat : call.format = some fmt)
    {hdr : ExportHeader} (hheader : parseHeader call.data = some hdr) :
    call.stateless = if (fmt.split call.data).toOption.isSome then [] else [.row (call.rejection fmt)] := by
  cases hsplit : fmt.split call.data with
  | error diag =>
    simp [Call.stateless, Call.statelessTrace, Call.parsed, hformat, hheader, hsplit, Except.toOption]
  | ok sets => simp [Call.stateless, Call.parsed, hformat, hheader, hsplit, Except.toOption]

/-- A datagram whose header parses is answered with the format's diagnostic for a Set length
exactly when a Set of it is misframed. -/
theorem Call.exists_badSet_iff {call : Call} {fmt : TemplatedFormat} (hformat : call.format = some fmt)
    {hdr : ExportHeader} (hheader : parseHeader call.data = some hdr) (c : TemplateCache) :
    (∃ row ∈ (call.decode c).1, row.diagnostics = some fmt.badSet) ↔
      BadFraming (call.data.drop fmt.headerLen) := by
  have hstateless := Call.stateless_of_format hformat hheader
  rw [← TemplatedFormat.split_eq_error_iff]
  constructor
  · rintro ⟨row, hrow, hdiag⟩
    cases hsplit : fmt.split call.data with
    | error diag => exact ⟨diag, rfl⟩
    | ok sets =>
      rw [hsplit] at hstateless
      have hdata := (Call.mem_decode_cases hrow).resolve_left (by simp [hstateless, Except.toOption])
      have hne : row.diagnostics ≠ some fmt.badSet := by
        rcases call.format_version hformat with ⟨rfl, -⟩ | ⟨rfl, -⟩
        · exact hdata.ne (by decide)
        · exact hdata.ne (by decide)
      exact absurd hdiag hne
  · rintro ⟨diag, hdiag⟩
    rw [hdiag] at hstateless
    refine ⟨call.rejection fmt, Call.mem_decode_of_stateless c ?_, ?_⟩
    · simp [hstateless, Except.toOption, Emission.rows]
    · simp only [Call.rejection, hheader]
      rfl

/-- An unrestricted call takes every v9 datagram. -/
theorem Call.format_of_v9 {data : Bytes} {opts : DecodeOptions} (h : probeVersion data = some .v9) :
    (Call.mk data opts .any).format = some V9.format := by
  simp only [Call.format, h]

/-- The answer to a v9 datagram reports an overrun exactly when one of its FlowSets is misframed. -/
theorem exists_overrun_iff {data : Bytes} (hlen : 20 ≤ data.length) (hprobe : probeVersion data = some .v9)
    (opts : DecodeOptions) (c : TemplateCache) :
    (∃ row ∈ (decodeDatagram data opts c .any).1, row.diagnostics = some "set-length-overrun") ↔
      BadFraming (data.drop 20) := by
  have hparse : parseHeader data = parseV9 data := by
    rw [parseHeader, hprobe]
    rfl
  exact Call.exists_badSet_iff (Call.format_of_v9 hprobe) (hparse.trans (parseV9_of_le hlen)) c

end Sets

/-- Validator and decoder agree. Whatever the options and the cache, the answer to a v9 datagram
that has its header reports an overrun exactly when the validator does, and none when the
validator finds it sound. A v5 datagram that has its header is sound exactly when it is answered
with one row for each declared record and no `truncated` one; otherwise it is answered with its
whole records and one `truncated` row. -/
theorem wellFormed_agrees (data : Bytes) (opts : DecodeOptions) (c : TemplateCache) :
    let rows := (decodeDatagram data opts c .any).1
    let whole := (data.length - 24) / 48
    (20 ≤ data.length → probeVersion data = some .v9 →
      ((wellFormed data).kind = some "set-length-overrun" ↔
        ∃ row ∈ rows, row.diagnostics = some "set-length-overrun") ∧
      ((wellFormed data).ok → ∀ row ∈ rows, row.diagnostics ≠ some "set-length-overrun")) ∧
    (24 ≤ data.length → probeVersion data = some .v5 →
      ((wellFormed data).ok ↔
        rows.length = field data 2 2 ∧ ∀ row ∈ rows, row.diagnostics ≠ some "truncated") ∧
      (¬ (wellFormed data).ok → ∃ records last, rows = records ++ [last] ∧ records.length = whole ∧
        (∀ row ∈ records, row.diagnostics = none) ∧ last.diagnostics = some "truncated")) := by
  intro rows whole
  refine ⟨fun hlen hprobe => ?_, fun hlen hprobe => ?_⟩
  · have hkind : (wellFormed data).kind = some "set-length-overrun" ↔ BadFraming (data.drop 20) := by
      simp only [wellFormed, hprobe, validateV9, if_neg (Nat.not_lt.mpr hlen)]
      exact validateSets_kind (by decide) le_rfl
    have hrows := exists_overrun_iff hlen hprobe opts c
    refine ⟨hkind.trans hrows.symm, fun hok row hrow hdiag => ?_⟩
    have hbad := hkind.mpr (hrows.mp ⟨row, hrow, hdiag⟩)
    rw [(wellFormed_consistent data).mp hok] at hbad
    contradiction
  · have hrows : rows = V5.decode data opts.exporter := by
      have hdecode : decodeDatagram data opts c .any = (V5.decode data opts.exporter, c) := by
        unfold decodeDatagram
        simp only [hprobe, Option.some.injEq, reduceCtorEq, or_self, false_and, if_false]
      exact congrArg Prod.fst hdecode
    have hcount : (UInt16.ofNat (field data 2 2)).toNat = field data 2 2 :=
      UInt16.toNat_ofNat_of_lt' (field_lt data 2 2)
    have hok := wellFormed_v5 hlen hprobe
    obtain ⟨hwhole, hcut⟩ := V5.decode_cases hlen hprobe opts.exporter
    rw [hcount] at hok hwhole hcut
    rw [← hrows] at hwhole hcut
    constructor
    · constructor
      · intro h
        obtain ⟨hlength, hclean⟩ := hwhole (hok.mp h)
        exact ⟨hlength, fun row hrow => by simp [hclean row hrow]⟩
      · rintro ⟨-, hclean⟩
        by_contra hnot
        obtain ⟨records, last, hsplit, -, -, hlast⟩ := hcut (by rw [hok] at hnot; omega)
        exact hclean last (by rw [hsplit]; simp) hlast
    · intro hnot
      exact hcut (by rw [hok] at hnot; omega)

/-- A v9 datagram with a FlowSet that is too long, and a v5 datagram without its one record. -/
theorem wellFormed_agrees_cut :
    let overrun := sampleHeader ++ [1, 0, 0, 9, 10, 0, 0, 1]
    let cut : Bytes := [0, 5, 0, 1] ++ List.replicate 20 0
    ((wellFormed overrun).kind = some "set-length-overrun" ↔
      ∃ row ∈ (decodeDatagram overrun {} .new .any).1, row.diagnostics = some "set-length-overrun") ∧
    ∃ records last, (decodeDatagram cut {} .new .any).1 = records ++ [last] ∧ records.length = 0 ∧
      (∀ row ∈ records, row.diagnostics = none) ∧ last.diagnostics = some "truncated" :=
  ⟨((wellFormed_agrees _ {} .new).1 (by decide) (by decide)).1,
    ((wellFormed_agrees _ {} .new).2 (by decide) (by decide)).2 (by decide)⟩

end Netflow
