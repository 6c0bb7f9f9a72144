import Netflow.Provenance
import Netflow.Validation

/-!
# Triage

The function that validates datagrams is there to sort out, before a scan, what the scan would refuse. It reports
two defects more with which the decoders put up: v5 records that are missing and a tail that is too short for a Set.
-/

namespace Netflow

section Definitions

/-- The texts with which a whole datagram is refused. -/
def refusals : List String :=
  ["decode-error:not-a-flow-datagram", "decode-error:bad-v5-header", "decode-error:bad-v9-header",
    "decode-error:bad-ipfix-header", "decode-error:bad-sflow-header", "set-length-overrun", "bad-ipfix-set"] ++
  [Version.v5, .v9, .v10, .sflow5].map fun v => s!"decode-error:format-{v.asStr}-not-accepted-here"

/-- Whether a row refuses a datagram. -/
def FlowRecord.isRefusal (row : FlowRecord) : Bool := row.diagnostics.any fun text => text ∈ refusals

/-- Whether a datagram has no defect, or one with which the decoders put up. -/
def WellFormed.isReadable (w : WellFormed) : Bool :=
  w.ok || w.error ∈ [some "declared record count exceeds datagram length",
    some "trailing bytes shorter than a set header"]

/-- Whether a call takes the version of its datagram, if it has one, and validation lets the datagram through. -/
def Call.isReadable (call : Call) : Bool :=
  (probeVersion call.data).all (fun v => call.restrict.Accepts v) && (wellFormed call.data).isReadable

/-- Whether the header of a datagram is plain: no v5 header that is cut in the two bytes behind its engine id, and no
IPFIX header that declares another length than the message has. -/
def Call.isPlain (call : Call) : Bool :=
  match probeVersion call.data with
  | some .v5 => call.data.length < 22 ∨ 24 ≤ call.data.length
  | some .v10 => call.data.length < 16 ∨ field call.data 2 2 = call.data.length
  | _ => true

end Definitions

section Rows

variable {row : FlowRecord} {call : Call} {fmt : TemplatedFormat}

/-- A diagnostic row refuses a datagram if its text does. -/
theorem FlowRecord.isRefusal_diagnostic (exporter flowVersion : String) (obsDomain : UInt32)
    (exportTime : Option Int64) (sequence : Option UInt64) (text : String) :
    (diagnostic exporter flowVersion obsDomain exportTime sequence text).isRefusal = decide (text ∈ refusals) := rfl

/-- A row that accounts for a Data Set refuses no datagram. -/
theorem FlowRecord.DataSetDiagnostic.isRefusal (h : row.DataSetDiagnostic) : row.isRefusal = false := by
  have hall : ∀ text ∈ refusals, text ∉ ["enterprise-unmapped", "truncated"] ∧ text.toList.head? ≠ some 'm' := by
    decide
  unfold FlowRecord.isRefusal
  cases hdiag : row.diagnostics with
  | none => rfl
  | some text =>
    rw [Option.any_some, decide_eq_false_iff_not]
    exact fun hmem => h.ne (hall text hmem) hdiag

/-- Only rows that account for no Data Set refuse a datagram. -/
theorem countP_isRefusal_traceRows (flowsOnly : Bool) (trace : List Emission) :
    (traceRows flowsOnly trace).countP FlowRecord.isRefusal =
      (traceRows flowsOnly (trace.filter Emission.isStateless)).countP FlowRecord.isRefusal := by
  induction trace with
  | nil => rfl
  | cons e trace ih =>
    rw [traceRows_cons, List.countP_append, ih]
    cases hstateless : e.isStateless with
    | true => rw [List.filter_cons_of_pos hstateless, traceRows_cons, List.countP_append]
    | false =>
      have hnone : (e.rows flowsOnly).countP FlowRecord.isRefusal = 0 := by
        refine List.countP_eq_zero.mpr fun row hrow => ?_
        rw [(e.dataSetDiagnostic (by simpa [Emission.isStateless] using hstateless) hrow).isRefusal]
        exact Bool.false_ne_true
      rw [hnone, Nat.zero_add, List.filter_cons_of_neg (by simp [hstateless])]

/-- Of the defects only two are let through. -/
theorem WellFormed.isReadable_bad (version : Option Version) (error kind : String) :
    (bad version error kind).isReadable = (error = "declared record count exceeds datagram length" ∨
      error = "trailing bytes shorter than a set header") := by
  simp [isReadable, bad]

/-- Validation lets Sets through exactly if none of them is misframed. -/
theorem validateSets_isReadable {version : Version} {kind : String} {rounds : ℕ} {region : Bytes}
    (hrounds : region.length ≤ rounds) :
    (validateSets version kind rounds region).isReadable ↔ ¬ BadFraming region := by
  induction rounds generalizing region with
  | zero =>
    refine iff_of_true rfl fun h => ?_
    have hlength := h.length_le
    omega
  | succ rounds ih =>
    rw [validateSets]
    split
    · rename_i hempty
      refine iff_of_true rfl fun h => ?_
      have hlength := h.length_le
      rw [List.isEmpty_iff.mp hempty] at hlength
      contradiction
    · split
      · rename_i hshort
        refine iff_of_true (by rw [WellFormed.isReadable_bad]; decide) fun h => ?_
        have hlength := h.length_le
        omega
      · rename_i hwhole
        dsimp only
        rw [← declaredLength]
        split
        · rename_i hmin
          exact iff_of_false (by rw [WellFormed.isReadable_bad]; decide) fun h => h (.here (by omega) (.inl hmin))
        · rename_i hmin
          split
          · rename_i hmax
            exact iff_of_false (by rw [WellFormed.isReadable_bad]; decide) fun h => h (.here (by omega) (.inr hmax))
          · rename_i hmax
            rw [ih (by rw [List.length_drop]; omega), not_iff_not]
            constructor
            · intro h
              exact .later (by omega) (by omega) h
            · intro h
              cases h with
              | here _ hlength => omega
              | later _ _ hrest => exact hrest

/-- A v5 header is not parsed without its first 22 bytes. -/
theorem length_of_parseV5 {data : Bytes} (h : (parseV5 data).isSome) : 22 ≤ data.length := by
  obtain ⟨hdr, hhdr⟩ := Option.isSome_iff_exists.mp h
  simp only [parseV5, Option.bind_eq_bind, Option.bind_eq_some_iff] at hhdr
  obtain ⟨⟨_, c₁⟩, h₁, ⟨_, c₂⟩, h₂, ⟨_, c₃⟩, h₃, ⟨_, c₄⟩, h₄, ⟨_, c₅⟩, h₅, ⟨_, c₆⟩, h₆, ⟨_, c₇⟩, h₇,
    ⟨_, c₈⟩, h₈, -⟩ := hhdr
  dsimp only at h₂ h₃ h₄ h₅ h₆ h₇ h₈
  have hversion := Cursor.u16_remaining h₁
  have hcount := Cursor.u16_remaining h₂
  have huptime := Cursor.u32_remaining h₃
  have hsecs := Cursor.u32_remaining h₄
  have hnsecs := Cursor.u32_remaining h₅
  have hsequence := Cursor.u32_remaining h₆
  have htype := Cursor.u8_remaining h₇
  have hid := Cursor.u8_remaining h₈
  rw [Cursor.remaining_new] at hversion
  omega

/-- A v9 header is not parsed unless it is all there. -/
theorem length_of_parseV9 {data : Bytes} (h : (parseV9 data).isSome) : 20 ≤ data.length := by
  obtain ⟨hdr, hhdr⟩ := Option.isSome_iff_exists.mp h
  simp only [parseV9, Option.bind_eq_bind, Option.bind_eq_some_iff] at hhdr
  obtain ⟨⟨_, c₁⟩, h₁, ⟨_, c₂⟩, h₂, ⟨_, c₃⟩, h₃, ⟨_, c₄⟩, h₄, ⟨_, c₅⟩, h₅, ⟨_, c₆⟩, h₆, -⟩ := hhdr
  dsimp only at h₂ h₃ h₄ h₅ h₆
  have hversion := Cursor.u16_remaining h₁
  have hcount := Cursor.u16_remaining h₂
  have huptime := Cursor.u32_remaining h₃
  have hsecs := Cursor.u32_remaining h₄
  have hsequence := Cursor.u32_remaining h₅
  have hsource := Cursor.u32_remaining h₆
  rw [Cursor.remaining_new] at hversion
  omega

/-- Nor is an IPFIX header. -/
theorem length_of_parseIpfix {data : Bytes} (h : (parseIpfix data).isSome) : 16 ≤ data.length := by
  obtain ⟨hdr, hhdr⟩ := Option.isSome_iff_exists.mp h
  simp only [parseIpfix, Option.bind_eq_bind, Option.bind_eq_some_iff] at hhdr
  obtain ⟨⟨_, c₁⟩, h₁, ⟨_, c₂⟩, h₂, ⟨_, c₃⟩, h₃, ⟨_, c₄⟩, h₄, ⟨_, c₅⟩, h₅, -⟩ := hhdr
  dsimp only at h₂ h₃ h₄ h₅
  have hversion := Cursor.u16_remaining h₁
  have hlength := Cursor.u16_remaining h₂
  have hsecs := Cursor.u32_remaining h₃
  have hsequence := Cursor.u32_remaining h₄
  have hdomain := Cursor.u32_remaining h₅
  rw [Cursor.remaining_new] at hversion
  omega

/-- Of a format with templates, a header is parsed exactly if it is all there. -/
theorem isSome_parseHeader_of_format (h : call.format = some fmt) :
    (parseHeader call.data).isSome ↔ fmt.headerLen ≤ call.data.length := by
  rcases call.format_version h with ⟨rfl, hprobe⟩ | ⟨rfl, hprobe⟩
  · have hheader : parseHeader call.data = parseV9 call.data := by rw [parseHeader, hprobe]; rfl
    rw [hheader]
    exact ⟨length_of_parseV9, fun hlength => by rw [parseV9_of_le hlength]; rfl⟩
  · have hheader : parseHeader call.data = parseIpfix call.data := by rw [parseHeader, hprobe]; rfl
    rw [hheader]
    exact ⟨length_of_parseIpfix, fun hlength => by rw [parseIpfix_of_le hlength]; rfl⟩

/-- A datagram of a format with templates runs its passes exactly if it is readable. -/
theorem Call.isReadable_iff_parsed (h : call.format = some fmt) (hplain : call.isPlain) :
    call.isReadable ↔ call.parsed.isSome := by
  have hparsed : call.parsed.isSome ↔ (parseHeader call.data).isSome ∧ ¬ BadFraming (call.data.drop fmt.headerLen) := by
    rw [← TemplatedFormat.split_eq_error_iff, parsed, h, Option.bind_eq_bind, Option.bind_some]
    cases parseHeader call.data with
    | none => simp
    | some hdr => cases fmt.split call.data <;> simp [Except.toOption]
  obtain ⟨v, hprobe, haccepts⟩ := accepts_of_format h
  have hvalid : call.isReadable = (wellFormed call.data).isReadable := by
    rw [isReadable, hprobe, Option.all_some, decide_eq_true haccepts, Bool.true_and]
  rw [hparsed, hvalid, isSome_parseHeader_of_format h]
  rcases call.format_version h with ⟨rfl, hv⟩ | ⟨rfl, hv⟩
  · simp only [wellFormed, hv, validateV9]
    split
    · rename_i hshort
      exact iff_of_false (by rw [WellFormed.isReadable_bad]; decide) fun hwhole => absurd hwhole.1 (by
        change ¬ 20 ≤ _
        omega)
    · rename_i hwhole
      rw [validateSets_isReadable le_rfl]
      exact (and_iff_right (show 20 ≤ call.data.length by omega)).symm
  · simp only [isPlain, hv, decide_eq_true_eq] at hplain
    simp only [wellFormed, hv, validateIpfix]
    split
    · rename_i hshort
      exact iff_of_false (by rw [WellFormed.isReadable_bad]; decide) fun hwhole => absurd hwhole.1 (by
        change ¬ 16 ≤ _
        omega)
    · rename_i hwhole
      have hdeclared : beNat ((call.data.drop 2).take 2) = call.data.length := hplain.resolve_left hwhole
      rw [hdeclared, if_neg (by omega), List.take_length, validateSets_isReadable le_rfl]
      exact (and_iff_right (show 16 ≤ call.data.length by omega)).symm

/-- Of an sFlow datagram whose header is read no row refuses it. -/
theorem Sflow.isRefusal_of_mem_samplesTrace {exporterId : String} {subAgentId : UInt32} {sequence : UInt64}
    {count : ℕ} {c : Cursor} {e : Emission} {flowsOnly : Bool}
    (h : e ∈ samplesTrace exporterId subAgentId sequence count c) (hrow : row ∈ e.rows flowsOnly) :
    row.isRefusal = false := by
  obtain ⟨own, he, hcases⟩ := cases_of_mem_samplesTrace h
  obtain rfl := Emission.eq_of_mem_rows he hrow
  rcases hcases with rfl | ⟨body, expanded, hflow | rfl⟩
  · rw [FlowRecord.isRefusal_diagnostic]
    decide
  · rw [FlowRecord.isRefusal, (of_mem_decodeFlowSample hflow).2]
    rfl
  · rw [FlowRecord.isRefusal, (decodeCounterSample_keeps _ _ _ _ _).2]
    decide

/-- A v5 datagram is refused exactly if it is not readable. -/
theorem V5.countP_isRefusal {data : Bytes} (hprobe : probeVersion data = some .v5)
    (hplain : data.length < 22 ∨ 24 ≤ data.length) (exporter : String) :
    (decode data exporter).countP FlowRecord.isRefusal = if (wellFormed data).isReadable then 0 else 1 := by
  have hheader : parseHeader data = parseV5 data := by rw [parseHeader, hprobe]; rfl
  rcases hplain with hshort | hwhole
  · have hnone : parseHeader data = none := by
      rw [hheader, ← Option.not_isSome_iff_eq_none]
      intro h
      have hlength := length_of_parseV5 h
      omega
    have hreadable : (wellFormed data).isReadable = false := by
      rw [wellFormed, hprobe]
      simp only [validateV5, if_pos (show data.length < 24 by omega)]
      rfl
    rw [decode, hnone, hreadable]
    rfl
  · have hreadable : (wellFormed data).isReadable := by
      obtain ⟨hdr, hhdr, -⟩ := parseHeader_count hwhole hprobe
      simp only [wellFormed, hprobe, validateV5, hhdr, if_neg (show ¬ data.length < 24 by omega)]
      split <;> rfl
    rw [if_pos hreadable, List.countP_eq_zero]
    have hdiagnostics : ∀ row ∈ decode data exporter, row.diagnostics = none ∨ row.diagnostics = some "truncated" := by
      obtain ⟨hfit, hcut⟩ := decode_cases hwhole hprobe exporter
      rcases le_or_gt ((UInt16.ofNat (field data 2 2)).toNat * 48) (data.length - 24) with hle | hlt
      · exact fun row hrow => .inl ((hfit hle).2 row hrow)
      · obtain ⟨records, last, hrows, -, hnone, hlast⟩ := hcut hlt
        intro row hrow
        rw [hrows] at hrow
        rcases List.mem_append.mp hrow with hrecord | hend
        · exact .inl (hnone row hrecord)
        · rw [List.mem_singleton.mp hend]
          exact .inr hlast
    intro row hrow
    rcases hdiagnostics row hrow with hnote | hnote <;> rw [FlowRecord.isRefusal, hnote] <;> decide

/-- An sFlow datagram is refused exactly if it is not readable. -/
theorem Sflow.countP_isRefusal {data : Bytes} (hprobe : probeVersion data = some .sflow5) (exporter : String)
    (flowsOnly : Bool) :
    (traceRows flowsOnly (trace data exporter)).countP FlowRecord.isRefusal =
      if (wellFormed data).isReadable then 0 else 1 := by
  have hvalid : wellFormed data = validateSflow data := by rw [wellFormed, hprobe]
  have hok := validateSflow_of_probe hprobe
  obtain ⟨agent, hread⟩ := readHeader_of_probe hprobe
  have hreadable : (wellFormed data).isReadable = (readWords (behindAgent data)).isSome := by
    rw [← hok, hvalid]
    unfold validateSflow
    dsimp only
    split
    · rfl
    · rfl
  rw [hreadable, trace, hread]
  cases readWords (behindAgent data) with
  | none => rfl
  | some words =>
    rw [Option.isSome_some, if_pos rfl, List.countP_eq_zero]
    intro row hrow
    obtain ⟨e, he, hrow⟩ := List.mem_flatMap.mp hrow
    rw [isRefusal_of_mem_samplesTrace he hrow]
    exact Bool.false_ne_true

/-- A call refuses its datagram exactly if this is not readable, and then with one row. -/
theorem Call.countP_isRefusal (hplain : call.isPlain) (c : TemplateCache) :
    (call.decode c).1.countP FlowRecord.isRefusal = if call.isReadable then 0 else 1 := by
  rw [call.decode_eq_trace, countP_isRefusal_traceRows, call.filter_isStateless]
  cases hformat : call.format with
  | some fmt =>
    have hreadable := isReadable_iff_parsed hformat hplain
    cases hparsed : call.parsed with
    | some parsed =>
      rw [hparsed] at hreadable
      rw [stateless, hparsed, if_pos (hreadable.mpr rfl)]
      rfl
    | none =>
      rw [hparsed] at hreadable
      rw [stateless, hparsed, if_neg (fun h => Bool.false_ne_true (hreadable.mp h))]
      have hrefused : (call.rejection fmt).isRefusal := by
        unfold rejection
        rcases call.format_version hformat with ⟨rfl, -⟩ | ⟨rfl, -⟩ <;> cases parseHeader call.data <;>
          rw [FlowRecord.isRefusal_diagnostic] <;> decide
      simp [statelessTrace, hformat, Emission.rows, hrefused]
  | none =>
    have hparsed : call.parsed = none := by rw [parsed, hformat]; rfl
    rw [stateless, hparsed, Option.isSome_none, if_neg Bool.false_ne_true]
    cases hprobe : probeVersion call.data with
    | none =>
      have hreadable : call.isReadable = false := by
        rw [isReadable, wellFormed, hprobe]
        rfl
      have hrefused : "decode-error:not-a-flow-datagram" ∈ refusals := by decide
      simp [hreadable, statelessTrace, hformat, hprobe, Emission.rows, FlowRecord.isRefusal_diagnostic, hrefused]
    | some v =>
      rcases call.statelessTrace_cases hformat hprobe with ⟨rfl, haccepts, htrace⟩ | ⟨rfl, haccepts, htrace⟩ |
        ⟨haccepts, htrace⟩
      · simp only [isPlain, hprobe, decide_eq_true_eq] at hplain
        rw [htrace, traceRows_map_row, V5.countP_isRefusal hprobe hplain, isReadable, hprobe, Option.all_some,
          decide_eq_true haccepts, Bool.true_and]
      · rw [htrace, Sflow.countP_isRefusal hprobe, isReadable, hprobe, Option.all_some,
          decide_eq_true haccepts, Bool.true_and]
      · have hrefused : s!"decode-error:format-{v.asStr}-not-accepted-here" ∈ refusals := by cases v <;> decide
        rw [htrace, isReadable, hprobe, Option.all_some, decide_eq_false haccepts, Bool.false_and]
        simpa [Emission.rows, FlowRecord.isRefusal_diagnostic] using hrefused

/-- The first call of a scan comes before the others. -/
theorem scanRows_cons (call : Call) (calls : List Call) (c : TemplateCache) :
    scanRows (call :: calls) c = (call.decode c).1 ++ scanRows calls (call.decode c).2 := by
  simp [scanRows, runCalls_cons]

/-- The flush refuses no datagram. -/
theorem countP_isRefusal_flushPending (c : TemplateCache) : (flushPending c).1.countP FlowRecord.isRefusal = 0 := by
  rw [flushPending_eq_trace false, countP_isRefusal_traceRows, flushTrace_filter_isStateless]
  rfl

/-- A scan refuses as many datagrams as are not readable. -/
theorem countP_isRefusal_scanRows {calls : List Call} (hplain : ∀ call ∈ calls, call.isPlain) (c : TemplateCache) :
    (scanRows calls c).countP FlowRecord.isRefusal = calls.countP fun call => !call.isReadable := by
  induction calls generalizing c with
  | nil => exact countP_isRefusal_flushPending c
  | cons call calls ih =>
    obtain ⟨hfirst, hothers⟩ := List.forall_mem_cons.mp hplain
    rw [scanRows_cons, List.countP_append, call.countP_isRefusal hfirst, ih hothers, List.countP_cons, Nat.add_comm]
    cases call.isReadable <;> rfl

end Rows

/-- Run any calls with plain headers on any cache: a call refuses its datagram with one row if validation rejects
it, or if the call does not take its version, and otherwise with none. The flush refuses nothing. -/
theorem runCalls_refusals {calls : List Call} (hplain : ∀ call ∈ calls, call.isPlain) (c : TemplateCache) :
    (runCalls calls c).1.map (List.countP FlowRecord.isRefusal) =
        calls.map (fun call => if call.isReadable then 0 else 1) ∧
      (flushPending (runCalls calls c).2).1.countP FlowRecord.isRefusal = 0 := by
  refine ⟨?_, countP_isRefusal_flushPending _⟩
  induction calls generalizing c with
  | nil => rfl
  | cons call calls ih =>
    rw [List.forall_mem_cons] at hplain
    rw [runCalls_cons, List.map_cons, List.map_cons, call.countP_isRefusal hplain.1, ih hplain.2]

/-- A datagram that is read, one whose Set is longer than it, one with a short tail, and one of no format. -/
theorem runCalls_refusals_four :
    let calls := [sampleData, sampleHeader ++ [1, 0, 0, 9, 10, 0, 0, 1], sampleData ++ [0], [0, 1]].map
      fun data => Call.of data "10.0.0.1"
    (runCalls calls (.empty 4 64)).1.map (List.countP FlowRecord.isRefusal) = [0, 1, 0, 1] ∧
      (flushPending (runCalls calls (.empty 4 64)).2).1.countP FlowRecord.isRefusal = 0 := by
  intro calls
  have hplain : ∀ call ∈ calls, call.isPlain := by decide
  exact runCalls_refusals hplain (.empty 4 64)

end Netflow
