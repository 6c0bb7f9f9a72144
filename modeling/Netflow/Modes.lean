import Netflow.Decoded
import Netflow.FlowsOnly

/-!
# The mode of a datagram without data

A buffered Data Set is decoded in the mode of the datagram that brings its template, not in
that of the datagram it came with. So the mode of a datagram that carries only templates is
not indifferent: flows-only drops the Options data that waited for one of its templates. It
is indifferent exactly where no buffered Options data is released with a record in it.
-/

namespace Netflow

open Std (ExtTreeMap)

section Filter

/-- Whether flows-only changes nothing about an origin: it is about traffic, or it has no row. -/
def Emission.Indifferent (e : Emission) : Prop := e.isFlow ∨ e.rows false = []

/-- Flows-only keeps the rows of an origin exactly if it is indifferent, and never adds any. -/
theorem Emission.length_rows_flowsOnly (e : Emission) :
    (e.rows true).length ≤ (e.rows false).length ∧
      ((e.rows true).length = (e.rows false).length ↔ e.Indifferent) := by
  rw [e.rows_flowsOnly]
  unfold Indifferent
  cases e.isFlow with
  | true => simp
  | false =>
    simp only [Bool.false_eq_true, if_false, List.length_nil, Nat.zero_le, true_and, false_or]
    rw [eq_comm, List.length_eq_zero_iff]

/-- Flows-only never adds a row to a trace. -/
theorem traceRows_flowsOnly_length_le (trace : List Emission) :
    (traceRows true trace).length ≤ (traceRows false trace).length := by
  induction trace with
  | nil => exact le_rfl
  | cons e trace ih =>
    have hle := e.length_rows_flowsOnly.1
    simp only [traceRows_cons, List.length_append]
    omega

/-- Flows-only keeps as many rows of a trace as there are exactly if each origin is indifferent. -/
theorem traceRows_flowsOnly_length_eq (trace : List Emission) :
    (traceRows true trace).length = (traceRows false trace).length ↔ ∀ e ∈ trace, e.Indifferent := by
  induction trace with
  | nil => simp
  | cons e trace ih =>
    obtain ⟨hle, heq⟩ := e.length_rows_flowsOnly
    have hrest := traceRows_flowsOnly_length_le trace
    rw [List.forall_mem_cons, ← ih, ← heq, traceRows_cons, traceRows_cons, List.length_append,
      List.length_append]
    omega

/-- Where each origin is indifferent the rows of a trace are the same in both modes. -/
theorem traceRows_congr_of_indifferent {trace : List Emission} (h : ∀ e ∈ trace, e.Indifferent) :
    traceRows true trace = traceRows false trace := by
  apply List.flatMap_congr
  intro e he
  rw [e.rows_flowsOnly]
  rcases h e he with hflow | hnone
  · rw [if_pos hflow]
  · rw [hnone, ite_self]

/-- Two modes give a trace the same rows up to order exactly if they agree on flows-only or every
origin is indifferent. -/
theorem traceRows_perm_iff (trace : List Emission) (flowsOnly flowsOnly' : Bool) :
    (traceRows flowsOnly trace).Perm (traceRows flowsOnly' trace) ↔
      flowsOnly = flowsOnly' ∨ ∀ e ∈ trace, e.Indifferent := by
  have hperm : (traceRows true trace).Perm (traceRows false trace) ↔ ∀ e ∈ trace, e.Indifferent := by
    constructor
    · intro h
      exact (traceRows_flowsOnly_length_eq trace).mp h.length_eq
    · intro h
      exact traceRows_congr_of_indifferent h ▸ List.Perm.refl _
  cases flowsOnly <;> cases flowsOnly' <;> simp [hperm, @List.perm_comm _ (traceRows false trace)]

end Filter

section Release

/-- Only an Options template with room for a record in its payload makes an origin about a Data
Set depend on the mode. -/
theorem Emission.indifferent_dataSet (key : TemplateKey) (tpl : TemplateEntry) (rec : PendingRecord) :
    (Emission.dataSet key tpl rec).Indifferent ↔ (tpl.kind = .options → holdsNoRecord tpl rec.bytes) := by
  simp only [Indifferent, isFlow, rows, decodeDataSet, Bool.false_and, Bool.false_eq_true, if_false,
    decodeRecords_eq_nil_iff, decide_eq_true_eq]
  cases tpl.kind with
  | data => simp
  | options => simp

/-- Whether an origin depends on the mode is not a matter of statistics. -/
theorem Emission.blind_indifferent : Emission.Blind Emission.Indifferent := by
  intro key tpl useCount lastSeen rec
  rw [Emission.indifferent_dataSet, Emission.indifferent_dataSet]
  rfl

/-- A datagram of a template-stateful version that reaches no template pass has rows about traffic
only. -/
theorem Call.isFlow_of_mem_statelessTrace {call : Call} (hretries : call.retries) {e : Emission}
    (h : e ∈ call.statelessTrace) : e.isFlow := by
  unfold Call.statelessTrace at h
  cases hformat : call.format with
  | some fmt =>
    rw [hformat] at h
    rw [List.mem_singleton.mp h]
    rfl
  | none =>
    rw [hformat] at h
    simp only [Call.retries, decide_eq_true_eq] at hretries
    rcases hretries with hversion | hversion <;>
      · rw [hversion] at h
        rw [List.mem_singleton.mp h]
        rfl

/-- The origins of a call without a Data Set that depend on the mode: the buffered Data Sets of the
Options templates it leaves cached, where they hold a record. -/
theorem Call.indifferent_iff {call : Call} (hretries : call.retries) (harrivals : call.arrivals = [])
    (c : TemplateCache) :
    (∀ e ∈ (call.trace c).1, e.Indifferent) ↔
      ∀ (key : TemplateKey) (queue : List PendingRecord) tpl, c.pending[key]? = some queue →
        (call.pass1 c).entries[key]? = some tpl → tpl.kind = .options →
          ∀ rec ∈ queue, holdsNoRecord tpl rec.bytes := by
  have hmissing : ∀ key rec version, (Emission.missing key rec version).Indifferent :=
    fun _ _ _ => .inl rfl
  have hstateless : call.parsed = none → ∀ e ∈ call.statelessTrace, e.Indifferent :=
    fun _ e he => .inl (isFlow_of_mem_statelessTrace hretries he)
  rw [call.forall_trace Emission.blind_indifferent hmissing, and_iff_right hstateless]
  simp only [hretries, true_implies, Presents, harrivals, List.not_mem_nil, false_or, TemplateCache.Gives,
    Emission.indifferent_dataSet]
  constructor
  · intro h key queue tpl hqueue htpl hkind rec hrec
    exact h key rec ⟨queue, hqueue, hrec⟩ tpl htpl hkind
  · rintro h key rec ⟨queue, hqueue, hrec⟩ tpl htpl hkind
    exact h key queue tpl hqueue htpl hkind rec hrec

end Release

section Runs

/-- The rows of a scan around one of its calls. -/
theorem scanRows_around (before after : List Call) (call : Call) (cache : TemplateCache) :
    let c := (runCalls before cache).2
    scanRows (before ++ call :: after) cache =
      (runCalls before cache).1.flatten ++ ((call.decode c).1 ++ scanRows after (call.decode c).2) := by
  simp [scanRows, runCalls_append, runCalls_cons]

/-- Change the mode of a v9 or IPFIX datagram without a Data Set, anywhere in a run: the rows of the
scan stay the same up to order exactly if both modes or neither are flows-only, or no Options
template the datagram leaves cached has a buffered Data Set with a record in it. -/
theorem scanRows_withMode_iff {before after : List Call} {d : Call} (hversion : d.retries)
    (harrivals : d.arrivals = []) (m m' : Mode) (capEntries capPendingBytes : UInt32) :
    let c := (runCalls before (.empty capEntries capPendingBytes)).2
    (scanRows (before ++ d.withMode m :: after) (.empty capEntries capPendingBytes)).Perm
        (scanRows (before ++ d.withMode m' :: after) (.empty capEntries capPendingBytes)) ↔
      m.isFlowsOnly = m'.isFlowsOnly ∨
        ∀ (key : TemplateKey) (queue : List PendingRecord) tpl, c.pending[key]? = some queue →
          (d.pass1 c).entries[key]? = some tpl → tpl.kind = .options →
            ∀ rec ∈ queue, holdsNoRecord tpl rec.bytes := by
  intro c
  have hdecode : ∀ mode : Mode,
      (d.withMode mode).decode c = (traceRows mode.isFlowsOnly (d.trace c).1, (d.trace c).2) := by
    intro mode
    rw [Call.decode_eq_trace, d.trace_withMode]
    rfl
  rw [scanRows_around, scanRows_around, hdecode, hdecode, List.perm_append_left_iff,
    List.perm_append_right_iff, traceRows_perm_iff, Call.indifferent_iff hversion harrivals]

/-- A datagram whose only FlowSet defines Options template 257 as one scope field of four bytes. -/
def sampleOptionsTemplate : Bytes := sampleHeader ++ [0, 1, 0, 14, 1, 1, 0, 4, 0, 0, 0, 1, 0, 4]

/-- A datagram whose only FlowSet holds one record of Options template 257. -/
def sampleOptionsData : Bytes := sampleHeader ++ [1, 1, 0, 8, 10, 0, 0, 1]

/-- Options data that came in the default mode, and its template in each mode. -/
theorem scanRows_withMode_iff_options :
    let data := Call.of sampleOptionsData "10.0.0.1"
    let d := Call.of sampleOptionsTemplate "10.0.0.1"
    let c := (runCalls [data] (.empty 4 64)).2
    (scanRows ([data] ++ d.withMode .auto :: []) (.empty 4 64)).Perm
        (scanRows ([data] ++ d.withMode .flowsOnly :: []) (.empty 4 64)) ↔
      Mode.auto.isFlowsOnly = Mode.flowsOnly.isFlowsOnly ∨
        ∀ (key : TemplateKey) (queue : List PendingRecord) tpl, c.pending[key]? = some queue →
          (d.pass1 c).entries[key]? = some tpl → tpl.kind = .options →
            ∀ rec ∈ queue, holdsNoRecord tpl rec.bytes :=
  @scanRows_withMode_iff [Call.of sampleOptionsData "10.0.0.1"] [] (Call.of sampleOptionsTemplate "10.0.0.1")
    (by decide +kernel) (by decide +kernel) .auto .flowsOnly 4 64

/-- Not every mode change of a datagram without a Data Set leaves the rows of a scan alone. -/
theorem not_forall_scanRows_withMode :
    ¬ ∀ (before after : List Call) (d : Call) (m m' : Mode) (capEntries capPendingBytes : UInt32),
      d.parsed.isSome → d.arrivals = [] →
        (scanRows (before ++ d.withMode m :: after) (.empty capEntries capPendingBytes)).Perm
          (scanRows (before ++ d.withMode m' :: after) (.empty capEntries capPendingBytes)) := by
  intro h
  have hperm := h [Call.of sampleOptionsData "10.0.0.1"] [] (Call.of sampleOptionsTemplate "10.0.0.1")
    .auto .flowsOnly 4 64 (by decide +kernel) (by decide +kernel)
  have hlength := hperm.length_eq
  revert hlength
  decide +kernel

end Runs

end Netflow
