import Netflow.Reachable

/-!
# Rejected datagrams

What makes a datagram unacceptable, told from its bytes alone: no known format, a format
the entry point does not take, a header cut short, or a Set length that does not fit the
bytes that remain, at any depth of the Set region. Each is answered with one diagnostic
row and leaves the scan state as it was.
-/

namespace Netflow

/-- The versions a decode entry point accepts. -/
def Restrict.Accepts : Restrict → Version → Prop
  | .any, _ => True
  | .netflowOnly, v => v = .v5 ∨ v = .v9
  | .ipfixOnly, v => v = .v10
  | .sflowOnly, v => v = .sflow5

instance (restrict : Restrict) (v : Version) : Decidable (restrict.Accepts v) :=
  match restrict with
  | .any => .isTrue trivial
  | .netflowOnly => inferInstanceAs (Decidable (v = .v5 ∨ v = .v9))
  | .ipfixOnly => inferInstanceAs (Decidable (v = .v10))
  | .sflowOnly => inferInstanceAs (Decidable (v = .sflow5))

/-- Whether a text is that of a version that a function takes. -/
def Restrict.takesText (restrict : Restrict) (text : String) : Bool :=
  [Version.v5, .v9, .v10, .sflow5].any fun v => restrict.Accepts v ∧ v.asStr = text

/-- A function takes a version exactly if it takes its text. -/
theorem Restrict.takesText_asStr (restrict : Restrict) (v : Version) :
    restrict.takesText v.asStr = decide (restrict.Accepts v) := by
  cases restrict <;> cases v <;> decide

/-- Some Set of the region declares a length below its own header or past the end. -/
inductive BadFraming : Bytes → Prop
  | here {region : Bytes} (h : 4 ≤ region.length)
      (hlen : declaredLength region < 4 ∨ region.length < declaredLength region) : BadFraming region
  | later {region : Bytes} (hmin : 4 ≤ declaredLength region)
      (hmax : declaredLength region ≤ region.length)
      (h : BadFraming (region.drop (declaredLength region))) : BadFraming region

/-- A region with a misframed Set does not split. -/
theorem BadFraming.splitRegion {badSet : String} {region : Bytes} (h : BadFraming region)
    {rounds : ℕ} (hrounds : region.length ≤ rounds) : splitRegion badSet rounds region = .error badSet := by
  induction h generalizing rounds with
  | here h hlen =>
    obtain ⟨rounds, rfl⟩ : ∃ n, rounds = n + 1 := ⟨rounds - 1, by omega⟩
    rw [splitRegion_succ, if_neg (by omega), if_pos hlen]
  | @later region hmin hmax _ ih =>
    obtain ⟨rounds, rfl⟩ : ∃ n, rounds = n + 1 := ⟨rounds - 1, by omega⟩
    have hrest := @ih rounds (by rw [List.length_drop]; omega)
    rw [splitRegion_succ, if_neg (by omega), if_neg (by omega), hrest]
    rfl

/-- A region that does not split has a misframed Set. -/
theorem badFraming_of_splitRegion {badSet diag : String} {rounds : ℕ} {region : Bytes}
    (h : splitRegion badSet rounds region = .error diag) : BadFraming region := by
  induction rounds generalizing region diag with
  | zero => contradiction
  | succ rounds ih =>
    rcases splitRegion_succ_eq_error h with ⟨hlen, hdeclared, -⟩ | ⟨hmin, hmax, hrest⟩
    · exact .here hlen hdeclared
    · exact .later hmin hmax (ih hrest)

/-- Why a datagram is rejected. -/
inductive Call.Rejected (call : Call) : Prop
  | notFlow (h : probeVersion call.data = none)
  | notAccepted {v : Version} (h : probeVersion call.data = some v)
      (hrestrict : ¬ call.restrict.Accepts v)
  | badHeader (h : probeVersion call.data = some .v9 ∨ probeVersion call.data = some .v10)
      (hheader : parseHeader call.data = none)
  | badFlowSet (h : probeVersion call.data = some .v9) (hframing : BadFraming (call.data.drop 20))
  | badSet (h : probeVersion call.data = some .v10) (hframing : BadFraming (call.data.drop 16))

/-- The Set region of a format splits exactly when no Set in it is misframed. -/
theorem TemplatedFormat.split_eq_error_iff {fmt : TemplatedFormat} {data : Bytes} :
    (∃ diag, fmt.split data = .error diag) ↔ BadFraming (data.drop fmt.headerLen) := by
  have hregion : data.drop (min fmt.headerLen data.length) = data.drop fmt.headerLen := by
    rcases le_total fmt.headerLen data.length with h | h
    · rw [min_eq_left h]
    · rw [min_eq_right h, List.drop_length, List.drop_eq_nil_of_le h]
  simp only [TemplatedFormat.split, hregion]
  exact ⟨fun ⟨_, h⟩ => badFraming_of_splitRegion h, fun h => ⟨_, h.splitRegion le_rfl⟩⟩

/-- An entry point that takes a template-stateful datagram accepts its version. -/
theorem Call.accepts_of_format {call : Call} {fmt : TemplatedFormat} (h : call.format = some fmt) :
    ∃ v, probeVersion call.data = some v ∧ call.restrict.Accepts v := by
  unfold Call.format at h
  split at h <;> simp_all [Restrict.Accepts]

/-- A rejected datagram reaches no template pass. -/
theorem Call.Rejected.parsed_eq_none {call : Call} (h : call.Rejected) : call.parsed = none := by
  unfold Call.parsed
  cases hformat : call.format with
  | none => rfl
  | some fmt =>
    obtain ⟨v, hv, haccepts⟩ := Call.accepts_of_format hformat
    have hsplit (hframing : BadFraming (call.data.drop fmt.headerLen)) :
        (fmt.split call.data).toOption = none := by
      obtain ⟨diag, hdiag⟩ := TemplatedFormat.split_eq_error_iff.mpr hframing
      rw [hdiag]
      rfl
    have hversion := call.format_version hformat
    cases h with
    | notFlow h => simp [h] at hv
    | notAccepted h hrestrict =>
      obtain rfl := Option.some.inj (hv.symm.trans h)
      exact absurd haccepts hrestrict
    | badHeader _ hheader => simp [hheader]
    | badFlowSet h hframing =>
      obtain rfl : fmt = V9.format := by simpa [h] using hversion
      simp [hsplit hframing]
    | badSet h hframing =>
      obtain rfl : fmt = Ipfix.format := by simpa [h] using hversion
      simp [hsplit hframing]

/-- A rejected datagram is answered with one diagnostic row. -/
theorem Call.Rejected.statelessTrace {call : Call} (h : call.Rejected) :
    ∃ row : FlowRecord, row.diagnostics.isSome ∧ call.statelessTrace = [.row row] := by
  have hparsed := h.parsed_eq_none
  unfold Call.statelessTrace
  cases hformat : call.format with
  | some fmt =>
    refine ⟨call.rejection fmt, ?_, rfl⟩
    unfold Call.rejection
    split <;> rfl
  | none =>
    -- What is left is not a datagram, or one of a version that is not taken here.
    unfold Call.format at hformat
    cases hversion : probeVersion call.data with
    | none => exact ⟨_, rfl, rfl⟩
    | some v =>
      cases v <;> cases hrestrict : call.restrict <;> cases h <;>
        simp_all [Restrict.Accepts, FlowRecord.diagnostic]

/-- A rejected datagram is answered with exactly one row, which carries a diagnostic, and leaves
the whole scan state as it was. -/
theorem Reachable.decodeDatagram_of_rejected {serde : SerdeJson} (hserde : serde.Lawful)
    {c : TemplateCache} (h : Reachable serde c) {call : Call} (hrejected : call.Rejected) :
    ∃ row : FlowRecord, row.diagnostics.isSome ∧
      decodeDatagram call.data call.opts c call.restrict = ([row], c) := by
  obtain ⟨row, hrow, htrace⟩ := hrejected.statelessTrace
  refine ⟨row, hrow, ?_⟩
  have hpasses : call.passes c = ([.row row], c) := by
    rw [Call.passes, hrejected.parsed_eq_none, htrace]
  have hdecode := call.decode_eq_trace c
  rw [Call.trace_eq_of_passes (h.isSettled hserde) hpasses] at hdecode
  exact hdecode

/-- A misframed FlowSet after a valid one, on a cache that holds a buffered record. -/
theorem Reachable.decodeDatagram_of_rejected_misframed :
    let serde := SerdeJson.writing []
    let c := ((Call.of sampleData "10.0.0.1").decode .new).2
    let call := Call.of (sampleTemplate ++ [1, 0, 0, 9, 10, 0, 0, 1]) "10.0.0.1"
    serde.Lawful ∧ ∃ row : FlowRecord, row.diagnostics.isSome ∧
      decodeDatagram call.data call.opts c call.restrict = ([row], c) :=
  have hserde : (SerdeJson.writing []).Lawful := SerdeJson.writing_lawful (by simp)
  ⟨hserde, Reachable.decodeDatagram_of_rejected hserde (.decode _ (.empty _ _))
    (.badFlowSet (by decide) (.later (by decide) (by decide) (.here (by decide) (by decide))))⟩

end Netflow
