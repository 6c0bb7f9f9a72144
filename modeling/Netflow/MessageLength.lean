import Netflow.Validation

/-!
# The length field of an IPFIX message

The validator stops at the declared message length; the decoder reads that field and drops
it, and walks the Sets of the whole capture. So the length delimits the message exactly
when the capture itself ends where the Sets of the message do.
-/

namespace Netflow

section Frames

/-- How far the leading whole Sets of a region reach, for at most the given number of Sets. -/
def framedLength : ℕ → Bytes → ℕ
  | 0, _ => 0
  | rounds + 1, region =>
    if region.length < 4 ∨ declaredLength region < 4 ∨ declaredLength region > region.length then 0
    else declaredLength region + framedLength rounds (region.drop (declaredLength region))

/-- The declared length of a first Set is told by the first four bytes. -/
theorem declaredLength_take {region : Bytes} {m : ℕ} (h : 4 ≤ m) :
    declaredLength (region.take m) = declaredLength region := by
  unfold declaredLength
  rw [List.drop_take, List.take_take, min_eq_left (by omega)]

/-- A region that splits is its whole Sets and a tail too short for another. -/
theorem framedLength_of_split {badSet : String} {rounds : ℕ} {region : Bytes} {sets : List FlowSet}
    (hrounds : region.length ≤ rounds) (h : splitRegion badSet rounds region = .ok sets) :
    framedLength rounds region = (sets.map fun fs => fs.body.length + 4).sum ∧
      framedLength rounds region ≤ region.length ∧ region.length < framedLength rounds region + 4 := by
  induction rounds generalizing region sets with
  | zero =>
    cases h
    refine ⟨rfl, Nat.zero_le _, ?_⟩
    rw [framedLength]
    omega
  | succ rounds ih =>
    rcases splitRegion_succ_eq_ok h with ⟨hshort, rfl⟩ | ⟨hmin, hmax, out, hrest, rfl⟩
    · rw [framedLength, if_pos (.inl hshort)]
      exact ⟨rfl, Nat.zero_le _, by omega⟩
    · obtain ⟨hsum, hle, hlt⟩ := ih (by rw [List.length_drop]; omega) hrest
      rw [framedLength, if_neg (by omega)]
      simp only [List.map_cons, List.sum_cons, List.length_drop, List.length_take] at hsum hle hlt ⊢
      omega

/-- A message whose Sets are whole splits alone as it does in front of a tail that is too short
for another Set. -/
theorem splitRegion_take {badSet : String} {rounds : ℕ} {region : Bytes} {m : ℕ} (hm : m ≤ region.length)
    (hframed : ¬ BadFraming (region.take m))
    (htail : region.length < framedLength rounds (region.take m) + 4) :
    splitRegion badSet rounds region = splitRegion badSet rounds (region.take m) := by
  induction rounds generalizing region m with
  | zero => rfl
  | succ rounds ih =>
    have hlength : (region.take m).length = m := List.length_take_of_le hm
    by_cases hshort : m < 4
    · rw [framedLength, if_pos (.inl (by omega))] at htail
      rw [splitRegion_succ, splitRegion_succ, if_pos (by omega), if_pos (by omega)]
    · have hdeclared : declaredLength (region.take m) = declaredLength region :=
        declaredLength_take (by omega)
      have hwhole : 4 ≤ declaredLength region ∧ declaredLength region ≤ m := by
        by_contra hnot
        exact hframed (.here (by omega) (by omega))
      rw [framedLength, if_neg (by omega)] at htail
      have hrest : (region.take m).drop (declaredLength region) =
          (region.drop (declaredLength region)).take (m - declaredLength region) := List.drop_take
      have hsame : splitRegion badSet rounds (region.drop (declaredLength region)) =
          splitRegion badSet rounds ((region.drop (declaredLength region)).take (m - declaredLength region)) := by
        apply ih
        · rw [List.length_drop]
          omega
        · intro hlater
          rw [← hrest, ← hdeclared] at hlater
          exact hframed (.later (by omega) (by omega) hlater)
        · rw [hdeclared, hrest] at htail
          rw [List.length_drop]
          omega
      rw [splitRegion_succ, splitRegion_succ, if_neg (by omega), if_neg (by omega), if_neg (by omega),
        if_neg (by omega), hdeclared, hrest, hsame, List.take_take, List.take_take,
        min_eq_left (show 2 ≤ m by omega), min_eq_left hwhole.2]

/-- With a round for every byte, more rounds find no further whole Set. -/
theorem framedLength_rounds {region : Bytes} {rounds rounds' : ℕ} (h : region.length ≤ rounds)
    (h' : region.length ≤ rounds') : framedLength rounds region = framedLength rounds' region := by
  induction rounds generalizing region rounds' with
  | zero =>
    cases rounds' with
    | zero => rfl
    | succ rounds' => rw [framedLength, framedLength, if_pos (.inl (by omega))]
  | succ rounds ih =>
    cases rounds' with
    | zero => rw [framedLength, framedLength, if_pos (.inl (by omega))]
    | succ rounds' =>
      rw [framedLength, framedLength]
      split
      · rfl
      · rw [ih (by rw [List.length_drop]; omega) (show _ ≤ rounds' by rw [List.length_drop]; omega)]

end Frames

section Header

variable {data : Bytes}

/-- What makes a datagram IPFIX. -/
theorem probeVersion_eq_v10_iff :
    probeVersion data = some .v10 ↔ 2 ≤ data.length ∧ UInt16.ofNat (field data 0 2) = 10 := by
  by_cases hlen : 2 ≤ data.length
  · have hread : (Cursor.new data).u16 = some (.ofNat (field data 0 2), ⟨data.drop 2⟩) :=
      @u16_drop data 0 hlen
    rw [probeVersion, hread]
    simp only [Option.bind_eq_bind, Option.bind_some, hlen, true_and]
    generalize UInt16.ofNat (field data 0 2) = version
    by_cases hten : version = 10
    · subst hten
      exact iff_of_true rfl rfl
    · rw [if_neg hten]
      refine iff_of_false ?_ hten
      split
      · simp
      · split
        · simp
        · split
          · cases (Cursor.mk (data.drop 2)).u16 with
            | none => simp
            | some low =>
              simp only [Option.bind_some]
              split
              · split
                · split <;> simp
                · simp
              · simp
          · simp
  · have hnone : (Cursor.new data).u16 = none := by
      rw [Cursor.u16, Cursor.readBe, Cursor.take, if_pos (by rw [Cursor.remaining_new]; omega)]
      rfl
    simp [probeVersion, hnone, hlen]

/-- The first bytes of a datagram hold the same fields without the rest. -/
theorem field_take {m offset width : ℕ} (h : offset + width ≤ m) :
    field (data.take m) offset width = field data offset width := by
  unfold field
  rw [List.drop_take, List.take_take, min_eq_left (by omega)]

/-- The header of an IPFIX message is told by its first 16 bytes. -/
theorem parseHeader_take {m : ℕ} (hprobe : probeVersion data = some .v10) (hm : 16 ≤ m)
    (hlen : m ≤ data.length) :
    probeVersion (data.take m) = some .v10 ∧ parseHeader (data.take m) = parseHeader data := by
  have hlength : (data.take m).length = m := List.length_take_of_le hlen
  have htaken : probeVersion (data.take m) = some .v10 := by
    rw [probeVersion_eq_v10_iff, field_take (by omega)] at *
    exact ⟨by omega, hprobe.2⟩
  have hheader : parseHeader (data.take m) = parseIpfix (data.take m) := by rw [parseHeader, htaken]; rfl
  have hheader' : parseHeader data = parseIpfix data := by rw [parseHeader, hprobe]; rfl
  refine ⟨htaken, ?_⟩
  rw [hheader, hheader', parseIpfix_of_le (by omega), parseIpfix_of_le (by omega)]
  simp only [field_take (show 0 + 2 ≤ m by omega), field_take (show 4 + 4 ≤ m by omega),
    field_take (show 8 + 4 ≤ m by omega), field_take (show 12 + 4 ≤ m by omega)]

end Header

section Hollow

/-- A cache that learns nothing and refuses nothing. -/
structure TemplateCache.Hollow (c : TemplateCache) : Prop where
  entries : c.entries = ∅
  capEntries : c.capEntries = 0
  capPendingBytes : c.capPendingBytes = 4294967295

/-- Where the cap is zero, a layout is evicted as soon as it is learned. -/
theorem TemplateCache.Hollow.upsert {c : TemplateCache} (h : c.Hollow) (key : TemplateKey)
    (entry : TemplateEntry) : (c.upsert key entry).Hollow := by
  refine ⟨?_, h.capEntries, h.capPendingBytes⟩
  have hkeys : ∀ k ∈ (c.upsert key entry).entries, k ∈ ({key} : Finset TemplateKey) := by
    intro k hk
    obtain ⟨e, he⟩ := KeyedQueue.mem_iff_exists_getElem?.mp hk
    rcases getElem?_of_upsert he with ⟨rfl, -⟩ | ⟨-, hold⟩
    · exact Finset.mem_singleton_self _
    · simp [h.entries] at hold
  have hsize := size_le_card hkeys
  have hevicted : UInt32.ofNat (c.upsert key entry).entries.size ≤ c.capEntries := evictLoop_size_le le_rfl
  rw [Finset.card_singleton] at hsize
  rw [h.capEntries, UInt32.le_iff_toNat_le, UInt32.toNat_ofNat_of_lt' (lt_of_le_of_lt hsize (by decide))]
    at hevicted
  exact Std.ExtTreeMap.eq_empty_iff_size_eq_zero.mpr (Nat.le_zero.mp hevicted)

/-- Every operation keeps a cache hollow. -/
theorem stable_hollow (learned : List (TemplateKey × Layout)) (arrivals : List (TemplateKey × PendingRecord)) :
    Stable learned arrivals TemplateCache.Hollow where
  upsert _ key entry _ h := h.upsert key entry
  useTemplate c c' key now tpl huse h := by
    have hmem := TemplateCache.mem_of_useTemplate huse
    simp [h.entries] at hmem
  pushPending c key rec _ h :=
    ⟨by simpa using h.entries, by simpa using h.capEntries, by simpa using h.capPendingBytes⟩
  takePending _ _ h := ⟨h.entries, h.capEntries, h.capPendingBytes⟩

/-- On a hollow cache pass 2 buffers every Data Set. -/
theorem Settles.eq_nil_of_hollow {ctx : Ctx} {now : Int64} {sets : List FlowSet} {c c' : TemplateCache}
    {trace : List Emission} (h : Settles ctx now sets c trace c') (hc : c.Hollow) : trace = [] := by
  induction h with
  | nil => rfl
  | skip _ _ ih => exact ih hc
  | known _ huse =>
    have hmem := TemplateCache.mem_of_useTemplate huse
    simp [hc.entries] at hmem
  | @stored fs _ c c₁ _ _ _ _ hpush _ ih =>
    have hpushed := (stable_hollow [] [(ctx.key fs.id, ctx.pendingRecord fs.body)]).pushPending c _ _
      List.mem_cons_self hc
    rw [hpush] at hpushed
    exact ih hpushed
  | @refused fs _ c _ _ _ _ hpush =>
    have hroom : ¬ saturatingAdd c.pendingBytes (.ofNat (ctx.pendingRecord fs.body).bytes.length) >
        c.capPendingBytes := by
      rw [hc.capPendingBytes, gt_iff_lt, UInt32.lt_iff_toNat_lt, saturatingAdd_toNat]
      exact Nat.not_lt.mpr (min_le_right _ _)
    rw [TemplateCache.pushPending, if_neg hroom] at hpush
    simp at hpush

/-- So a datagram that reaches its passes is answered with no row at all. -/
theorem Call.decode_eq_nil_of_hollow {call : Call} {parsed : TemplatedFormat × Ctx × List FlowSet}
    (hparsed : call.parsed = some parsed) {c : TemplateCache} (hc : c.Hollow) : (call.decode c).1 = [] := by
  have hhollow : (call.passes c).2.Hollow := (stable_hollow call.learned call.arrivals).passes hc
  have hpassed : (call.passes c).1 = [] := by
    rcases call.passes_cases c with ⟨hnone, -⟩ | ⟨fmt, ctx, sets, trace, c', -, hsettles, hpasses⟩
    · rw [hparsed] at hnone
      contradiction
    · rw [hpasses]
      exact hsettles.eq_nil_of_hollow ((stable_hollow _ []).learnDefs hc)
  rw [call.decode_eq_trace]
  rcases call.trace_cases c with ⟨-, htrace⟩ | ⟨retried, c', hretries, htrace⟩
  · rw [htrace, hpassed, traceRows_nil]
  · have hnothing := (hretries.eq_of_notMem fun key _ => by simp [hhollow.entries]).1
    rw [htrace, hpassed, hnothing]
    rfl

end Hollow

namespace Ipfix

/-- The length field delimits the message. Where it is in range, a capture is decoded as its
first so many bytes are, nothing after them is taken for a Set, and what the validator finds
sound is not rejected. Where it is not, some row of every answer carries a diagnostic. -/
def LengthDelimits (data : Bytes) : Prop :=
  let declared := field data 2 2
  (16 ≤ declared → declared ≤ data.length →
    format.split data = format.split (data.take declared) ∧
    (∀ opts c restrict, decodeDatagram data opts c restrict =
      decodeDatagram (data.take declared) opts c restrict) ∧
    ((wellFormed data).ok → ∀ opts c restrict, ∀ row ∈ (decodeDatagram data opts c restrict).1,
      row.diagnostics ≠ some "bad-ipfix-set")) ∧
  (declared < 16 ∨ data.length < declared → ∀ opts c restrict,
    ∃ row ∈ (decodeDatagram data opts c restrict).1, row.diagnostics.isSome)

/-- The capture ends where the Sets of its message do: fewer than four bytes follow the last Set,
or a Set is misframed in the message and one is in the capture. Where the length is out of range,
a Set of the capture is misframed. -/
def EndsWithMessage (data : Bytes) : Prop :=
  let declared := field data 2 2
  let capture := data.drop 16
  let message := (data.take declared).drop 16
  if 16 ≤ declared ∧ declared ≤ data.length then
    (BadFraming message → BadFraming capture) ∧
      (¬ BadFraming message → capture.length < framedLength message.length message + 4)
  else BadFraming capture

variable {data : Bytes}

/-- The two splits agree exactly when the capture ends with its message. -/
theorem split_take_iff {m : ℕ} (hmin : 16 ≤ m) (hmax : m ≤ data.length) :
    let capture := data.drop 16
    let message := (data.take m).drop 16
    format.split data = format.split (data.take m) ↔
      (BadFraming message → BadFraming capture) ∧
        (¬ BadFraming message → capture.length < framedLength message.length message + 4) := by
  intro capture message
  have hmessage : message = capture.take (m - 16) := List.drop_take
  have hcapture : capture.length = data.length - 16 := List.length_drop
  have hlength : message.length = m - 16 := by
    rw [hmessage, List.length_take, hcapture]
    omega
  have hsplit : format.split data = splitRegion format.badSet capture.length capture := by
    simp only [TemplatedFormat.split, format, min_eq_left (hmin.trans hmax), capture]
  have hsplit' : format.split (data.take m) = splitRegion format.badSet capture.length message := by
    simp only [TemplatedFormat.split, format, List.length_take, min_eq_left hmax, min_eq_left hmin]
    exact splitRegion_rounds _ le_rfl (show message.length ≤ capture.length by omega)
  rw [hsplit, hsplit']
  constructor
  · intro hsame
    constructor
    · intro hbad
      rw [hbad.splitRegion (by omega)] at hsame
      exact badFraming_of_splitRegion hsame
    · intro hframed
      cases hresult : splitRegion format.badSet capture.length message with
      | error diag => exact absurd (badFraming_of_splitRegion hresult) hframed
      | ok sets =>
        rw [hresult] at hsame
        have hwhole := framedLength_of_split (by omega) hresult
        have hreach := framedLength_of_split le_rfl hsame
        rw [framedLength_rounds le_rfl (show message.length ≤ capture.length by omega)]
        omega
  · rintro ⟨hbad, htail⟩
    by_cases hframed : BadFraming message
    · rw [(hbad hframed).splitRegion le_rfl, hframed.splitRegion (by omega)]
    · have hend := htail hframed
      rw [framedLength_rounds le_rfl (show message.length ≤ capture.length by omega)] at hend
      rw [hmessage] at hframed hend ⊢
      exact splitRegion_take (by omega) hframed hend

/-- Decoding looks at the format, the header and the Sets of a datagram only. -/
theorem decodeDatagram_congr {data' : Bytes} (hprobe : probeVersion data = some .v10)
    (hprobe' : probeVersion data' = some .v10) (hheader : parseHeader data = parseHeader data')
    (hsplit : format.split data = format.split data') (opts : DecodeOptions) (c : TemplateCache)
    (restrict : Restrict) : decodeDatagram data opts c restrict = decodeDatagram data' opts c restrict := by
  unfold decodeDatagram Ipfix.decode decodeTemplated
  rw [hprobe, hprobe', hheader, hsplit]
  cases restrict <;> rfl

/-- An entry point that takes no IPFIX says so. -/
theorem stateless_of_not_accepted (hprobe : probeVersion data = some .v10) {opts : DecodeOptions}
    {restrict : Restrict} (hformat : (Call.mk data opts restrict).format = none) :
    (Call.mk data opts restrict).stateless =
      [.row (.diagnostic opts.exporter "10" 0 none none "decode-error:format-10-not-accepted-here")] := by
  have hparsed : (Call.mk data opts restrict).parsed = none := by
    rw [Call.parsed, hformat]
    rfl
  simp only [Call.stateless, hparsed, Option.isSome_none, Bool.false_eq_true, if_false, Call.statelessTrace,
    hformat, hprobe]
  simp only [Call.format, hprobe] at hformat
  cases restrict with
  | any | ipfixOnly => contradiction
  | netflowOnly | sflowOnly => rfl

/-- An IPFIX datagram whose Sets are not misframed reaches its passes. -/
theorem parsed_of_not_badFraming (hlen : 16 ≤ data.length) (hprobe : probeVersion data = some .v10)
    (hframed : ¬ BadFraming (data.drop 16)) (opts : DecodeOptions) :
    ∃ parsed, (Call.mk data opts .any).parsed = some parsed := by
  have hformat : (Call.mk data opts .any).format = some format := by simp only [Call.format, hprobe]
  have hparse : parseHeader data = parseIpfix data := by
    rw [parseHeader, hprobe]
    rfl
  cases hsplit : format.split data with
  | error diag => exact absurd (TemplatedFormat.split_eq_error_iff.mp ⟨diag, hsplit⟩) hframed
  | ok sets => simp [Call.parsed, hformat, hparse, parseIpfix_of_le hlen, hsplit, Except.toOption]

/-- An IPFIX datagram is answered with a row that says `bad-ipfix-set` exactly if a Set is misframed. -/
theorem exists_badSet_iff (hlen : 16 ≤ data.length) (hprobe : probeVersion data = some .v10)
    {opts : DecodeOptions} {restrict : Restrict} {fmt : TemplatedFormat}
    (hformat : (Call.mk data opts restrict).format = some fmt) (c : TemplateCache) :
    (∃ row ∈ (decodeDatagram data opts c restrict).1, row.diagnostics = some "bad-ipfix-set") ↔
      BadFraming (data.drop 16) := by
  have hparse : parseHeader data = parseIpfix data := by
    rw [parseHeader, hprobe]
    rfl
  have hfmt : fmt = format := by
    simpa [hprobe] using Call.format_version hformat
  subst hfmt
  exact Call.exists_badSet_iff hformat (hparse.trans (parseIpfix_of_le hlen)) c

/-- Some row of the answer to a datagram with a misframed Set carries a diagnostic. -/
theorem exists_diagnostic_of_badFraming (hlen : 16 ≤ data.length) (hprobe : probeVersion data = some .v10)
    (hbad : BadFraming (data.drop 16)) (opts : DecodeOptions) (c : TemplateCache) (restrict : Restrict) :
    ∃ row ∈ (decodeDatagram data opts c restrict).1, row.diagnostics.isSome := by
  cases hformat : (Call.mk data opts restrict).format with
  | some fmt =>
    obtain ⟨row, hrow, hdiag⟩ := (exists_badSet_iff hlen hprobe hformat c).mpr hbad
    exact ⟨row, hrow, by rw [hdiag]; rfl⟩
  | none =>
    have hmem := @Call.mem_decode_of_stateless ⟨data, opts, restrict⟩ c
    rw [stateless_of_not_accepted hprobe hformat] at hmem
    exact ⟨_, hmem (List.mem_singleton_self _), rfl⟩

/-- No row of the answer to a datagram without a misframed Set says `bad-ipfix-set`. -/
theorem diagnostics_ne_badSet (hlen : 16 ≤ data.length) (hprobe : probeVersion data = some .v10)
    (hframed : ¬ BadFraming (data.drop 16)) {opts : DecodeOptions} {c : TemplateCache} {restrict : Restrict}
    {row : FlowRecord} (hrow : row ∈ (decodeDatagram data opts c restrict).1) :
    row.diagnostics ≠ some "bad-ipfix-set" := by
  intro hdiag
  cases hformat : (Call.mk data opts restrict).format with
  | some fmt => exact hframed ((exists_badSet_iff hlen hprobe hformat c).mp ⟨row, hrow, hdiag⟩)
  | none =>
    rcases @Call.mem_decode_cases ⟨data, opts, restrict⟩ c row hrow with hstateless | hdata
    · rw [stateless_of_not_accepted hprobe hformat] at hstateless
      rw [List.mem_singleton.mp hstateless] at hdiag
      exact absurd (Option.some.inj hdiag) (by decide)
    · exact hdata.ne (by decide) hdiag

/-- What the validator finds sound has a length in range and no misframed Set up to there. -/
theorem not_badFraming_of_ok (hlen : 16 ≤ data.length) (hprobe : probeVersion data = some .v10)
    (hok : (wellFormed data).ok) : ¬ BadFraming ((data.take (field data 2 2)).drop 16) := by
  intro hbad
  have hkind := (wellFormed_consistent data).mp hok
  simp only [wellFormed, hprobe, validateIpfix, if_neg (Nat.not_lt.mpr hlen)] at hkind
  split at hkind
  · contradiction
  · have hoverrun := (@validateSets_kind .v10 "bad-ipfix-set" (by decide) _ _ le_rfl).mpr hbad
    exact absurd (hkind.symm.trans hoverrun) (by simp)

/-- For an IPFIX datagram that has its header, the length field delimits the message exactly when
the capture ends with it. -/
theorem lengthDelimits_iff (hlen : 16 ≤ data.length) (hprobe : probeVersion data = some .v10) :
    LengthDelimits data ↔ EndsWithMessage data := by
  by_cases hrange : 16 ≤ field data 2 2 ∧ field data 2 2 ≤ data.length
  · have hsame := split_take_iff hrange.1 hrange.2
    simp only at hsame
    simp only [EndsWithMessage, if_pos hrange]
    rw [← hsame]
    constructor
    · intro h
      exact (h.1 hrange.1 hrange.2).1
    · intro hsplit
      refine ⟨fun _ _ => ⟨hsplit, fun opts c restrict => ?_, fun hok opts c restrict row hrow => ?_⟩,
        fun hout => by omega⟩
      · obtain ⟨htaken, hheader⟩ := parseHeader_take hprobe hrange.1 hrange.2
        exact decodeDatagram_congr hprobe htaken hheader.symm hsplit opts c restrict
      · have hmessage := not_badFraming_of_ok hlen hprobe hok
        have hframed : ¬ BadFraming (data.drop 16) := by
          intro hbad
          obtain ⟨diag, hdiag⟩ := (@TemplatedFormat.split_eq_error_iff format data).mpr hbad
          rw [hdiag] at hsplit
          exact hmessage (TemplatedFormat.split_eq_error_iff.mp ⟨diag, hsplit.symm⟩)
        exact diagnostics_ne_badSet hlen hprobe hframed hrow
  · simp only [EndsWithMessage, if_neg hrange]
    constructor
    · intro h
      by_contra hframed
      obtain ⟨parsed, hparsed⟩ := parsed_of_not_badFraming hlen hprobe hframed {}
      have hnone := Call.decode_eq_nil_of_hollow hparsed
        (c := .empty 0 4294967295) ⟨rfl, rfl, rfl⟩
      obtain ⟨row, hrow, -⟩ := h.2 (by omega) {} (.empty 0 4294967295) .any
      have hempty : row ∈ ([] : List FlowRecord) := hnone ▸ hrow
      contradiction
    · intro hbad
      exact ⟨fun hmin hmax => absurd ⟨hmin, hmax⟩ hrange, fun _ => exists_diagnostic_of_badFraming hlen hprobe hbad⟩

/-- A message without Sets, and the same followed by four zero bytes. -/
def sampleMessage : Bytes := [0, 10, 0, 16] ++ List.replicate 12 0

/-- A message that ends with the capture. -/
theorem lengthDelimits_iff_exact : LengthDelimits sampleMessage ↔ EndsWithMessage sampleMessage :=
  lengthDelimits_iff (by decide) (by decide)

/-- Padding after the message is taken for a Set: the validator finds the capture sound, the
decoder rejects it. -/
theorem not_lengthDelimits_padded : ¬ LengthDelimits (sampleMessage ++ [0, 0, 0, 0]) := by
  intro h
  have hsound := (h.1 (by decide) (by decide)).2.2 (by decide) {} .new .any
  exact absurd (hsound (.diagnostic "" "10" 0 (some 0) (some 0) "bad-ipfix-set") (by decide)) (by decide)

end Ipfix

end Netflow
