import Netflow.Triage
import Netflow.Worker.Relation

/-!
# The probes

Three scalar functions tell of each datagram of a column what it is without decoding it: its version, its export
header, and whether it is well formed. Two of them return arrays of structs, which are built one row after the other.
Read back, the three columns fit together in each row, and they fit the rows that a scan of the datagrams returns.
-/

namespace Netflow

variable {ArrayRef RecordBatch : Type}

section Model

/-- The text of the version of a datagram. -/
def FlowVersion.read (cell : Option Bytes) : Option String :=
  cell.bind fun bytes => (probeVersion bytes).map Version.asStr

/-- The builders of the columns of headers, and of their validity. -/
structure HeaderBuilder where
  validity : List Bool := []
  version : List (Option UInt16) := []
  count : List (Option UInt16) := []
  sysUptime : List (Option UInt32) := []
  exportTime : List (Option Int64) := []
  sequence : List (Option UInt64) := []
  obsDomain : List (Option UInt32) := []

/-- Append a row. -/
def HeaderBuilder.append (b : HeaderBuilder) : Option ExportHeader → HeaderBuilder
  | some h => ⟨b.validity ++ [true], b.version ++ [some h.version], b.count ++ [h.count], b.sysUptime ++ [h.sysUptime],
      b.exportTime ++ [h.exportTime], b.sequence ++ [h.sequence], b.obsDomain ++ [h.obsDomain]⟩
  | none => ⟨b.validity ++ [false], b.version ++ [none], b.count ++ [none], b.sysUptime ++ [none],
      b.exportTime ++ [none], b.sequence ++ [none], b.obsDomain ++ [none]⟩

/-- The builders of the columns of verdicts. -/
structure WellFormedBuilder where
  validity : List Bool := []
  ok : List (Option Bool) := []
  version : List (Option String) := []
  error : List (Option String) := []
  kind : List (Option String) := []

/-- Append a row. -/
def WellFormedBuilder.append (b : WellFormedBuilder) : Option WellFormed → WellFormedBuilder
  | some w => ⟨b.validity ++ [true], b.ok ++ [some w.ok], b.version ++ [w.version], b.error ++ [w.error],
      b.kind ++ [w.kind]⟩
  | none => ⟨b.validity ++ [false], b.ok ++ [none], b.version ++ [none], b.error ++ [none], b.kind ++ [none]⟩

/-- The fields of a header. -/
def headerFields : List Field :=
  [⟨"version", .primitive .uInt16, true⟩, ⟨"count", .primitive .uInt16, true⟩,
    ⟨"sys_uptime", .primitive .uInt32, true⟩, ⟨"export_time", .primitive .timestampUtc, true⟩,
    ⟨"sequence", .primitive .uInt64, true⟩, ⟨"obs_domain", .primitive .uInt32, true⟩]

/-- The fields of a verdict. -/
def wellFormedFields : List Field :=
  [⟨"ok", .boolean, true⟩, ⟨"version", .utf8, true⟩, ⟨"error", .utf8, true⟩, ⟨"kind", .utf8, true⟩]

variable (arrow : Arrow ArrayRef RecordBatch)

/-- The struct array of the headers. -/
def HeaderBuilder.finish (b : HeaderBuilder) : Except Failure ArrayRef :=
  orPanic (arrow.structArray headerFields
    [arrow.primitiveArray .uInt16 b.version, arrow.primitiveArray .uInt16 b.count,
      arrow.primitiveArray .uInt32 b.sysUptime, arrow.primitiveArray .timestampUtc b.exportTime,
      arrow.primitiveArray .uInt64 b.sequence, arrow.primitiveArray .uInt32 b.obsDomain] (some b.validity))

/-- The struct array of the verdicts. -/
def WellFormedBuilder.finish (b : WellFormedBuilder) : Except Failure ArrayRef := do
  let version ← arrow.strCol b.version
  let error ← arrow.strCol b.error
  let kind ← arrow.strCol b.kind
  orPanic (arrow.structArray wellFormedFields [arrow.booleanArray b.ok, version, error, kind] (some b.validity))

/-- Read the first column of a batch, append what each datagram of it gives, and put the array that is built into a
batch. Without a column there is a panic. -/
def Arrow.probe {α β : Type} (read : Option Bytes → α) (append : β → α → β) (finish : β → Except Failure ArrayRef)
    (empty : β) (outputSchema : Schema) (batch : RecordBatch) : Except Failure RecordBatch :=
  match arrow.schema batch with
  | [] => .error .panic
  | _ :: _ => do
    let built ← arrow.foldRows (fun b _ cell => append b (read cell)) (arrow.column batch 0)
      (List.range (arrow.numRows batch)) empty
    let out ← finish built
    arrow.newBatch outputSchema [out]

/-- The versions of the datagrams in the first column. -/
def FlowVersion.process (outputSchema : Schema) (batch : RecordBatch) : Except Failure RecordBatch :=
  arrow.probe read (fun cells cell => cells ++ [cell]) arrow.strCol [] outputSchema batch

/-- The export headers of the datagrams in the first column. -/
def Header.process (outputSchema : Schema) (batch : RecordBatch) : Except Failure RecordBatch :=
  arrow.probe (fun cell => cell.bind parseHeader) HeaderBuilder.append (HeaderBuilder.finish arrow) {}
    outputSchema batch

/-- Whether the datagrams in the first column are well formed. -/
def WellFormed.process (outputSchema : Schema) (batch : RecordBatch) : Except Failure RecordBatch :=
  arrow.probe (fun cell => cell.map wellFormed) WellFormedBuilder.append (WellFormedBuilder.finish arrow) {}
    outputSchema batch

end Model

section Read

namespace Arrow

variable (arrow : Arrow ArrayRef RecordBatch)

/-- The texts in the first column of a batch. -/
def versions (batch : RecordBatch) : List (Option String) :=
  (List.range (arrow.numRows batch)).map (arrow.cell arrow.string (arrow.column batch 0))

/-- A row of a struct array of headers; a header has a version. -/
def headerAt (col : ArrayRef) (row : ℕ) : Option (Option ExportHeader) :=
  match arrow.isNull col row, arrow.children col with
  | true, _ => some none
  | false, [version, count, sysUptime, exportTime, sequence, obsDomain] => do
    let version ← arrow.cell (arrow.primitive .uInt16) version row
    some (some { version
                 count := arrow.cell (arrow.primitive .uInt16) count row
                 sysUptime := arrow.cell (arrow.primitive .uInt32) sysUptime row
                 exportTime := arrow.cell (arrow.primitive .timestampUtc) exportTime row
                 sequence := arrow.cell (arrow.primitive .uInt64) sequence row
                 obsDomain := arrow.cell (arrow.primitive .uInt32) obsDomain row })
  | false, _ => none

/-- The headers in the first column of a batch. -/
def headers (batch : RecordBatch) : Option (List (Option ExportHeader)) :=
  (List.range (arrow.numRows batch)).mapM (arrow.headerAt (arrow.column batch 0))

/-- A row of a struct array of verdicts. -/
def wellFormedAt (col : ArrayRef) (row : ℕ) : Option (Option WellFormed) :=
  match arrow.isNull col row, arrow.children col with
  | true, _ => some none
  | false, [ok, version, error, kind] => do
    let ok ← arrow.cell arrow.boolean ok row
    some (some { ok
                 version := arrow.cell arrow.string version row
                 error := arrow.cell arrow.string error row
                 kind := arrow.cell arrow.string kind row })
  | false, _ => none

/-- The verdicts in the first column of a batch. -/
def verdicts (batch : RecordBatch) : Option (List (Option WellFormed)) :=
  (List.range (arrow.numRows batch)).mapM (arrow.wellFormedAt (arrow.column batch 0))

/-- The datagrams in the first column of a batch. -/
def datagrams (batch : RecordBatch) : List (Option Bytes) :=
  (List.range (arrow.numRows batch)).map fun row => (arrow.blobBytes (arrow.column batch 0) row).toOption.join

end Arrow

end Read

section Building

variable {arrow : Arrow ArrayRef RecordBatch} {batch : RecordBatch} {rows : ℕ}

/-- The builders of some rows. -/
def HeaderBuilder.ofRows (rows : List (Option ExportHeader)) : HeaderBuilder where
  validity := rows.map Option.isSome
  version := rows.map (·.map ExportHeader.version)
  count := rows.map (·.bind ExportHeader.count)
  sysUptime := rows.map (·.bind ExportHeader.sysUptime)
  exportTime := rows.map (·.bind ExportHeader.exportTime)
  sequence := rows.map (·.bind ExportHeader.sequence)
  obsDomain := rows.map (·.bind ExportHeader.obsDomain)

/-- To append a row to the builders of some rows is to append it to the rows. -/
theorem HeaderBuilder.append_ofRows (rows : List (Option ExportHeader)) (row : Option ExportHeader) :
    (ofRows rows).append row = ofRows (rows ++ [row]) := by
  cases row <;> simp [append, ofRows]

/-- The builders of some rows. -/
def WellFormedBuilder.ofRows (rows : List (Option WellFormed)) : WellFormedBuilder where
  validity := rows.map Option.isSome
  ok := rows.map (·.map WellFormed.ok)
  version := rows.map (·.bind WellFormed.version)
  error := rows.map (·.bind WellFormed.error)
  kind := rows.map (·.bind WellFormed.kind)

/-- To append a row to the builders of some rows is to append it to the rows. -/
theorem WellFormedBuilder.append_ofRows (rows : List (Option WellFormed)) (row : Option WellFormed) :
    (ofRows rows).append row = ofRows (rows ++ [row]) := by
  cases row <;> simp [append, ofRows]

/-- What is appended to row by row is what all the rows give. -/
theorem Arrow.foldRows_eq_ok {α β : Type} {read : Option Bytes → α} {append : β → α → β} {ofRows : List α → β}
    (happend : ∀ done row, append (ofRows done) row = ofRows (done ++ [row])) {col : ArrayRef} {rows : List ℕ}
    (hrows : ∀ row ∈ rows, ∃ cell, arrow.blobBytes col row = .ok cell) (done : List α) :
    arrow.foldRows (fun b _ cell => append b (read cell)) col rows (ofRows done) =
      .ok (ofRows (done ++ rows.map fun row => read (arrow.blobBytes col row).toOption.join)) := by
  induction rows generalizing done with
  | nil => rw [foldRows, List.map_nil, List.append_nil]
  | cons row rows ih =>
    obtain ⟨⟨cell, hcell⟩, hothers⟩ := List.forall_mem_cons.mp hrows
    rw [foldRows, hcell]
    simp only [bind, Except.bind, happend, ih hothers, List.map_cons, hcell, Except.toOption, Option.join_some,
      List.append_assoc, List.singleton_append]


section Columns

variable (h : arrow.Lawful)

include h

/-- A batch of one column. -/
theorem Arrow.Lawful.exists_newBatch_one {field : Field} {col : ArrayRef} (hfits : arrow.FitsField rows field col) :
    ∃ out, arrow.newBatch [field] [col] = .ok out ∧ arrow.numRows out = rows ∧ arrow.column out 0 = col := by
  obtain ⟨out, hout, -, hrows, hcolumn⟩ := h.tryNew rows [field] [col] (List.cons_ne_nil _ _) (.cons hfits .nil)
  exact ⟨out, by rw [newBatch, hout], hrows, hcolumn 0 col rfl⟩

/-- The struct array of some headers is built, and they are read back. -/
theorem HeaderBuilder.exists_finish (rows : List (Option ExportHeader)) (name : String) :
    ∃ col, (ofRows rows).finish arrow = .ok col ∧
      arrow.FitsField rows.length ⟨name, .struct headerFields, true⟩ col ∧
      ∀ row hdr, rows[row]? = some hdr → arrow.headerAt col row = some hdr := by
  have hprimitive : ∀ (type : PrimitiveType) (f : Option ExportHeader → Option type.Native) (name : String),
      arrow.FitsField rows.length ⟨name, .primitive type, true⟩ (arrow.primitiveArray type (rows.map f)) := by
    intro type f name
    obtain ⟨htype, hcells⟩ := h.primitiveArray type (rows.map f)
    exact Arrow.fitsField_of_cells htype hcells (List.length_map _)
  obtain ⟨col, hcol, hchildren, hcolumn, hnulls⟩ := h.exists_structArray_valid rows.length headerFields
    (List.cons_ne_nil _ _)
    (.cons (hprimitive _ _ _) (.cons (hprimitive _ _ _) (.cons (hprimitive _ _ _) (.cons (hprimitive _ _ _)
      (.cons (hprimitive _ _ _) (.cons (hprimitive _ _ _) .nil)))))) (List.length_map Option.isSome) name
  refine ⟨col, orPanic_eq_ok.mpr hcol, hcolumn, fun row hdr hhdr => ?_⟩
  have hat : ∀ (type : PrimitiveType) (f : Option ExportHeader → Option type.Native),
      arrow.cell (arrow.primitive type) (arrow.primitiveArray type (rows.map f)) row = f hdr := fun type f =>
    Arrow.cell_of_cells (h.primitiveArray type (rows.map f)).2 (by rw [List.getElem?_map, hhdr, Option.map_some])
  have hnull := hnulls row hdr.isSome (by rw [List.getElem?_map, hhdr, Option.map_some])
  cases hdr <;> simp [Arrow.headerAt, hnull, hchildren, hat]

/-- The struct array of verdicts whose texts fit is built, and they are read back. -/
theorem WellFormedBuilder.exists_finish {rows : List (Option WellFormed)}
    (hfits : ∀ text ∈ [WellFormed.version, WellFormed.error, WellFormed.kind],
      fitsOffsets (textBytes (rows.map (·.bind text)))) (name : String) :
    ∃ col, (ofRows rows).finish arrow = .ok col ∧
      arrow.FitsField rows.length ⟨name, .struct wellFormedFields, true⟩ col ∧
      ∀ row w, rows[row]? = some w → arrow.wellFormedAt col row = some w := by
  obtain ⟨hfitsVersion, hfitsError, hfitsKind⟩ :
      fitsOffsets (textBytes (ofRows rows).version) ∧ fitsOffsets (textBytes (ofRows rows).error) ∧
        fitsOffsets (textBytes (ofRows rows).kind) := by simpa [ofRows] using hfits
  obtain ⟨version, hversion⟩ := h.exists_strCol hfitsVersion
  obtain ⟨error, herror⟩ := h.exists_strCol hfitsError
  obtain ⟨kind, hkind⟩ := h.exists_strCol hfitsKind
  obtain ⟨hok, hoks⟩ := h.booleanArray (ofRows rows).ok
  obtain ⟨-, hversionField, hversions⟩ := h.of_strCol hversion (List.length_map _) "version"
  obtain ⟨-, herrorField, herrors⟩ := h.of_strCol herror (List.length_map _) "error"
  obtain ⟨-, hkindField, hkinds⟩ := h.of_strCol hkind (List.length_map _) "kind"
  obtain ⟨col, hcol, hchildren, hcolumn, hnulls⟩ := h.exists_structArray_valid _ wellFormedFields
    (List.cons_ne_nil _ _) (.cons (Arrow.fitsField_of_cells hok hoks (List.length_map _))
      (.cons hversionField (.cons herrorField (.cons hkindField .nil)))) (List.length_map Option.isSome) name
  refine ⟨col, ?_, hcolumn, fun row w hw => ?_⟩
  · simp only [finish, hversion, herror, hkind, bind, Except.bind]
    exact orPanic_eq_ok.mpr hcol
  · have hat : ∀ {α : Type} (f : Option WellFormed → α), (rows.map f)[row]? = some (f w) := fun f => by
      rw [List.getElem?_map, hw, Option.map_some]
    have hnull := hnulls row w.isSome (hat Option.isSome)
    have hokAt := Arrow.cell_of_cells hoks (hat (·.map WellFormed.ok))
    have hversionAt := Arrow.cell_of_cells hversions (hat (·.bind WellFormed.version))
    have herrorAt := Arrow.cell_of_cells herrors (hat (·.bind WellFormed.error))
    have hkindAt := Arrow.cell_of_cells hkinds (hat (·.bind WellFormed.kind))
    cases w <;> simp [Arrow.wellFormedAt, hnull, hchildren, hokAt, hversionAt, herrorAt, hkindAt]

end Columns

/-- The texts of a verdict are short. -/
def WellFormed.Short (w : WellFormed) : Prop :=
  ∀ text, some text ∈ [w.version, w.error, w.kind] → text.utf8ByteSize ≤ 64

instance (w : WellFormed) : Decidable w.Short :=
  decidable_of_iff (([w.version, w.error, w.kind].filterMap id).all fun text => decide (text.utf8ByteSize ≤ 64)) (by
    simp only [WellFormed.Short, List.all_eq_true, List.mem_filterMap, decide_eq_true_eq, id_eq]
    constructor
    · intro h text hmem
      exact h text ⟨_, hmem, rfl⟩
    · rintro h text ⟨cell, hmem, rfl⟩
      exact h text hmem)

/-- The verdicts of a walk over Sets are short. -/
theorem validateSets_short (version : Version) {kind : String} (hkind : kind ∈ ["set-length-overrun", "bad-ipfix-set"])
    (rounds : ℕ) (region : Bytes) : (validateSets version kind rounds region).Short := by
  have hall : ∀ v : Version, (WellFormed.okFor v).Short ∧
      (WellFormed.bad (some v) "trailing bytes shorter than a set header" "truncated").Short ∧
      ∀ kind ∈ ["set-length-overrun", "bad-ipfix-set"],
        (WellFormed.bad (some v) "set length below the 4-byte minimum" kind).Short ∧
        (WellFormed.bad (some v) "set length exceeds remaining datagram" kind).Short := by
    intro v
    cases v <;> decide
  obtain ⟨hok, htail, hlength⟩ := hall version
  obtain ⟨hmin, hmax⟩ := hlength kind hkind
  induction rounds generalizing region with
  | zero => exact hok
  | succ rounds ih =>
    simp only [validateSets]
    split
    · exact hok
    · split
      · exact htail
      · split
        · exact hmin
        · split
          · exact hmax
          · exact ih _

/-- All verdicts are short. -/
theorem wellFormed_short (data : Bytes) : (wellFormed data).Short := by
  unfold wellFormed
  split
  · decide
  · unfold validateV5
    split
    · decide
    · split
      · decide
      · dsimp only
        split
        · decide
        · decide
  · unfold validateV9
    split
    · decide
    · exact validateSets_short _ (by decide) _ _
  · unfold validateIpfix
    split
    · decide
    · dsimp only
      split
      · decide
      · exact validateSets_short _ (by decide) _ _
  · unfold validateSflow
    dsimp only
    split
    · decide
    · decide

/-- Fewer than `2 ^ 25` short texts fit. -/
theorem fitsOffsets_of_short {cells : List (Option String)}
    (hshort : ∀ text, some text ∈ cells → text.utf8ByteSize ≤ 64) (h : cells.length < 2 ^ 25) :
    fitsOffsets (textBytes cells) := by
  have hbytes : textBytes cells ≤ cells.length * 64 := by
    clear h
    induction cells with
    | nil => exact Nat.zero_le _
    | cons cell cells ih =>
      have hcell : cell.elim 0 String.utf8ByteSize ≤ 64 := by
        cases cell with
        | none => exact Nat.zero_le _
        | some text => exact hshort text List.mem_cons_self
      have hcells := ih fun text hmem => hshort text (List.mem_cons_of_mem _ hmem)
      simp only [textBytes, List.map_cons, List.sum_cons, List.length_cons] at hcells ⊢
      omega
  unfold fitsOffsets
  omega

end Building

section Datagrams

variable {data : Bytes}

/-- The number that the headers of a version begin with. -/
def Version.number : Version → UInt16
  | .v5 | .sflow5 => 5
  | .v9 => 9
  | .v10 => 10

/-- A datagram that is not taken for sFlow begins with the number of its version. -/
theorem u16_of_probeVersion {v : Version} (h : probeVersion data = some v) (hsflow : v ≠ .sflow5) :
    ∃ c, (Cursor.new data).u16 = some (v.number, c) := by
  obtain ⟨⟨v16, c⟩, hv16, h⟩ := Option.bind_eq_some_iff.mp h
  dsimp only at h
  split at h
  · rename_i hversion
    cases h
    exact ⟨c, hv16.trans (by rw [hversion]; rfl)⟩
  · split at h
    · rename_i hversion
      cases h
      exact ⟨c, hv16.trans (by rw [hversion]; rfl)⟩
    · split at h
      · rename_i hversion
        cases h
        exact ⟨c, hv16.trans (by rw [hversion]; rfl)⟩
      · split at h
        · obtain ⟨⟨lo, c'⟩, -, h⟩ := Option.bind_eq_some_iff.mp h
          dsimp only at h
          split at h
          · split at h
            · split at h
              · cases h
                exact absurd rfl hsflow
              · contradiction
            · contradiction
          · contradiction
        · contradiction

/-- A header is one of a version that the probe recognizes, and shows its number. -/
theorem version_of_parseHeader {hdr : ExportHeader} (h : parseHeader data = some hdr) :
    ∃ v, probeVersion data = some v ∧ hdr.version = v.number := by
  obtain ⟨v, hprobe, hparse⟩ := Option.bind_eq_some_iff.mp h
  refine ⟨v, hprobe, ?_⟩
  cases v with
  | v5 =>
    obtain ⟨c, hversion⟩ := u16_of_probeVersion hprobe (by decide)
    simp only [parseV5, hversion, Option.bind_eq_bind, Option.bind_some, Option.bind_eq_some_iff] at hparse
    obtain ⟨_, -, _, -, _, -, _, -, _, -, _, -, _, -, hhdr⟩ := hparse
    cases hhdr
    rfl
  | v9 =>
    obtain ⟨c, hversion⟩ := u16_of_probeVersion hprobe (by decide)
    simp only [parseV9, hversion, Option.bind_eq_bind, Option.bind_some, Option.bind_eq_some_iff] at hparse
    obtain ⟨_, -, _, -, _, -, _, -, _, -, hhdr⟩ := hparse
    cases hhdr
    rfl
  | v10 =>
    obtain ⟨c, hversion⟩ := u16_of_probeVersion hprobe (by decide)
    simp only [parseIpfix, hversion, Option.bind_eq_bind, Option.bind_some, Option.bind_eq_some_iff] at hparse
    obtain ⟨_, -, _, -, _, -, _, -, hhdr⟩ := hparse
    cases hhdr
    rfl
  | sflow5 =>
    have hsflow := (parseSflow_of_probe hprobe).symm.trans hparse
    obtain ⟨words, -, hhdr⟩ := Option.map_eq_some_iff.mp hsflow
    cases hhdr
    rfl

/-- The verdict on a walk over Sets names its version. -/
theorem validateSets_version (version : Version) (kind : String) (rounds : ℕ) (region : Bytes) :
    (validateSets version kind rounds region).version = some version.asStr := by
  induction rounds generalizing region with
  | zero => rfl
  | succ rounds ih =>
    simp only [validateSets]
    split
    · rfl
    · split
      · rfl
      · split
        · rfl
        · split
          · rfl
          · exact ih _

/-- A verdict names the version that the probe recognizes. -/
theorem wellFormed_version (data : Bytes) : (wellFormed data).version = (probeVersion data).map Version.asStr := by
  unfold wellFormed
  split
  · rename_i hprobe
    rw [hprobe]
    rfl
  · rename_i hprobe
    rw [hprobe, validateV5]
    split
    · rfl
    · split
      · rfl
      · dsimp only
        split <;> rfl
  · rename_i hprobe
    rw [hprobe, validateV9]
    split
    · rfl
    · exact validateSets_version ..
  · rename_i hprobe
    rw [hprobe, validateIpfix]
    split
    · rfl
    · dsimp only
      split
      · rfl
      · exact validateSets_version ..
  · rename_i hprobe
    rw [hprobe, validateSflow]
    dsimp only
    split <;> rfl

/-- Where the header of a flow datagram cannot be read, the verdict is that it is truncated. -/
theorem wellFormed_kind_of_parseHeader {v : Version} (hprobe : probeVersion data = some v)
    (h : parseHeader data = none) : (wellFormed data).kind = some "truncated" := by
  cases v with
  | v5 =>
    have hshort : data.length < 24 := by
      by_contra hle
      have hheader : parseHeader data = parseV5 data := by rw [parseHeader, hprobe]; rfl
      rw [hheader, parseV5_of_le (Nat.le_of_not_lt hle)] at h
      contradiction
    simp only [wellFormed, hprobe, validateV5, if_pos hshort]
    rfl
  | v9 =>
    have hshort : data.length < 20 := by
      by_contra hle
      have hheader : parseHeader data = parseV9 data := by rw [parseHeader, hprobe]; rfl
      rw [hheader, parseV9_of_le (Nat.le_of_not_lt hle)] at h
      contradiction
    simp only [wellFormed, hprobe, validateV9, if_pos hshort]
    rfl
  | v10 =>
    have hshort : data.length < 16 := by
      by_contra hle
      have hheader : parseHeader data = parseIpfix data := by rw [parseHeader, hprobe]; rfl
      rw [hheader, parseIpfix_of_le (Nat.le_of_not_lt hle)] at h
      contradiction
    simp only [wellFormed, hprobe, validateIpfix, if_pos hshort]
    rfl
  | sflow5 =>
    have hheader : parseHeader data = parseSflow data := by rw [parseHeader, hprobe]; rfl
    rw [hheader, parseSflow_of_probe hprobe, Option.map_eq_none_iff] at h
    have hok := validateSflow_of_probe hprobe
    rw [h, Option.isSome_none] at hok
    simp only [wellFormed, hprobe]
    unfold validateSflow at hok ⊢
    dsimp only at hok ⊢
    split at hok
    · contradiction
    · rfl

end Datagrams

section Batches

variable {arrow : Arrow ArrayRef RecordBatch} {batch : RecordBatch}

/-- A probe of a usable column returns what its builder makes of what is read of each datagram. -/
theorem Arrow.IsBlob.exists_probe {α β : Type} {read : Option Bytes → α} {append : β → α → β}
    {finish : β → Except Failure ArrayRef} (h : arrow.Lawful) (ofRows : List α → β)
    (hschema : arrow.schema batch ≠ []) (hblob : arrow.IsBlob batch (arrow.column batch 0))
    (happend : ∀ done row, append (ofRows done) row = ofRows (done ++ [row])) {field : Field} {col : ArrayRef}
    (hfinish : finish (ofRows ((arrow.datagrams batch).map read)) = .ok col)
    (hfits : arrow.FitsField ((arrow.datagrams batch).map read).length field col) :
    ∃ out, arrow.probe read append finish (ofRows []) [field] batch = .ok out ∧
      arrow.numRows out = arrow.numRows batch ∧ arrow.column out 0 = col := by
  obtain ⟨first, others, hcols⟩ := List.exists_cons_of_ne_nil hschema
  have hrows : ∀ row ∈ List.range (arrow.numRows batch),
      ∃ cell, arrow.blobBytes (arrow.column batch 0) row = .ok cell := fun row hrow =>
    (hblob.exists_cell (List.mem_range.mp hrow)).imp fun _ hcell => hcell.1
  obtain ⟨out, hout, hcount, hcolumn⟩ := h.exists_newBatch_one hfits
  refine ⟨out, ?_, ?_, hcolumn⟩
  · have hdatagrams : [] ++ (List.range (arrow.numRows batch)).map (fun row =>
        read (arrow.blobBytes (arrow.column batch 0) row).toOption.join) = (arrow.datagrams batch).map read := by
      rw [List.nil_append, datagrams, List.map_map]
      rfl
    simp only [probe, hcols, foldRows_eq_ok happend hrows, hdatagrams, hfinish, bind, Except.bind, hout]
  · rw [hcount, List.length_map, datagrams, List.length_map, List.length_range]

/-- A probe of any other column is an error that names its type. -/
theorem Arrow.probe_of_not_isBlob {α β : Type} {read : Option Bytes → α} {append : β → α → β}
    {finish : β → Except Failure ArrayRef} {empty : β} {outputSchema : Schema} (hschema : arrow.schema batch ≠ [])
    (hblob : ¬ arrow.IsBlob batch (arrow.column batch 0)) :
    arrow.probe read append finish empty outputSchema batch =
      .error (.notBlob (arrow.dataType (arrow.column batch 0))) := by
  obtain ⟨first, others, hcols⟩ := List.exists_cons_of_ne_nil hschema
  obtain ⟨row, hrow, -, herror⟩ := arrow.exists_error_of_not_isBlob hblob
  simp only [probe, hcols, foldRows_eq_error ⟨row, hrow, herror⟩, bind, Except.bind]

/-- The texts of the probes are short. -/
theorem FlowVersion.read_short {cell : Option Bytes} {text : String} (h : read cell = some text) :
    text.utf8ByteSize ≤ 64 := by
  obtain ⟨bytes, -, hbytes⟩ := Option.bind_eq_some_iff.mp h
  obtain ⟨v, -, rfl⟩ := Option.map_eq_some_iff.mp hbytes
  cases v <;> decide

/-- Of a usable column each probe returns a column that has a row for each datagram. -/
theorem process_of_isBlob (h : arrow.Lawful) (hschema : arrow.schema batch ≠ [])
    (hrows : arrow.numRows batch < 2 ^ 25) (hblob : arrow.IsBlob batch (arrow.column batch 0)) (name : String) :
    (∃ out, FlowVersion.process arrow [⟨name, .utf8, true⟩] batch = .ok out ∧
        arrow.versions out = (arrow.datagrams batch).map FlowVersion.read) ∧
      (∃ out, Header.process arrow [⟨name, .struct headerFields, true⟩] batch = .ok out ∧
        arrow.headers out = some ((arrow.datagrams batch).map fun cell => cell.bind parseHeader)) ∧
      ∃ out, WellFormed.process arrow [⟨name, .struct wellFormedFields, true⟩] batch = .ok out ∧
        arrow.verdicts out = some ((arrow.datagrams batch).map fun cell => cell.map wellFormed) := by
  have hlength : (arrow.datagrams batch).length = arrow.numRows batch := by
    rw [Arrow.datagrams, List.length_map, List.length_range]
  -- A column is read back cell by cell.
  have hread : ∀ {α : Type} {f : Option Bytes → α} {at? : ℕ → Option α},
      (∀ row a, ((arrow.datagrams batch).map f)[row]? = some a → at? row = some a) →
        (List.range (arrow.numRows batch)).map at? = ((arrow.datagrams batch).map f).map some := by
    intro α f at? hat
    refine List.ext_getElem (by simp [hlength]) fun row hrange hrow => ?_
    rw [List.getElem_map, List.getElem_range, List.getElem_map]
    exact hat row _ (List.getElem?_eq_getElem _)
  refine ⟨?_, ?_, ?_⟩
  · have hfits : fitsOffsets (textBytes ((arrow.datagrams batch).map FlowVersion.read)) := by
      refine fitsOffsets_of_short (fun text hmem => ?_) (by rwa [List.length_map, hlength])
      obtain ⟨cell, -, hcell⟩ := List.mem_map.mp hmem
      exact FlowVersion.read_short hcell
    obtain ⟨col, hcol⟩ := h.exists_strCol hfits
    obtain ⟨-, hcolumn, hcells⟩ := h.of_strCol hcol rfl name
    obtain ⟨out, hout, hcount, hzero⟩ := hblob.exists_probe h (fun cells => cells) hschema (fun _ _ => rfl)
      hcol hcolumn
    refine ⟨out, hout, ?_⟩
    rw [Arrow.versions, hcount, hzero]
    have hlen := Arrow.len_of_cells hcells
    rw [List.length_map, hlength] at hlen
    rw [← hlen]
    exact hcells
  · obtain ⟨col, hcol, hcolumn, hat⟩ := HeaderBuilder.exists_finish h
      ((arrow.datagrams batch).map fun cell => cell.bind parseHeader) name
    obtain ⟨out, hout, hcount, hzero⟩ := hblob.exists_probe h _ hschema HeaderBuilder.append_ofRows hcol hcolumn
    exact ⟨out, hout, by rw [Arrow.headers, hcount, hzero, mapM_eq_some_iff, hread hat]⟩
  · have hfits : ∀ text ∈ [WellFormed.version, WellFormed.error, WellFormed.kind],
        fitsOffsets (textBytes (((arrow.datagrams batch).map fun cell => cell.map wellFormed).map (·.bind text))) := by
      intro column hcolumn
      refine fitsOffsets_of_short (fun text hmem => ?_) (by rwa [List.length_map, List.length_map, hlength])
      obtain ⟨verdict, hverdict, hcell⟩ := List.mem_map.mp hmem
      obtain ⟨cell, -, rfl⟩ := List.mem_map.mp hverdict
      obtain ⟨w, hw, htext⟩ := Option.bind_eq_some_iff.mp hcell
      obtain ⟨bytes, -, rfl⟩ := Option.map_eq_some_iff.mp hw
      exact wellFormed_short bytes text (htext ▸ List.mem_map_of_mem (f := fun text => text (wellFormed bytes)) hcolumn)
    obtain ⟨col, hcol, hcolumn, hat⟩ := WellFormedBuilder.exists_finish h hfits name
    obtain ⟨out, hout, hcount, hzero⟩ := hblob.exists_probe h _ hschema WellFormedBuilder.append_ofRows hcol hcolumn
    exact ⟨out, hout, by rw [Arrow.verdicts, hcount, hzero, mapM_eq_some_iff, hread hat]⟩

/-- How a version, a header and a verdict on one datagram, or on none, fit together. -/
structure Probed (version : Option String) (header : Option ExportHeader) (verdict : Option WellFormed) : Prop where
  of_none : verdict = none → version = none ∧ header = none
  version_eq : ∀ w, verdict = some w → w.version = version
  header_of_ok : ∀ w, verdict = some w → w.ok → header.isSome
  truncated : version.isSome → header = none → verdict.bind WellFormed.kind = some "truncated"
  number_eq : ∀ hdr, header = some hdr → ∃ v : Version, version = some v.asStr ∧ hdr.version = v.number

/-- What is read of one datagram fits together. -/
theorem probed (cell : Option Bytes) :
    Probed (FlowVersion.read cell) (cell.bind parseHeader) (cell.map wellFormed) := by
  cases cell with
  | none =>
    refine ⟨fun _ => ⟨rfl, rfl⟩, ?_, ?_, ?_, ?_⟩ <;> intros <;> contradiction
  | some data =>
    refine ⟨fun h => absurd h (Option.some_ne_none _), ?_, ?_, ?_, ?_⟩
    · intro w hw
      cases hw
      exact wellFormed_version data
    · intro w hw hok
      cases hw
      by_contra hnone
      rw [Option.not_isSome_iff_eq_none, Option.bind_some] at hnone
      have hkind := (wellFormed_consistent data).mp hok
      cases hprobe : probeVersion data with
      | none =>
        rw [wellFormed, hprobe] at hok
        contradiction
      | some v =>
        rw [wellFormed_kind_of_parseHeader hprobe hnone] at hkind
        contradiction
    · intro hversion hnone
      obtain ⟨text, htext⟩ := Option.isSome_iff_exists.mp hversion
      obtain ⟨v, hprobe, -⟩ := Option.map_eq_some_iff.mp htext
      exact wellFormed_kind_of_parseHeader hprobe hnone
    · intro hdr hhdr
      obtain ⟨v, hprobe, hnumber⟩ := version_of_parseHeader hhdr
      exact ⟨v, by rw [FlowVersion.read, Option.bind_some, hprobe]; rfl, hnumber⟩

/-- On any batch all three probes answer, or all three fail with the same error. If they answer, each with a row for
each datagram, then the rows are null where they should be and show nothing different about a datagram. -/
theorem probes_agree (h : arrow.Lawful) (hschema : arrow.schema batch ≠ []) (hrows : arrow.numRows batch < 2 ^ 25)
    (name : String) :
    let col := arrow.column batch 0
    let version := FlowVersion.process arrow [⟨name, .utf8, true⟩] batch
    let header := Header.process arrow [⟨name, .struct headerFields, true⟩] batch
    let verdict := WellFormed.process arrow [⟨name, .struct wellFormedFields, true⟩] batch
    (arrow.IsBlob batch col → ∃ versionOut headerOut verdictOut headers verdicts,
        version = .ok versionOut ∧ header = .ok headerOut ∧ verdict = .ok verdictOut ∧
        arrow.headers headerOut = some headers ∧ arrow.verdicts verdictOut = some verdicts ∧
        (arrow.versions versionOut).length = arrow.numRows batch ∧ headers.length = arrow.numRows batch ∧
        verdicts.length = arrow.numRows batch ∧
        ∀ row < arrow.numRows batch, (verdicts[row]?.join = none ↔ arrow.isNull col row) ∧
          Probed (arrow.versions versionOut)[row]?.join headers[row]?.join verdicts[row]?.join) ∧
      (¬ arrow.IsBlob batch col → version = .error (.notBlob (arrow.dataType col)) ∧
        header = .error (.notBlob (arrow.dataType col)) ∧ verdict = .error (.notBlob (arrow.dataType col))) := by
  intro col version header verdict
  refine ⟨fun hblob => ?_, fun hnot => ⟨Arrow.probe_of_not_isBlob hschema hnot, Arrow.probe_of_not_isBlob hschema hnot,
    Arrow.probe_of_not_isBlob hschema hnot⟩⟩
  obtain ⟨⟨versionOut, hversionOut, hversions⟩, ⟨headerOut, hheaderOut, hheaders⟩, verdictOut, hverdictOut,
    hverdicts⟩ := process_of_isBlob h hschema hrows hblob name
  have hlength : (arrow.datagrams batch).length = arrow.numRows batch := by
    rw [Arrow.datagrams, List.length_map, List.length_range]
  refine ⟨versionOut, headerOut, verdictOut, _, _, hversionOut, hheaderOut, hverdictOut, hheaders, hverdicts,
    by rw [hversions, List.length_map, hlength], by rw [List.length_map, hlength],
    by rw [List.length_map, hlength], fun row hrow => ?_⟩
  obtain ⟨cell, hcell, hnull⟩ := hblob.exists_cell hrow
  have hdatagram : (arrow.datagrams batch)[row]? = some cell := by
    rw [Arrow.datagrams, List.getElem?_map, List.getElem?_range hrow, Option.map_some, hcell]
    rfl
  rw [hversions]
  simp only [List.getElem?_map, hdatagram, Option.map_some, Option.join_some, Option.map_eq_none_iff]
  exact ⟨hnull, probed cell⟩

/-- A template, a null and two bytes: the two bytes are no flow datagram, and the null has no verdict. -/
theorem probes_agree_three :
    let batch := PlainBatch.single "datagram" (.binary false [some sampleTemplate, none, some [0, 1]])
    ∃ versionOut headerOut verdictOut headers verdicts,
      FlowVersion.process plainArrow [⟨"result", .utf8, true⟩] batch = .ok versionOut ∧
      Header.process plainArrow [⟨"result", .struct headerFields, true⟩] batch = .ok headerOut ∧
      WellFormed.process plainArrow [⟨"result", .struct wellFormedFields, true⟩] batch = .ok verdictOut ∧
      plainArrow.headers headerOut = some headers ∧ plainArrow.verdicts verdictOut = some verdicts ∧
      (plainArrow.versions versionOut).length = 3 ∧ headers.length = 3 ∧ verdicts.length = 3 ∧
      ∀ row < 3, (verdicts[row]?.join = none ↔ plainArrow.isNull (plainArrow.column batch 0) row) ∧
        Probed (plainArrow.versions versionOut)[row]?.join headers[row]?.join verdicts[row]?.join :=
  (@probes_agree _ _ plainArrow (.single "datagram" (.binary false [some sampleTemplate, none, some [0, 1]]))
    plainArrow_lawful (List.cons_ne_nil _ _) (by decide) "result").1 (.inl rfl)

end Batches

section Relations

variable {arrow : Arrow ArrayRef RecordBatch} {σ : Type} {w : Worker σ} {f : FlowDecode} {batch argument : RecordBatch}
  {name : String}

/-- Whether the first column of a batch, the argument of a scalar function, is the datagram column of another. -/
structure Arrow.IsArgument (arrow : Arrow ArrayRef RecordBatch) (batch argument : RecordBatch) : Prop where
  schema_ne_nil : arrow.schema argument ≠ []
  numRows : arrow.numRows argument = arrow.numRows batch
  column : ∀ i, findDatagramCol (arrow.schema batch) = .ok i → arrow.column argument 0 = arrow.column batch i

/-- Whether a verdict is one on a datagram that a function refuses. -/
def FlowDecode.refuses (f : FlowDecode) (verdict : Option WellFormed) : Bool :=
  verdict.any fun w => !(w.version.all f.restrict.takesText && w.isReadable)

/-- A call refuses the datagrams that the verdict says. -/
theorem FlowDecode.refuses_wellFormed {call : Call} (h : call.restrict = f.restrict) :
    f.refuses (some (wellFormed call.data)) = !call.isReadable := by
  have haccepts : (wellFormed call.data).version.all f.restrict.takesText =
      (probeVersion call.data).all fun v => decide (call.restrict.Accepts v) := by
    rw [wellFormed_version, h]
    cases probeVersion call.data with
    | none => rfl
    | some v => exact f.restrict.takesText_asStr v
  rw [refuses, Option.any_some, haccepts, Call.isReadable]

/-- The calls of a batch that are refused are those on which the verdicts say so. -/
theorem FlowDecode.countP_calls (now : Int64) (rows : List InputRow) :
    (f.calls now rows).countP (fun call => !call.isReadable) =
      (rows.map fun row => row.datagram.map wellFormed).countP f.refuses := by
  induction rows with
  | nil => rfl
  | cons row rows ih =>
    rw [List.map_cons, List.countP_cons, ← ih]
    cases hdatagram : row.datagram with
    | none => simp [calls, hdatagram, refuses]
    | some data =>
      have hcalls : f.calls now (row :: rows) = ⟨data, f.options now row, f.restrict⟩ :: f.calls now rows := by
        simp [calls, hdatagram]
      rw [hcalls, List.countP_cons, Option.map_some,
        ← @refuses_wellFormed f ⟨data, f.options now row, f.restrict⟩ rfl]

/-- The datagrams of the argument are those of the rows that a function reads. -/
theorem Arrow.IsArgument.datagrams_eq (h : arrow.IsArgument batch argument) {i : ℕ}
    (hi : findDatagramCol (arrow.schema batch) = .ok i) :
    arrow.datagrams argument = (f.inputRows arrow batch).map InputRow.datagram := by
  obtain ⟨cols, hcols, rfl⟩ := f.exists_columns hi
  simp only [datagrams, h.column _ hi, h.numRows, FlowDecode.inputRows, hcols, List.map_map]
  rfl

/-- Of a batch with a usable datagram column the verdicts say which datagrams a scan refuses. -/
theorem Arrow.IsArgument.exists_verdicts (h : arrow.IsArgument batch argument) (harrow : arrow.Lawful)
    (haccepted : arrow.Accepted batch) (hrows : arrow.numRows batch < 2 ^ 25) (f : FlowDecode) (now : Int64)
    (name : String) :
    ∃ out verdicts, WellFormed.process arrow [⟨name, .struct wellFormedFields, true⟩] argument = .ok out ∧
      arrow.verdicts out = some verdicts ∧
      verdicts.countP f.refuses = (f.calls now (f.inputRows arrow batch)).countP fun call => !call.isReadable := by
  obtain ⟨i, hi, hblob⟩ := haccepted
  have hblob' : arrow.IsBlob argument (arrow.column argument 0) := by
    rwa [IsBlob, h.column i hi, h.numRows]
  obtain ⟨-, -, out, hout, hverdicts⟩ :=
    process_of_isBlob harrow h.schema_ne_nil (h.numRows ▸ hrows) hblob' name
  refine ⟨out, _, hout, hverdicts, ?_⟩
  rw [f.countP_calls, h.datagrams_eq (f := f) hi, List.map_map]
  rfl

/-- The verdicts on a relation say how many datagrams a scan of it refuses. -/
theorem FlowDecode.exists_relationVerdicts (f : FlowDecode) (harrow : arrow.Lawful)
    {batches : List (Int64 × RecordBatch)} {arguments : List RecordBatch}
    (harguments : List.Forall₂ arrow.IsArgument (batches.map Prod.snd) arguments)
    (haccepted : ∀ p ∈ batches, arrow.Accepted p.2) (hrows : ∀ p ∈ batches, arrow.numRows p.2 < 2 ^ 25)
    (name : String) :
    ∃ outs verdicts, arguments.mapM (WellFormed.process arrow [⟨name, .struct wellFormedFields, true⟩]) = .ok outs ∧
      outs.mapM arrow.verdicts = some verdicts ∧
      verdicts.flatten.countP f.refuses =
        (f.relationCalls arrow batches).countP fun call => !call.isReadable := by
  induction batches generalizing arguments with
  | nil =>
    cases harguments
    exact ⟨[], [], rfl, rfl, rfl⟩
  | cons p batches ih =>
    obtain ⟨argument, others, hargument, hlater, rfl⟩ := List.forall₂_cons_left_iff.mp harguments
    obtain ⟨hfirst, hothers⟩ := List.forall_mem_cons.mp haccepted
    obtain ⟨hfew, hrest⟩ := List.forall_mem_cons.mp hrows
    obtain ⟨out, first, hprocess, hread, hcount⟩ :=
      hargument.exists_verdicts harrow hfirst hfew f p.1 name
    obtain ⟨outs, verdicts, houts, hreads, hcounts⟩ := ih hlater hothers hrest
    refine ⟨out :: outs, first :: verdicts, ?_, ?_, ?_⟩
    · rw [List.mapM_cons, hprocess, houts]
      rfl
    · rw [List.mapM_cons, hread, hreads]
      rfl
    · rw [List.flatten_cons, List.countP_append, hcount, hcounts, relationCalls, relationCalls, List.flatMap_cons,
        List.countP_append]

/-- From a cold start, scan a relation whose batches have usable datagram columns with plain headers, and validate
the same columns. The scan returns a row that refuses a datagram for each verdict that says so, and no other. -/
theorem Worker.scan_triaged (harrow : arrow.Lawful) (hkv : w.kv.Lawful) (hserde : w.serde.Lawful) {store : σ}
    (hcold : w.kv.kvGet store w.executionId cacheKey = none) {batches : List (Int64 × RecordBatch)}
    {arguments : List RecordBatch} (harguments : List.Forall₂ arrow.IsArgument (batches.map Prod.snd) arguments)
    (haccepted : ∀ p ∈ batches, arrow.Accepted p.2) (hrows : ∀ p ∈ batches, arrow.numRows p.2 < 2 ^ 25)
    (hplain : ∀ call ∈ f.relationCalls arrow batches, call.isPlain)
    (hfits : ArrowFits (scanRows (f.relationCalls arrow batches) .new)) :
    ∃ out rows outs verdicts, w.scan arrow f flowSchema batches (some store) = .ok out ∧
      arrow.flowRowsOf out = some rows ∧
      arguments.mapM (WellFormed.process arrow [⟨name, .struct wellFormedFields, true⟩]) = .ok outs ∧
      outs.mapM arrow.verdicts = some verdicts ∧
      rows.countP FlowRecord.isRefusal = verdicts.flatten.countP f.refuses := by
  obtain ⟨hcalls, hflushed⟩ := hfits.of_append
  obtain ⟨out, store', hout, hload, hscan⟩ := w.scan_append harrow hkv hserde haccepted (w.loadScanCache_cold hcold)
    TemplateCache.accounted_new (UInt32.zero_le (a := _)) hcalls
  rw [← hload] at hflushed
  obtain ⟨flushed, hfinish, hlast⟩ := w.finishBatch_flowRows harrow hflushed
  have hend := hscan []
  rw [List.append_nil, scan, hfinish] at hend
  rw [hload] at hlast
  obtain ⟨outs, verdicts, houts, hverdicts, hcount⟩ :=
    f.exists_relationVerdicts harrow harguments haccepted hrows name
  exact ⟨_, _, outs, verdicts, hend, arrow.flowRowsOf_append hout hlast, houts, hverdicts,
    (countP_isRefusal_scanRows hplain .new).trans hcount.symm⟩

/-- A template in one batch, and a null, a record of it and two bytes in the next: only the two bytes are refused. -/
theorem Worker.scan_triaged_two :
    let template := PlainBatch.single "Datagram" (.binary false [some sampleTemplate])
    let data := PlainBatch.single "content" (.binary true [none, some sampleData, some [0, 1]])
    let calls := FlowDecode.flows.relationCalls plainArrow [(5, template), (6, data)]
    let w := Worker.inMemory [(runCalls (calls.take 1) .new).2, (runCalls calls .new).2]
    ∃ out rows outs verdicts,
      w.scan plainArrow .flows flowSchema [(5, template), (6, data)] (some fun _ _ => none) = .ok out ∧
      plainArrow.flowRowsOf out = some rows ∧
      [template, data].mapM (WellFormed.process plainArrow [⟨"result", .struct wellFormedFields, true⟩]) = .ok outs ∧
      outs.mapM plainArrow.verdicts = some verdicts ∧
      rows.countP FlowRecord.isRefusal = verdicts.flatten.countP FlowDecode.flows.refuses := by
  intro template data calls w
  have hserde : w.serde.Lawful := SerdeJson.writing_lawful (by decide +kernel)
  have haccepted : ∀ p ∈ [((5 : Int64), template), (6, data)], plainArrow.Accepted p.2 := by
    rw [List.forall_mem_cons, List.forall_mem_singleton]
    exact ⟨⟨0, rfl, .inl rfl⟩, ⟨0, rfl, .inl rfl⟩⟩
  have hrows : ∀ p ∈ [((5 : Int64), template), (6, data)], plainArrow.numRows p.2 < 2 ^ 25 := by
    rw [List.forall_mem_cons, List.forall_mem_singleton]
    exact ⟨by decide, by decide⟩
  have harguments : List.Forall₂ plainArrow.IsArgument [template, data] [template, data] := by
    have hsame : ∀ batch : PlainBatch, batch.schema ≠ [] → findDatagramCol batch.schema = .ok 0 →
        plainArrow.IsArgument batch batch := by
      intro batch hne hfound
      refine ⟨hne, rfl, fun i hi => ?_⟩
      rw [Except.ok.inj (hi.symm.trans hfound)]
    exact .cons (hsame template (List.cons_ne_nil _ _) rfl) (.cons (hsame data (List.cons_ne_nil _ _) rfl) .nil)
  have hplain : ∀ call ∈ calls, call.isPlain := by decide +kernel
  have hfits : ArrowFits (scanRows calls .new) := by constructor <;> decide +kernel
  exact Worker.scan_triaged plainArrow_lawful ⟨fun _ _ _ _ _ _ => rfl⟩ hserde rfl harguments haccepted hrows hplain
    hfits

end Relations

end Netflow
