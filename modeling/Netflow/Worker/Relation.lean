import Netflow.Worker.ArrowMap
import Netflow.Worker.Projection

/-!
# The decode functions on relations

A decode function finds its columns by name, reads one row of a batch after the other and stores the cache when the
batch is decoded. A batch without a usable datagram column is an error, which leaves the cache in the storage alone.
Of all other relations the rows that come out are those of one run over the datagrams that go in.
-/

namespace Netflow

variable {ArrayRef RecordBatch : Type}

section Model

variable (arrow : Arrow ArrayRef RecordBatch)

/-- Where the columns are that a function reads. -/
structure InputColumns where
  datagram : ℕ
  exporter : Option ℕ
  obsDomain : Option ℕ
  mode : Option ℕ

/-- The columns of an input relation that a function reads. -/
def FlowDecode.columns (f : FlowDecode) (schema : Schema) : Except Failure InputColumns := do
  let datagram ← findDatagramCol schema
  .ok { datagram
        exporter := findNamedCol schema "exporter"
        obsDomain := if f.withObsDomain then findNamedCol schema "obs_domain" else none
        mode := if f.withMode then findNamedCol schema "mode" else none }

/-- Bind a function to the schema of its input, and give that of its output. -/
def FlowDecode.onBind (name : String) (inputSchema : Option Schema) : Except Failure Schema := do
  match inputSchema with
  | none => .error (.requiresInputRelation name)
  | some input =>
    let _ ← findDatagramCol input
    .ok flowSchema

/-- Go through rows of a BLOB column. The first row that cannot be read ends the loop. -/
def Arrow.foldRows {β : Type} (step : β → ℕ → Option Bytes → β) (col : ArrayRef) :
    List ℕ → β → Except Failure β
  | [], acc => .ok acc
  | row :: rest, acc => do
    let cell ← arrow.blobBytes col row
    foldRows step col rest (step acc row cell)

/-- The decode options of a row. -/
def InputColumns.options (cols : InputColumns) (batch : RecordBatch) (now : Int64) (row : ℕ) : DecodeOptions :=
  { exporter := (cols.exporter.bind fun i => arrow.textAt (arrow.column batch i) row).getD ""
    obsDomainOverride := cols.obsDomain.bind fun i => arrow.u32At (arrow.column batch i) row
    mode := ((cols.mode.bind fun i => arrow.textAt (arrow.column batch i) row).map Mode.parse).getD .auto
    nowMicros := now }

/-- Decode a row of a batch; one without a datagram gives none. -/
def FlowDecode.decodeRow (f : FlowDecode) (batch : RecordBatch) (cols : InputColumns) (now : Int64) :
    List FlowRecord × TemplateCache → ℕ → Option Bytes → List FlowRecord × TemplateCache
  | (rows, cache), _, none => (rows, cache)
  | (rows, cache), row, some bytes =>
    let (decoded, cache) := decodeDatagram bytes (cols.options arrow batch now row) cache f.restrict
    (rows ++ decoded, cache)

variable {σ : Type} (w : Worker σ)

/-- Process a batch. The cache is stored before the rows become a batch. -/
def Worker.processBatch (f : FlowDecode) (schema : Schema) (now : Int64) (batch : RecordBatch) (storage : Option σ) :
    Except Failure (List RecordBatch) × Option σ :=
  let decoded := do
    let cols ← f.columns (arrow.schema batch)
    arrow.foldRows (f.decodeRow arrow batch cols now) (arrow.column batch cols.datagram)
      (List.range (arrow.numRows batch)) ([], w.loadScanCache storage)
  match decoded with
  | .error e => (.error e, storage)
  | .ok (rows, cache) => ((arrow.rowsToBatch rows schema).map ([·]), w.storeScanCache storage cache)

/-- End of stream: the rows of what is still buffered, if there are any. -/
def Worker.finishBatch (schema : Schema) (storage : Option σ) : Except Failure (List RecordBatch) × Option σ :=
  let (rows, cache) := flushPending (w.loadScanCache storage)
  let storage := w.storeScanCache storage cache
  if rows.isEmpty then (.ok [], storage) else ((arrow.rowsToBatch rows schema).map ([·]), storage)

/-- A scan of a relation: its batches, each at its time, and then the end of the stream. -/
def Worker.scan (f : FlowDecode) (schema : Schema) : List (Int64 × RecordBatch) → Option σ →
    Except Failure (List RecordBatch)
  | [], storage => (w.finishBatch arrow schema storage).1
  | (now, batch) :: batches, storage => do
    let (processed, storage) := w.processBatch arrow f schema now batch storage
    let out ← processed
    let rest ← scan f schema batches storage
    .ok (out ++ rest)

end Model

section Rows

/-- Whether a column can be read as datagrams: it is one of bytes, or all its rows are null. -/
def Arrow.IsBlob (arrow : Arrow ArrayRef RecordBatch) (batch : RecordBatch) (col : ArrayRef) : Prop :=
  (arrow.dataType col).isBinary ∨ ∀ row < arrow.numRows batch, arrow.isNull col row

/-- Whether a batch has a datagram column that can be read. -/
def Arrow.Accepted (arrow : Arrow ArrayRef RecordBatch) (batch : RecordBatch) : Prop :=
  ∃ i, findDatagramCol (arrow.schema batch) = .ok i ∧ arrow.IsBlob batch (arrow.column batch i)

/-- The error that a batch is answered with that has none. -/
def Arrow.rejection (arrow : Arrow ArrayRef RecordBatch) (batch : RecordBatch) : Failure :=
  match findDatagramCol (arrow.schema batch) with
  | .error e => e
  | .ok i => .notBlob (arrow.dataType (arrow.column batch i))

/-- The cells of a row that a function reads. -/
def InputColumns.inputRow (cols : InputColumns) (arrow : Arrow ArrayRef RecordBatch) (batch : RecordBatch) (row : ℕ) :
    InputRow where
  datagram := (arrow.blobBytes (arrow.column batch cols.datagram) row).toOption.join
  exporter := cols.exporter.bind fun i => arrow.textAt (arrow.column batch i) row
  obsDomain := cols.obsDomain.bind fun i => arrow.u32At (arrow.column batch i) row
  mode := cols.mode.bind fun i => arrow.textAt (arrow.column batch i) row

/-- The input rows of a batch. -/
def FlowDecode.inputRows (f : FlowDecode) (arrow : Arrow ArrayRef RecordBatch) (batch : RecordBatch) : List InputRow :=
  match f.columns (arrow.schema batch) with
  | .ok cols => (List.range (arrow.numRows batch)).map (cols.inputRow arrow batch)
  | .error _ => []

variable {arrow : Arrow ArrayRef RecordBatch} {f : FlowDecode} {batch : RecordBatch} {cols : InputColumns}
  {now : Int64} {col : ArrayRef} {rows : List ℕ}

/-- A cell of bytes is read, a null as well, and no other. -/
theorem Arrow.blobBytes_cases (arrow : Arrow ArrayRef RecordBatch) (col : ArrayRef) (row : ℕ) :
    (∃ cell, arrow.blobBytes col row = .ok cell ∧ (cell = none ↔ arrow.isNull col row) ∧
        ((arrow.dataType col).isBinary ∨ arrow.isNull col row)) ∨
      arrow.blobBytes col row = .error (.notBlob (arrow.dataType col)) ∧
        ¬ ((arrow.dataType col).isBinary ∨ arrow.isNull col row) := by
  unfold blobBytes
  by_cases hnull : arrow.isNull col row
  · exact .inl ⟨none, if_pos hnull, iff_of_true rfl hnull, .inr hnull⟩
  · simp only [if_neg hnull]
    cases arrow.dataType col with
    | binary | largeBinary => exact .inl ⟨_, rfl, iff_of_false (Option.some_ne_none _) hnull, .inl rfl⟩
    | _ => exact .inr ⟨rfl, by simp [DataType.isBinary, hnull]⟩

/-- All rows of a column that can be read as datagrams are read. -/
theorem Arrow.IsBlob.exists_cell (h : arrow.IsBlob batch col) {row : ℕ} (hrow : row < arrow.numRows batch) :
    ∃ cell, arrow.blobBytes col row = .ok cell ∧ (cell = none ↔ arrow.isNull col row) := by
  rcases arrow.blobBytes_cases col row with ⟨cell, hcell, hnull, -⟩ | ⟨-, hnot⟩
  · exact ⟨cell, hcell, hnull⟩
  · exact absurd (h.imp_right fun hnull => hnull row hrow) hnot

/-- A row of any other column cannot be read, one that is not null. -/
theorem Arrow.exists_error_of_not_isBlob (h : ¬ arrow.IsBlob batch col) :
    ∃ row ∈ List.range (arrow.numRows batch), arrow.isNull col row = false ∧
      arrow.blobBytes col row = .error (.notBlob (arrow.dataType col)) := by
  simp only [IsBlob, not_or, not_forall] at h
  obtain ⟨hbinary, row, hrow, hnull⟩ := h
  refine ⟨row, List.mem_range.mpr hrow, Bool.eq_false_iff.mpr hnull, ?_⟩
  rcases arrow.blobBytes_cases col row with ⟨-, -, -, hread⟩ | ⟨herror, -⟩
  · exact absurd hread (not_or.mpr ⟨hbinary, hnull⟩)
  · exact herror

/-- A row that cannot be read is the error of a loop, whatever was done before it. -/
theorem Arrow.foldRows_eq_error {β : Type} {step : β → ℕ → Option Bytes → β}
    (hrow : ∃ row ∈ rows, arrow.blobBytes col row = .error (.notBlob (arrow.dataType col))) (acc : β) :
    arrow.foldRows step col rows acc = .error (.notBlob (arrow.dataType col)) := by
  induction rows generalizing acc with
  | nil => simp at hrow
  | cons row rows ih =>
    rcases arrow.blobBytes_cases col row with ⟨cell, hcell, -⟩ | ⟨herror, -⟩
    · have hlater : ∃ row ∈ rows, arrow.blobBytes col row = .error (.notBlob (arrow.dataType col)) := by
        obtain ⟨row', hmem, herror⟩ := hrow
        rcases List.mem_cons.mp hmem with rfl | hmem
        · rw [hcell] at herror
          contradiction
        · exact ⟨row', hmem, herror⟩
      rw [foldRows, hcell]
      exact ih hlater _
    · rw [foldRows, herror]
      rfl

/-- The columns that a function reads have its restrictions. -/
theorem FlowDecode.columns_eq_ok {schema : Schema} (h : f.columns schema = .ok cols) :
    findDatagramCol schema = .ok cols.datagram ∧ (¬ f.withObsDomain → cols.obsDomain = none) ∧
      (¬ f.withMode → cols.mode = none) := by
  obtain ⟨datagram, hdatagram, h⟩ := exceptBind_eq_ok.mp h
  cases h
  exact ⟨hdatagram, fun hnot => if_neg hnot, fun hnot => if_neg hnot⟩

/-- The options of a row are those of its cells. -/
theorem InputColumns.options_eq (h : f.columns (arrow.schema batch) = .ok cols) (row : ℕ) :
    cols.options arrow batch now row = f.options now (cols.inputRow arrow batch row) := by
  obtain ⟨-, hobs, hmode⟩ := FlowDecode.columns_eq_ok h
  have hobs' : cols.obsDomain.bind (fun i => arrow.u32At (arrow.column batch i) row) =
      if f.withObsDomain then cols.obsDomain.bind (fun i => arrow.u32At (arrow.column batch i) row) else none := by
    split
    · rfl
    · rw [hobs ‹_›, Option.bind_none]
  have hmode' : ((cols.mode.bind fun i => arrow.textAt (arrow.column batch i) row).map Mode.parse).getD .auto =
      if f.withMode then ((cols.mode.bind fun i => arrow.textAt (arrow.column batch i) row).map Mode.parse).getD .auto
      else .auto := by
    split
    · rfl
    · rw [hmode ‹_›, Option.bind_none, Option.map_none, Option.getD_none]
  rw [options, FlowDecode.options, inputRow, ← hobs', ← hmode']

/-- Rows that can be read are decoded as one run of calls. -/
theorem FlowDecode.decodeRows_eq (h : f.columns (arrow.schema batch) = .ok cols)
    (hrows : ∀ row ∈ rows, ∃ cell, arrow.blobBytes (arrow.column batch cols.datagram) row = .ok cell)
    (out : List FlowRecord) (cache : TemplateCache) :
    arrow.foldRows (f.decodeRow arrow batch cols now) (arrow.column batch cols.datagram) rows (out, cache) =
      .ok (out ++ (runCalls (f.calls now (rows.map (cols.inputRow arrow batch))) cache).1.flatten,
        (runCalls (f.calls now (rows.map (cols.inputRow arrow batch))) cache).2) := by
  induction rows generalizing out cache with
  | nil => rw [Arrow.foldRows]; simp [calls, runCalls]
  | cons row rows ih =>
    obtain ⟨⟨cell, hcell⟩, hothers⟩ := List.forall_mem_cons.mp hrows
    have hdatagram : (cols.inputRow arrow batch row).datagram = cell := by
      rw [InputColumns.inputRow, hcell]
      rfl
    cases cell with
    | none =>
      have hcalls : f.calls now ((row :: rows).map (cols.inputRow arrow batch)) =
          f.calls now (rows.map (cols.inputRow arrow batch)) := by
        simp [calls, hdatagram]
      rw [Arrow.foldRows, hcell, hcalls]
      exact ih hothers out cache
    | some bytes =>
      have hcalls : f.calls now ((row :: rows).map (cols.inputRow arrow batch)) =
          ⟨bytes, cols.options arrow batch now row, f.restrict⟩ ::
            f.calls now (rows.map (cols.inputRow arrow batch)) := by
        simp [calls, hdatagram, InputColumns.options_eq h]
      rw [Arrow.foldRows, hcell, hcalls, runCalls_cons, List.flatten_cons, ← List.append_assoc]
      exact ih hothers _ _

end Rows

section Batches

variable {arrow : Arrow ArrayRef RecordBatch} {σ : Type} {w : Worker σ} {f : FlowDecode} {schema : Schema}
  {now : Int64} {batch : RecordBatch}

/-- A function finds its columns where the datagrams are found. -/
theorem FlowDecode.exists_columns {i : ℕ} (h : findDatagramCol schema = .ok i) :
    ∃ cols, f.columns schema = .ok cols ∧ cols.datagram = i :=
  ⟨_, exceptBind_eq_ok.mpr ⟨i, h, rfl⟩, rfl⟩

/-- A batch with a usable datagram column is processed as its input rows are. -/
theorem Worker.processBatch_of_accepted (h : arrow.Accepted batch) (storage : Option σ) :
    w.processBatch arrow f schema now batch storage =
      let processed := w.process f now (f.inputRows arrow batch) storage
      ((arrow.rowsToBatch processed.1 schema).map ([·]), processed.2) := by
  obtain ⟨i, hi, hblob⟩ := h
  obtain ⟨cols, hcols, rfl⟩ := f.exists_columns hi
  have hrows : ∀ row ∈ List.range (arrow.numRows batch),
      ∃ cell, arrow.blobBytes (arrow.column batch cols.datagram) row = .ok cell := fun row hrow =>
    (hblob.exists_cell (List.mem_range.mp hrow)).imp fun _ hcell => hcell.1
  have hinput : f.inputRows arrow batch = (List.range (arrow.numRows batch)).map (cols.inputRow arrow batch) := by
    simp only [FlowDecode.inputRows, hcols]
  simp only [processBatch, hcols, bind, Except.bind, f.decodeRows_eq hcols hrows, process, processCalls, hinput,
    List.nil_append]

/-- A batch without one is an error, and the storage stays as it is. -/
theorem Worker.processBatch_of_not_accepted (h : ¬ arrow.Accepted batch) (storage : Option σ) :
    w.processBatch arrow f schema now batch storage = (.error (arrow.rejection batch), storage) := by
  cases hfound : findDatagramCol (arrow.schema batch) with
  | error e =>
    have hcols : f.columns (arrow.schema batch) = .error e := by
      simp only [FlowDecode.columns, hfound, bind, Except.bind]
    simp only [processBatch, hcols, bind, Except.bind, Arrow.rejection, hfound]
  | ok i =>
    obtain ⟨cols, hcols, rfl⟩ := f.exists_columns hfound
    obtain ⟨row, hrow, -, herror⟩ := arrow.exists_error_of_not_isBlob fun hblob => h ⟨_, hfound, hblob⟩
    simp only [processBatch, hcols, bind, Except.bind, arrow.foldRows_eq_error ⟨row, hrow, herror⟩, Arrow.rejection,
      hfound]

/-- The calls of a relation: those of its batches, each at its time. -/
def FlowDecode.relationCalls (f : FlowDecode) (arrow : Arrow ArrayRef RecordBatch)
    (batches : List (Int64 × RecordBatch)) : List Call :=
  batches.flatMap fun p => f.calls p.1 (f.inputRows arrow p.2)

/-- The rows of some batches in a row. -/
def Arrow.flowRowsOf (arrow : Arrow ArrayRef RecordBatch) : List RecordBatch → Option (List FlowRecord)
  | [] => some []
  | batch :: batches => do
    let rows ← arrow.flowRows batch
    let rest ← flowRowsOf arrow batches
    some (rows ++ rest)

/-- Rows that fit fit in parts. -/
theorem ArrowFits.of_append {first second : List FlowRecord} (h : ArrowFits (first ++ second)) :
    ArrowFits first ∧ ArrowFits second := by
  have hleft : ∀ {a b : ℕ}, a + b < 2 ^ 31 → a < 2 ^ 31 := fun hsum => by omega
  have hright : ∀ {a b : ℕ}, a + b < 2 ^ 31 → b < 2 ^ 31 := fun hsum => by omega
  obtain ⟨hexporter, hflowVersion, hkeys, hvalues, hentries, hdiagnostics⟩ := h
  simp only [fitsOffsets, textBytes, List.map_append, List.flatMap_append, List.sum_append, List.length_append]
    at hexporter hflowVersion hkeys hvalues hentries hdiagnostics
  exact ⟨⟨hleft hexporter, hleft hflowVersion, hleft hkeys, hleft hvalues, hleft hentries, hleft hdiagnostics⟩,
    ⟨hright hexporter, hright hflowVersion, hright hkeys, hright hvalues, hright hentries, hright hdiagnostics⟩⟩

/-- The rows of some batches and of others. -/
theorem Arrow.flowRowsOf_append {first second : List RecordBatch} {rows rest : List FlowRecord}
    (hfirst : arrow.flowRowsOf first = some rows) (hsecond : arrow.flowRowsOf second = some rest) :
    arrow.flowRowsOf (first ++ second) = some (rows ++ rest) := by
  induction first generalizing rows with
  | nil =>
    cases hfirst
    exact hsecond
  | cons batch first ih =>
    obtain ⟨here, hhere, hothers⟩ := Option.bind_eq_some_iff.mp hfirst
    obtain ⟨there, hthere, heq⟩ := Option.bind_eq_some_iff.mp hothers
    cases heq
    simp [Arrow.flowRowsOf, hhere, ih hthere]

/-- Batches with usable datagram columns whose rows fit become batches of these rows, and the scan goes on with the
cache they leave. -/
theorem Worker.scan_append (harrow : arrow.Lawful) (hkv : w.kv.Lawful) (hserde : w.serde.Lawful)
    {batches : List (Int64 × RecordBatch)} (haccepted : ∀ p ∈ batches, arrow.Accepted p.2) {store : σ}
    {cache : TemplateCache} (hload : w.loadScanCache (some store) = cache) (hacc : cache.Accounted)
    (hcap : cache.WithinCap)
    (hfits : ArrowFits (runCalls (f.relationCalls arrow batches) cache).1.flatten) :
    ∃ out store', arrow.flowRowsOf out = some (runCalls (f.relationCalls arrow batches) cache).1.flatten ∧
      w.loadScanCache (some store') = (runCalls (f.relationCalls arrow batches) cache).2 ∧
      ∀ rest, w.scan arrow f flowSchema (batches ++ rest) (some store) =
        (w.scan arrow f flowSchema rest (some store')).map (out ++ ·) := by
  induction batches generalizing store cache with
  | nil =>
    refine ⟨[], store, rfl, hload, fun rest => ?_⟩
    rw [List.nil_append]
    cases w.scan arrow f flowSchema rest (some store) <;> rfl
  | cons p batches ih =>
    obtain ⟨now, batch⟩ := p
    obtain ⟨hfirst, hothers⟩ := List.forall_mem_cons.mp haccepted
    obtain ⟨calls, hcalls⟩ : ∃ calls, calls = f.calls now (f.inputRows arrow batch) := ⟨_, rfl⟩
    obtain ⟨hacc', hcap'⟩ := @runCalls_storable calls _ hacc hcap
    obtain ⟨stored, hprocess, -, hload'⟩ := w.processCalls_eq hkv hserde calls hload hacc hcap
    have hsplit : f.relationCalls arrow ((now, batch) :: batches) = calls ++ f.relationCalls arrow batches := by
      rw [hcalls]
      rfl
    rw [hsplit, runCalls_append, List.flatten_append] at hfits ⊢
    obtain ⟨hhere, hlater⟩ := hfits.of_append
    obtain ⟨processed, hbatch, hread⟩ := hhere.exists_rowsToBatch harrow
    obtain ⟨out, store', hrows, hstore, hscan⟩ := ih hothers hload' hacc' hcap' hlater
    refine ⟨processed :: out, store', by simp [Arrow.flowRowsOf, hread, hrows], hstore, fun rest => ?_⟩
    rw [List.cons_append, scan, processBatch_of_accepted hfirst, process, ← hcalls, hprocess]
    simp only [hbatch, Except.map, bind, Except.bind, hscan]
    cases w.scan arrow f flowSchema rest (some store') <;> rfl

/-- Without a cache in the storage a scan starts with an empty one. -/
theorem Worker.loadScanCache_cold {store : σ} (hcold : w.kv.kvGet store w.executionId cacheKey = none) :
    w.loadScanCache (some store) = .new := by
  simp [loadScanCache, readCache, hcold, TemplateCache.fromBytes]

/-- At the end of the stream the rows come out that still wait, if they fit. -/
theorem Worker.finishBatch_flowRows (harrow : arrow.Lawful) {store : σ}
    (hfits : ArrowFits (flushPending (w.loadScanCache (some store))).1) :
    ∃ out, (w.finishBatch arrow flowSchema (some store)).1 = .ok out ∧
      arrow.flowRowsOf out = some (flushPending (w.loadScanCache (some store))).1 := by
  obtain ⟨batch, hbatch, hread⟩ := hfits.exists_rowsToBatch harrow
  rw [finishBatch]
  by_cases hempty : (flushPending (w.loadScanCache (some store))).1.isEmpty
  · simp only [if_pos hempty]
    exact ⟨[], rfl, by rw [List.isEmpty_iff.mp hempty]; rfl⟩
  · simp only [if_neg hempty, hbatch]
    exact ⟨_, rfl, by simp [Arrow.flowRowsOf, hread]⟩

/-- From a cold start, a scan of any relation whose batches have usable datagram columns and whose rows fit returns
the rows of one run over its datagrams, however they are cut into batches. -/
theorem Worker.scan_flowRows (harrow : arrow.Lawful) (hkv : w.kv.Lawful) (hserde : w.serde.Lawful) {store : σ}
    (hcold : w.kv.kvGet store w.executionId cacheKey = none) {batches : List (Int64 × RecordBatch)}
    (haccepted : ∀ p ∈ batches, arrow.Accepted p.2)
    (hfits : ArrowFits (scanRows (f.relationCalls arrow batches) .new)) :
    ∃ out, w.scan arrow f flowSchema batches (some store) = .ok out ∧
      arrow.flowRowsOf out = some (scanRows (f.relationCalls arrow batches) .new) := by
  obtain ⟨hfits, hflushed⟩ := hfits.of_append
  obtain ⟨out, store', hrows, hload, hscan⟩ := w.scan_append harrow hkv hserde haccepted (w.loadScanCache_cold hcold)
    TemplateCache.accounted_new (UInt32.zero_le (a := _)) hfits
  rw [← hload] at hflushed
  obtain ⟨flushed, hfinish, hlast⟩ := w.finishBatch_flowRows harrow hflushed
  have hend := hscan []
  rw [List.append_nil, scan, hfinish] at hend
  rw [hload] at hlast
  exact ⟨_, hend, arrow.flowRowsOf_append hrows hlast⟩

/-- A template in one batch, a null and a record of it in the next: the row of the record comes out. -/
theorem Worker.scan_flowRows_two :
    let template := PlainBatch.single "Datagram" (.binary false [some sampleTemplate])
    let data := PlainBatch.single "content" (.binary true [none, some sampleData])
    let calls := FlowDecode.flows.relationCalls plainArrow [(5, template), (6, data)]
    let w := Worker.inMemory [(runCalls (calls.take 1) .new).2, (runCalls calls .new).2]
    (scanRows calls .new).length = 1 ∧
      ∃ out, w.scan plainArrow .flows flowSchema [(5, template), (6, data)] (some fun _ _ => none) = .ok out ∧
        plainArrow.flowRowsOf out = some (scanRows calls .new) := by
  intro template data calls w
  have hserde : w.serde.Lawful := SerdeJson.writing_lawful (by decide +kernel)
  have haccepted : ∀ p ∈ [((5 : Int64), template), (6, data)], plainArrow.Accepted p.2 := by
    rw [List.forall_mem_cons, List.forall_mem_singleton]
    exact ⟨⟨0, rfl, .inl rfl⟩, ⟨0, rfl, .inl rfl⟩⟩
  have hfits : ArrowFits (scanRows calls .new) := by constructor <;> decide +kernel
  exact ⟨by decide +kernel,
    Worker.scan_flowRows plainArrow_lawful ⟨fun _ _ _ _ _ _ => rfl⟩ hserde rfl haccepted hfits⟩

/-- A datagram column is named like one or is a column of bytes. -/
theorem findDatagramCol_eq_ok {i : ℕ} (h : findDatagramCol schema = .ok i) :
    ∃ field, schema[i]? = some field ∧
      ((∃ want ∈ ["datagram", "content", "blob"], eqIgnoreAsciiCase field.name want) ∨ field.dataType.isBinary) := by
  unfold findDatagramCol at h
  split at h
  · rename_i hfound
    cases h
    obtain ⟨want, hwant, hcol⟩ := List.exists_of_findSome?_eq_some hfound
    obtain ⟨hlt, hname, -⟩ := List.findIdx?_eq_some_iff_getElem.mp hcol
    exact ⟨_, List.getElem?_eq_getElem hlt, .inl ⟨want, hwant, hname⟩⟩
  · split at h
    · rename_i hfound
      cases h
      obtain ⟨hlt, htype, -⟩ := List.findIdx?_eq_some_iff_getElem.mp hfound
      exact ⟨_, List.getElem?_eq_getElem hlt, .inr htype⟩
    · contradiction

/-- A column of the null type can be read as datagrams only if it has no rows: its cells are not nulls that are
stored. -/
theorem Arrow.Lawful.isBlob_null_iff (h : arrow.Lawful) {col : ArrayRef} (htype : arrow.dataType col = .null) :
    arrow.IsBlob batch col ↔ arrow.numRows batch = 0 := by
  simp only [IsBlob, htype, DataType.isBinary, h.isNull_null _ _ htype, Bool.false_eq_true, false_or, imp_false,
    not_lt]
  exact ⟨fun hall => Nat.le_zero.mp (hall 0), fun hzero _ => hzero.trans_le (Nat.zero_le _)⟩

/-- Once a function is bound to a schema, a batch of it is rejected only where a column that is named like datagrams
is not one of bytes and has a cell that is not null. The scan ends with that error, after whatever batches, and the
storage stays as it is. -/
theorem Worker.scan_rejects (harrow : arrow.Lawful) (hkv : w.kv.Lawful) (hserde : w.serde.Lawful) {store : σ}
    (hcold : w.kv.kvGet store w.executionId cacheKey = none) {before after : List (Int64 × RecordBatch)}
    (haccepted : ∀ p ∈ before, arrow.Accepted p.2)
    (hfits : ArrowFits (runCalls (f.relationCalls arrow before) .new).1.flatten) {name : String}
    (hbound : FlowDecode.onBind name (some (arrow.schema batch)) = .ok schema) (hbad : ¬ arrow.Accepted batch) :
    ∃ i field, (arrow.schema batch)[i]? = some field ∧
      (∃ want ∈ ["datagram", "content", "blob"], eqIgnoreAsciiCase field.name want) ∧
      field.dataType.isBinary = false ∧
      (∃ row < arrow.numRows batch, arrow.isNull (arrow.column batch i) row = false) ∧
      w.scan arrow f flowSchema (before ++ (now, batch) :: after) (some store) = .error (.notBlob field.dataType) ∧
      ∀ storage, (w.processBatch arrow f flowSchema now batch storage).2 = storage := by
  obtain ⟨i, hi, -⟩ := exceptBind_eq_ok.mp hbound
  obtain ⟨field, hfield, hnamed⟩ := findDatagramCol_eq_ok hi
  have htype := (harrow.column batch i field hfield).1
  have hnot : ¬ arrow.IsBlob batch (arrow.column batch i) := fun hblob => hbad ⟨i, hi, hblob⟩
  obtain ⟨row, hrow, hnull, -⟩ := arrow.exists_error_of_not_isBlob hnot
  have hbinary : ¬ field.dataType.isBinary := fun hbinary => hnot (.inl (htype ▸ hbinary))
  have hrejected : arrow.rejection batch = .notBlob field.dataType := by
    simp only [Arrow.rejection, hi, htype]
  obtain ⟨out, store', -, -, hscan⟩ := w.scan_append harrow hkv hserde haccepted (w.loadScanCache_cold hcold)
    TemplateCache.accounted_new (UInt32.zero_le (a := _)) hfits
  refine ⟨i, field, hfield, hnamed.resolve_right hbinary, Bool.eq_false_iff.mpr hbinary,
    ⟨row, List.mem_range.mp hrow, hnull⟩, ?_, fun storage => by rw [processBatch_of_not_accepted hbad]⟩
  rw [hscan, scan, processBatch_of_not_accepted hbad, hrejected]
  rfl

/-- A template, and then a batch whose datagrams are of the null type: the scan ends with the error. -/
theorem Worker.scan_rejects_null :
    let template := PlainBatch.single "datagram" (.binary false [some sampleTemplate])
    let nulls := PlainBatch.single "blob" (.null 2)
    let before := [((5 : Int64), template)]
    let w := Worker.inMemory [(runCalls (FlowDecode.flows.relationCalls plainArrow before) .new).2]
    ∃ i field, nulls.schema[i]? = some field ∧
      (∃ want ∈ ["datagram", "content", "blob"], eqIgnoreAsciiCase field.name want) ∧
      field.dataType.isBinary = false ∧ (∃ row < 2, plainArrow.isNull (plainArrow.column nulls i) row = false) ∧
      w.scan plainArrow .flows flowSchema (before ++ (6, nulls) :: []) (some fun _ _ => none) =
        .error (.notBlob field.dataType) ∧
      ∀ storage, (w.processBatch plainArrow .flows flowSchema 6 nulls storage).2 = storage := by
  intro template nulls before w
  have hserde : w.serde.Lawful := SerdeJson.writing_lawful (by decide +kernel)
  have haccepted : ∀ p ∈ before, plainArrow.Accepted p.2 := by
    rw [List.forall_mem_singleton]
    exact ⟨0, rfl, .inl rfl⟩
  have hfits : ArrowFits (runCalls (FlowDecode.flows.relationCalls plainArrow before) .new).1.flatten := by
    constructor <;> decide +kernel
  have hbad : ¬ plainArrow.Accepted nulls := by
    rintro ⟨i, hi, hblob⟩
    cases hi
    exact absurd ((plainArrow_lawful.isBlob_null_iff rfl).mp hblob) (by decide)
  have hbound : FlowDecode.onBind "flows" (some (plainArrow.schema nulls)) = .ok flowSchema := rfl
  exact Worker.scan_rejects plainArrow_lawful ⟨fun _ _ _ _ _ _ => rfl⟩ hserde rfl haccepted hfits hbound hbad

end Batches

end Netflow
