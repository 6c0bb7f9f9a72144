import Netflow.Worker.PlainArrow

/-!
# Rows as record batches

The normalized rows become the 28 columns of the flow schema. Text and bytes are stored with 32-bit offsets, and so
are the raw fields: all keys and all values in a row, and where those of each row begin. A batch read by the
names of its columns has the rows it was built from.
-/

namespace Netflow

open Columnar

variable {ArrayRef RecordBatch : Type}

section Build

/-- Times in microseconds. -/
def ts : DataType := .primitive .timestampUtc

/-- The three child fields of an address. -/
def inetChildFields : List Field :=
  [⟨"ip_type", .primitive .uInt8, false⟩, ⟨"address", .fixedSizeBinary 16, false⟩,
    ⟨"mask", .primitive .uInt16, false⟩]

/-- The type of an address. -/
def inetType : DataType := .struct inetChildFields

/-- The two child fields of an entry of the raw fields. -/
def entryFields : List Field := [⟨"key", .utf8, false⟩, ⟨"value", .binary, true⟩]

/-- The entries of the map of raw fields. -/
def mapEntriesField : Field := ⟨"entries", .struct entryFields, false⟩

/-- The type of the map of raw fields. -/
def rawFieldsType : DataType := .map mapEntriesField

/-- A column of an output schema; all of them can be null. -/
def col (name : String) (dt : DataType) : Field := ⟨name, dt, true⟩

/-- The normalized flow output schema. -/
def flowSchema : Schema :=
  [col "exporter" .utf8, col "flow_version" .utf8, col "obs_domain" (.primitive .uInt32),
    col "template_id" (.primitive .uInt16), col "export_time" ts, col "sequence" (.primitive .uInt64),
    col "src_addr" inetType, col "dst_addr" inetType,
    col "src_port" (.primitive .uInt16), col "dst_port" (.primitive .uInt16), col "protocol" (.primitive .uInt8),
    col "tcp_flags" (.primitive .uInt8), col "bytes" (.primitive .uInt64), col "packets" (.primitive .uInt64),
    col "flow_start" ts, col "flow_end" ts,
    col "src_as" (.primitive .uInt32), col "dst_as" (.primitive .uInt32), col "input_snmp" (.primitive .uInt32),
    col "output_snmp" (.primitive .uInt32), col "next_hop" inetType, col "tos" (.primitive .uInt8),
    col "src_mask" (.primitive .uInt8), col "dst_mask" (.primitive .uInt8),
    col "sampling_rate" (.primitive .uInt32), col "direction" (.primitive .uInt8),
    col "raw_fields" rawFieldsType, col "diagnostics" .utf8]

variable (arrow : Arrow ArrayRef RecordBatch)

/-- A column of texts. -/
def Arrow.strCol (cells : List (Option String)) : Except Failure ArrayRef := orPanic (arrow.stringArray cells)

/-- The address column: a null has zeros in its three parts. -/
def Arrow.buildInet (vals : List (Option InetVal)) : Except Failure ArrayRef :=
  orPanic (arrow.structArray inetChildFields
    [arrow.primitiveArray .uInt8 (vals.map fun v => some (v.elim 0 InetVal.ipType)),
      arrow.fixedSizeBinaryArray 16 (vals.map fun v => v.elim (Vector.replicate 16 0) InetVal.addressLe),
      arrow.primitiveArray .uInt16 (vals.map fun v => some (v.elim 0 InetVal.mask))]
    (some (vals.map Option.isSome)))

/-- The map column of the raw fields, one map a row. -/
def Arrow.buildRawFields (rows : List FlowRecord) : Except Failure ArrayRef := do
  let keys ← orPanic (arrow.stringArray ((rows.flatMap FlowRecord.rawFields).map fun e => some e.1))
  let vals ← orPanic (arrow.binaryArray ((rows.flatMap FlowRecord.rawFields).map Prod.snd))
  let entries ← orPanic (arrow.structArray entryFields [keys, vals] none)
  orPanic (arrow.mapArray mapEntriesField (runningOffsets 0 ((rows.map FlowRecord.rawFields).map List.length)) entries)

/-- The columns of some rows, in the order of the flow schema. -/
def Arrow.flowColumns (rows : List FlowRecord)
    (exporter flowVersion srcAddr dstAddr nextHop rawFields diagnostics : ArrayRef) : List ArrayRef :=
  [exporter, flowVersion, arrow.primitiveArray .uInt32 (rows.map fun r => some r.obsDomain),
    arrow.primitiveArray .uInt16 (rows.map FlowRecord.templateId),
    arrow.primitiveArray .timestampUtc (rows.map FlowRecord.exportTime),
    arrow.primitiveArray .uInt64 (rows.map FlowRecord.sequence), srcAddr, dstAddr,
    arrow.primitiveArray .uInt16 (rows.map FlowRecord.srcPort),
    arrow.primitiveArray .uInt16 (rows.map FlowRecord.dstPort),
    arrow.primitiveArray .uInt8 (rows.map FlowRecord.protocol),
    arrow.primitiveArray .uInt8 (rows.map FlowRecord.tcpFlags),
    arrow.primitiveArray .uInt64 (rows.map FlowRecord.bytes),
    arrow.primitiveArray .uInt64 (rows.map FlowRecord.packets),
    arrow.primitiveArray .timestampUtc (rows.map FlowRecord.flowStart),
    arrow.primitiveArray .timestampUtc (rows.map FlowRecord.flowEnd),
    arrow.primitiveArray .uInt32 (rows.map FlowRecord.srcAs),
    arrow.primitiveArray .uInt32 (rows.map FlowRecord.dstAs),
    arrow.primitiveArray .uInt32 (rows.map FlowRecord.inputSnmp),
    arrow.primitiveArray .uInt32 (rows.map FlowRecord.outputSnmp), nextHop,
    arrow.primitiveArray .uInt8 (rows.map FlowRecord.tos),
    arrow.primitiveArray .uInt8 (rows.map FlowRecord.srcMask),
    arrow.primitiveArray .uInt8 (rows.map FlowRecord.dstMask),
    arrow.primitiveArray .uInt32 (rows.map FlowRecord.samplingRate),
    arrow.primitiveArray .uInt8 (rows.map FlowRecord.direction), rawFields, diagnostics]

/-- Put columns together to a batch. -/
def Arrow.newBatch (schema : Schema) (columns : List ArrayRef) : Except Failure RecordBatch :=
  match arrow.tryNew schema columns with
  | some batch => .ok batch
  | none => .error .badBatch

/-- A record batch of some rows. -/
def Arrow.rowsToBatch (rows : List FlowRecord) (schema : Schema) : Except Failure RecordBatch := do
  let exporter ← arrow.strCol (rows.map fun r => some r.exporter)
  let flowVersion ← arrow.strCol (rows.map fun r => some r.flowVersion)
  let srcAddr ← arrow.buildInet (rows.map FlowRecord.srcAddr)
  let dstAddr ← arrow.buildInet (rows.map FlowRecord.dstAddr)
  let nextHop ← arrow.buildInet (rows.map FlowRecord.nextHop)
  let rawFields ← arrow.buildRawFields rows
  let diagnostics ← arrow.strCol (rows.map FlowRecord.diagnostics)
  arrow.newBatch schema (arrow.flowColumns rows exporter flowVersion srcAddr dstAddr nextHop rawFields diagnostics)

end Build

section Read

namespace Arrow

variable (arrow : Arrow ArrayRef RecordBatch)

/-- The array of the first column with a name. -/
def named (batch : RecordBatch) (name : String) : Option ArrayRef :=
  (((arrow.schema batch).map Field.name).zipIdx.lookup name).map (arrow.column batch)

/-- A cell of an address column. -/
def inetAt (col : ArrayRef) (row : ℕ) : Option (Option InetVal) :=
  match arrow.children col with
  | [ipType, address, mask] => some (arrow.cell (fun _ row =>
      ⟨arrow.primitive .uInt8 ipType row, arrow.fixedSizeBinary 16 address row, arrow.primitive .uInt16 mask row⟩)
      col row)
  | _ => none

/-- The entries of a map column, the keys and values of all its maps. A null value is no entry. -/
def mapEntries (col : ArrayRef) : Option (List (String × Bytes)) :=
  match arrow.children (arrow.values col) with
  | [keys, vals] => ((arrow.cells arrow.string keys).zip (arrow.cells arrow.binary vals)).mapM fun entry => do
      some (← entry.1, ← entry.2)
  | _ => none

/-- A cell of a map column. -/
def rawFieldsAt (col : ArrayRef) (row : ℕ) : Option (List (String × Bytes)) := do
  (slices (← arrow.mapEntries col) (arrow.offsets col))[row]?

/-- A row of a batch, read by the names of the columns. -/
def flowRow (batch : RecordBatch) (row : ℕ) : Option FlowRecord := do
  let exporter ← arrow.cell arrow.string (← arrow.named batch "exporter") row
  let flowVersion ← arrow.cell arrow.string (← arrow.named batch "flow_version") row
  let obsDomain ← arrow.cell (arrow.primitive .uInt32) (← arrow.named batch "obs_domain") row
  let templateId := arrow.cell (arrow.primitive .uInt16) (← arrow.named batch "template_id") row
  let exportTime := arrow.cell (arrow.primitive .timestampUtc) (← arrow.named batch "export_time") row
  let sequence := arrow.cell (arrow.primitive .uInt64) (← arrow.named batch "sequence") row
  let srcAddr ← arrow.inetAt (← arrow.named batch "src_addr") row
  let dstAddr ← arrow.inetAt (← arrow.named batch "dst_addr") row
  let srcPort := arrow.cell (arrow.primitive .uInt16) (← arrow.named batch "src_port") row
  let dstPort := arrow.cell (arrow.primitive .uInt16) (← arrow.named batch "dst_port") row
  let protocol := arrow.cell (arrow.primitive .uInt8) (← arrow.named batch "protocol") row
  let tcpFlags := arrow.cell (arrow.primitive .uInt8) (← arrow.named batch "tcp_flags") row
  let bytes := arrow.cell (arrow.primitive .uInt64) (← arrow.named batch "bytes") row
  let packets := arrow.cell (arrow.primitive .uInt64) (← arrow.named batch "packets") row
  let flowStart := arrow.cell (arrow.primitive .timestampUtc) (← arrow.named batch "flow_start") row
  let flowEnd := arrow.cell (arrow.primitive .timestampUtc) (← arrow.named batch "flow_end") row
  let srcAs := arrow.cell (arrow.primitive .uInt32) (← arrow.named batch "src_as") row
  let dstAs := arrow.cell (arrow.primitive .uInt32) (← arrow.named batch "dst_as") row
  let inputSnmp := arrow.cell (arrow.primitive .uInt32) (← arrow.named batch "input_snmp") row
  let outputSnmp := arrow.cell (arrow.primitive .uInt32) (← arrow.named batch "output_snmp") row
  let nextHop ← arrow.inetAt (← arrow.named batch "next_hop") row
  let tos := arrow.cell (arrow.primitive .uInt8) (← arrow.named batch "tos") row
  let srcMask := arrow.cell (arrow.primitive .uInt8) (← arrow.named batch "src_mask") row
  let dstMask := arrow.cell (arrow.primitive .uInt8) (← arrow.named batch "dst_mask") row
  let samplingRate := arrow.cell (arrow.primitive .uInt32) (← arrow.named batch "sampling_rate") row
  let direction := arrow.cell (arrow.primitive .uInt8) (← arrow.named batch "direction") row
  let rawFields ← arrow.rawFieldsAt (← arrow.named batch "raw_fields") row
  let diagnostics := arrow.cell arrow.string (← arrow.named batch "diagnostics") row
  some { exporter, flowVersion, obsDomain, templateId, exportTime, sequence, srcAddr, dstAddr, srcPort, dstPort
         protocol, tcpFlags, bytes, packets, flowStart, flowEnd, srcAs, dstAs, inputSnmp, outputSnmp, nextHop, tos
         srcMask, dstMask, samplingRate, direction, rawFields, diagnostics }

/-- The rows of a batch. -/
def flowRows (batch : RecordBatch) : Option (List FlowRecord) :=
  (List.range (arrow.numRows batch)).mapM (arrow.flowRow batch)

end Arrow

end Read

section RoundTrip

variable {arrow : Arrow ArrayRef RecordBatch} {rows : List FlowRecord} {batch : RecordBatch}

open Arrow

/-- Rows whose texts, bytes and raw fields have offsets of 32 bits. -/
structure ArrowFits (rows : List FlowRecord) : Prop where
  exporter : fitsOffsets (textBytes (rows.map fun r => some r.exporter))
  flowVersion : fitsOffsets (textBytes (rows.map fun r => some r.flowVersion))
  keys : fitsOffsets (textBytes ((rows.flatMap FlowRecord.rawFields).map fun e => some e.1))
  values : fitsOffsets (((rows.flatMap FlowRecord.rawFields).map Prod.snd).map List.length).sum
  entries : (rows.flatMap FlowRecord.rawFields).length < 2 ^ 31
  diagnostics : fitsOffsets (textBytes (rows.map FlowRecord.diagnostics))

/-- Reading some things gives these results if each gives its own. -/
theorem mapM_eq_some_iff {A B : Type} {f : A → Option B} {inputs : List A} {results : List B} :
    inputs.mapM f = some results ↔ inputs.map f = results.map some := by
  induction inputs generalizing results with
  | nil => cases results <;> simp
  | cons input inputs ih =>
    rw [List.mapM_cons, List.map_cons]
    cases results with
    | nil => cases f input <;> cases inputs.mapM f <;> simp
    | cons result results => simp [← ih, Option.bind_eq_some_iff]

/-- The keys and the values of some entries are columns of the entry fields. -/
theorem fitsField_rawEntries {entries : List (String × Bytes)} {keys vals : ArrayRef}
    (hkeysType : arrow.dataType keys = .utf8)
    (hkeys : arrow.cells arrow.string keys = entries.map fun e => some e.1)
    (hvalsType : arrow.dataType vals = .binary)
    (hvals : arrow.cells arrow.binary vals = (entries.map Prod.snd).map some) :
    List.Forall₂ (arrow.FitsField entries.length) entryFields [keys, vals] :=
  .cons (fitsField_of_forall hkeysType hkeys (List.length_map _) rfl (List.forall_mem_map.mpr fun _ _ => rfl))
    (.cons (fitsField_of_forall hvalsType hvals (by rw [List.length_map, List.length_map]) rfl
      (List.forall_mem_map.mpr fun _ _ => rfl)) .nil)

/-- The lists between the offsets that are computed for the raw fields of some rows. -/
def rawSlices (rows : List FlowRecord) : List (List (String × Bytes)) :=
  slices (rows.map FlowRecord.rawFields).flatten (runningOffsets 0 ((rows.map FlowRecord.rawFields).map List.length))

variable (arrow rows) in
/-- Whether some arrays are the text, address and map columns of some rows. -/
structure Arrow.FlowArrays (exporter flowVersion srcAddr dstAddr nextHop rawFields diagnostics : ArrayRef) : Prop where
  exporter : arrow.FitsField rows.length (col "exporter" .utf8) exporter ∧
    arrow.cells arrow.string exporter = rows.map fun r => some r.exporter
  flowVersion : arrow.FitsField rows.length (col "flow_version" .utf8) flowVersion ∧
    arrow.cells arrow.string flowVersion = rows.map fun r => some r.flowVersion
  srcAddr : arrow.FitsField rows.length (col "src_addr" inetType) srcAddr ∧
    ∀ row v, (rows.map FlowRecord.srcAddr)[row]? = some v → arrow.inetAt srcAddr row = some v
  dstAddr : arrow.FitsField rows.length (col "dst_addr" inetType) dstAddr ∧
    ∀ row v, (rows.map FlowRecord.dstAddr)[row]? = some v → arrow.inetAt dstAddr row = some v
  nextHop : arrow.FitsField rows.length (col "next_hop" inetType) nextHop ∧
    ∀ row v, (rows.map FlowRecord.nextHop)[row]? = some v → arrow.inetAt nextHop row = some v
  rawFields : arrow.FitsField rows.length (col "raw_fields" rawFieldsType) rawFields ∧
    ∀ row, arrow.rawFieldsAt rawFields row = (rawSlices rows)[row]?
  diagnostics : arrow.FitsField rows.length (col "diagnostics" .utf8) diagnostics ∧
    arrow.cells arrow.string diagnostics = rows.map FlowRecord.diagnostics

section Columns

variable (h : arrow.Lawful)

include h

/-- What a text column is, if it is built. -/
theorem Arrow.Lawful.of_strCol {cells : List (Option String)} {col : ArrayRef} (hcol : arrow.strCol cells = .ok col)
    {rows : ℕ} (hrows : cells.length = rows) (name : String) :
    fitsOffsets (textBytes cells) ∧ arrow.FitsField rows ⟨name, .utf8, true⟩ col ∧
      arrow.cells arrow.string col = cells := by
  obtain ⟨hfits, htype, hcells⟩ := h.of_stringArray (orPanic_eq_ok.mp hcol)
  exact ⟨hfits, fitsField_of_cells htype hcells hrows, hcells⟩

/-- A text column is built from texts that fit. -/
theorem Arrow.Lawful.exists_strCol {cells : List (Option String)} (hfits : fitsOffsets (textBytes cells)) :
    ∃ col, arrow.strCol cells = .ok col := by
  obtain ⟨col, hcol, -⟩ := h.stringArray cells hfits
  exact ⟨col, orPanic_eq_ok.mpr hcol⟩

/-- An address column is built from any addresses, and they are read back. -/
theorem Arrow.Lawful.exists_buildInet (vals : List (Option InetVal)) (name : String) :
    ∃ col, arrow.buildInet vals = .ok col ∧ arrow.FitsField vals.length ⟨name, inetType, true⟩ col ∧
      ∀ row v, vals[row]? = some v → arrow.inetAt col row = some v := by
  unfold buildInet
  obtain ⟨hipTypes, hipType⟩ := h.primitiveArray .uInt8 (vals.map fun v => some (v.elim 0 InetVal.ipType))
  obtain ⟨haddresses, haddress⟩ := h.fixedSizeBinaryArray 16
    (vals.map fun v => v.elim (Vector.replicate 16 0) InetVal.addressLe)
  obtain ⟨hmasks, hmask⟩ := h.primitiveArray .uInt16 (vals.map fun v => some (v.elim 0 InetVal.mask))
  generalize arrow.primitiveArray .uInt8 _ = ipType at hipTypes hipType ⊢
  generalize arrow.fixedSizeBinaryArray 16 _ = address at haddresses haddress ⊢
  generalize arrow.primitiveArray .uInt16 _ = mask at hmasks hmask ⊢
  have hfits : List.Forall₂ (arrow.FitsField vals.length) inetChildFields [ipType, address, mask] :=
    .cons (fitsField_of_forall hipTypes hipType (by simp) rfl (by simp))
      (.cons (fitsField_of_forall haddresses haddress (by simp) rfl (by simp))
        (.cons (fitsField_of_forall hmasks hmask (by simp) rfl (by simp)) .nil))
  obtain ⟨col, hcol, hchildren, hcolumn, hnulls⟩ := h.exists_structArray_valid _ _ (List.cons_ne_nil _ _) hfits
    (List.length_map Option.isSome) name
  refine ⟨col, orPanic_eq_ok.mpr hcol, hcolumn, fun row v hv => ?_⟩
  have hnull := hnulls row v.isSome (by rw [List.getElem?_map, hv, Option.map_some])
  simp only [inetAt, hchildren, cell, hnull]
  cases v with
  | none => rfl
  | some v =>
    rw [read_of_cells (a := v.ipType) hipType (by simp [hv]), read_of_cells (a := v.addressLe) haddress (by simp [hv]),
      read_of_cells (a := v.mask) hmask (by simp [hv])]
    rfl

/-- What an address column is. -/
theorem Arrow.Lawful.of_buildInet {vals : List (Option InetVal)} {col : ArrayRef}
    (hcol : arrow.buildInet vals = .ok col) {rows : ℕ} (hrows : vals.length = rows) (name : String) :
    arrow.FitsField rows ⟨name, inetType, true⟩ col ∧
      ∀ row v, vals[row]? = some v → arrow.inetAt col row = some v := by
  obtain ⟨built, hbuilt, hfits, hread⟩ := h.exists_buildInet vals name
  obtain rfl := Except.ok.inj (hbuilt.symm.trans hcol)
  exact ⟨hrows ▸ hfits, hread⟩

/-- What the map column of the raw fields is, if it is built. -/
theorem Arrow.Lawful.of_buildRawFields {col : ArrayRef} (hcol : arrow.buildRawFields rows = .ok col) (name : String) :
    fitsOffsets (textBytes ((rows.flatMap FlowRecord.rawFields).map fun e => some e.1)) ∧
      fitsOffsets (((rows.flatMap FlowRecord.rawFields).map Prod.snd).map List.length).sum ∧
      InOrder (runningOffsets 0 ((rows.map FlowRecord.rawFields).map List.length)) ∧
      arrow.FitsField rows.length ⟨name, rawFieldsType, true⟩ col ∧
      ∀ row, arrow.rawFieldsAt col row = (rawSlices rows)[row]? := by
  obtain ⟨keys, hkeys, hcol⟩ := exceptBind_eq_ok.mp hcol
  obtain ⟨vals, hvals, hcol⟩ := exceptBind_eq_ok.mp hcol
  obtain ⟨entries, hentries, hcol⟩ := exceptBind_eq_ok.mp hcol
  obtain ⟨hkeysFit, hkeysType, hkeys⟩ := h.of_stringArray (orPanic_eq_ok.mp hkeys)
  obtain ⟨hvalsFit, hvalsType, hvals⟩ := h.of_binaryArray (orPanic_eq_ok.mp hvals)
  obtain ⟨built, hbuilt, hchildren, hitem⟩ := h.exists_structArray (List.cons_ne_nil _ _)
    (fitsField_rawEntries hkeysType hkeys hvalsType hvals)
  obtain rfl := Option.some_inj.mp (hbuilt.symm.trans (orPanic_eq_ok.mp hentries))
  obtain ⟨horder, hlists⟩ := h.of_mapArray rfl rfl (hitem.len ▸ hitem) (orPanic_eq_ok.mp hcol)
  refine ⟨hkeysFit, hvalsFit, horder, ⟨hlists.dataType, ?_, fun hnot => Bool.noConfusion hnot⟩, fun row => ?_⟩
  · rw [hlists.len, length_runningOffsets]
    simp
  · have hread : arrow.mapEntries col = some (rows.map FlowRecord.rawFields).flatten := by
      simp only [mapEntries, hlists.values, hchildren, hkeys, hvals, mapM_eq_some_iff, List.map_map]
      rw [List.zip_map', List.map_map, List.flatMap_def]
      rfl
    simp only [rawFieldsAt, hread, hlists.offsets, Option.bind_eq_bind, Option.bind_some, rawSlices]

/-- The map column of the raw fields is built from raw fields that fit. -/
theorem Arrow.Lawful.exists_buildRawFields
    (hkeys : fitsOffsets (textBytes ((rows.flatMap FlowRecord.rawFields).map fun e => some e.1)))
    (hvalues : fitsOffsets (((rows.flatMap FlowRecord.rawFields).map Prod.snd).map List.length).sum)
    (hentries : (rows.flatMap FlowRecord.rawFields).length < 2 ^ 31) :
    ∃ col, arrow.buildRawFields rows = .ok col := by
  obtain ⟨keys, hkeys, hkeysType, hkeysCells⟩ := h.stringArray _ hkeys
  obtain ⟨vals, hvals, hvalsType, hvalsCells⟩ := h.binaryArray _ hvalues
  obtain ⟨entries, hbuilt, -, hitem⟩ := h.exists_structArray (List.cons_ne_nil _ _)
    (fitsField_rawEntries hkeysType hkeysCells hvalsType hvalsCells)
  obtain ⟨horder, hfinal⟩ := @inOrder_runningOffsets _ (rows.map FlowRecord.rawFields) (by rwa [← List.flatMap_def])
  obtain ⟨col, hcol, -⟩ := h.mapArray mapEntriesField _ _ _ entries rfl rfl (hitem.len ▸ hitem) horder
    (by rw [hfinal, hitem.len, List.flatMap_def])
  refine ⟨col, ?_⟩
  simp only [buildRawFields, hkeys, hvals, orPanic, bind, Except.bind, hbuilt, hcol]

end Columns

/-- What is found by a name at a position is found by the name. -/
theorem lookup_zipIdx {A : Type} {f : ℕ → A} {names : List String} {columns : List A} {start : ℕ}
    (hlength : names.length = columns.length) (h : ∀ i a, columns[i]? = some a → f (start + i) = a) (name : String) :
    ((names.zipIdx start).lookup name).map f = (names.zip columns).lookup name := by
  induction names generalizing columns start with
  | nil => rfl
  | cons first names ih =>
    cases columns with
    | nil => contradiction
    | cons column columns =>
      rw [List.zipIdx_cons, List.zip_cons_cons, List.lookup_cons, List.lookup_cons]
      have hfirst : f start = column := h 0 column rfl
      have hrest := @ih columns (start + 1) (Nat.succ.inj hlength) fun i a ha => by
        rw [Nat.add_assoc, Nat.add_comm 1]
        exact h (i + 1) a ha
      cases name == first with
      | true => rw [Option.map_some, hfirst]
      | false => exact hrest

/-- The columns of a batch are found by the names of its schema. -/
theorem Arrow.named_eq {schema : Schema} {columns : List ArrayRef} (hschema : arrow.schema batch = schema)
    (hlength : schema.length = columns.length) (hcolumn : ∀ i col, columns[i]? = some col → arrow.column batch i = col)
    (name : String) : arrow.named batch name = ((schema.map Field.name).zip columns).lookup name := by
  rw [named, hschema]
  exact lookup_zipIdx ((List.length_map _).trans hlength) (fun i col hcol => by rw [Nat.zero_add, hcolumn i col hcol])
    name

section Batch

variable (h : arrow.Lawful) {exporter flowVersion srcAddr dstAddr nextHop rawFields diagnostics : ArrayRef}
  (harrays : arrow.FlowArrays rows exporter flowVersion srcAddr dstAddr nextHop rawFields diagnostics)

include h harrays

/-- The columns of some rows are put together to a batch of the flow schema. -/
theorem Arrow.FlowArrays.exists_tryNew :
    ∃ batch, arrow.tryNew flowSchema
        (arrow.flowColumns rows exporter flowVersion srcAddr dstAddr nextHop rawFields diagnostics) = some batch ∧
      arrow.schema batch = flowSchema ∧ arrow.numRows batch = rows.length ∧
      ∀ i col, (arrow.flowColumns rows exporter flowVersion srcAddr dstAddr nextHop rawFields diagnostics)[i]? =
        some col → arrow.column batch i = col := by
  have hprimitive : ∀ (type : PrimitiveType) (f : FlowRecord → Option type.Native) (name : String),
      arrow.FitsField rows.length (col name (.primitive type)) (arrow.primitiveArray type (rows.map f)) := by
    intro type f name
    obtain ⟨htype, hcells⟩ := h.primitiveArray type (rows.map f)
    exact fitsField_of_cells htype hcells (List.length_map _)
  refine h.tryNew rows.length flowSchema _ (List.cons_ne_nil _ _) ?_
  simp only [flowSchema, flowColumns, ts, List.forall₂_cons, List.Forall₂.nil, and_true]
  simp only [harrays.exporter.1, harrays.flowVersion.1, harrays.srcAddr.1, harrays.dstAddr.1, harrays.nextHop.1,
    harrays.rawFields.1, harrays.diagnostics.1, hprimitive, and_self]

/-- A row of a batch of some rows, but for the raw fields, which are those of the map column. -/
theorem Arrow.FlowArrays.flowRow_eq (hschema : arrow.schema batch = flowSchema)
    (hcolumn : ∀ i col, (arrow.flowColumns rows exporter flowVersion srcAddr dstAddr nextHop rawFields
      diagnostics)[i]? = some col → arrow.column batch i = col)
    {row : ℕ} {r : FlowRecord} {raw : List (String × Bytes)} (hr : rows[row]? = some r)
    (hraw : (rawSlices rows)[row]? = some raw) : arrow.flowRow batch row = some { r with rawFields := raw } := by
  have hat : ∀ {A : Type} (f : FlowRecord → A), (rows.map f)[row]? = some (f r) := fun f => by
    rw [List.getElem?_map, hr, Option.map_some]
  have hprimitive : ∀ (type : PrimitiveType) (f : FlowRecord → Option type.Native),
      arrow.cell (arrow.primitive type) (arrow.primitiveArray type (rows.map f)) row = f r :=
    fun type f => cell_of_cells (h.primitiveArray type (rows.map f)).2 (hat f)
  have hexporter := cell_of_cells harrays.exporter.2 (hat fun r => some r.exporter)
  have hflowVersion := cell_of_cells harrays.flowVersion.2 (hat fun r => some r.flowVersion)
  have hdiagnostics := cell_of_cells harrays.diagnostics.2 (hat FlowRecord.diagnostics)
  have hsrcAddr := harrays.srcAddr.2 row _ (hat FlowRecord.srcAddr)
  have hdstAddr := harrays.dstAddr.2 row _ (hat FlowRecord.dstAddr)
  have hnextHop := harrays.nextHop.2 row _ (hat FlowRecord.nextHop)
  have hrawFields := (harrays.rawFields.2 row).trans hraw
  have hnamed := named_eq hschema rfl hcolumn
  simp only [flowRow, hnamed, flowColumns, flowSchema, col, List.map_cons, List.map_nil, List.zip_cons_cons]
  simp [List.lookup_cons, hprimitive, hexporter, hflowVersion, hdiagnostics, hsrcAddr, hdstAddr, hnextHop, hrawFields]

end Batch

/-- What a batch of some rows is, if it is built: each of its rows is one of them, with the raw fields that the map
column has there. -/
theorem Arrow.Lawful.of_rowsToBatch (h : arrow.Lawful) (hbatch : arrow.rowsToBatch rows flowSchema = .ok batch) :
    ((rows.flatMap FlowRecord.rawFields).length < 2 ^ 31 → ArrowFits rows) ∧
      InOrder (runningOffsets 0 ((rows.map FlowRecord.rawFields).map List.length)) ∧
      arrow.numRows batch = rows.length ∧
      ∀ row r raw, rows[row]? = some r → (rawSlices rows)[row]? = some raw →
        arrow.flowRow batch row = some { r with rawFields := raw } := by
  obtain ⟨exporter, hexporter, hbatch⟩ := exceptBind_eq_ok.mp hbatch
  obtain ⟨flowVersion, hflowVersion, hbatch⟩ := exceptBind_eq_ok.mp hbatch
  obtain ⟨srcAddr, hsrcAddr, hbatch⟩ := exceptBind_eq_ok.mp hbatch
  obtain ⟨dstAddr, hdstAddr, hbatch⟩ := exceptBind_eq_ok.mp hbatch
  obtain ⟨nextHop, hnextHop, hbatch⟩ := exceptBind_eq_ok.mp hbatch
  obtain ⟨rawFields, hrawFields, hbatch⟩ := exceptBind_eq_ok.mp hbatch
  obtain ⟨diagnostics, hdiagnostics, hbatch⟩ := exceptBind_eq_ok.mp hbatch
  obtain ⟨hfitsExporter, hexporter⟩ := h.of_strCol hexporter (List.length_map _) "exporter"
  obtain ⟨hfitsVersion, hflowVersion⟩ := h.of_strCol hflowVersion (List.length_map _) "flow_version"
  obtain ⟨hfitsDiagnostics, hdiagnostics⟩ := h.of_strCol hdiagnostics (List.length_map _) "diagnostics"
  obtain ⟨hkeys, hvalues, horder, hrawFields⟩ := h.of_buildRawFields hrawFields "raw_fields"
  have harrays : arrow.FlowArrays rows exporter flowVersion srcAddr dstAddr nextHop rawFields diagnostics :=
    { exporter := hexporter
      flowVersion := hflowVersion
      srcAddr := h.of_buildInet hsrcAddr (List.length_map _) "src_addr"
      dstAddr := h.of_buildInet hdstAddr (List.length_map _) "dst_addr"
      nextHop := h.of_buildInet hnextHop (List.length_map _) "next_hop"
      rawFields := hrawFields
      diagnostics := hdiagnostics }
  obtain ⟨built, hbuilt, hschema, hcount, hcolumn⟩ := harrays.exists_tryNew h
  rw [newBatch, hbuilt] at hbatch
  obtain rfl := Except.ok.inj hbatch
  exact ⟨fun hentries => ⟨hfitsExporter, hfitsVersion, hkeys, hvalues, hentries, hfitsDiagnostics⟩, horder, hcount,
    fun row r raw hr hraw => harrays.flowRow_eq h hschema hcolumn hr hraw⟩

/-- The rows of a batch of some rows are these rows if its maps are their raw fields. -/
theorem Arrow.Lawful.flowRows_eq_some_iff (h : arrow.Lawful) (hbatch : arrow.rowsToBatch rows flowSchema = .ok batch) :
    arrow.flowRows batch = some rows ↔ rawSlices rows = rows.map FlowRecord.rawFields := by
  obtain ⟨-, -, hcount, hflowRow⟩ := h.of_rowsToBatch hbatch
  have hlength : (rawSlices rows).length = rows.length := by
    rw [rawSlices, length_slices_runningOffsets, List.length_map]
  have hread : ∀ (row : ℕ) (hrow : row < rows.length),
      arrow.flowRow batch row = some { rows[row] with rawFields := (rawSlices rows)[row] } := fun row hrow =>
    hflowRow row _ _ (List.getElem?_eq_getElem hrow) (List.getElem?_eq_getElem (hlength ▸ hrow))
  rw [flowRows, hcount, mapM_eq_some_iff]
  constructor
  · intro hall
    refine List.ext_getElem (by simp [hlength]) fun row hslice hrow => ?_
    rw [List.length_map] at hrow
    have hsame := congrArg (·[row]?) hall
    simp only [List.getElem?_map, List.getElem?_range hrow, List.getElem?_eq_getElem hrow, Option.map_some,
      hread row hrow, Option.some_inj] at hsame
    rw [List.getElem_map, ← congrArg FlowRecord.rawFields hsame]
  · intro hall
    refine List.ext_getElem (by simp) fun row hrange hrow => ?_
    rw [List.length_map] at hrow
    simp only [List.getElem_map, List.getElem_range, hread row hrow, hall]

/-- Rows that fit become a batch that has them. -/
theorem ArrowFits.exists_rowsToBatch (hfits : ArrowFits rows) (h : arrow.Lawful) :
    ∃ batch, arrow.rowsToBatch rows flowSchema = .ok batch ∧ arrow.flowRows batch = some rows := by
  obtain ⟨exporter, hexporter⟩ := h.exists_strCol hfits.exporter
  obtain ⟨flowVersion, hflowVersion⟩ := h.exists_strCol hfits.flowVersion
  obtain ⟨srcAddr, hsrcAddr, hsrcAddrs⟩ := h.exists_buildInet (rows.map FlowRecord.srcAddr) "src_addr"
  obtain ⟨dstAddr, hdstAddr, hdstAddrs⟩ := h.exists_buildInet (rows.map FlowRecord.dstAddr) "dst_addr"
  obtain ⟨nextHop, hnextHop, hnextHops⟩ := h.exists_buildInet (rows.map FlowRecord.nextHop) "next_hop"
  obtain ⟨rawFields, hrawFields⟩ := h.exists_buildRawFields hfits.keys hfits.values hfits.entries
  obtain ⟨diagnostics, hdiagnostics⟩ := h.exists_strCol hfits.diagnostics
  rw [List.length_map] at hsrcAddrs hdstAddrs hnextHops
  have harrays : arrow.FlowArrays rows exporter flowVersion srcAddr dstAddr nextHop rawFields diagnostics :=
    { exporter := (h.of_strCol hexporter (List.length_map _) "exporter").2
      flowVersion := (h.of_strCol hflowVersion (List.length_map _) "flow_version").2
      srcAddr := hsrcAddrs
      dstAddr := hdstAddrs
      nextHop := hnextHops
      rawFields := (h.of_buildRawFields hrawFields "raw_fields").2.2.2
      diagnostics := (h.of_strCol hdiagnostics (List.length_map _) "diagnostics").2 }
  obtain ⟨batch, hbuilt, -⟩ := harrays.exists_tryNew h
  have hbatch : arrow.rowsToBatch rows flowSchema = .ok batch := by
    simp only [rowsToBatch, hexporter, hflowVersion, hsrcAddr, hdstAddr, hnextHop, hrawFields, hdiagnostics, bind,
      Except.bind, newBatch, hbuilt]
  refine ⟨batch, hbatch, (h.flowRows_eq_some_iff hbatch).mpr ?_⟩
  exact ((slices_runningOffsets_iff _).mpr (by rw [← List.flatMap_def]; exact hfits.entries)).2

/-- Rows are read back from their batch exactly if they fit; other rows make the builders panic, or come back with
other raw fields. -/
theorem rowsToBatch_flowRows_iff (h : arrow.Lawful) (rows : List FlowRecord) :
    (∃ batch, arrow.rowsToBatch rows flowSchema = .ok batch ∧ arrow.flowRows batch = some rows) ↔ ArrowFits rows := by
  refine ⟨?_, fun hfits => hfits.exists_rowsToBatch h⟩
  rintro ⟨batch, hbatch, hrows⟩
  obtain ⟨hfits, horder, -⟩ := h.of_rowsToBatch hbatch
  refine hfits ?_
  rw [List.flatMap_def]
  exact (slices_runningOffsets_iff _).mp ⟨horder, (h.flowRows_eq_some_iff hbatch).mp hrows⟩

/-- A row with an address and a raw field, and one with neither. -/
theorem rowsToBatch_flowRows_iff_two :
    let first : FlowRecord := { exporter := "10.0.0.1", flowVersion := "10", srcAddr := inet4 [10, 0, 0, 1]
                                rawFields := [("interfaceName", [101, 116, 104, 48])] }
    let second : FlowRecord := { exporter := "10.0.0.1", flowVersion := "5", diagnostics := some "truncated" }
    first.srcAddr.isSome ∧ ∃ batch, plainArrow.rowsToBatch [first, second] flowSchema = .ok batch ∧
      plainArrow.flowRows batch = some [first, second] :=
  ⟨by decide, (rowsToBatch_flowRows_iff plainArrow_lawful _).mpr (by constructor <;> decide +kernel)⟩

end RoundTrip

end Netflow
