import Netflow.Common.Register
import Netflow.Decode.Slices

/-!
# The columns a field is mapped to

Each standard element that has a normalized column writes that column and nothing else; any
other field is appended to the raw fields. So the columns of a decoded record are registers,
each written by the fields of its own elements alone.
-/

namespace Netflow

open Register (Write)

/-- The places of a record being decoded that a field can be mapped to. -/
inductive Column
  | srcAddr | dstAddr | nextHop | srcPort | dstPort | protocol | tos | tcpFlags | bytes | packets
  | inputSnmp | outputSnmp | srcAs | dstAs | srcMask | dstMask | samplingRate | direction
  | startSysup | endSysup | flowStart | flowEnd
  deriving DecidableEq, Repr

/-- The type of a column's values. -/
abbrev Column.Value : Column → Type
  | .srcAddr | .dstAddr | .nextHop => InetVal
  | .srcPort | .dstPort => UInt16
  | .protocol | .tos | .tcpFlags | .srcMask | .dstMask | .direction => UInt8
  | .bytes | .packets => UInt64
  | .inputSnmp | .outputSnmp | .srcAs | .dstAs | .samplingRate | .startSysup | .endSysup => UInt32
  | .flowStart | .flowEnd => Int64

/-- The column of a standard element, by id. -/
def columnOf : ℕ → Option Column
  | 8 | 130 | 27 | 131 => some .srcAddr
  | 12 | 226 | 28 => some .dstAddr
  | 15 | 18 | 62 | 63 => some .nextHop
  | 7 | 180 | 182 => some .srcPort
  | 11 | 181 | 183 => some .dstPort
  | 4 => some .protocol
  | 5 | 195 => some .tos
  | 6 => some .tcpFlags
  | 1 | 23 | 85 | 351 | 352 => some .bytes
  | 2 | 24 | 86 => some .packets
  | 10 => some .inputSnmp
  | 14 => some .outputSnmp
  | 16 => some .srcAs
  | 17 => some .dstAs
  | 9 | 29 => some .srcMask
  | 13 | 30 => some .dstMask
  | 34 | 305 => some .samplingRate
  | 61 => some .direction
  | 22 => some .startSysup
  | 21 => some .endSysup
  | 150 | 152 | 154 | 156 => some .flowStart
  | 151 | 153 | 155 | 157 => some .flowEnd
  | _ => none

/-- The column of a field, if it has one; enterprise fields have none. -/
def FieldSpec.column (f : FieldSpec) : Option Column :=
  if f.enterpriseNumber = 0 then columnOf f.ieId.toNat else none

/-- The ids of the standard elements of a column. -/
def Column.elements : Column → List ℕ
  | .srcAddr => [8, 27, 130, 131]
  | .dstAddr => [12, 28, 226]
  | .nextHop => [15, 18, 62, 63]
  | .srcPort => [7, 180, 182]
  | .dstPort => [11, 181, 183]
  | .protocol => [4]
  | .tos => [5, 195]
  | .tcpFlags => [6]
  | .bytes => [1, 23, 85, 351, 352]
  | .packets => [2, 24, 86]
  | .inputSnmp => [10]
  | .outputSnmp => [14]
  | .srcAs => [16]
  | .dstAs => [17]
  | .srcMask => [9, 29]
  | .dstMask => [13, 30]
  | .samplingRate => [34, 305]
  | .direction => [61]
  | .startSysup => [22]
  | .endSysup => [21]
  | .flowStart => [150, 152, 154, 156]
  | .flowEnd => [151, 153, 155, 157]

/-- Whether a field is the standard element of an id. -/
def FieldSpec.IsElement (f : FieldSpec) (id : ℕ) : Prop := f.enterpriseNumber = 0 ∧ f.ieId.toNat = id

instance (f : FieldSpec) (id : ℕ) : Decidable (f.IsElement id) := inferInstanceAs (Decidable (_ ∧ _))

/-- The elements a column lists have that column. -/
theorem columnOf_of_mem (col : Column) : ∀ id ∈ col.elements, columnOf id = some col := by
  cases col <;> decide

/-- The column of an element is the one that lists it. -/
theorem columnOf_eq_some_iff (id : ℕ) (col : Column) : columnOf id = some col ↔ id ∈ col.elements := by
  refine ⟨fun h => ?_, columnOf_of_mem col id⟩
  unfold columnOf at h
  split at h
  all_goals first
    | contradiction
    | cases h; decide

/-- A field has a column exactly if it is one of its elements. -/
theorem FieldSpec.column_eq_some_iff {f : FieldSpec} {col : Column} :
    f.column = some col ↔ ∃ id ∈ col.elements, f.IsElement id := by
  unfold column IsElement
  split
  · rename_i hent
    simp [columnOf_eq_some_iff, hent]
  · rename_i hent
    simp [hent]

/-- How an address element reads its bytes. -/
def inetOf (id : ℕ) (bytes : Bytes) : Option InetVal :=
  if id = 27 ∨ id = 131 ∨ id = 28 ∨ id = 62 ∨ id = 63 then inet6 bytes else inet4 bytes

/-- How a flow time element writes its column. -/
def timeWrite (id : ℕ) (bytes : Bytes) : Write Int64 :=
  if id = 150 ∨ id = 151 then .overwrite ((beUint bytes).toInt64 * 1000000)
  else if id = 152 ∨ id = 153 then .overwrite ((beUint bytes).toInt64 * 1000)
  else .ofOption (ntpMicros bytes)

/-- What the bytes of an element write to its column. The counters keep the first value they
got, unless one comes from the delta count itself. -/
def columnWrite (id : ℕ) (bytes : Bytes) : (col : Column) → Write col.Value
  | .srcAddr | .dstAddr | .nextHop => .ofOption (inetOf id bytes)
  | .srcPort | .dstPort => .overwrite (beUint bytes).toUInt16
  | .protocol | .tos | .srcMask | .dstMask | .direction => .overwrite (beUint bytes).toUInt8
  | .tcpFlags => .overwrite (beUint bytes &&& 0xff).toUInt8
  | .bytes => if id = 1 then .overwrite (beUint bytes) else .fill (beUint bytes)
  | .packets => if id = 2 then .overwrite (beUint bytes) else .fill (beUint bytes)
  | .inputSnmp | .outputSnmp | .srcAs | .dstAs | .samplingRate | .startSysup | .endSysup =>
    .overwrite (beUint bytes).toUInt32
  | .flowStart | .flowEnd => timeWrite id bytes

/-- The value of a column. -/
def PartialRecord.get (p : PartialRecord) : (col : Column) → Option col.Value
  | .srcAddr => p.row.srcAddr
  | .dstAddr => p.row.dstAddr
  | .nextHop => p.row.nextHop
  | .srcPort => p.row.srcPort
  | .dstPort => p.row.dstPort
  | .protocol => p.row.protocol
  | .tos => p.row.tos
  | .tcpFlags => p.row.tcpFlags
  | .bytes => p.row.bytes
  | .packets => p.row.packets
  | .inputSnmp => p.row.inputSnmp
  | .outputSnmp => p.row.outputSnmp
  | .srcAs => p.row.srcAs
  | .dstAs => p.row.dstAs
  | .srcMask => p.row.srcMask
  | .dstMask => p.row.dstMask
  | .samplingRate => p.row.samplingRate
  | .direction => p.row.direction
  | .startSysup => p.startSysup
  | .endSysup => p.endSysup
  | .flowStart => p.row.flowStart
  | .flowEnd => p.row.flowEnd

/-- A record with one column set. -/
def PartialRecord.set (p : PartialRecord) : (col : Column) → Option col.Value → PartialRecord
  | .srcAddr, v => { p with row.srcAddr := v }
  | .dstAddr, v => { p with row.dstAddr := v }
  | .nextHop, v => { p with row.nextHop := v }
  | .srcPort, v => { p with row.srcPort := v }
  | .dstPort, v => { p with row.dstPort := v }
  | .protocol, v => { p with row.protocol := v }
  | .tos, v => { p with row.tos := v }
  | .tcpFlags, v => { p with row.tcpFlags := v }
  | .bytes, v => { p with row.bytes := v }
  | .packets, v => { p with row.packets := v }
  | .inputSnmp, v => { p with row.inputSnmp := v }
  | .outputSnmp, v => { p with row.outputSnmp := v }
  | .srcAs, v => { p with row.srcAs := v }
  | .dstAs, v => { p with row.dstAs := v }
  | .srcMask, v => { p with row.srcMask := v }
  | .dstMask, v => { p with row.dstMask := v }
  | .samplingRate, v => { p with row.samplingRate := v }
  | .direction, v => { p with row.direction := v }
  | .startSysup, v => { p with startSysup := v }
  | .endSysup, v => { p with endSysup := v }
  | .flowStart, v => { p with row.flowStart := v }
  | .flowEnd, v => { p with row.flowEnd := v }

section Columns

/-- Masking a number to its low byte does not change that byte. -/
theorem toUInt8_and_mask (n : UInt64) : (n &&& 0xff).toUInt8 = n.toUInt8 := by
  have hmask : (0xff : UInt64).toUInt8 = -1 := rfl
  rw [UInt64.toUInt8_and, hmask, UInt8.and_neg_one]

variable (p : PartialRecord)

/-- A set column has the value it was set to. -/
@[simp] theorem get_set_self (col : Column) (v : Option col.Value) : (p.set col v).get col = v := by
  cases col <;> rfl

/-- Setting a column leaves the others alone. -/
theorem get_set_ne {col col' : Column} (h : col ≠ col') (v : Option col.Value) :
    (p.set col v).get col' = p.get col' := by
  cases col <;> cases col' <;> first | rfl | exact absurd rfl h

/-- Setting a column leaves the raw fields alone. -/
@[simp] theorem set_rawFields (col : Column) (v : Option col.Value) :
    (p.set col v).row.rawFields = p.row.rawFields := by
  cases col <;> rfl

/-- Setting a column leaves the diagnostics alone. -/
@[simp] theorem set_diagnostics (col : Column) (v : Option col.Value) :
    (p.set col v).row.diagnostics = p.row.diagnostics := by
  cases col <;> rfl

/-- Setting a column to the value it has changes nothing. -/
theorem set_get_self (col : Column) : p.set col (p.get col) = p := by
  cases col <;> rfl

/-- A field without a column is kept raw; an enterprise field the registry does not know also
leaves a note. -/
def keepRaw (f : FieldSpec) (bytes : Bytes) : PartialRecord :=
  let noted := f.enterpriseNumber ≠ 0 ∧ f.name.toList.head? = some 'e' ∧ f.ieType = .octetArray
  let row := if noted then p.row.note "enterprise-unmapped" else p.row
  { p with row := row.putRaw f.name bytes }

/-- A note changes the diagnostics only. -/
theorem note_eq (row : FlowRecord) (msg : String) :
    ∃ diagnostics, row.note msg = { row with diagnostics } := by
  unfold FlowRecord.note
  split
  · split
    · exact ⟨row.diagnostics, rfl⟩
    · exact ⟨_, rfl⟩
  · exact ⟨_, rfl⟩

/-- Keeping a field raw appends it to the raw fields and may leave a note. -/
theorem keepRaw_eq (f : FieldSpec) (bytes : Bytes) :
    ∃ diagnostics, keepRaw p f bytes =
      { p with row := { p.row with rawFields := p.row.rawFields ++ [(f.name, bytes)], diagnostics } } := by
  unfold keepRaw FlowRecord.putRaw
  simp only
  split
  · obtain ⟨diagnostics, hnote⟩ := note_eq p.row "enterprise-unmapped"
    rw [hnote]
    exact ⟨diagnostics, rfl⟩
  · exact ⟨p.row.diagnostics, rfl⟩

/-- A counter element writes its counter, unless that has a value and the element is not the
delta count itself. -/
theorem set_counter (col : Column) (prefer : Prop) [Decidable prefer] (v : col.Value) :
    (if (p.get col).isNone ∨ prefer then p.set col (some v) else p) =
      p.set col ((if prefer then Write.overwrite v else .fill v).apply (p.get col)) := by
  by_cases hprefer : prefer
  · simp only [hprefer, or_true, if_true, Write.apply]
  · simp only [hprefer, or_false, if_false]
    cases hget : p.get col with
    | none => rfl
    | some held =>
      rw [if_neg (by simp)]
      change p = p.set col (some held)
      rw [← hget, set_get_self]

/-- A field writes its column, or is kept raw when it has none. -/
theorem mapField_eq (f : FieldSpec) (bytes : Bytes) :
    mapField p f bytes = match f.column with
      | some col => p.set col ((columnWrite f.ieId.toNat bytes col).apply (p.get col))
      | none => keepRaw p f bytes := by
  unfold mapField FieldSpec.column
  by_cases hent : f.enterpriseNumber = 0
  · have hone : f.ieId = 1 ↔ f.ieId.toNat = 1 := by
      rw [← UInt16.toNat_inj]
      rfl
    have htwo : f.ieId = 2 ↔ f.ieId.toNat = 2 := by
      rw [← UInt16.toNat_inj]
      rfl
    rw [if_neg (not_not.mpr hent), if_pos hent]
    simp only [hone, htwo]
    generalize f.ieId.toNat = n
    split
    -- The last case is every id without a column; in the others the id is a literal.
    rotate_right 1
    · have hnone : columnOf n = none := by simp (disch := assumption) only [columnOf]
      rw [hnone]
      simp only [keepRaw, hent]
      rfl
    all_goals first
      | rfl
      | exact set_counter p .bytes _ _
      | exact set_counter p .packets _ _
      | simp only [columnOf, columnWrite, timeWrite, Nat.reduceEqDiff, or_self, if_false, Write.apply_ofOption]; rfl
  · simp only [hent, ne_eq, not_false_eq_true, if_true, if_false, keepRaw, true_and]

/-- An element of the registry keeps its id, whatever its length. -/
theorem fieldSpec_ieId (enterpriseNumber : UInt32) (ieId length : UInt16) :
    (fieldSpec enterpriseNumber ieId length).ieId = ieId := by
  unfold fieldSpec
  split <;> rfl

/-- An element of the registry keeps its declared length. -/
theorem fieldSpec_length (enterpriseNumber : UInt32) (ieId length : UInt16) :
    (fieldSpec enterpriseNumber ieId length).length = length := by
  unfold fieldSpec
  split <;> rfl

/-- A standard element has the column of its id. -/
theorem fieldSpec_column (ieId length : UInt16) : (fieldSpec 0 ieId length).column = columnOf ieId.toNat := by
  have hent : (fieldSpec 0 ieId length).enterpriseNumber = 0 := by
    unfold fieldSpec
    split <;> rfl
  rw [FieldSpec.column, if_pos hent, fieldSpec_ieId]

/-- A standard element writes the column of its id. -/
theorem mapField_fieldSpec {ieId : UInt16} {col : Column} (h : columnOf ieId.toNat = some col)
    (length : UInt16) (bytes : Bytes) :
    mapField p (fieldSpec 0 ieId length) bytes =
      p.set col ((columnWrite ieId.toNat bytes col).apply (p.get col)) := by
  rw [mapField_eq, fieldSpec_column, h, fieldSpec_ieId]

/-- A field writes no column but its own. -/
theorem mapField_get (f : FieldSpec) (bytes : Bytes) (col : Column) :
    (mapField p f bytes).get col =
      if f.column = some col then (columnWrite f.ieId.toNat bytes col).apply (p.get col) else p.get col := by
  rw [mapField_eq]
  cases hcolumn : f.column with
  | none =>
    obtain ⟨diagnostics, hkept⟩ := keepRaw_eq p f bytes
    rw [if_neg (Option.some_ne_none col).symm, hkept]
    cases col <;> rfl
  | some own =>
    by_cases hcol : own = col
    · subst hcol
      rw [get_set_self, if_pos rfl]
    · rw [get_set_ne p hcol, if_neg (fun heq => hcol (Option.some.inj heq))]

/-- A record writes no column that none of its fields has. -/
theorem mapFields_get_of_ne {fields : List FieldSpec} {col : Column} (h : ∀ f ∈ fields, f.column ≠ some col)
    (slices : List Bytes) : (mapFields p fields slices).get col = p.get col := by
  induction fields generalizing p slices with
  | nil => rfl
  | cons f fields ih =>
    cases slices with
    | nil => rfl
    | cons bytes slices =>
      rw [mapFields_cons, ih _ fun g hg => h g (List.mem_cons_of_mem _ hg), mapField_get,
        if_neg (h f List.mem_cons_self)]

/-- Exactly the fields without a column are kept raw, in order. -/
theorem mapField_rawFields (f : FieldSpec) (bytes : Bytes) :
    (mapField p f bytes).row.rawFields =
      p.row.rawFields ++ if f.column = none then [(f.name, bytes)] else [] := by
  rw [mapField_eq]
  cases f.column with
  | none =>
    obtain ⟨diagnostics, hkept⟩ := keepRaw_eq p f bytes
    rw [if_pos rfl, hkept]
  | some col => rw [set_rawFields, if_neg (Option.some_ne_none col), List.append_nil]

/-- The only note a field leaves is that of an unmapped enterprise element, and only once. -/
theorem mapField_diagnostics (f : FieldSpec) (bytes : Bytes)
    (h : p.row.diagnostics = none ∨ p.row.diagnostics = some "enterprise-unmapped") :
    (mapField p f bytes).row.diagnostics = none ∨
      (mapField p f bytes).row.diagnostics = some "enterprise-unmapped" := by
  rw [mapField_eq]
  cases f.column with
  | none =>
    simp only [keepRaw, FlowRecord.putRaw]
    split
    · rcases h with h | h
      · exact .inr (by simp only [FlowRecord.note, h])
      · have hthere : ("enterprise-unmapped".toList.splitOn ';').any
            (· == "enterprise-unmapped".toList) = true := by decide
        exact .inr (by simp only [FlowRecord.note, h, hthere, if_true])
    · exact h
  | some col => rwa [set_diagnostics]

end Columns

section Records

/-- A decoded record has no diagnostic but the note of an unmapped enterprise element. -/
theorem decodeFields_diagnostics {fields : List FieldSpec} {p p' : PartialRecord} {c c' : Cursor}
    (h : decodeFields fields p c = some (p', c'))
    (hp : p.row.diagnostics = none ∨ p.row.diagnostics = some "enterprise-unmapped") :
    p'.row.diagnostics = none ∨ p'.row.diagnostics = some "enterprise-unmapped" := by
  induction fields generalizing p c with
  | nil =>
    cases h
    exact hp
  | cons f fields ih =>
    rw [decodeFields_cons] at h
    obtain ⟨⟨bytes, c₁⟩, -, h⟩ := Option.bind_eq_some_iff.mp h
    exact ih h (mapField_diagnostics p f bytes hp)

/-- Resolving the times of a record leaves its diagnostics alone. -/
@[simp] theorem resolveTimes_diagnostics (p : PartialRecord) (ctx : Ctx) :
    (resolveTimes p ctx).diagnostics = p.row.diagnostics := by
  unfold resolveTimes
  split <;> rfl

/-- Resolving the times of a record leaves its raw fields alone. -/
@[simp] theorem resolveTimes_rawFields (p : PartialRecord) (ctx : Ctx) :
    (resolveTimes p ctx).rawFields = p.row.rawFields := by
  unfold resolveTimes
  split <;> rfl

/-- A row of a Data Set has no diagnostic but that of an unmapped enterprise element or of a
record that is cut. -/
theorem decodeRecords_diagnostics {tpl : TemplateEntry} {ctx : Ctx} {rounds : ℕ} {cur : Cursor}
    {row : FlowRecord} (h : row ∈ decodeRecords tpl ctx rounds cur) :
    row.diagnostics = none ∨ row.diagnostics = some "enterprise-unmapped" ∨
      row.diagnostics = some "truncated" := by
  induction rounds generalizing cur with
  | zero => contradiction
  | succ rounds ih =>
    rw [decodeRecords] at h
    split at h
    · contradiction
    · split at h
      · contradiction
      · split at h
        · rw [List.mem_singleton.mp h]
          exact .inr (.inr rfl)
        · rename_i first cur' hone
          have hfirst : first.diagnostics = none ∨ first.diagnostics = some "enterprise-unmapped" := by
            obtain ⟨⟨p, c⟩, hfields, hrow⟩ := Option.bind_eq_some_iff.mp hone
            cases hrow
            rw [resolveTimes_diagnostics]
            exact decodeFields_diagnostics hfields (.inl rfl)
          split at h
          · rw [List.mem_singleton.mp h]
            exact hfirst.imp_right .inl
          · rcases List.mem_cons.mp h with rfl | hrest
            · exact hfirst.imp_right .inl
            · exact ih hrest

/-- A row of a Data Set has no diagnostic but that of an unmapped enterprise element or of a
record that is cut. -/
theorem decodeDataSet_diagnostics {tpl : TemplateEntry} {payload : Bytes} {ctx : Ctx} {flowsOnly : Bool}
    {row : FlowRecord} (h : row ∈ decodeDataSet tpl payload ctx flowsOnly) :
    row.diagnostics = none ∨ row.diagnostics = some "enterprise-unmapped" ∨
      row.diagnostics = some "truncated" := by
  unfold decodeDataSet at h
  split at h
  · contradiction
  · exact decodeRecords_diagnostics h

end Records

end Netflow
