import Netflow.Cache
import Netflow.Decode.Header

/-!
# Data record slicing and normalization

A Data Set is a run of records, each the fields of its template in order. This module
slices a payload against a layout and maps every field onto the normalized row, or keeps
its bytes raw.
-/

namespace Netflow

/-- The header context each decoded record inherits. -/
structure Ctx where
  exporter : String
  obsDomain : UInt32
  version : Version
  exportTime : Option Int64
  sequence : Option UInt64
  /-- The header uptime in milliseconds; `none` for IPFIX. -/
  sysUptimeMs : Option UInt64
  templateId : UInt16
  deriving DecidableEq, Repr

/-- Resolve a field specifier at template-parse time. -/
def fieldSpec (enterpriseNumber : UInt32) (ieId length : UInt16) : FieldSpec :=
  match resolve enterpriseNumber ieId with
  | some d => ⟨ieId, enterpriseNumber, length, d.name, d.ty⟩
  | none =>
    let name := if enterpriseNumber = 0 then s!"id{ieId}" else s!"e{enterpriseNumber}id{ieId}"
    ⟨ieId, enterpriseNumber, length, name, .octetArray⟩

/-- Read a variable-length prefix: one byte, or `0xFF` and a 16-bit length. -/
def readVarlen (cur : Cursor) : Option (ℕ × Cursor) := do
  let (first, cur) ← cur.u8
  if first < 255 then some (first.toNat, cur)
  else do
    let (long, cur) ← cur.u16
    some (long.toNat, cur)

/-- Decode an NTP timestamp (seconds since 1900 and a 32-bit fraction) to epoch microseconds. -/
def ntpMicros (bytes : Bytes) : Option Int64 :=
  if bytes.length ≠ 8 then none
  else
    let secs1900 := asI64 (.ofNat (beNat (bytes.take 4)))
    let frac : UInt64 := .ofNat (beNat (bytes.drop 4))
    let epochSecs := secs1900 - 2208988800
    let fracMicros := (frac * 1000000) >>> 32
    some (epochSecs * 1000000 + fracMicros.toInt64)

/-- A record being decoded: the row so far and the uptime stamps resolved at its end. -/
structure PartialRecord where
  row : FlowRecord
  startSysup : Option UInt32 := none
  endSysup : Option UInt32 := none
  deriving DecidableEq, Repr

/-- Map one field's bytes onto the row, or keep them raw. -/
def mapField (p : PartialRecord) (f : FieldSpec) (bytes : Bytes) : PartialRecord :=
  let row := p.row
  -- Enterprise fields never reach the normalized columns.
  if f.enterpriseNumber ≠ 0 then
    let row := if f.name.toList.head? = some 'e' ∧ f.ieType = .octetArray
      then row.note "enterprise-unmapped" else row
    { p with row := row.putRaw f.name bytes }
  else
    let u := beUint bytes
    match f.ieId.toNat with
    | 8 | 130 => { p with row.srcAddr := (inet4 bytes).or row.srcAddr }
    | 27 | 131 => { p with row.srcAddr := (inet6 bytes).or row.srcAddr }
    | 12 | 226 => { p with row.dstAddr := (inet4 bytes).or row.dstAddr }
    | 28 => { p with row.dstAddr := (inet6 bytes).or row.dstAddr }
    | 7 | 180 | 182 => { p with row.srcPort := some u.toUInt16 }
    | 11 | 181 | 183 => { p with row.dstPort := some u.toUInt16 }
    | 4 => { p with row.protocol := some u.toUInt8 }
    | 5 | 195 => { p with row.tos := some u.toUInt8 }
    | 6 => { p with row.tcpFlags := some (u &&& 0xff).toUInt8 }
    | 1 | 23 | 85 | 351 | 352 =>
      if row.bytes.isNone ∨ f.ieId = 1 then { p with row.bytes := some u } else p
    | 2 | 24 | 86 =>
      if row.packets.isNone ∨ f.ieId = 2 then { p with row.packets := some u } else p
    | 10 => { p with row.inputSnmp := some u.toUInt32 }
    | 14 => { p with row.outputSnmp := some u.toUInt32 }
    | 16 => { p with row.srcAs := some u.toUInt32 }
    | 17 => { p with row.dstAs := some u.toUInt32 }
    | 15 | 18 => { p with row.nextHop := (inet4 bytes).or row.nextHop }
    | 62 | 63 => { p with row.nextHop := (inet6 bytes).or row.nextHop }
    | 9 | 29 => { p with row.srcMask := some u.toUInt8 }
    | 13 | 30 => { p with row.dstMask := some u.toUInt8 }
    | 34 | 305 => { p with row.samplingRate := some u.toUInt32 }
    | 61 => { p with row.direction := some u.toUInt8 }
    | 22 => { p with startSysup := some u.toUInt32 }
    | 21 => { p with endSysup := some u.toUInt32 }
    | 150 => { p with row.flowStart := some (u.toInt64 * 1000000) }
    | 151 => { p with row.flowEnd := some (u.toInt64 * 1000000) }
    | 152 => { p with row.flowStart := some (u.toInt64 * 1000) }
    | 153 => { p with row.flowEnd := some (u.toInt64 * 1000) }
    | 154 | 156 => { p with row.flowStart := (ntpMicros bytes).or row.flowStart }
    | 155 | 157 => { p with row.flowEnd := (ntpMicros bytes).or row.flowEnd }
    | _ => { p with row := row.putRaw f.name bytes }

/-- Resolve uptime-relative flow times against the boot time the header implies. -/
def resolveTimes (p : PartialRecord) (ctx : Ctx) : FlowRecord :=
  match ctx.exportTime, ctx.sysUptimeMs with
  | some exportTime, some uptime =>
    let bootMicros := exportTime - uptime.toInt64 * 1000
    { p.row with
      flowStart := p.row.flowStart.or (p.startSysup.map fun s => bootMicros + asI64 s * 1000)
      flowEnd := p.row.flowEnd.or (p.endSysup.map fun e => bootMicros + asI64 e * 1000) }
  | _, _ => p.row

/-- Slice the fields off the cursor in template order, failing on underrun. -/
def decodeFields : List FieldSpec → PartialRecord → Cursor → Option (PartialRecord × Cursor)
  | [], p, cur => some (p, cur)
  | f :: fields, p, cur => do
    let (len, cur) ← if f.isVariable then readVarlen cur else some (f.length.toNat, cur)
    let (bytes, cur) ← cur.take len
    decodeFields fields (mapField p f bytes) cur

/-- The row a record starts from. -/
def Ctx.baseRecord (ctx : Ctx) : FlowRecord :=
  { exporter := ctx.exporter, flowVersion := ctx.version.asStr, obsDomain := ctx.obsDomain
    templateId := some ctx.templateId, exportTime := ctx.exportTime, sequence := ctx.sequence }

/-- Decode a single record, advancing the cursor, or fail on underrun. -/
def decodeOneRecord (tpl : TemplateEntry) (cur : Cursor) (ctx : Ctx) :
    Option (FlowRecord × Cursor) := do
  let (p, cur) ← decodeFields tpl.fields { row := ctx.baseRecord } cur
  some (resolveTimes p ctx, cur)

/-- The total declared length of the fixed-length fields. -/
def minFixed (tpl : TemplateEntry) : ℕ :=
  ((tpl.fields.filter fun f => !f.isVariable).map (·.length.toNat)).sum

/-- The diagnostic row of a record that underruns its payload. -/
def Ctx.truncated (ctx : Ctx) : FlowRecord :=
  .diagnostic ctx.exporter ctx.version.asStr ctx.obsDomain ctx.exportTime ctx.sequence "truncated"

/-- The record loop, for at most the given number of rounds; each one consumes a byte or stops. -/
def decodeRecords (tpl : TemplateEntry) (ctx : Ctx) : ℕ → Cursor → List FlowRecord
  | 0, _ => []
  | rounds + 1, cur =>
    if cur.remaining = 0 then []
    -- Purely fixed templates stop at a remainder shorter than one record.
    else if 0 < minFixed tpl ∧ cur.remaining < minFixed tpl then []
    else match decodeOneRecord tpl cur ctx with
      | none => [ctx.truncated]
      | some (row, cur') =>
        if cur'.remaining = cur.remaining then [row]
        else row :: decodeRecords tpl ctx rounds cur'

/-- Decode a whole Data Set payload. Flows-only mode drops the records of Options templates. -/
def decodeDataSet (tpl : TemplateEntry) (payload : Bytes) (ctx : Ctx) (modeFlowsOnly : Bool) :
    List FlowRecord :=
  if modeFlowsOnly && tpl.kind = .options then []
  else decodeRecords tpl ctx payload.length (.new payload)

/-- Outside flows-only filtering a Data Set is decoded record by record. -/
theorem decodeDataSet_of_not_filtered {tpl : TemplateEntry} {flowsOnly : Bool}
    (hmode : ¬ (flowsOnly ∧ tpl.kind = .options)) (payload : Bytes) (ctx : Ctx) :
    decodeDataSet tpl payload ctx flowsOnly = decodeRecords tpl ctx payload.length (.new payload) := by
  rw [decodeDataSet, if_neg (by simpa using hmode)]

section Rounds

/-- A length prefix takes at least one byte. -/
theorem readVarlen_remaining {c c' : Cursor} {len : ℕ} (h : readVarlen c = some (len, c')) :
    c'.remaining < c.remaining := by
  obtain ⟨⟨first, c₁⟩, hfirst, h⟩ := Option.bind_eq_some_iff.mp h
  have hone := Cursor.u8_remaining hfirst
  simp only at h
  split at h
  · cases h
    omega
  · obtain ⟨⟨long, c₂⟩, hlong, h⟩ := Option.bind_eq_some_iff.mp h
    have htwo := Cursor.u16_remaining hlong
    simp only [Option.some.injEq, Prod.mk.injEq] at h
    obtain ⟨-, rfl⟩ := h
    omega

/-- Slicing fields gives no bytes back. -/
theorem decodeFields_remaining {fields : List FieldSpec} {p p' : PartialRecord} {c c' : Cursor}
    (h : decodeFields fields p c = some (p', c')) : c'.remaining ≤ c.remaining := by
  induction fields generalizing p c with
  | nil =>
    cases h
    exact le_rfl
  | cons f fields ih =>
    rw [decodeFields] at h
    split at h
    · obtain ⟨⟨len, c₁⟩, hlen, h⟩ := Option.bind_eq_some_iff.mp h
      obtain ⟨⟨bytes, c₂⟩, htake, h⟩ := Option.bind_eq_some_iff.mp h
      have hlength := readVarlen_remaining hlen
      have hbytes := Cursor.take_remaining htake
      have hrest := ih h
      omega
    · rw [Option.bind_eq_bind, Option.bind_some] at h
      obtain ⟨⟨bytes, c₁⟩, htake, h⟩ := Option.bind_eq_some_iff.mp h
      have hbytes := Cursor.take_remaining htake
      have hrest := ih h
      omega

/-- More rounds than a payload has bytes slice no further record off it. -/
theorem decodeRecords_rounds (tpl : TemplateEntry) (ctx : Ctx) {c : Cursor} {rounds rounds' : ℕ}
    (h : c.remaining ≤ rounds) (h' : c.remaining ≤ rounds') :
    decodeRecords tpl ctx rounds c = decodeRecords tpl ctx rounds' c := by
  induction rounds generalizing c rounds' with
  | zero => cases rounds' <;> simp [decodeRecords, Nat.le_zero.mp h]
  | succ rounds ih =>
    cases rounds' with
    | zero => simp [decodeRecords, Nat.le_zero.mp h']
    | succ rounds' =>
      simp only [decodeRecords]
      cases hone : decodeOneRecord tpl c ctx with
      | none => rfl
      | some sliced =>
        obtain ⟨row, c'⟩ := sliced
        obtain ⟨⟨p, c''⟩, hfields, hrow⟩ := Option.bind_eq_some_iff.mp hone
        cases hrow
        have hle := decodeFields_remaining hfields
        -- A record that consumed nothing ends the loop, so the next round has fewer bytes.
        by_cases hsame : c'.remaining = c.remaining
        · simp only [if_pos hsame]
        · simp only [if_neg hsame]
          rw [ih (by omega) (show c'.remaining ≤ rounds' by omega)]

end Rounds

section Rows

/-- A payload too short for any record of a template. -/
def holdsNoRecord (tpl : TemplateEntry) (payload : Bytes) : Prop :=
  payload = [] ∨ payload.length < minFixed tpl

instance (tpl : TemplateEntry) (payload : Bytes) : Decidable (holdsNoRecord tpl payload) :=
  inferInstanceAs (Decidable (_ ∨ _))

/-- Only a payload too short for any record has no row. -/
theorem decodeRecords_eq_nil_iff (tpl : TemplateEntry) (payload : Bytes) (ctx : Ctx) :
    decodeRecords tpl ctx payload.length (.new payload) = [] ↔ holdsNoRecord tpl payload := by
  cases payload with
  | nil => simp [decodeRecords, holdsNoRecord]
  | cons b bytes =>
    have hlength : (Cursor.new (b :: bytes)).remaining = bytes.length + 1 := rfl
    simp only [List.length_cons, decodeRecords, hlength, holdsNoRecord, Nat.add_eq_zero_iff, one_ne_zero,
      and_false, if_false, reduceCtorEq, false_or]
    split
    · rename_i hshort
      simp [hshort.2]
    · rename_i hlong
      have hfits : ¬ bytes.length + 1 < minFixed tpl := by omega
      simp only [hfits, iff_false]
      cases decodeOneRecord tpl (.new (b :: bytes)) ctx with
      | none => exact List.cons_ne_nil _ _
      | some sliced =>
        simp only
        split
        · exact List.cons_ne_nil _ _
        · exact List.cons_ne_nil _ _

end Rows

end Netflow
