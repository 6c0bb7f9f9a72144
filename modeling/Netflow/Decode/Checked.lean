import Netflow.Common.Checked
import Netflow.Decode
import Netflow.Decode.Slices

/-!
# The decoders of an overflow-checked build

The same decoders with every operation on fixed-width numbers checked: one that leaves its
type ends the call. Reads, casts, shifts and the saturating operations stay as they are.
Headers, NetFlow v5 and the resolution of uptime stamps stay in range whatever the bytes;
only a time element of seconds or milliseconds can leave it.
-/

namespace Netflow

open Checked

section Range

/-- A widened unsigned number is itself. -/
theorem asI64_toInt (n : UInt32) : (asI64 n).toInt = n.toNat := by
  have hlt : n.toUInt64.toNat < 2 ^ 63 := by
    rw [UInt32.toNat_toUInt64]
    have hn := n.toNat_lt
    omega
  rw [asI64, toInt_toInt64 hlt, UInt32.toNat_toUInt64]

end Range

section Headers

/-- Parse the NetFlow v5 header with its arithmetic checked. -/
def parseV5Checked (data : Bytes) : Option (Option ExportHeader) :=
  attempt (Cursor.new data).u16 fun (version, c) =>
  attempt c.u16 fun (count, c) =>
  attempt c.u32 fun (sysUptime, c) =>
  attempt c.u32 fun (unixSecs, c) =>
  attempt c.u32 fun (unixNsecs, c) =>
  attempt c.u32 fun (sequence, c) =>
  attempt c.u8 fun (_engineType, c) =>
  attempt c.u8 fun (engineId, _) => do
    let secs ← mulI64 (asI64 unixSecs) 1000000
    let exportTime ← addI64 secs (asI64 unixNsecs / 1000)
    some (some {
      version, count := some count, sysUptime := some sysUptime, exportTime := some exportTime
      sequence := some sequence.toUInt64, obsDomain := some engineId.toUInt32 })

/-- Parse the NetFlow v9 header with its arithmetic checked. -/
def parseV9Checked (data : Bytes) : Option (Option ExportHeader) :=
  attempt (Cursor.new data).u16 fun (version, c) =>
  attempt c.u16 fun (count, c) =>
  attempt c.u32 fun (sysUptime, c) =>
  attempt c.u32 fun (unixSecs, c) =>
  attempt c.u32 fun (sequence, c) =>
  attempt c.u32 fun (sourceId, _) => do
    let exportTime ← mulI64 (asI64 unixSecs) 1000000
    some (some {
      version, count := some count, sysUptime := some sysUptime, exportTime := some exportTime
      sequence := some sequence.toUInt64, obsDomain := some sourceId })

/-- Parse the IPFIX header with its arithmetic checked. -/
def parseIpfixChecked (data : Bytes) : Option (Option ExportHeader) :=
  attempt (Cursor.new data).u16 fun (version, c) =>
  attempt c.u16 fun (_length, c) =>
  attempt c.u32 fun (exportSecs, c) =>
  attempt c.u32 fun (sequence, c) =>
  attempt c.u32 fun (obsDomain, _) => do
    let exportTime ← mulI64 (asI64 exportSecs) 1000000
    some (some {
      version, count := none, sysUptime := none, exportTime := some exportTime
      sequence := some sequence.toUInt64, obsDomain := some obsDomain })

/-- Parse the export header with its arithmetic checked; that of sFlow has none. -/
def parseHeaderChecked (data : Bytes) : Option (Option ExportHeader) :=
  attempt (probeVersion data) fun
    | .v5 => parseV5Checked data
    | .v9 => parseV9Checked data
    | .v10 => parseIpfixChecked data
    | .sflow5 => some (parseSflow data)

/-- Seconds of 32 bits make at most 52 bits of microseconds. -/
theorem micros_of_secs (secs : UInt32) :
    FitsI64 ((asI64 secs).toInt * (1000000 : Int64).toInt) ∧
      (asI64 secs * 1000000).toInt = secs.toNat * 1000000 := by
  have hlt := secs.toNat_lt
  have hscale : (1000000 : Int64).toInt = 1000000 := rfl
  have hfits : FitsI64 ((asI64 secs).toInt * (1000000 : Int64).toInt) := by
    rw [asI64_toInt, hscale, FitsI64]
    omega
  exact ⟨hfits, by rw [toInt_mul hfits, asI64_toInt, hscale]⟩

/-- Milliseconds of 32 bits make at most 42 bits of microseconds. -/
theorem micros_of_millis {u : UInt64} (h : u.toNat < 2 ^ 32) :
    FitsI64 (u.toInt64.toInt * (1000 : Int64).toInt) ∧ (u.toInt64 * 1000).toInt = u.toNat * 1000 := by
  have hscale : (1000 : Int64).toInt = 1000 := rfl
  have hvalue : u.toInt64.toInt = u.toNat := toInt_toInt64 (by omega)
  have hfits : FitsI64 (u.toInt64.toInt * (1000 : Int64).toInt) := by
    rw [hvalue, hscale, FitsI64]
    omega
  exact ⟨hfits, by rw [toInt_mul hfits, hvalue, hscale]⟩

/-- The export time of a v5 header has at most 52 bits. -/
theorem micros_of_nsecs (secs nsecs : UInt32) :
    FitsI64 ((asI64 secs * 1000000).toInt + (asI64 nsecs / 1000).toInt) ∧
      (asI64 secs * 1000000 + asI64 nsecs / 1000).toInt = secs.toNat * 1000000 + nsecs.toNat / 1000 := by
  have hsecs := secs.toNat_lt
  have hnsecs := nsecs.toNat_lt
  have hquotient : (asI64 nsecs / 1000).toInt = nsecs.toNat / 1000 := by
    rw [Int64.toInt_div_of_ne_right _ _ (by decide), asI64_toInt]
    exact Int.tdiv_eq_ediv_of_nonneg (by omega)
  have hfits : FitsI64 ((asI64 secs * 1000000).toInt + (asI64 nsecs / 1000).toInt) := by
    rw [(micros_of_secs secs).2, hquotient, FitsI64]
    omega
  exact ⟨hfits, by rw [toInt_add hfits, (micros_of_secs secs).2, hquotient]⟩

/-- The boot time and the stamps counted from it fit, for an export time and an uptime as headers
have them. -/
theorem micros_of_stamp {e : Int64} (he : 0 ≤ e.toInt ∧ e.toInt ≤ 2 ^ 52) {u : UInt64} (hu : u.toNat < 2 ^ 32)
    (stamp : UInt32) :
    FitsI64 (e.toInt - (u.toInt64 * 1000).toInt) ∧
      FitsI64 ((e - u.toInt64 * 1000).toInt + (asI64 stamp * 1000).toInt) := by
  have hstamp : stamp.toUInt64.toNat < 2 ^ 32 := by
    rw [UInt32.toNat_toUInt64]
    exact stamp.toNat_lt
  have hmillis := (micros_of_millis hu).2
  have hsince : (asI64 stamp * 1000).toInt = stamp.toUInt64.toNat * 1000 := (micros_of_millis hstamp).2
  have hboot : FitsI64 (e.toInt - (u.toInt64 * 1000).toInt) := by
    rw [hmillis, FitsI64]
    omega
  refine ⟨hboot, ?_⟩
  rw [toInt_sub hboot, hmillis, hsince, FitsI64]
  omega

/-- Milliseconds of 32 bits are scaled without overflow. -/
theorem mulI64_millis {u : UInt64} (h : u.toNat < 2 ^ 32) :
    mulI64 u.toInt64 1000 = some (u.toInt64 * 1000) :=
  (mulI64_yields _ _).eq_some_iff.mpr (micros_of_millis h).1

/-- A stamp of 32 bits is scaled without overflow. -/
theorem mulI64_stamp (stamp : UInt32) : mulI64 (asI64 stamp) 1000 = some (asI64 stamp * 1000) := by
  apply mulI64_millis
  rw [UInt32.toNat_toUInt64]
  exact stamp.toNat_lt

/-- Seconds of 32 bits are scaled without overflow. -/
theorem mulI64_secs (secs : UInt32) : mulI64 (asI64 secs) 1000000 = some (asI64 secs * 1000000) :=
  (mulI64_yields _ _).eq_some_iff.mpr (micros_of_secs secs).1

/-- The nanoseconds of a v5 header are added without overflow. -/
theorem addI64_nsecs (secs nsecs : UInt32) :
    addI64 (asI64 secs * 1000000) (asI64 nsecs / 1000) =
      some (asI64 secs * 1000000 + asI64 nsecs / 1000) :=
  (addI64_yields _ _).eq_some_iff.mpr (micros_of_nsecs secs nsecs).1

/-- Parsing the NetFlow v5 header never overflows. -/
theorem parseV5Checked_eq (data : Bytes) : parseV5Checked data = some (parseV5 data) := by
  unfold parseV5Checked parseV5
  repeat
    refine attempt_eq ?_
    rintro ⟨_, _⟩
  dsimp only
  rw [mulI64_secs, Option.bind_eq_bind, Option.bind_some, addI64_nsecs]
  rfl

/-- Parsing the NetFlow v9 header never overflows. -/
theorem parseV9Checked_eq (data : Bytes) : parseV9Checked data = some (parseV9 data) := by
  unfold parseV9Checked parseV9
  repeat
    refine attempt_eq ?_
    rintro ⟨_, _⟩
  dsimp only
  rw [mulI64_secs]
  rfl

/-- Parsing the IPFIX header never overflows. -/
theorem parseIpfixChecked_eq (data : Bytes) : parseIpfixChecked data = some (parseIpfix data) := by
  unfold parseIpfixChecked parseIpfix
  repeat
    refine attempt_eq ?_
    rintro ⟨_, _⟩
  dsimp only
  rw [mulI64_secs]
  rfl

/-- Parsing the export header never overflows. -/
theorem parseHeaderChecked_eq (data : Bytes) : parseHeaderChecked data = some (parseHeader data) := by
  unfold parseHeaderChecked parseHeader
  refine attempt_eq fun version => ?_
  cases version with
  | v5 => exact parseV5Checked_eq data
  | v9 => exact parseV9Checked_eq data
  | v10 => exact parseIpfixChecked_eq data
  | sflow5 => rfl

/-- The export time of a header has at most 52 bits. -/
theorem parseHeader_exportTime {data : Bytes} {hdr : ExportHeader} (h : parseHeader data = some hdr) {t : Int64}
    (ht : hdr.exportTime = some t) : 0 ≤ t.toInt ∧ t.toInt ≤ 2 ^ 52 := by
  obtain ⟨version, -, h⟩ := Option.bind_eq_some_iff.mp h
  cases version with
  | v5 =>
    simp only [parseV5, Option.bind_eq_bind, Option.bind_eq_some_iff] at h
    obtain ⟨_, -, _, -, _, -, secs, -, nsecs, -, _, -, _, -, _, -, h⟩ := h
    cases h
    cases ht
    have hsecs := secs.1.toNat_lt
    have hnsecs := nsecs.1.toNat_lt
    rw [(micros_of_nsecs secs.1 nsecs.1).2]
    omega
  | v9 =>
    simp only [parseV9, Option.bind_eq_bind, Option.bind_eq_some_iff] at h
    obtain ⟨_, -, _, -, _, -, secs, -, _, -, _, -, h⟩ := h
    cases h
    cases ht
    have hsecs := secs.1.toNat_lt
    rw [(micros_of_secs secs.1).2]
    omega
  | v10 =>
    simp only [parseIpfix, Option.bind_eq_bind, Option.bind_eq_some_iff] at h
    obtain ⟨_, -, _, -, secs, -, _, -, _, -, h⟩ := h
    cases h
    cases ht
    have hsecs := secs.1.toNat_lt
    rw [(micros_of_secs secs.1).2]
    omega
  | sflow5 =>
    have hnone : hdr.exportTime = none := by
      simp only [parseSflow, Option.bind_eq_bind, Option.bind_eq_some_iff] at h
      obtain ⟨_, -, _, -, h⟩ := h
      repeat' split at h
      all_goals
        simp only [Option.bind_eq_some_iff, Option.bind_none, reduceCtorEq] at h
        try
          obtain ⟨_, -, _, -, _, -, _, -, _, -, h⟩ := h
          cases h
          rfl
    rw [hnone] at ht
    contradiction

end Headers

namespace V5

/-- Decode one NetFlow v5 record with the arithmetic of its times checked; the other columns are
read as they are. -/
def decodeRecordChecked (b : Bytes) (exporter : String) (obsDomain : UInt32) (hdr : ExportHeader)
    (bootMicros : Option Int64) : Option FlowRecord := do
  let (_src, c) := (Cursor.new b).attempt (·.take 4)
  let (_dst, c) := c.attempt (·.take 4)
  let (_nexthop, c) := c.attempt (·.take 4)
  let (_input, c) := c.attempt (·.u16)
  let (_output, c) := c.attempt (·.u16)
  let (_dpkts, c) := c.attempt (·.u32)
  let (_doctets, c) := c.attempt (·.u32)
  let (first, c) := c.attempt (·.u32)
  let (last, _) := c.attempt (·.u32)
  let row := decodeRecord b exporter obsDomain hdr none
  match bootMicros with
  | none => some row
  | some boot => do
    let sinceBoot ← mulI64 (asI64 (first.getD 0)) 1000
    let flowStart ← addI64 boot sinceBoot
    let sinceBoot ← mulI64 (asI64 (last.getD 0)) 1000
    let flowEnd ← addI64 boot sinceBoot
    some { row with flowStart := some flowStart, flowEnd := some flowEnd }

/-- The record loop with its arithmetic checked. -/
def decodeRecordsChecked (exporter : String) (obsDomain : UInt32) (hdr : ExportHeader)
    (bootMicros : Option Int64) : ℕ → Cursor → Option (List FlowRecord)
  | 0, _ => some []
  | count + 1, cur =>
    match cur.take recordLen with
    | none =>
      some [.diagnostic exporter Version.v5.asStr obsDomain hdr.exportTime hdr.sequence "truncated"]
    | some (slice, cur) => do
      let row ← decodeRecordChecked slice exporter obsDomain hdr bootMicros
      let rows ← decodeRecordsChecked exporter obsDomain hdr bootMicros count cur
      some (row :: rows)

/-- Decode a NetFlow v5 datagram with its arithmetic checked. -/
def decodeChecked (data : Bytes) (exporter : String) : Option (List FlowRecord) := do
  match ← parseHeaderChecked data with
  | none => some [.diagnostic exporter Version.v5.asStr 0 none none "decode-error:bad-v5-header"]
  | some hdr => do
    let count := (hdr.count.getD 0).toNat
    let obsDomain := hdr.obsDomain.getD 0
    let bootMicros ← match hdr.exportTime, hdr.sysUptime with
      | some e, some u => do
        let uptime ← mulI64 (asI64 u) 1000
        let boot ← subI64 e uptime
        some (some boot)
      | _, _ => some none
    let (_, cur) := (Cursor.new data).skip 24
    decodeRecordsChecked exporter obsDomain hdr bootMicros count cur

/-- Decoding a NetFlow v5 record never overflows. -/
theorem decodeRecordChecked_eq {b : Bytes} (h : b.length = recordLen) (exporter : String) (obsDomain : UInt32)
    (hdr : ExportHeader) {boot : Int64}
    (hboot : ∀ stamp : UInt32, FitsI64 (boot.toInt + (asI64 stamp * 1000).toInt)) :
    decodeRecordChecked b exporter obsDomain hdr (some boot) =
      some (decodeRecord b exporter obsDomain hdr (some boot)) := by
  have hadd : ∀ stamp : UInt32, addI64 boot (asI64 stamp * 1000) = some (boot + asI64 stamp * 1000) :=
    fun stamp => (addI64_yields _ _).eq_some_iff.mpr (hboot stamp)
  have hnew : Cursor.new b = ⟨b.drop 0⟩ := rfl
  rw [decodeRecordChecked, decodeRecord_of_length h, decodeRecord_of_length h, hnew]
  rw [recordLen] at h
  simp (disch := omega) only [attempt_take_drop, attempt_u16_drop, attempt_u32_drop, Option.getD_some]
  rw [mulI64_stamp, mulI64_stamp]
  dsimp only [Option.bind_eq_bind, Option.bind_some]
  rw [hadd, hadd]
  rfl

/-- The record loop never overflows. -/
theorem decodeRecordsChecked_eq (exporter : String) (obsDomain : UInt32) (hdr : ExportHeader) {boot : Int64}
    (hboot : ∀ stamp : UInt32, FitsI64 (boot.toInt + (asI64 stamp * 1000).toInt)) (count : ℕ) (cur : Cursor) :
    decodeRecordsChecked exporter obsDomain hdr (some boot) count cur =
      some (decodeRecords exporter obsDomain hdr (some boot) count cur) := by
  induction count generalizing cur with
  | zero => rfl
  | succ count ih =>
    rw [decodeRecordsChecked, decodeRecords]
    cases hslice : cur.take recordLen with
    | none => rfl
    | some sliced =>
      obtain ⟨hle, hbytes, -⟩ := Cursor.take_eq_some hslice
      have hlength : sliced.1.length = recordLen := by
        rw [hbytes, List.length_take]
        exact Nat.min_eq_left hle
      dsimp only
      rw [decodeRecordChecked_eq hlength _ _ _ hboot, ih]
      rfl

/-- Decoding a NetFlow v5 datagram never overflows. -/
theorem decodeChecked_eq {data : Bytes} (hversion : probeVersion data = some .v5) (exporter : String) :
    decodeChecked data exporter = some (decode data exporter) := by
  have hheader : parseHeader data = parseV5 data := by rw [parseHeader, hversion]; rfl
  unfold decodeChecked decode
  rw [parseHeaderChecked_eq]
  dsimp only [Option.bind_eq_bind, Option.bind_some]
  cases hparse : parseHeader data with
  | none => rfl
  | some hdr =>
    have hfields : ∃ e u, hdr.exportTime = some e ∧ hdr.sysUptime = some u := by
      rw [hheader] at hparse
      simp only [parseV5, Option.bind_eq_bind, Option.bind_eq_some_iff] at hparse
      obtain ⟨_, -, _, -, _, -, _, -, _, -, _, -, _, -, _, -, h⟩ := hparse
      cases h
      exact ⟨_, _, rfl, rfl⟩
    obtain ⟨e, u, he, hu⟩ := hfields
    have huptime : u.toUInt64.toNat < 2 ^ 32 := by
      rw [UInt32.toNat_toUInt64]
      exact u.toNat_lt
    have hstamps := micros_of_stamp (parseHeader_exportTime hparse he) huptime
    have hboot : subI64 e (asI64 u * 1000) = some (e - asI64 u * 1000) :=
      (subI64_yields _ _).eq_some_iff.mpr (hstamps 0).1
    dsimp only
    rw [he, hu]
    dsimp only
    rw [mulI64_stamp]
    dsimp only [Option.bind_some]
    rw [hboot]
    exact decodeRecordsChecked_eq _ _ _ (fun stamp => (hstamps stamp).2) _ _

end V5

section Records

/-- Decode an NTP timestamp with its arithmetic checked. -/
def ntpMicrosChecked (bytes : Bytes) : Option (Option Int64) :=
  if bytes.length ≠ 8 then some none
  else do
    let secs1900 := asI64 (.ofNat (beNat (bytes.take 4)))
    let frac : UInt64 := .ofNat (beNat (bytes.drop 4))
    let epochSecs ← subI64 secs1900 2208988800
    let scaled ← mulU64 frac 1000000
    let fracMicros := scaled >>> 32
    let micros ← mulI64 epochSecs 1000000
    let t ← addI64 micros fracMicros.toInt64
    some (some t)

/-- Map one field's bytes onto the row with the arithmetic of the time elements checked. No other
element is computed with. -/
def mapFieldChecked (p : PartialRecord) (f : FieldSpec) (bytes : Bytes) : Option PartialRecord :=
  if f.enterpriseNumber ≠ 0 then some (mapField p f bytes)
  else
    let u := beUint bytes
    match f.ieId.toNat with
    | 150 => (mulI64 u.toInt64 1000000).map fun t => { p with row.flowStart := some t }
    | 151 => (mulI64 u.toInt64 1000000).map fun t => { p with row.flowEnd := some t }
    | 152 => (mulI64 u.toInt64 1000).map fun t => { p with row.flowStart := some t }
    | 153 => (mulI64 u.toInt64 1000).map fun t => { p with row.flowEnd := some t }
    | 154 | 156 => (ntpMicrosChecked bytes).map fun t => { p with row.flowStart := t.or p.row.flowStart }
    | 155 | 157 => (ntpMicrosChecked bytes).map fun t => { p with row.flowEnd := t.or p.row.flowEnd }
    | _ => some (mapField p f bytes)

/-- A flow time that an uptime stamp resolves to where it has no value, with checked arithmetic. -/
def stampChecked (bootMicros : Int64) (held : Option Int64) (stamp : Option UInt32) : Option (Option Int64) :=
  match held, stamp with
  | none, some s => do
    let sinceBoot ← mulI64 (asI64 s) 1000
    let t ← addI64 bootMicros sinceBoot
    some (some t)
  | held, _ => some held

/-- Resolve uptime-relative flow times with the arithmetic checked. -/
def resolveTimesChecked (p : PartialRecord) (ctx : Ctx) : Option FlowRecord :=
  match ctx.exportTime, ctx.sysUptimeMs with
  | some exportTime, some uptime => do
    let uptime ← mulI64 uptime.toInt64 1000
    let bootMicros ← subI64 exportTime uptime
    let flowStart ← stampChecked bootMicros p.row.flowStart p.startSysup
    let flowEnd ← stampChecked bootMicros p.row.flowEnd p.endSysup
    some { p.row with flowStart, flowEnd }
  | _, _ => some p.row

/-- Slice the fields off the cursor and map each with the arithmetic checked. -/
def decodeFieldsChecked : List FieldSpec → PartialRecord → Cursor → Option (Option (PartialRecord × Cursor))
  | [], p, cur => some (some (p, cur))
  | f :: fields, p, cur =>
    attempt (if f.isVariable then readVarlen cur else some (f.length.toNat, cur)) fun (len, cur) =>
    attempt (cur.take len) fun (bytes, cur) => do
      let p ← mapFieldChecked p f bytes
      decodeFieldsChecked fields p cur

/-- Decode a single record with the arithmetic checked. -/
def decodeOneRecordChecked (tpl : TemplateEntry) (cur : Cursor) (ctx : Ctx) :
    Option (Option (FlowRecord × Cursor)) := do
  match ← decodeFieldsChecked tpl.fields { row := ctx.baseRecord } cur with
  | none => some none
  | some (p, cur) => do
    let row ← resolveTimesChecked p ctx
    some (some (row, cur))

/-- The record loop with the arithmetic checked. -/
def decodeRecordsChecked (tpl : TemplateEntry) (ctx : Ctx) : ℕ → Cursor → Option (List FlowRecord)
  | 0, _ => some []
  | rounds + 1, cur =>
    if cur.remaining = 0 then some []
    else if 0 < minFixed tpl ∧ cur.remaining < minFixed tpl then some []
    else do
      match ← decodeOneRecordChecked tpl cur ctx with
      | none => some [ctx.truncated]
      | some (row, cur') =>
        if cur'.remaining = cur.remaining then some [row]
        else do
          let rows ← decodeRecordsChecked tpl ctx rounds cur'
          some (row :: rows)

/-- Decode a whole Data Set payload with the arithmetic checked. -/
def decodeDataSetChecked (tpl : TemplateEntry) (payload : Bytes) (ctx : Ctx) (modeFlowsOnly : Bool) :
    Option (List FlowRecord) :=
  if modeFlowsOnly && tpl.kind = .options then some []
  else decodeRecordsChecked tpl ctx payload.length (.new payload)

/-- The factor to microseconds of the time elements that count seconds or milliseconds, by id. -/
def timeScale : ℕ → Option ℤ
  | 150 | 151 => some 1000000
  | 152 | 153 => some 1000
  | _ => none

/-- Whether the value of a field fits as a time: every value but that of a time element in seconds or
milliseconds that is too large in microseconds. -/
def FieldSpec.FitsTime (f : FieldSpec) (bytes : Bytes) : Prop :=
  f.enterpriseNumber = 0 → ∀ scale, timeScale f.ieId.toNat = some scale →
    FitsI64 ((beUint bytes).toInt64.toInt * scale)

/-- The fields cut off the cursor for one record, with their bytes, also where the record underruns. -/
def fieldSlices : List FieldSpec → Cursor → List (FieldSpec × Bytes)
  | [], _ => []
  | f :: fields, cur =>
    match sliceField f cur with
    | none => []
    | some (bytes, cur) => (f, bytes) :: fieldSlices fields cur

/-- The fields cut off a payload by the record loop, with their bytes. -/
def payloadSlices (tpl : TemplateEntry) : ℕ → Cursor → List (FieldSpec × Bytes)
  | 0, _ => []
  | rounds + 1, cur =>
    if cur.remaining = 0 then []
    else if 0 < minFixed tpl ∧ cur.remaining < minFixed tpl then []
    else fieldSlices tpl.fields cur ++
      match sliceFields tpl.fields cur with
      | none => []
      | some (_, cur') => if cur'.remaining = cur.remaining then [] else payloadSlices tpl rounds cur'

/-- Every step from an NTP timestamp to microseconds fits. -/
theorem micros_of_ntp (secs : UInt32) {frac : UInt64} (hfrac : frac.toNat < 2 ^ 32) :
    FitsI64 ((asI64 secs).toInt - (2208988800 : Int64).toInt) ∧
      frac.toNat * (1000000 : UInt64).toNat < 2 ^ 64 ∧
      FitsI64 ((asI64 secs - 2208988800).toInt * (1000000 : Int64).toInt) ∧
      FitsI64 (((asI64 secs - 2208988800) * 1000000).toInt + ((frac * 1000000) >>> 32).toInt64.toInt) := by
  have hsecs := secs.toNat_lt
  have hoffset : (2208988800 : Int64).toInt = 2208988800 := rfl
  have hscale : (1000000 : Int64).toInt = 1000000 := rfl
  have hscale' : (1000000 : UInt64).toNat = 1000000 := rfl
  have hwidth : (32 : UInt64).toNat % 64 = 32 := rfl
  have hepoch : FitsI64 ((asI64 secs).toInt - (2208988800 : Int64).toInt) := by
    rw [asI64_toInt, hoffset, FitsI64]
    omega
  have hmicros : FitsI64 ((asI64 secs - 2208988800).toInt * (1000000 : Int64).toInt) := by
    rw [toInt_sub hepoch, asI64_toInt, hoffset, hscale, FitsI64]
    omega
  have hshift : ((frac * 1000000) >>> 32).toNat < 2 ^ 32 := by
    rw [UInt64.toNat_shiftRight, hwidth, Nat.shiftRight_eq_div_pow]
    have hlt := (frac * 1000000).toNat_lt
    omega
  refine ⟨hepoch, by rw [hscale']; omega, hmicros, ?_⟩
  rw [toInt_mul hmicros, toInt_sub hepoch, asI64_toInt, hoffset, hscale, toInt_toInt64 (by omega), FitsI64]
  omega

/-- An NTP timestamp never overflows. -/
theorem ntpMicrosChecked_eq (bytes : Bytes) : ntpMicrosChecked bytes = some (ntpMicros bytes) := by
  unfold ntpMicrosChecked ntpMicros
  split
  · rfl
  · rename_i hlength
    have hfrac : (UInt64.ofNat (beNat (bytes.drop 4))).toNat < 2 ^ 32 := by
      have hdrop : (bytes.drop 4).length = 4 := by
        rw [List.length_drop]
        omega
      have hlt := beNat_lt (bytes.drop 4)
      rw [hdrop] at hlt
      rw [UInt64.toNat_ofNat_of_lt' (lt_trans hlt (by decide))]
      exact hlt
    obtain ⟨hepoch, hscaled, hmicros, hsum⟩ := micros_of_ntp (.ofNat (beNat (bytes.take 4))) hfrac
    dsimp only
    rw [(subI64_yields _ _).eq_some_iff.mpr hepoch, Option.bind_eq_bind, Option.bind_some,
      (mulU64_yields _ _).eq_some_iff.mpr hscaled, Option.bind_eq_bind, Option.bind_some,
      (mulI64_yields _ _).eq_some_iff.mpr hmicros, Option.bind_some,
      (addI64_yields _ _).eq_some_iff.mpr hsum]
    rfl

/-- Mapping a field overflows exactly where its value does not fit as a time. -/
theorem mapFieldChecked_yields (p : PartialRecord) (f : FieldSpec) (bytes : Bytes) :
    Yields (mapFieldChecked p f bytes) (f.FitsTime bytes) (mapField p f bytes) := by
  unfold mapFieldChecked
  by_cases hent : f.enterpriseNumber = 0
  · rw [if_neg (not_not.mpr hent)]
    have hfits : f.FitsTime bytes ↔ ∀ scale, timeScale f.ieId.toNat = some scale →
        FitsI64 ((beUint bytes).toInt64.toInt * scale) := by
      simp only [FieldSpec.FitsTime, hent, true_implies]
    have hscaled : ∀ {id : ℕ} {scale : ℤ}, f.ieId.toNat = id → timeScale id = some scale →
        (f.FitsTime bytes ↔ FitsI64 ((beUint bytes).toInt64.toInt * scale)) := by
      intro id scale hid hscale
      rw [hfits, hid, hscale]
      simp
    have hntp : ∀ {id : ℕ}, f.ieId.toNat = id → timeScale id = none → f.FitsTime bytes := by
      intro id hid hscale
      rw [hfits, hid, hscale]
      simp
    have hplain : ∀ {x : Option PartialRecord}, x = some (mapField p f bytes) → f.FitsTime bytes →
        Yields x (f.FitsTime bytes) (mapField p f bytes) := by
      rintro x rfl hfit
      exact (Yields.pure _).congr (by simp [hfit])
    have hscaledTime : ∀ (write : Int64 → PartialRecord) (scale : Int64) (id : ℕ), f.ieId.toNat = id →
        timeScale id = some scale.toInt → mapField p f bytes = write ((beUint bytes).toInt64 * scale) →
        Yields ((mulI64 (beUint bytes).toInt64 scale).map write) (f.FitsTime bytes) (mapField p f bytes) := by
      intro write scale id hid hscale hmap
      rw [hmap]
      exact ((mulI64_yields _ _).map write).congr (hscaled hid hscale).symm
    dsimp only
    split
    -- Seconds and milliseconds are scaled, into either time.
    iterate 4
      · rename_i hid
        exact hscaledTime _ _ _ hid rfl (by simp [mapField, hent, hid])
    -- An NTP timestamp fits whatever its bytes.
    iterate 4
      · rename_i hid
        exact hplain (by simp [mapField, hent, hid, ntpMicrosChecked_eq]) (hntp hid rfl)
    · refine hplain rfl (hntp rfl ?_)
      unfold timeScale
      split <;> first | rfl | contradiction

  · rw [if_pos hent]
    exact (Yields.pure _).congr (by simp [FieldSpec.FitsTime, hent])

/-- The header times of a context as export headers have them: an export time of 52 bits and an uptime
of 32. -/
def Ctx.TimesSmall (ctx : Ctx) : Prop :=
  (∀ e, ctx.exportTime = some e → 0 ≤ e.toInt ∧ e.toInt ≤ 2 ^ 52) ∧
    ∀ u, ctx.sysUptimeMs = some u → u.toNat < 2 ^ 32

/-- A stamp counted from a boot time never overflows. -/
theorem stampChecked_eq {boot : Int64} (hboot : ∀ stamp : UInt32, FitsI64 (boot.toInt + (asI64 stamp * 1000).toInt))
    (held : Option Int64) (stamp : Option UInt32) :
    stampChecked boot held stamp = some (held.or (stamp.map fun s => boot + asI64 s * 1000)) := by
  cases held with
  | some t => rfl
  | none =>
    cases stamp with
    | none => rfl
    | some s =>
      unfold stampChecked
      dsimp only
      rw [mulI64_stamp, Option.bind_eq_bind, Option.bind_some, (addI64_yields _ _).eq_some_iff.mpr (hboot s)]
      rfl

/-- Resolving uptime-relative times never overflows. -/
theorem resolveTimesChecked_eq {ctx : Ctx} (hctx : ctx.TimesSmall) (p : PartialRecord) :
    resolveTimesChecked p ctx = some (resolveTimes p ctx) := by
  obtain ⟨hexport, huptime⟩ := hctx
  unfold resolveTimesChecked resolveTimes
  cases hexportTime : ctx.exportTime with
  | none => rfl
  | some e =>
    cases hsysUptime : ctx.sysUptimeMs with
    | none => rfl
    | some u =>
      have hu := huptime u hsysUptime
      have hstamps := micros_of_stamp (hexport e hexportTime) hu
      have hstamp := stampChecked_eq fun stamp => (hstamps stamp).2
      dsimp only
      rw [mulI64_millis hu, Option.bind_eq_bind, Option.bind_some, (subI64_yields _ _).eq_some_iff.mpr (hstamps 0).1,
        Option.bind_eq_bind, Option.bind_some, hstamp, Option.bind_some, hstamp]
      rfl

/-- Decoding the fields of a record overflows exactly where a value cut off does not fit as a time. -/
theorem decodeFieldsChecked_yields (fields : List FieldSpec) (p : PartialRecord) (cur : Cursor) :
    Yields (decodeFieldsChecked fields p cur) (∀ s ∈ fieldSlices fields cur, s.1.FitsTime s.2)
      (decodeFields fields p cur) := by
  induction fields generalizing p cur with
  | nil => exact (Yields.pure _).congr (by simp [fieldSlices])
  | cons f fields ih =>
    have hstep : decodeFieldsChecked (f :: fields) p cur = attempt (sliceField f cur) fun (bytes, cur) =>
        (mapFieldChecked p f bytes).bind fun p => decodeFieldsChecked fields p cur := by
      rw [decodeFieldsChecked, sliceField]
      cases (if f.isVariable then readVarlen cur else some (f.length.toNat, cur)) with
      | none => rfl
      | some sized => rfl
    rw [hstep, decodeFields_cons, fieldSlices]
    cases sliceField f cur with
    | none => exact (Yields.pure _).congr (by simp)
    | some sliced =>
      obtain ⟨bytes, cur'⟩ := sliced
      rw [List.forall_mem_cons]
      exact (mapFieldChecked_yields p f bytes).bind fun _ => ih (mapField p f bytes) cur'

/-- Decoding a record overflows exactly where a value cut off does not fit as a time. -/
theorem decodeOneRecordChecked_yields (tpl : TemplateEntry) (cur : Cursor) {ctx : Ctx} (hctx : ctx.TimesSmall) :
    Yields (decodeOneRecordChecked tpl cur ctx) (∀ s ∈ fieldSlices tpl.fields cur, s.1.FitsTime s.2)
      (decodeOneRecord tpl cur ctx) := by
  have hfields := decodeFieldsChecked_yields tpl.fields { row := ctx.baseRecord } cur
  unfold decodeOneRecordChecked decodeOneRecord
  refine (hfields.bind fun _ => ?_).congr (and_iff_left trivial)
  cases decodeFields tpl.fields { row := ctx.baseRecord } cur with
  | none => exact Yields.pure none
  | some sliced =>
    dsimp only
    rw [resolveTimesChecked_eq hctx]
    exact Yields.pure _

/-- The record loop overflows exactly where a value cut off the payload does not fit as a time. -/
theorem decodeRecordsChecked_yields (tpl : TemplateEntry) {ctx : Ctx} (hctx : ctx.TimesSmall) (rounds : ℕ)
    (cur : Cursor) :
    Yields (decodeRecordsChecked tpl ctx rounds cur) (∀ s ∈ payloadSlices tpl rounds cur, s.1.FitsTime s.2)
      (decodeRecords tpl ctx rounds cur) := by
  induction rounds generalizing cur with
  | zero => exact (Yields.pure _).congr (by simp [payloadSlices])
  | succ rounds ih =>
    rw [decodeRecordsChecked, decodeRecords, payloadSlices]
    split
    · exact (Yields.pure _).congr (by simp)
    · split
      · exact (Yields.pure _).congr (by simp)
      · rw [List.forall_mem_append]
        refine (decodeOneRecordChecked_yields tpl cur hctx).bind fun _ => ?_
        rw [decodeOneRecord_eq]
        cases sliceFields tpl.fields cur with
        | none => exact (Yields.pure _).congr (by simp)
        | some sliced =>
          dsimp only [Option.map_some]
          split
          · exact (Yields.pure _).congr (by simp)
          · exact (ih sliced.2).bind_some _

/-- Decoding a Data Set overflows exactly where it is not dropped and a value cut off its payload does
not fit as a time. -/
theorem decodeDataSetChecked_yields (tpl : TemplateEntry) (payload : Bytes) {ctx : Ctx} (hctx : ctx.TimesSmall)
    (flowsOnly : Bool) :
    Yields (decodeDataSetChecked tpl payload ctx flowsOnly)
      ((flowsOnly → tpl.kind ≠ .options) →
        ∀ s ∈ payloadSlices tpl payload.length (.new payload), s.1.FitsTime s.2)
      (decodeDataSet tpl payload ctx flowsOnly) := by
  have hrecords := decodeRecordsChecked_yields tpl hctx payload.length (.new payload)
  unfold decodeDataSetChecked decodeDataSet
  split
  · rename_i hdropped
    rw [Bool.and_eq_true, decide_eq_true_eq] at hdropped
    exact (Yields.pure _).congr (by simp [hdropped])
  · rename_i hkept
    rw [Bool.and_eq_true, decide_eq_true_eq, not_and] at hkept
    exact hrecords.congr ⟨fun h _ => h, fun h => h hkept⟩

end Records

end Netflow
