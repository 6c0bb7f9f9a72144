import Netflow.Decode.Checked
import Netflow.Lossless
import Netflow.V5Template

/-!
# Flow times and the uptime counter

NetFlow v5 and v9 stamp a flow with the uptime of its exporter, a counter of milliseconds in 32
bits. The boot time is taken from the header alone, so a stamp from before the counter wrapped
is counted from the wrong boot. The times of a row are right exactly where the counter did not
wrap between the start of the flow and its export.
-/

namespace Netflow

open Checked

section Definitions

/-- The time some milliseconds before another. -/
def millisBefore (time : Int64) (millis : ℕ) : Int64 := time - .ofNat (millis * 1000)

/-- Whether the standard elements of an id are there in a record and all hold one stamp. -/
def HoldsStamp (id : ℕ) (stamp : UInt32) (fields : List FieldSpec) (slices : List Bytes) : Prop :=
  (∃ r ∈ fields.zip slices, r.1.IsElement id) ∧
    ∀ r ∈ fields.zip slices, r.1.IsElement id → beUint r.2 = stamp.toUInt64

instance (id : ℕ) (stamp : UInt32) (fields : List FieldSpec) (slices : List Bytes) :
    Decidable (HoldsStamp id stamp fields slices) := inferInstanceAs (Decidable (_ ∧ _))

/-- The rows decoded from a flow that starts and ends at the given milliseconds since boot and is
exported at a third, which is the given time: the row of a v5 record, and that of a v9 record that
has the stamps and no absolute time. The stamps and the header hold 32 bits of each. -/
inductive UptimeRow (start stop uptime : ℕ) : Int64 → FlowRecord → Prop
  | v5 {flows : List V5.Flow} {flow : V5.Flow} {i : ℕ} {row : FlowRecord} {exporter : String}
      {unixSecs unixNsecs sequence : UInt32} {engineType engineId : UInt8} {sampling : UInt16}
      (hcount : flows.length < 65536) (hflow : flows[i]? = some flow)
      (hfirst : flow.first = .ofNat start) (hlast : flow.last = .ofNat stop)
      (hrow : (V5.decode (V5.encode (.ofNat uptime) unixSecs unixNsecs sequence engineType engineId sampling flows)
        exporter)[i]? = some row) :
      UptimeRow start stop uptime (asI64 unixSecs * 1000000 + asI64 unixNsecs / 1000) row
  | v9 {tpl : TemplateEntry} {slices : List Bytes} {enc rest : Bytes} {row : FlowRecord} {cur : Cursor}
      {opts : DecodeOptions} {unixSecs sequence sourceId : UInt32} {templateId : UInt16}
      (hrecord : RecordEncodes tpl.fields slices enc)
      (hfirst : HoldsStamp 22 (.ofNat start) tpl.fields slices)
      (hlast : HoldsStamp 21 (.ofNat stop) tpl.fields slices)
      (habsolute : ∀ f ∈ tpl.fields, ∀ id, 150 ≤ id → id ≤ 157 → ¬ f.IsElement id)
      (hrow : decodeOneRecord tpl ⟨enc ++ rest⟩
        { v9Ctx opts (.ofNat uptime) unixSecs sequence sourceId with templateId } = some (row, cur)) :
      UptimeRow start stop uptime (asI64 unixSecs * 1000000) row

/-- Whether a row has the times of such a flow, in order. -/
structure FlowRecord.TimesRight (row : FlowRecord) (start stop uptime : ℕ) (exportTime : Int64) : Prop where
  flowStart : row.flowStart = some (millisBefore exportTime (uptime - start))
  flowEnd : row.flowEnd = some (millisBefore exportTime (uptime - stop))
  ordered : millisBefore exportTime (uptime - start) ≤ millisBefore exportTime (uptime - stop) ∧
    millisBefore exportTime (uptime - stop) ≤ exportTime

end Definitions

section Times

variable {exportTime : Int64}

/-- Less than 2^31 milliseconds before an export time no time wraps. -/
theorem millisBefore_toInt (htime : 0 ≤ exportTime.toInt ∧ exportTime.toInt ≤ 2 ^ 52) {millis : ℕ}
    (hmillis : millis < 2 ^ 31) : (millisBefore exportTime millis).toInt = exportTime.toInt - millis * 1000 := by
  have hspan : (Int64.ofNat (millis * 1000)).toInt = millis * 1000 := by
    rw [Int64.toInt_ofNat_of_lt (by omega)]
    omega
  rw [millisBefore, toInt_sub (by rw [hspan, FitsI64]; omega), hspan]

/-- A stamp counted from the boot time of a header does not wrap. -/
theorem stamped_toInt (htime : 0 ≤ exportTime.toInt ∧ exportTime.toInt ≤ 2 ^ 52) (uptime stamp : UInt32) :
    (exportTime - asI64 uptime * 1000 + asI64 stamp * 1000).toInt =
      exportTime.toInt - uptime.toNat * 1000 + stamp.toNat * 1000 := by
  have hlt : ∀ n : UInt32, n.toUInt64.toNat < 2 ^ 32 := by
    intro n
    rw [UInt32.toNat_toUInt64]
    exact n.toNat_lt
  have hmillis : ∀ n : UInt32, (asI64 n * 1000).toInt = n.toNat * 1000 := by
    intro n
    rw [asI64, (micros_of_millis (hlt n)).2, UInt32.toNat_toUInt64]
  obtain ⟨hboot, hstamped⟩ := micros_of_stamp htime (hlt uptime) stamp
  change FitsI64 (exportTime.toInt - (asI64 uptime * 1000).toInt) at hboot
  change FitsI64 ((exportTime - asI64 uptime * 1000).toInt + _) at hstamped
  rw [toInt_add hstamped, toInt_sub hboot, hmillis, hmillis]

/-- A stamp gives the time it stands for exactly if the counter did not wrap since. -/
theorem stamped_eq_iff (htime : 0 ≤ exportTime.toInt ∧ exportTime.toInt ≤ 2 ^ 52) {stamp uptime : ℕ}
    (hle : stamp ≤ uptime) (hspan : uptime - stamp < 2 ^ 31) :
    exportTime - asI64 (.ofNat uptime) * 1000 + asI64 (.ofNat stamp) * 1000 =
        millisBefore exportTime (uptime - stamp) ↔ stamp / 2 ^ 32 = uptime / 2 ^ 32 := by
  have hmod : ∀ n : ℕ, (UInt32.ofNat n).toNat = n % 2 ^ 32 := fun n => UInt32.toNat_ofNat'
  rw [← Int64.toInt_inj, stamped_toInt htime, millisBefore_toInt htime hspan, hmod, hmod]
  omega

end Times

section Rows

variable {start stop uptime : ℕ} {exportTime : Int64} {row : FlowRecord}

/-- A column that only one element writes holds the value of its stamps. -/
theorem get_of_holdsStamp {id : ℕ} {col : Column} (hcol : col.elements = [id]) {stamp : UInt32} {value : col.Value}
    (hwrite : ∀ bytes, beUint bytes = stamp.toUInt64 → columnWrite id bytes col = .overwrite value)
    {fields : List FieldSpec} {slices : List Bytes} (h : HoldsStamp id stamp fields slices) (p : PartialRecord) :
    (mapFields p fields slices).get col = some value := by
  obtain ⟨⟨r, hr, helement⟩, hstamps⟩ := h
  have hcolumn : ∀ f : FieldSpec, f.column = some col ↔ f.IsElement id := by
    intro f
    simp [FieldSpec.column_eq_some_iff, hcol]
  rw [mapFields_get]
  apply Register.run_of_forall_eq
  · intro write hmem
    obtain ⟨r', hr', hown, rfl⟩ := mem_columnWrites.mp hmem
    have helement' := (hcolumn r'.1).mp hown
    rw [helement'.2]
    exact hwrite _ (hstamps r' hr' helement')
  · exact List.ne_nil_of_mem (mem_columnWrites.mpr ⟨r, hr, (hcolumn r.1).mpr helement, rfl⟩)

/-- A record with both stamps and no absolute time has times counted from the boot time of the header. -/
theorem recordRow_of_holdsStamp {ctx : Ctx} {time : Int64} {sysUptime first last : UInt32}
    (htime : ctx.exportTime = some time) (huptime : ctx.sysUptimeMs = some sysUptime.toUInt64)
    {fields : List FieldSpec} {slices : List Bytes} (hfirst : HoldsStamp 22 first fields slices)
    (hlast : HoldsStamp 21 last fields slices)
    (habsolute : ∀ f ∈ fields, ∀ id, 150 ≤ id → id ≤ 157 → ¬ f.IsElement id) :
    (ctx.recordRow fields slices).flowStart = some (time - asI64 sysUptime * 1000 + asI64 first * 1000) ∧
      (ctx.recordRow fields slices).flowEnd = some (time - asI64 sysUptime * 1000 + asI64 last * 1000) := by
  rw [Ctx.recordRow]
  generalize hbase : ({ row := ctx.baseRecord } : PartialRecord) = base
  have hempty : ∀ col, base.get col = none := fun col => hbase ▸ get_baseRecord ctx col
  have hstamp : ∀ bytes (stamp : UInt32), beUint bytes = stamp.toUInt64 → (beUint bytes).toUInt32 = stamp := by
    intro bytes stamp hvalue
    rw [hvalue, UInt32.toUInt32_toUInt64]
  have hnone : ∀ col : Column, (∀ id ∈ col.elements, 150 ≤ id ∧ id ≤ 157) →
      (mapFields base fields slices).get col = none := by
    intro col hids
    rw [@mapFields_get_of_ne base fields col, hempty]
    intro f hf hcol
    obtain ⟨id, hid, helement⟩ := FieldSpec.column_eq_some_iff.mp hcol
    exact habsolute f hf id (hids id hid).1 (hids id hid).2 helement
  have hstart : (mapFields base fields slices).startSysup = some first :=
    @get_of_holdsStamp 22 .startSysup rfl first first
      (fun bytes hvalue => congrArg Register.Write.overwrite (hstamp bytes first hvalue)) fields slices hfirst base
  have hend : (mapFields base fields slices).endSysup = some last :=
    @get_of_holdsStamp 21 .endSysup rfl last last
      (fun bytes hvalue => congrArg Register.Write.overwrite (hstamp bytes last hvalue)) fields slices hlast base
  have hflowStart : (mapFields base fields slices).row.flowStart = none := hnone .flowStart (by decide)
  have hflowEnd : (mapFields base fields slices).row.flowEnd = none := hnone .flowEnd (by decide)
  rw [resolveTimes_eq, hflowStart, hflowEnd, hstart, hend]
  simp only [Ctx.resolved, htime, huptime, Option.none_or, Option.map_some]
  exact ⟨rfl, rfl⟩

/-- The times of such a flow are counted from the boot time of the header. -/
theorem UptimeRow.times (h : UptimeRow start stop uptime exportTime row) :
    (0 ≤ exportTime.toInt ∧ exportTime.toInt ≤ 2 ^ 52) ∧
      row.flowStart = some (exportTime - asI64 (.ofNat uptime) * 1000 + asI64 (.ofNat start) * 1000) ∧
      row.flowEnd = some (exportTime - asI64 (.ofNat uptime) * 1000 + asI64 (.ofNat stop) * 1000) := by
  cases h with
  | @v5 flows flow i _ exporter unixSecs unixNsecs _ _ _ _ hcount hflow hfirst hlast hrow =>
    have hsecs := unixSecs.toNat_lt
    have hnsecs := unixNsecs.toNat_lt
    refine ⟨by rw [(micros_of_nsecs unixSecs unixNsecs).2]; omega, ?_⟩
    rw [V5.decode_encode _ _ _ _ _ _ _ hcount, List.getElem?_map, hflow, Option.map_some] at hrow
    cases hrow
    rw [← hfirst, ← hlast]
    exact ⟨rfl, rfl⟩
  | @v9 tpl slices _ _ _ _ opts unixSecs sequence sourceId templateId hrecord hfirst hlast habsolute hrow =>
    have hsecs := unixSecs.toNat_lt
    refine ⟨by rw [(micros_of_secs unixSecs).2]; omega, ?_⟩
    rw [decodeOneRecord_of_encodes hrecord] at hrow
    cases hrow
    exact recordRow_of_holdsStamp rfl rfl hfirst hlast habsolute

/-- The times of a v5 or v9 row are right exactly if the uptime counter did not wrap between the start of the
flow and its export. -/
theorem timesRight_iff (hstart : start ≤ stop) (hstop : stop ≤ uptime) (hspan : uptime - start < 2 ^ 31)
    (h : UptimeRow start stop uptime exportTime row) :
    row.TimesRight start stop uptime exportTime ↔ start / 2 ^ 32 = uptime / 2 ^ 32 := by
  obtain ⟨htime, hflowStart, hflowEnd⟩ := h.times
  have hfirst := stamped_eq_iff htime (hstart.trans hstop) hspan
  have hlast := stamped_eq_iff htime hstop (show uptime - stop < 2 ^ 31 by omega)
  constructor
  · intro hright
    have hsame := hright.flowStart
    rw [hflowStart, Option.some_inj] at hsame
    exact hfirst.mp hsame
  · intro hperiod
    refine ⟨by rw [hflowStart, hfirst.mpr hperiod], by rw [hflowEnd, hlast.mpr (by omega)], ?_⟩
    rw [Int64.le_iff_toInt_le, Int64.le_iff_toInt_le, millisBefore_toInt htime hspan,
      millisBefore_toInt htime (by omega)]
    omega

/-- A v5 datagram of one flow gives such a row. -/
theorem exists_uptimeRow (start stop uptime : ℕ) :
    ∃ row, UptimeRow start stop uptime (asI64 1700000000 * 1000000 + asI64 0 / 1000) row := by
  let flow : V5.Flow := ⟨0x0a000001, 0x0a000002, 0, 1, 2, 10, 1000, .ofNat start, .ofNat stop, 1234, 80, 0, 0, 6,
    0, 0, 0, 24, 24, 0⟩
  have hcount : [flow].length < 65536 := by rw [List.length_singleton]; decide
  have hrows := V5.decode_encode (.ofNat uptime) 1700000000 0 1 0 0 0 hcount "10.0.0.1"
  exact ⟨_, .v5 hcount (show [flow][0]? = some flow from rfl) rfl rfl (by rw [hrows]; rfl)⟩

/-- A flow of one second, exported a second after its end, two seconds after boot. -/
theorem timesRight_iff_fresh :
    ∃ row exportTime, UptimeRow 0 1000 2000 exportTime row ∧
      (row.TimesRight 0 1000 2000 exportTime ↔ 0 / 2 ^ 32 = 2000 / 2 ^ 32) := by
  obtain ⟨row, hrow⟩ := exists_uptimeRow 0 1000 2000
  exact ⟨row, _, hrow, timesRight_iff (by decide) (by decide) (by decide) hrow⟩

/-- The times of a flow that was on when the counter wrapped are wrong. -/
theorem not_forall_timesRight :
    ¬ ∀ (start stop uptime : ℕ) (exportTime : Int64) (row : FlowRecord), start ≤ stop → stop ≤ uptime →
      uptime - start < 2 ^ 31 → UptimeRow start stop uptime exportTime row →
        row.TimesRight start stop uptime exportTime := by
  intro h
  obtain ⟨row, hrow⟩ := exists_uptimeRow 4294966296 4294967796 4294968296
  have hright := (h _ _ _ _ row (by decide) (by decide) (by decide) hrow).flowStart
  obtain ⟨htime, hflowStart, -⟩ := hrow.times
  rw [hflowStart, Option.some_inj, stamped_eq_iff htime (by decide) (by decide)] at hright
  exact absurd hright (by decide)

end Rows

end Netflow
