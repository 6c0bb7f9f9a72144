import Netflow.Capacity
import Netflow.Decode.Columns
import Netflow.Encode

/-!
# NetFlow v5 as a template

The fixed v5 record holds what a v9 template of eighteen standard elements can hold. A flow
written as a v5 record and as a record of that template is decoded to the same row, but for
the version and the template id.
-/

namespace Netflow.V5

/-- The contents of one flow record. -/
structure Flow where
  srcaddr : UInt32
  dstaddr : UInt32
  nexthop : UInt32
  input : UInt16
  output : UInt16
  dPkts : UInt32
  dOctets : UInt32
  first : UInt32
  last : UInt32
  srcport : UInt16
  dstport : UInt16
  pad1 : UInt8
  tcpFlags : UInt8
  prot : UInt8
  tos : UInt8
  srcAs : UInt16
  dstAs : UInt16
  srcMask : UInt8
  dstMask : UInt8
  pad2 : UInt16

/-- The 48 bytes of a flow record. -/
def Flow.encode (r : Flow) : Bytes :=
  beBytes 4 r.srcaddr.toNat ++ (beBytes 4 r.dstaddr.toNat ++ (beBytes 4 r.nexthop.toNat ++
    (beBytes 2 r.input.toNat ++ (beBytes 2 r.output.toNat ++ (beBytes 4 r.dPkts.toNat ++
      (beBytes 4 r.dOctets.toNat ++ (beBytes 4 r.first.toNat ++ (beBytes 4 r.last.toNat ++
        (beBytes 2 r.srcport.toNat ++ (beBytes 2 r.dstport.toNat ++ (beBytes 1 r.pad1.toNat ++
          (beBytes 1 r.tcpFlags.toNat ++ (beBytes 1 r.prot.toNat ++ (beBytes 1 r.tos.toNat ++
            (beBytes 2 r.srcAs.toNat ++ (beBytes 2 r.dstAs.toNat ++ (beBytes 1 r.srcMask.toNat ++
              (beBytes 1 r.dstMask.toNat ++ beBytes 2 r.pad2.toNat))))))))))))))))))

/-- A v5 datagram of some flows. -/
def encode (sysUptime unixSecs unixNsecs sequence : UInt32) (engineType engineId : UInt8) (sampling : UInt16)
    (flows : List Flow) : Bytes :=
  beBytes 2 5 ++ (beBytes 2 flows.length ++ (beBytes 4 sysUptime.toNat ++ (beBytes 4 unixSecs.toNat ++
    (beBytes 4 unixNsecs.toNat ++ (beBytes 4 sequence.toNat ++ (beBytes 1 engineType.toNat ++
      (beBytes 1 engineId.toNat ++ (beBytes 2 sampling.toNat ++ flows.flatMap Flow.encode))))))))

/-- The standard elements of a flow record, each with its width. -/
def elements : List (UInt16 × UInt16) :=
  [(8, 4), (12, 4), (15, 4), (10, 2), (14, 2), (2, 4), (1, 4), (22, 4), (21, 4), (7, 2), (11, 2), (6, 1),
    (4, 1), (5, 1), (16, 2), (17, 2), (9, 1), (13, 1)]

/-- The template of these elements. -/
def fields : List FieldSpec := elements.map fun (ieId, length) => fieldSpec 0 ieId length

/-- The values of a flow in the order of these elements. -/
def Flow.slices (r : Flow) : List Bytes :=
  [beBytes 4 r.srcaddr.toNat, beBytes 4 r.dstaddr.toNat, beBytes 4 r.nexthop.toNat, beBytes 2 r.input.toNat,
    beBytes 2 r.output.toNat, beBytes 4 r.dPkts.toNat, beBytes 4 r.dOctets.toNat, beBytes 4 r.first.toNat,
    beBytes 4 r.last.toNat, beBytes 2 r.srcport.toNat, beBytes 2 r.dstport.toNat, beBytes 1 r.tcpFlags.toNat,
    beBytes 1 r.prot.toNat, beBytes 1 r.tos.toNat, beBytes 2 r.srcAs.toNat, beBytes 2 r.dstAs.toNat,
    beBytes 1 r.srcMask.toNat, beBytes 1 r.dstMask.toNat]

/-- The row of a flow, under a header context. -/
def Flow.row (r : Flow) (ctx : Ctx) (bootMicros : Int64) : FlowRecord :=
  { ctx.baseRecord with
    srcAddr := inet4 (beBytes 4 r.srcaddr.toNat), dstAddr := inet4 (beBytes 4 r.dstaddr.toNat)
    srcPort := some r.srcport, dstPort := some r.dstport, protocol := some r.prot
    tcpFlags := some r.tcpFlags, bytes := some r.dOctets.toUInt64, packets := some r.dPkts.toUInt64
    flowStart := some (bootMicros + asI64 r.first * 1000), flowEnd := some (bootMicros + asI64 r.last * 1000)
    srcAs := some r.srcAs.toUInt32, dstAs := some r.dstAs.toUInt32
    inputSnmp := some r.input.toUInt32, outputSnmp := some r.output.toUInt32
    nextHop := inet4 (beBytes 4 r.nexthop.toNat), tos := some r.tos
    srcMask := some r.srcMask, dstMask := some r.dstMask }

section Fixed

/-- A flow record takes its 48 bytes. -/
theorem Flow.encode_length (r : Flow) : r.encode.length = recordLen := by
  simp only [encode, List.length_append, beBytes_length]
  rfl

/-- The record loop decodes each flow from its own bytes. -/
theorem decodeRecords_encode (exporter : String) (obsDomain : UInt32) (hdr : ExportHeader)
    (bootMicros : Option Int64) (flows : List Flow) :
    decodeRecords exporter obsDomain hdr bootMicros flows.length ⟨flows.flatMap Flow.encode⟩ =
      flows.map fun r => decodeRecord r.encode exporter obsDomain hdr bootMicros := by
  induction flows with
  | nil => rfl
  | cons r flows ih =>
    have htake : (Cursor.mk (r.encode ++ flows.flatMap Flow.encode)).take recordLen =
        some (r.encode, ⟨flows.flatMap Flow.encode⟩) := by
      rw [← r.encode_length, Cursor.take_of_le (by simp [Cursor.remaining]), List.take_left, List.drop_left]
    rw [List.length_cons, List.flatMap_cons, decodeRecords, htake]
    simp only [ih, List.map_cons]

/-- A flow record is decoded to the row of its flow. -/
theorem decodeRecord_encode (r : Flow) (exporter : String) (obsDomain : UInt32) (hdr : ExportHeader)
    (boot : Int64) :
    decodeRecord r.encode exporter obsDomain hdr (some boot) =
      { r.row ⟨exporter, obsDomain, .v5, hdr.exportTime, hdr.sequence, none, 0⟩ boot with
        templateId := none } := by
  rw [decodeRecord_of_length r.encode_length]
  simp only [Flow.encode]
  simp (disch := omega) only [field_skip, drop_skip, Nat.reduceSub, ofNat_field8, ofNat_field16, ofNat_field32,
    List.drop_zero, take_beBytes]
  rfl

/-- Version 5 announces NetFlow v5. -/
theorem probeVersion_five (rest : Bytes) : probeVersion (beBytes 2 5 ++ rest) = some .v5 := by
  have hread := u16_beBytes 5 rest
  change (Cursor.new (beBytes 2 5 ++ rest)).u16 = _ at hread
  rw [probeVersion, hread]
  rfl

/-- A written v5 datagram is decoded to the rows of its flows. -/
theorem decode_encode (sysUptime unixSecs unixNsecs sequence : UInt32) (engineType engineId : UInt8)
    (sampling : UInt16) {flows : List Flow} (hcount : flows.length < 65536) (exporter : String) :
    let exportTime := asI64 unixSecs * 1000000 + asI64 unixNsecs / 1000
    let ctx : Ctx := ⟨exporter, engineId.toUInt32, .v5, some exportTime, some sequence.toUInt64, none, 0⟩
    decode (encode sysUptime unixSecs unixNsecs sequence engineType engineId sampling flows) exporter =
      flows.map fun r => { r.row ctx (exportTime - asI64 sysUptime * 1000) with templateId := none } := by
  intro exportTime ctx
  generalize hdata : encode sysUptime unixSecs unixNsecs sequence engineType engineId sampling flows = data
  have hlength : 24 ≤ data.length := by
    simp only [← hdata, encode, List.length_append, beBytes_length]
    omega
  have hheader : parseHeader data = parseV5 data := by
    rw [parseHeader, show probeVersion data = some .v5 from hdata ▸ probeVersion_five _]
    rfl
  have hregion : (Cursor.new data).skip 24 = (true, ⟨flows.flatMap Flow.encode⟩) := by
    have hsum : 24 = 2 + (2 + (4 + (4 + (4 + (4 + (1 + (1 + 2))))))) := rfl
    have hdrop : data.drop 24 = flows.flatMap Flow.encode := by
      rw [← hdata, encode, hsum]
      simp only [← List.drop_drop, drop_beBytes]
    rw [Cursor.skip, Cursor.take_of_le (show 24 ≤ (Cursor.new data).remaining from hlength)]
    exact congrArg (fun rest => (true, Cursor.mk rest)) hdrop
  have hcounted : (UInt16.ofNat flows.length).toNat = flows.length := UInt16.toNat_ofNat_of_lt' hcount
  have hfields : field data 2 2 = flows.length ∧ UInt32.ofNat (field data 4 4) = sysUptime ∧
      UInt32.ofNat (field data 8 4) = unixSecs ∧ UInt32.ofNat (field data 12 4) = unixNsecs ∧
      UInt32.ofNat (field data 16 4) = sequence ∧ UInt8.ofNat (field data 21 1) = engineId := by
    rw [← hdata, encode]
    simp (disch := omega) only [field_skip, Nat.reduceSub, ofNat_field8, ofNat_field32,
      field_here (show flows.length < 256 ^ 2 from hcount), and_self]
  obtain ⟨hflows, huptime, hsecs, hnsecs, hsequence, hengine⟩ := hfields
  rw [parseV5_of_le hlength, hflows, huptime, hsecs, hnsecs, hsequence, hengine] at hheader
  rw [decode]
  simp only [hheader, hregion, Option.getD_some, hcounted, decodeRecords_encode, decodeRecord_encode]
  rfl

end Fixed

section Template

/-- The values of a flow are mapped to its row. -/
theorem resolveTimes_slices (r : Flow) {ctx : Ctx} {exportTime : Int64} {sysUptime : UInt64}
    (htime : ctx.exportTime = some exportTime) (huptime : ctx.sysUptimeMs = some sysUptime) :
    resolveTimes (mapFields { row := ctx.baseRecord } fields r.slices) ctx =
      r.row ctx (exportTime - sysUptime.toInt64 * 1000) := by
  simp only [fields, elements, List.map_cons, List.map_nil, Flow.slices, mapFields_cons, mapFields_nil]
  rw [@mapField_fieldSpec _ 8 .srcAddr rfl, @mapField_fieldSpec _ 12 .dstAddr rfl,
    @mapField_fieldSpec _ 15 .nextHop rfl, @mapField_fieldSpec _ 10 .inputSnmp rfl,
    @mapField_fieldSpec _ 14 .outputSnmp rfl, @mapField_fieldSpec _ 2 .packets rfl,
    @mapField_fieldSpec _ 1 .bytes rfl, @mapField_fieldSpec _ 22 .startSysup rfl,
    @mapField_fieldSpec _ 21 .endSysup rfl, @mapField_fieldSpec _ 7 .srcPort rfl,
    @mapField_fieldSpec _ 11 .dstPort rfl, @mapField_fieldSpec _ 6 .tcpFlags rfl,
    @mapField_fieldSpec _ 4 .protocol rfl, @mapField_fieldSpec _ 5 .tos rfl,
    @mapField_fieldSpec _ 16 .srcAs rfl, @mapField_fieldSpec _ 17 .dstAs rfl,
    @mapField_fieldSpec _ 9 .srcMask rfl, @mapField_fieldSpec _ 13 .dstMask rfl]
  simp only [PartialRecord.set, PartialRecord.get, columnWrite, beUint_byte, beUint_word, beUint_dword,
    toUInt8_and_mask, Register.Write.apply_ofOption, UInt8.toUInt8_toUInt64, UInt16.toUInt16_toUInt64,
    UInt16.toUInt32_toUInt64, UInt32.toUInt32_toUInt64]
  unfold resolveTimes
  simp only [htime, huptime, Flow.row, Ctx.baseRecord, Option.or_none]
  rfl

/-- The values of a flow have the widths of their elements. -/
theorem Flow.carries_slices (r : Flow) : List.Forall₂ FieldSpec.Carries fields r.slices := by
  simp [fields, elements, slices, FieldSpec.Carries, FieldSpec.isVariable, fieldSpec_length]

/-- A flow takes 45 bytes as a record of the template. -/
theorem Flow.encodeFields_length (r : Flow) : (encodeFields fields r.slices).length = 45 := by
  simp [fields, elements, slices, encodeFields, encodeField, FieldSpec.isVariable, fieldSpec_length]

end Template

section Agreement

variable {c : TemplateCache}

/-- The Data Set of some flows under the template. -/
def dataBody (flows : List Flow) : Bytes := flows.flatMap fun r => encodeFields fields r.slices

/-- Each flow takes 45 bytes of it. -/
theorem dataBody_length (flows : List Flow) : (dataBody flows).length = 45 * flows.length := by
  simp only [dataBody, List.length_flatMap, Flow.encodeFields_length, List.map_const', List.sum_replicate_nat]
  omega

/-- It is decoded flow by flow. -/
theorem decodeDataSet_dataBody (flows : List Flow) {tpl : TemplateEntry} (hlayout : tpl.layout = ⟨.data, fields⟩)
    {ctx : Ctx} {exportTime : Int64} {sysUptime : UInt64} (htime : ctx.exportTime = some exportTime)
    (huptime : ctx.sysUptimeMs = some sysUptime) (flowsOnly : Bool) :
    decodeDataSet tpl (dataBody flows) ctx flowsOnly =
      flows.map fun r => r.row ctx (exportTime - sysUptime.toInt64 * 1000) := by
  have hkind : tpl.kind = .data := (Layout.mk.inj hlayout).1
  have hfields : tpl.fields = fields := (Layout.mk.inj hlayout).2
  have hrecords : ∀ r ∈ flows.map fun r => (r.slices, encodeFields fields r.slices),
      RecordEncodes tpl.fields r.1 r.2 ∧ r.2 ≠ [] := by
    rw [List.forall_mem_map, hfields]
    intro r _
    refine ⟨recordEncodes_encodeFields r.carries_slices, List.ne_nil_of_length_pos ?_⟩
    rw [r.encodeFields_length]
    decide
  have hdecoded := decodeRecords_of_encodes ctx hrecords [] le_rfl
  simp only [List.flatMap_map, List.append_nil, List.map_map, List.length_nil, Netflow.decodeRecords] at hdecoded
  rw [decodeDataSet, hkind]
  simp only [reduceCtorEq, decide_false, Bool.and_false, Bool.false_eq_true, if_false]
  refine hdecoded.trans ?_
  rw [hfields]
  apply List.map_congr_left
  intro r _
  exact resolveTimes_slices r htime huptime

/-- The Sets of a v9 datagram that defines the template and sends some flows under it. -/
def templatedSets (templateId : UInt16) (flows : List Flow) : List FlowSet :=
  [⟨0, encodeTemplate templateId elements⟩, ⟨templateId, dataBody flows⟩]

/-- Where the cache has room for the template and nothing waits for it, such a datagram is decoded
to the rows of these flows. -/
theorem decodeDatagram_templatedSets {flows : List Flow} (hcount : flows.length ≤ 1456) {templateId : UInt16}
    (hid : ¬ templateId < 256) (opts : DecodeOptions) (count : UInt16)
    (sysUptime unixSecs sequence sourceId : UInt32) {restrict : Restrict}
    (hrestrict : restrict = .any ∨ restrict = .netflowOnly) (hsettled : c.Settled)
    (hroom : c.entries.size < c.capEntries.toNat)
    (hwaiting : (v9Ctx opts sysUptime unixSecs sequence sourceId).key templateId ∉ c.pending) :
    (decodeDatagram (encodeV9 count sysUptime unixSecs sequence sourceId (templatedSets templateId flows)) opts c
        restrict).1 =
      flows.map fun r => r.row { v9Ctx opts sysUptime unixSecs sequence sourceId with templateId }
        (asI64 unixSecs * 1000000 - asI64 sysUptime * 1000) := by
  have hne : ∀ small : UInt16, small < 256 → ¬ templateId = small := fun small hlt heq => hid (heq ▸ hlt)
  have hfits : ∀ fs ∈ templatedSets templateId flows, fs.body.length + 4 < 65536 := by
    simp only [templatedSets, List.forall_mem_cons, dataBody_length]
    refine ⟨?_, by omega, nofun⟩
    simp [encodeTemplate, elements]
  have hparsed := parsed_encodeV9 opts hfits count sysUptime unixSecs sequence sourceId hrestrict
  change (Call.decode ⟨encodeV9 count sysUptime unixSecs sequence sourceId _, opts, restrict⟩ c).1 = _
  generalize hcall : Call.mk (encodeV9 count sysUptime unixSecs sequence sourceId _) opts restrict = call
    at hparsed ⊢
  have hopts : call.opts = opts := by rw [← hcall]
  generalize hctx : v9Ctx opts sysUptime unixSecs sequence sourceId = ctx at hparsed hwaiting ⊢
  have hdefs : V9.format.definitions (templatedSets templateId flows) = [⟨templateId, .data, fields, 0⟩] := by
    have hsecond : V9.format.setDefs ⟨templateId, dataBody flows⟩ = [] := by
      simp only [TemplatedFormat.setDefs, V9.format, hne 0 (by decide), hne 1 (by decide), if_false]
    simp only [templatedSets, TemplatedFormat.definitions, List.flatMap_cons, List.flatMap_nil, hsecond,
      setDefs_encodeTemplate (hne 0 (by decide)) (show elements.length < 65536 by decide)]
    rfl
  let entry := TemplateDef.entry ⟨templateId, .data, fields, 0⟩ opts.nowMicros
  obtain ⟨tpl, c₁, huse, hlayout⟩ :=
    TemplateCache.exists_useTemplate_upsert hroom (ctx.key templateId) entry opts.nowMicros
  have hpasses : call.passes c = ([.dataSet (ctx.key templateId) tpl (ctx.pendingRecord (dataBody flows))], c₁) := by
    rw [Call.passes, hparsed]
    simp only [learnSets_eq, hdefs, hopts]
    change settleSets _ _ _ (c.upsert (ctx.key templateId) entry) = _
    simp only [templatedSets, settleSets, show (0 : UInt16) < 256 by decide, if_true, hid, if_false, huse]
  -- Nothing waits for the template, so the retry has nothing to do.
  have htrace : call.trace c = call.passes c := by
    have hlearned := (hsettled.upsert hwaiting entry).useTemplate huse
    rw [Call.trace_of_retries (Call.retries_of_parsed hparsed), hpasses]
    simp only [hlearned.retryKeysTrace, List.append_nil]
  rw [call.decode_eq_trace, htrace, hpasses, traceRows_cons, traceRows_nil, List.append_nil, Emission.rows,
    ctx_pendingRecord (.inl (by rw [← hctx]; rfl))]
  have htime : { ctx with templateId }.exportTime = some (asI64 unixSecs * 1000000) := by rw [← hctx]; rfl
  have huptime : { ctx with templateId }.sysUptimeMs = some sysUptime.toUInt64 := by rw [← hctx]; rfl
  exact decodeDataSet_dataBody flows hlayout htime huptime _

/-- A row without what tells its format: its version and its template. -/
def formatless (row : FlowRecord) : FlowRecord := { row with flowVersion := "", templateId := none }

/-- The fixed v5 path and the template path normalize the same flows to the same rows. Up to
1456 flows, written as a v5 datagram without nanoseconds and as a v9 datagram of the same times,
sequence and source that defines their template and sends them under it, are decoded to the
same rows in order, but for version and template id. -/
theorem decodeDatagram_v5_v9 {flows : List Flow} (hcount : flows.length ≤ 1456) {templateId : UInt16}
    (hid : ¬ templateId < 256) {opts : DecodeOptions} (hoverride : opts.obsDomainOverride = none)
    {restrict : Restrict} (hrestrict : restrict = .any ∨ restrict = .netflowOnly)
    (sysUptime unixSecs sequence : UInt32) (engineType engineId : UInt8) (sampling count : UInt16)
    (hsettled : c.Settled) (hroom : c.entries.size < c.capEntries.toNat)
    (hwaiting : ⟨opts.exporter, engineId.toUInt32, templateId⟩ ∉ c.pending) :
    let v5 := encode sysUptime unixSecs 0 sequence engineType engineId sampling flows
    let v9 := encodeV9 count sysUptime unixSecs sequence engineId.toUInt32 (templatedSets templateId flows)
    (decodeDatagram v5 opts c restrict).1.map formatless = (decodeDatagram v9 opts c restrict).1.map formatless := by
  intro v5 v9
  have hdomain : opts.obsDomainOverride.getD engineId.toUInt32 = engineId.toUInt32 := by
    rw [hoverride, Option.getD_none]
  have hv9 := decodeDatagram_templatedSets hcount hid opts count sysUptime unixSecs sequence engineId.toUInt32
    hrestrict hsettled hroom (by rwa [Ctx.key, v9Ctx, hdomain])
  have hprobe : probeVersion v5 = some .v5 := probeVersion_five _
  have hv5 : (decodeDatagram v5 opts c restrict).1 = decode v5 opts.exporter := by
    unfold decodeDatagram
    rcases hrestrict with rfl | rfl <;> simp [hprobe]
  have hnsecs : asI64 unixSecs * 1000000 + asI64 0 / 1000 = asI64 unixSecs * 1000000 := by
    rw [show asI64 0 / 1000 = 0 by decide, Int64.add_zero]
  rw [hv5, hv9, decode_encode _ _ _ _ _ _ _ (by omega), List.map_map, List.map_map, hnsecs]
  apply List.map_congr_left
  intro r _
  simp only [Function.comp_apply, formatless, Flow.row, Ctx.baseRecord, v9Ctx, hdomain]

/-- One flow, from an empty cache. -/
theorem decodeDatagram_v5_v9_one :
    let flow : Flow := ⟨0x0a000001, 0x0a000002, 0x0a0000fe, 1, 2, 10, 1000, 90000, 95000, 1234, 80, 0, 0x18, 6, 0,
      64500, 64501, 24, 24, 0⟩
    let v5 := encode 100000 1700000000 0 10 0 1 0 [flow]
    let v9 := encodeV9 2 100000 1700000000 10 1 (templatedSets 256 [flow])
    (decodeDatagram v5 {} .new .any).1.map formatless = (decodeDatagram v9 {} .new .any).1.map formatless := by
  intro flow
  exact @decodeDatagram_v5_v9 .new [flow] (by decide) 256 (by decide) {} rfl .any (.inl rfl) 100000 1700000000 10
    0 1 0 2 (TemplateCache.settled_of_pending_empty rfl) (by decide) (by simp [TemplateCache.new, TemplateCache.empty])

end Agreement

end Netflow.V5
