import Netflow.Order
import Netflow.Padding
import Netflow.TemplateCodec

/-!
# Exporters

Exporters write their templates and the records of these templates into messages. The messages get lost, come
twice, overtake each other and arrive among other datagrams. Below the caps the rows of the scan are those of
the records that arrive with a template that arrives, each once, and one row for every other Data Set; in which
order all of it arrives does not matter.
-/

namespace Netflow

section Messages

/-- The template records of one Set. -/
inductive TemplateSet
  | v9 (records : List V9.WireTemplate)
  | v9Options (records : List V9.WireOptionsTemplate)
  | ipfix (options : Bool) (records : List Ipfix.WireTemplate)

/-- The protocol the Set belongs to. -/
def TemplateSet.protocol : TemplateSet → Version
  | .v9 _ | .v9Options _ => .v9
  | .ipfix _ _ => .v10

/-- The Set on the wire. -/
def TemplateSet.flowSet : TemplateSet → FlowSet
  | .v9 records => ⟨0, records.flatMap V9.WireTemplate.encode⟩
  | .v9Options records => ⟨1, records.flatMap V9.WireOptionsTemplate.encode⟩
  | .ipfix options records => ⟨if options then 3 else 2, records.flatMap (Ipfix.WireTemplate.encode options)⟩

/-- What the Set defines. -/
def TemplateSet.defs : TemplateSet → List TemplateDef
  | .v9 records => records.map V9.WireTemplate.parsed
  | .v9Options records => records.map V9.WireOptionsTemplate.parsed
  | .ipfix options records => records.map (Ipfix.WireTemplate.parsed options)

/-- Some records of a layout, each as its values and as it is written, and padding. -/
structure DataSet where
  templateId : UInt16
  layout : Layout
  records : List (List Bytes × Bytes)
  padding : Bytes
  templateId_ge : ¬ templateId < 256
  encodes : ∀ r ∈ records, RecordEncodes layout.fields r.1 r.2 ∧ r.2 ≠ []
  padding_short : padding = [] ∨
    (∀ f ∈ layout.fields, ¬ f.isVariable) ∧ padding.length < minRecord layout.fields

/-- The Set on the wire. -/
def DataSet.flowSet (d : DataSet) : FlowSet := ⟨d.templateId, d.records.flatMap Prod.snd ++ d.padding⟩

/-- One Set of a message. -/
inductive ExportSet
  | templates (set : TemplateSet)
  | data (set : DataSet)

/-- The Set on the wire. -/
def ExportSet.flowSet : ExportSet → FlowSet
  | .templates set => set.flowSet
  | .data set => set.flowSet

/-- What the Set defines. -/
def ExportSet.defs : ExportSet → List TemplateDef
  | .templates set => set.defs
  | .data _ => []

/-- The bytes of the records of the Set, with their padding. -/
def ExportSet.dataBytes : ExportSet → ℕ
  | .templates _ => 0
  | .data set => set.flowSet.body.length

/-- The header of a message, but for the observation domain. -/
inductive MessageHeader
  | v9 (count : UInt16) (sysUptime unixSecs sequence : UInt32)
  | ipfix (length : UInt16) (exportSecs sequence : UInt32)

/-- The protocol of a header. -/
def MessageHeader.protocol : MessageHeader → Version
  | .v9 .. => .v9
  | .ipfix .. => .v10

/-- The format of the protocol. -/
def MessageHeader.format : MessageHeader → TemplatedFormat
  | .v9 .. => V9.format
  | .ipfix .. => Ipfix.format

/-- A message of an exporter: Sets of one protocol, each of which fits its length field. -/
structure Message where
  exporter : String
  obsDomain : UInt32
  header : MessageHeader
  sets : List ExportSet
  templates_protocol : ∀ set, .templates set ∈ sets → set.protocol = header.protocol
  fits : ∀ set ∈ sets, set.flowSet.body.length + 4 < 65536

namespace Message

variable (m : Message)

/-- The message on the wire. -/
def encode : Bytes :=
  match m.header with
  | .v9 count sysUptime unixSecs sequence =>
    encodeV9 count sysUptime unixSecs sequence m.obsDomain (m.sets.map ExportSet.flowSet)
  | .ipfix length exportSecs sequence =>
    encodeIpfix length exportSecs sequence m.obsDomain (m.sets.map ExportSet.flowSet)

/-- The call that decodes the message. -/
def call (mode : Mode) (now : Int64) : Call :=
  ⟨m.encode, { exporter := m.exporter, mode, nowMicros := now }, .any⟩

/-- What the header tells of the records of a template. -/
def ctx (templateId : UInt16) : Ctx :=
  match m.header with
  | .v9 _ sysUptime unixSecs sequence =>
    { v9Ctx { exporter := m.exporter } sysUptime unixSecs sequence m.obsDomain with templateId }
  | .ipfix _ exportSecs sequence =>
    { ipfixCtx { exporter := m.exporter } exportSecs sequence m.obsDomain with templateId }

/-- The key of a template of the exporter. -/
def key (templateId : UInt16) : TemplateKey := ⟨m.exporter, m.obsDomain, templateId⟩

/-- The bytes of the records of the message, with their padding. -/
def dataBytes : ℕ := (m.sets.map ExportSet.dataBytes).sum

end Message

/-- The rows of a Set, given which templates are known: one for each record, or that the template is missing. -/
def ExportSet.rows (m : Message) (flowsOnly : Bool) (known : List TemplateKey) : ExportSet → List FlowRecord
  | .templates _ => []
  | .data d =>
    if m.key d.templateId ∈ known then
      if flowsOnly ∧ d.layout.kind = .options then []
      else d.records.map fun r => (m.ctx d.templateId).recordRow d.layout.fields r.1
    else [missingTemplate (m.key d.templateId) m.header.protocol (m.ctx 0).exportTime (m.ctx 0).sequence]

/-- Whether what a Set defines and what it is written by are the layouts of a table. -/
def ExportSet.Conforms (m : Message) (table : TemplateKey → Option Layout) : ExportSet → Prop
  | .templates t => ∀ d ∈ t.defs, table (m.key d.templateId) = some d.layout
  | .data d => table (m.key d.templateId) = some d.layout

/-- Something that arrives: a message, or a datagram that is no message of an exporter. -/
inductive Delivery
  | message (m : Message) (now : Int64)
  | other (call : Call)

/-- The call that decodes it. -/
def Delivery.call (mode : Mode) : Delivery → Call
  | .message m now => m.call mode now
  | .other call => call

/-- Its rows, given which templates are known; those of another datagram do not depend on that. -/
def Delivery.rows (mode : Mode) (known : List TemplateKey) : Delivery → List FlowRecord
  | .message m _ => m.sets.flatMap (ExportSet.rows m mode.isFlowsOnly known)
  | .other call => (call.decode .new).1

/-- The bytes of its records. -/
def Delivery.dataBytes : Delivery → ℕ
  | .message m _ => m.dataBytes
  | .other _ => 0

/-- Whether a message keeps to one protocol for each scope and to one layout for each template, and whether what is
no message is rejected or has no Sets. -/
def Delivery.Conforms (protocol : String → UInt32 → Version) (table : TemplateKey → Option Layout) (mode : Mode) :
    Delivery → Prop
  | .message m _ => m.header.protocol = protocol m.exporter m.obsDomain ∧ ∀ set ∈ m.sets, set.Conforms m table
  | .other call => call.parsed = none ∧ call.opts.mode = mode

end Messages

section Reading

variable {m : Message}

/-- A template Set is no Data Set. -/
theorem TemplateSet.flowSet_id_lt (set : TemplateSet) : set.flowSet.id < 256 := by
  cases set with
  | v9 => exact (show (0 : UInt16) < 256 by decide)
  | v9Options => exact (show (1 : UInt16) < 256 by decide)
  | ipfix options =>
    cases options with
    | false => exact (show (2 : UInt16) < 256 by decide)
    | true => exact (show (3 : UInt16) < 256 by decide)

/-- A message is parsed as what was written. -/
theorem Message.parsed_call (m : Message) (mode : Mode) (now : Int64) :
    (m.call mode now).parsed = some (m.header.format, m.ctx 0, m.sets.map ExportSet.flowSet) := by
  have hfits : ∀ fs ∈ m.sets.map ExportSet.flowSet, fs.body.length + 4 < 65536 :=
    List.forall_mem_map.mpr m.fits
  unfold Message.call Message.encode Message.ctx MessageHeader.format
  cases m.header with
  | v9 count sysUptime unixSecs sequence => exact parsed_encodeV9 _ hfits count sysUptime unixSecs sequence _ (.inl rfl)
  | ipfix length exportSecs sequence => exact parsed_encodeIpfix _ hfits length exportSecs sequence _ (.inl rfl)

/-- What a Data Set arrives as. -/
def ExportSet.arrivals (m : Message) : ExportSet → List (TemplateKey × PendingRecord)
  | .templates _ => []
  | .data d => [(m.key d.templateId, (m.ctx 0).pendingRecord d.flowSet.body)]

/-- The Data Sets of a message arrive. -/
theorem Message.arrivals_call (m : Message) (mode : Mode) (now : Int64) :
    (m.call mode now).arrivals = m.sets.flatMap (ExportSet.arrivals m) := by
  have hkey : ∀ id, (m.ctx 0).key id = m.key id := by
    intro id
    unfold Message.ctx Message.key
    cases m.header <;> rfl
  simp only [Call.arrivals, m.parsed_call]
  induction m.sets with
  | nil => rfl
  | cons set sets ih =>
    rw [List.map_cons, List.flatMap_cons, ← ih]
    cases set with
    | templates t => exact Ctx.arrivals_cons_of_lt t.flowSet_id_lt _
    | data d =>
      refine (Ctx.arrivals_cons_of_not_lt d.templateId_ge _).trans ?_
      rw [hkey]
      rfl

end Reading

section Collector

open LateBinding (settle Outcome)

variable {protocol : String → UInt32 → Version} {table : TemplateKey → Option Layout} {mode : Mode}
  {deliveries : List Delivery}

/-- The bytes that arrive in Data Sets. -/
theorem Delivery.Conforms.arrivedBytes {d : Delivery} (h : d.Conforms protocol table mode) :
    arrivedBytes (d.call mode).arrivals = d.dataBytes := by
  cases d with
  | message m now =>
    rw [call, m.arrivals_call, dataBytes, Message.dataBytes]
    induction m.sets with
    | nil => rfl
    | cons set sets ih =>
      rw [List.flatMap_cons, arrivedBytes_append, ih, List.map_cons, List.sum_cons]
      cases set <;> rfl
  | other call => simp [Call.arrivals, Delivery.call, h.1, dataBytes]

end Collector

end Netflow
