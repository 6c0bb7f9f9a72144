import Netflow.Decode.Templated

/-!
# NetFlow v9

A 20-byte header and a run of FlowSets: id 0 holds templates, id 1 options templates and
ids from 256 on hold data keyed by template id.
-/

namespace Netflow.V9

/-- The enterprise number that keeps options scope fields apart from the standard elements. -/
def scopePen : UInt32 := 0xFFFFFFFF

/-- The name of an options scope type. -/
def scopeName (ty : UInt16) : String :=
  if ty = 1 then "system"
  else if ty = 2 then "interface"
  else if ty = 3 then "linecard"
  else if ty = 4 then "cache"
  else if ty = 5 then "template"
  else "other"

/-- Read one field specifier: a type and a length. -/
def readField (c : Cursor) : Option (FieldSpec × Cursor) := do
  let (ty, c) ← c.u16
  let (len, c) ← c.u16
  some (fieldSpec 0 ty len, c)

/-- Read one options scope specifier. -/
def readScopeField (c : Cursor) : Option (FieldSpec × Cursor) := do
  let (ty, c) ← c.u16
  let (len, c) ← c.u16
  some (⟨ty, scopePen, len, s!"scope_{scopeName ty}", .octetArray⟩, c)

/-- Parse one template of a Template FlowSet. -/
def parseTemplate (c : Cursor) : Option (TemplateDef × Cursor) := do
  let (templateId, c) ← c.u16
  let (fieldCount, c) ← c.u16
  let (fields, c) ← readFields readField fieldCount.toNat c
  if templateId = 0 then none else some (⟨templateId, .data, fields, 0⟩, c)

/-- Parse one template of an Options Template FlowSet, its two lengths in bytes. -/
def parseOptionsTemplate (c : Cursor) : Option (TemplateDef × Cursor) := do
  let (templateId, c) ← c.u16
  let (scopeLen, c) ← c.u16
  let (optionLen, c) ← c.u16
  let scopeCount := scopeLen / 4
  let optionCount := optionLen / 4
  let (scopes, c) ← readFields readScopeField scopeCount.toNat c
  let (options, c) ← readFields readField optionCount.toNat c
  if templateId = 0 then none else some (⟨templateId, .options, scopes ++ options, scopeCount⟩, c)

/-- The syntax of a Template FlowSet. -/
def templateSyntax : TemplateSyntax := ⟨4, parseTemplate, false⟩

/-- The syntax of an Options Template FlowSet. -/
def optionsTemplateSyntax : TemplateSyntax := ⟨6, parseOptionsTemplate, true⟩

/-- Parse a Template FlowSet body and upsert each template. -/
def parseTemplates (body : Bytes) (exporter : String) (obsDomain : UInt32) (now : Int64)
    (cache : TemplateCache) : TemplateCache :=
  parseTemplateSet templateSyntax body exporter obsDomain now cache

/-- Parse an Options Template FlowSet body and upsert each template. -/
def parseOptionsTemplates (body : Bytes) (exporter : String) (obsDomain : UInt32) (now : Int64)
    (cache : TemplateCache) : TemplateCache :=
  parseTemplateSet optionsTemplateSyntax body exporter obsDomain now cache

/-- The NetFlow v9 format. -/
def format : TemplatedFormat where
  version := .v9
  headerLen := 20
  badHeader := "decode-error:bad-v9-header"
  badSet := "set-length-overrun"
  uptime hdr := hdr.sysUptime.map (·.toUInt64)
  templates id :=
    if id = 0 then some templateSyntax
    else if id = 1 then some optionsTemplateSyntax
    else none

/-- Split a FlowSet region. -/
def splitFlowsets (region : Bytes) : Except String (List FlowSet) :=
  splitRegion format.badSet region.length region

/-- Decode a NetFlow v9 datagram. -/
def decode (data : Bytes) (exporter : String) (obsOverride : Option UInt32) (cache : TemplateCache)
    (now : Int64) (modeFlowsOnly : Bool) : List FlowRecord × TemplateCache :=
  decodeTemplated format data exporter obsOverride cache now modeFlowsOnly

end Netflow.V9
