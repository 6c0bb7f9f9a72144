import Netflow.Decode.Templated

/-!
# IPFIX

A 16-byte header and a run of Sets: id 2 holds templates, id 3 options templates and ids
from 256 on hold data. Elements may be of variable length, and a set high bit in the
element id announces a Private Enterprise Number.
-/

namespace Netflow.Ipfix

/-- Read one field specifier, with its enterprise number when the high bit is set. -/
def readField (c : Cursor) : Option (FieldSpec × Cursor) := do
  let (rawId, c) ← c.u16
  let (length, c) ← c.u16
  if rawId &&& 0x8000 ≠ 0 then do
    let (pen, c) ← c.u32
    some (fieldSpec pen (rawId &&& 0x7fff) length, c)
  else some (fieldSpec 0 rawId length, c)

/-- Read the scope field count, which only options templates carry. -/
def readScopeFieldCount (options : Bool) (c : Cursor) : Option (UInt16 × Cursor) :=
  if options then c.u16 else some (0, c)

/-- Parse one template of a (possibly Options) Template Set. A field count of zero, the form
of a withdrawal, ends the Set like padding does. -/
def parseTemplate (options : Bool) (c : Cursor) : Option (TemplateDef × Cursor) := do
  let (templateId, c) ← c.u16
  let (fieldCount, c) ← c.u16
  if templateId = 0 ∨ fieldCount = 0 then none
  else do
    let (scopeFieldCount, c) ← readScopeFieldCount options c
    let (fields, c) ← readFields readField fieldCount.toNat c
    some (⟨templateId, if options then .options else .data, fields, scopeFieldCount⟩, c)

/-- The syntax of a (possibly Options) Template Set. -/
def templateSyntax (options : Bool) : TemplateSyntax := ⟨4, parseTemplate options, true⟩

/-- Parse a (possibly Options) Template Set body and upsert each template. -/
def parseTemplates (body : Bytes) (exporter : String) (obsDomain : UInt32) (now : Int64)
    (options : Bool) (cache : TemplateCache) : TemplateCache :=
  parseTemplateSet (templateSyntax options) body exporter obsDomain now cache

/-- The IPFIX format. Its flow times are absolute, so it keeps no uptime. -/
def format : TemplatedFormat where
  version := .v10
  headerLen := 16
  badHeader := "decode-error:bad-ipfix-header"
  badSet := "bad-ipfix-set"
  uptime _ := none
  templates id :=
    if id = 2 then some (templateSyntax false)
    else if id = 3 then some (templateSyntax true)
    else none

/-- Split a Set region. -/
def splitSets (region : Bytes) : Except String (List FlowSet) :=
  splitRegion format.badSet region.length region

/-- Decode an IPFIX datagram. -/
def decode (data : Bytes) (exporter : String) (obsOverride : Option UInt32) (cache : TemplateCache)
    (now : Int64) (modeFlowsOnly : Bool) : List FlowRecord × TemplateCache :=
  decodeTemplated format data exporter obsOverride cache now modeFlowsOnly

end Netflow.Ipfix
