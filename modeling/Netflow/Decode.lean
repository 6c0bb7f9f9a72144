import Netflow.Decode.Ipfix
import Netflow.Decode.Sflow
import Netflow.Decode.V5
import Netflow.Decode.V9

/-!
# Decode orchestration

Version dispatch, the retry of buffered Data Sets after each template-stateful datagram,
and the flush at the end of a scan. The template cache is threaded explicitly.
-/

namespace Netflow

/-- The output filtering mode. -/
inductive Mode
  | auto | flowsOnly | all
  deriving DecidableEq, Repr

/-- The mode a text names; anything unknown means `auto`. -/
def Mode.parse (s : String) : Mode :=
  if s = "flows-only" then .flowsOnly else if s = "all" then .all else .auto

/-- Whether options records and counter samples are dropped. -/
def Mode.isFlowsOnly (mode : Mode) : Bool := mode = .flowsOnly

/-- Which formats a decode entry point accepts. -/
inductive Restrict
  | any | netflowOnly | ipfixOnly | sflowOnly
  deriving DecidableEq, Repr

/-- Per-call decode options. -/
structure DecodeOptions where
  exporter : String := ""
  obsDomainOverride : Option UInt32 := none
  mode : Mode := .auto
  nowMicros : Int64 := 0
  deriving DecidableEq, Repr

/-- The context a buffered record is decoded in once its template is known. -/
def PendingRecord.ctx (rec : PendingRecord) (key : TemplateKey) : Ctx :=
  { exporter := key.exporter, obsDomain := key.obsDomain
    version := if rec.version = .v10 then .v10 else .v9
    exportTime := rec.exportTime, sequence := rec.sequence, sysUptimeMs := rec.sysUptimeMs
    templateId := key.templateId }

/-- Decode what is buffered for each of the given keys whose template is known. -/
def retryKeys (now : Int64) (flowsOnly : Bool) :
    List TemplateKey → TemplateCache → List FlowRecord × TemplateCache
  | [], cache => ([], cache)
  | key :: keys, cache =>
    match cache.peek key with
    | none => retryKeys now flowsOnly keys cache
    | some _ =>
      match cache.useTemplate key now with
      | none => retryKeys now flowsOnly keys cache
      | some (tpl, cache) =>
        let (recs, cache) := cache.takePending key
        let (out, cache) := retryKeys now flowsOnly keys cache
        (recs.flatMap (fun rec => decodeDataSet tpl rec.bytes (rec.ctx key) flowsOnly) ++ out, cache)

/-- Drain and decode every buffered Data Set whose template the cache now knows. -/
def retryPending (cache : TemplateCache) (now : Int64) (flowsOnly : Bool) :
    List FlowRecord × TemplateCache :=
  retryKeys now flowsOnly cache.pendingKeys cache

/-- The version text of a flushed key: that of its first buffered record. -/
def flushVersion (recs : List PendingRecord) : Version :=
  if recs.head?.map (·.version) = some .v10 then .v10 else .v9

/-- End-of-scan flush: each Data Set still buffered becomes a `missing-template` row. -/
def flushPending (cache : TemplateCache) : List FlowRecord × TemplateCache :=
  let (drained, cache) := cache.drainPending
  (drained.flatMap fun (key, recs) =>
    recs.map fun rec => missingTemplate key (flushVersion recs) rec.exportTime rec.sequence, cache)

/-- Decode one datagram, then retry what the templates learned may have made decodable. -/
def decodeDatagram (data : Bytes) (opts : DecodeOptions) (cache : TemplateCache)
    (restrict : Restrict) : List FlowRecord × TemplateCache :=
  let version := probeVersion data
  let flowsOnly := opts.mode.isFlowsOnly
  let (out, cache) : List FlowRecord × TemplateCache := match version, restrict with
    | some .v5, .any | some .v5, .netflowOnly => (V5.decode data opts.exporter, cache)
    | some .v9, .any | some .v9, .netflowOnly =>
      V9.decode data opts.exporter opts.obsDomainOverride cache opts.nowMicros flowsOnly
    | some .v10, .any | some .v10, .ipfixOnly =>
      Ipfix.decode data opts.exporter opts.obsDomainOverride cache opts.nowMicros flowsOnly
    | some .sflow5, .any | some .sflow5, .sflowOnly =>
      (Sflow.decode data opts.exporter flowsOnly, cache)
    | some v, _ =>
      ([.diagnostic opts.exporter v.asStr 0 none none
        s!"decode-error:format-{v.asStr}-not-accepted-here"], cache)
    | none, _ =>
      ([.diagnostic opts.exporter "" 0 none none "decode-error:not-a-flow-datagram"], cache)
  if (version = some .v9 ∨ version = some .v10) ∧ ¬ cache.pendingIsEmpty then
    let (retried, cache) := retryPending cache opts.nowMicros flowsOnly
    (out ++ retried, cache)
  else (out, cache)

end Netflow
