import Netflow.Decode

/-!
# Runs of datagrams

A scan is a sequence of decode calls on one cache, ended by one flush. The runs here keep
the rows of each call apart, so that a result can speak about a single step.
-/

namespace Netflow

/-- The arguments of one decode call. -/
structure Call where
  data : Bytes
  opts : DecodeOptions
  restrict : Restrict
  deriving DecidableEq, Repr

/-- A call on the given bytes with every option at its default. -/
def Call.of (data : Bytes) (exporter : String) : Call := ⟨data, { exporter }, .any⟩

/-- A NetFlow v9 header of a concrete run: source id 7, no uptime, sequence 1. -/
def sampleHeader : Bytes := [0, 9, 0, 1, 0, 0, 0, 0, 0, 0, 0, 5, 0, 0, 0, 1, 0, 0, 0, 7]

/-- A datagram whose only FlowSet defines template 256 as one source address. -/
def sampleTemplate : Bytes := sampleHeader ++ [0, 0, 0, 12, 1, 0, 0, 1, 0, 8, 0, 4]

/-- A datagram whose only FlowSet holds one record of template 256. -/
def sampleData : Bytes := sampleHeader ++ [1, 0, 0, 8, 10, 0, 0, 1]

/-- Decode the datagram of one call. -/
def Call.decode (call : Call) (cache : TemplateCache) : List FlowRecord × TemplateCache :=
  decodeDatagram call.data call.opts cache call.restrict

/-- Decode a sequence of datagrams on one cache, keeping the rows of each call. -/
def runCalls : List Call → TemplateCache → List (List FlowRecord) × TemplateCache
  | [], cache => ([], cache)
  | call :: calls, cache =>
    let (rows, cache) := call.decode cache
    let (rest, cache) := runCalls calls cache
    (rows :: rest, cache)

/-- All rows of a scan: those of every call, then those of the final flush. -/
def scanRows (calls : List Call) (cache : TemplateCache) : List FlowRecord :=
  let (rows, cache) := runCalls calls cache
  rows.flatten ++ (flushPending cache).1

/-- The first call runs before the others. -/
theorem runCalls_cons (call : Call) (calls : List Call) (cache : TemplateCache) :
    runCalls (call :: calls) cache =
      ((call.decode cache).1 :: (runCalls calls (call.decode cache).2).1,
        (runCalls calls (call.decode cache).2).2) := rfl

/-- Running two sequences in a row runs the second on the cache the first leaves. -/
theorem runCalls_append (first second : List Call) (cache : TemplateCache) :
    runCalls (first ++ second) cache =
      ((runCalls first cache).1 ++ (runCalls second (runCalls first cache).2).1,
        (runCalls second (runCalls first cache).2).2) := by
  induction first generalizing cache with
  | nil => rfl
  | cons call calls ih => simp only [List.cons_append, runCalls_cons, ih]

end Netflow
