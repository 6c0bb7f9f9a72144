import Netflow.Trace

/-!
# Flows-only is an output filter

The trace of a call never looks at the mode. So the mode changes no cache, and flows-only
drops exactly the rows whose origin is a counter sample or a Data Set of an Options
template, in every call, in what a call releases from the buffer and in the flush.
-/

namespace Netflow

/-- The same call in another mode. -/
def Call.withMode (call : Call) (mode : Mode) : Call := { call with opts.mode := mode }

/-- Whether an origin is about traffic, not exporter metadata: it is no counter sample and no
Data Set of an Options template. -/
def Emission.isFlow : Emission → Bool
  | .row _ | .missing _ _ _ => true
  | .counterSample _ => false
  | .dataSet _ tpl _ => tpl.kind = .data

/-- The trace of a call does not depend on its mode. -/
theorem Call.trace_withMode (call : Call) (mode : Mode) (cache : TemplateCache) :
    (call.withMode mode).trace cache = call.trace cache := rfl

/-- The traces of a run do not depend on the modes of its calls. -/
theorem runTrace_withMode (calls : List Call) (mode : Mode) (cache : TemplateCache) :
    runTrace (calls.map (·.withMode mode)) cache = runTrace calls cache := by
  induction calls generalizing cache with
  | nil => rfl
  | cons call calls ih => simp only [List.map_cons, runTrace, Call.trace_withMode, ih]

/-- Flows-only keeps the rows of an origin about traffic and drops all others. -/
theorem Emission.rows_flowsOnly (e : Emission) : e.rows true = if e.isFlow then e.rows false else [] := by
  cases e with
  | row | missing | counterSample => rfl
  | dataSet key tpl rec => cases hkind : tpl.kind <;> simp [rows, isFlow, decodeDataSet, hkind]

/-- The flows-only rows of a trace are all its rows but those not about traffic. -/
theorem traceRows_flowsOnly (trace : List Emission) :
    traceRows true trace = traceRows false (trace.filter Emission.isFlow) := by
  induction trace with
  | nil => rfl
  | cons e trace ih =>
    rw [traceRows_cons, Emission.rows_flowsOnly, ih, List.filter_cons]
    cases e.isFlow <;> rfl

/-- The rows of a run whose calls all have one mode. -/
theorem runCalls_withMode (calls : List Call) (mode : Mode) (cache : TemplateCache) :
    runCalls (calls.map (·.withMode mode)) cache =
      ((runTrace calls cache).1.map (traceRows mode.isFlowsOnly), (runTrace calls cache).2) := by
  rw [runCalls_eq_trace, runTrace_withMode, Prod.mk.injEq]
  refine ⟨?_, rfl⟩
  induction calls generalizing cache with
  | nil => rfl
  | cons call calls ih =>
    simp only [runTrace, List.map_cons, List.zipWith_cons_cons, ih]
    rfl

/-- Run twice from one cache, once in the default mode and once in flows-only: after every step
the caches are identical, the default rows of a step are the rows of its trace, the flows-only
rows are those of the same trace without counter samples and Options Data Sets, and the flushes
agree. -/
theorem runCalls_flowsOnly (calls : List Call) (cache : TemplateCache) :
    let auto := calls.map (·.withMode .auto)
    let flows := calls.map (·.withMode .flowsOnly)
    (∀ steps, (runCalls (flows.take steps) cache).2 = (runCalls (auto.take steps) cache).2) ∧
    (runCalls auto cache).1 = (runTrace calls cache).1.map (traceRows false) ∧
    (runCalls flows cache).1 = (runTrace calls cache).1.map
      (fun trace => traceRows false (trace.filter Emission.isFlow)) ∧
    flushPending (runCalls flows cache).2 = flushPending (runCalls auto cache).2 := by
  refine ⟨fun steps => ?_, ?_, ?_, ?_⟩
  · rw [← List.map_take, ← List.map_take, runCalls_withMode, runCalls_withMode]
  · rw [runCalls_withMode]
    rfl
  · rw [runCalls_withMode]
    exact List.map_congr_left fun trace _ => traceRows_flowsOnly trace
  · rw [runCalls_withMode, runCalls_withMode]

end Netflow
