import Netflow.Run
import Netflow.Worker.State

/-!
# The table-in-out decoder

Each batch loads the scan cache, decodes its rows in order under one clock value and
stores the cache back; the end of the stream flushes what is still buffered.
-/

namespace Netflow

/-- A decode function: the formats it accepts and the input columns it honours. -/
structure FlowDecode where
  restrict : Restrict
  withMode : Bool
  withObsDomain : Bool
  deriving DecidableEq, Repr

/-- The `flows` function. -/
def FlowDecode.flows : FlowDecode := ⟨.any, true, true⟩

/-- A function restricted to one family of formats. -/
def FlowDecode.new (restrict : Restrict) : FlowDecode := ⟨restrict, false, restrict ≠ .sflowOnly⟩

/-- One input row: its cells, `none` where a cell is null or its column absent. -/
structure InputRow where
  datagram : Option Bytes
  exporter : Option String
  obsDomain : Option UInt32
  mode : Option String
  deriving DecidableEq, Repr

/-- The decode options of an input row under the batch's clock value. -/
def FlowDecode.options (f : FlowDecode) (now : Int64) (row : InputRow) : DecodeOptions :=
  { exporter := row.exporter.getD ""
    obsDomainOverride := if f.withObsDomain then row.obsDomain else none
    mode := if f.withMode then (row.mode.map Mode.parse).getD .auto else .auto
    nowMicros := now }

/-- The decode calls of a batch; a row without a datagram makes none. -/
def FlowDecode.calls (f : FlowDecode) (now : Int64) (rows : List InputRow) : List Call :=
  rows.filterMap fun row => row.datagram.map fun data => ⟨data, f.options now row, f.restrict⟩

variable {σ : Type} (w : Worker σ)

/-- Run the decode calls of one batch between a load and a store of the scan cache. -/
def Worker.processCalls (calls : List Call) (storage : Option σ) : List FlowRecord × Option σ :=
  let (rows, cache) := runCalls calls (w.loadScanCache storage)
  (rows.flatten, w.storeScanCache storage cache)

/-- Process one batch of input rows. -/
def Worker.process (f : FlowDecode) (now : Int64) (rows : List InputRow) (storage : Option σ) :
    List FlowRecord × Option σ :=
  w.processCalls (f.calls now rows) storage

/-- End of stream: flush what is still buffered. -/
def Worker.finish (storage : Option σ) : List FlowRecord × Option σ :=
  let (rows, cache) := flushPending (w.loadScanCache storage)
  (rows, w.storeScanCache storage cache)

/-- Process batches one after the other, concatenating their rows. -/
def Worker.processBatches : List (List Call) → Option σ → List FlowRecord × Option σ
  | [], storage => ([], storage)
  | calls :: batches, storage =>
    let (rows, storage) := w.processCalls calls storage
    let (rest, storage) := processBatches batches storage
    (rows ++ rest, storage)

end Netflow
