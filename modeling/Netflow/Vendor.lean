import Netflow.Decode.RecordPlaces
import Netflow.Interfaces

/-!
# Vendor structures in sFlow

A type word is an enterprise in its high twenty bits and a format in its low twelve. The decoder
looks at the format alone, so a structure of some vendor is taken for the standard one of the same
format: a sample yields a row, and a record sets the columns of the row of its flow sample, where
the last record that sets a column decides.
-/

namespace Netflow.Sflow

section Definitions

/-- Whether the enterprise of a type word is another than the standard one. -/
def isVendor (typeWord : UInt32) : Bool := typeWord >>> 12 != 0

/-- The samples or records of the standard enterprise. -/
def standard (bodies : List (UInt32 × Bytes)) : List (UInt32 × Bytes) := bodies.filter fun s => !isVendor s.1

/-- The rows of a sample under a header. -/
def Header.rows (hdr : Header) (exporter : String) (flowsOnly : Bool) (s : UInt32 × Bytes) : List FlowRecord :=
  decodeSample s.1 s.2 (exporterId exporter hdr) hdr.subAgentId hdr.sequence.toUInt64 flowsOnly

end Definitions

section Lists

variable {A B : Type}

end Lists

section Samples

variable (exporterId : String) (subAgentId : UInt32) (sequence : UInt64) (flowsOnly : Bool)

end Samples

section Records

variable (hdr : Header) (exporter : String) (flowsOnly : Bool)

end Records

section Datagrams

variable {data : Bytes} {hdr : Header} {c : Cursor}

/-- The header that is read of a datagram of some samples. -/
def sampleHeader (numSamples : UInt32) : Header := ⟨sampleWireHeader.agent.text, 0, 7, numSamples⟩

end Datagrams

end Netflow.Sflow
