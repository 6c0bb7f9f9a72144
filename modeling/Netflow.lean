import Netflow.Agents
import Netflow.Amplification
import Netflow.Cache.Json
import Netflow.CommonFormat
import Netflow.CutHeader
import Netflow.Exporters
import Netflow.Flush
import Netflow.HeaderReaders
import Netflow.InForce
import Netflow.InetOrder
import Netflow.Lossless
import Netflow.MessageLength
import Netflow.Modes
import Netflow.Names
import Netflow.Order
import Netflow.Overflow
import Netflow.Padding
import Netflow.PendingBound
import Netflow.Priority
import Netflow.Provenance
import Netflow.RawFields
import Netflow.ReducedSize
import Netflow.Rejection
import Netflow.SetFraming
import Netflow.Statistics
import Netflow.Streams
import Netflow.Survival
import Netflow.Triage
import Netflow.Truncation
import Netflow.Unmapped
import Netflow.Uptime
import Netflow.V5Template
import Netflow.Validation
import Netflow.Vendor
import Netflow.Withdrawal
import Netflow.Worker.Executions
import Netflow.Worker.Interleaving
import Netflow.Worker.Probes
import Netflow.Worker.Relation
import Netflow.Worker.Restricted
import Netflow.Worker.Templates
