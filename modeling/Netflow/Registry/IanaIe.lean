import Mathlib.Init

/-!
# The standard Information Element registry

A curated snapshot of the IANA IPFIX registry: the NetFlow v9 field types share its id
space, so one table serves both decoders. The table is in ascending id order.
-/

namespace Netflow

/-- The abstract data type of an Information Element. -/
inductive IeType
  | unsigned8 | unsigned16 | unsigned32 | unsigned64 | signed32 | signed64 | float64 | boolean
  | macAddress | ipv4Address | ipv6Address | dateTimeSeconds | dateTimeMilliseconds
  | dateTimeMicroseconds | dateTimeNanoseconds | string | octetArray
  deriving DecidableEq, Repr, Inhabited

/-- A single registry row. -/
structure IeDef where
  id : UInt16
  name : String
  ty : IeType
  deriving DecidableEq, Repr

namespace Iana

/-- The bundled standard elements. -/
def registry : List IeDef := [
  ⟨1, "octetDeltaCount", .unsigned64⟩,
  ⟨2, "packetDeltaCount", .unsigned64⟩,
  ⟨3, "deltaFlowCount", .unsigned64⟩,
  ⟨4, "protocolIdentifier", .unsigned8⟩,
  ⟨5, "ipClassOfService", .unsigned8⟩,
  ⟨6, "tcpControlBits", .unsigned16⟩,
  ⟨7, "sourceTransportPort", .unsigned16⟩,
  ⟨8, "sourceIPv4Address", .ipv4Address⟩,
  ⟨9, "sourceIPv4PrefixLength", .unsigned8⟩,
  ⟨10, "ingressInterface", .unsigned32⟩,
  ⟨11, "destinationTransportPort", .unsigned16⟩,
  ⟨12, "destinationIPv4Address", .ipv4Address⟩,
  ⟨13, "destinationIPv4PrefixLength", .unsigned8⟩,
  ⟨14, "egressInterface", .unsigned32⟩,
  ⟨15, "ipNextHopIPv4Address", .ipv4Address⟩,
  ⟨16, "bgpSourceAsNumber", .unsigned32⟩,
  ⟨17, "bgpDestinationAsNumber", .unsigned32⟩,
  ⟨18, "bgpNextHopIPv4Address", .ipv4Address⟩,
  ⟨21, "flowEndSysUpTime", .unsigned32⟩,
  ⟨22, "flowStartSysUpTime", .unsigned32⟩,
  ⟨23, "postOctetDeltaCount", .unsigned64⟩,
  ⟨24, "postPacketDeltaCount", .unsigned64⟩,
  ⟨27, "sourceIPv6Address", .ipv6Address⟩,
  ⟨28, "destinationIPv6Address", .ipv6Address⟩,
  ⟨29, "sourceIPv6PrefixLength", .unsigned8⟩,
  ⟨30, "destinationIPv6PrefixLength", .unsigned8⟩,
  ⟨31, "flowLabelIPv6", .unsigned32⟩,
  ⟨32, "icmpTypeCodeIPv4", .unsigned16⟩,
  ⟨33, "igmpType", .unsigned8⟩,
  ⟨34, "samplingInterval", .unsigned32⟩,
  ⟨35, "samplingAlgorithm", .unsigned8⟩,
  ⟨36, "flowActiveTimeout", .unsigned16⟩,
  ⟨37, "flowIdleTimeout", .unsigned16⟩,
  ⟨40, "exportedOctetTotalCount", .unsigned64⟩,
  ⟨41, "exportedMessageTotalCount", .unsigned64⟩,
  ⟨42, "exportedFlowRecordTotalCount", .unsigned64⟩,
  ⟨52, "minimumTTL", .unsigned8⟩,
  ⟨53, "maximumTTL", .unsigned8⟩,
  ⟨56, "sourceMacAddress", .macAddress⟩,
  ⟨57, "postDestinationMacAddress", .macAddress⟩,
  ⟨58, "vlanId", .unsigned16⟩,
  ⟨59, "postVlanId", .unsigned16⟩,
  ⟨60, "ipVersion", .unsigned8⟩,
  ⟨61, "flowDirection", .unsigned8⟩,
  ⟨62, "ipNextHopIPv6Address", .ipv6Address⟩,
  ⟨63, "bgpNextHopIPv6Address", .ipv6Address⟩,
  ⟨70, "mplsTopLabelStackSection", .octetArray⟩,
  ⟨80, "destinationMacAddress", .macAddress⟩,
  ⟨81, "postSourceMacAddress", .macAddress⟩,
  ⟨82, "interfaceName", .string⟩,
  ⟨83, "interfaceDescription", .string⟩,
  ⟨85, "octetTotalCount", .unsigned64⟩,
  ⟨86, "packetTotalCount", .unsigned64⟩,
  ⟨88, "fragmentOffset", .unsigned16⟩,
  ⟨89, "forwardingStatus", .unsigned8⟩,
  ⟨128, "bgpNextAdjacentAsNumber", .unsigned32⟩,
  ⟨129, "bgpPrevAdjacentAsNumber", .unsigned32⟩,
  ⟨130, "exporterIPv4Address", .ipv4Address⟩,
  ⟨131, "exporterIPv6Address", .ipv6Address⟩,
  ⟨136, "flowEndReason", .unsigned8⟩,
  ⟨139, "icmpTypeCodeIPv6", .unsigned16⟩,
  ⟨144, "exportingProcessId", .unsigned32⟩,
  ⟨145, "templateId", .unsigned16⟩,
  ⟨148, "flowId", .unsigned64⟩,
  ⟨150, "flowStartSeconds", .dateTimeSeconds⟩,
  ⟨151, "flowEndSeconds", .dateTimeSeconds⟩,
  ⟨152, "flowStartMilliseconds", .dateTimeMilliseconds⟩,
  ⟨153, "flowEndMilliseconds", .dateTimeMilliseconds⟩,
  ⟨154, "flowStartMicroseconds", .dateTimeMicroseconds⟩,
  ⟨155, "flowEndMicroseconds", .dateTimeMicroseconds⟩,
  ⟨156, "flowStartNanoseconds", .dateTimeNanoseconds⟩,
  ⟨157, "flowEndNanoseconds", .dateTimeNanoseconds⟩,
  ⟨160, "systemInitTimeMilliseconds", .dateTimeMilliseconds⟩,
  ⟨161, "flowDurationMilliseconds", .unsigned32⟩,
  ⟨176, "icmpTypeIPv4", .unsigned8⟩,
  ⟨177, "icmpCodeIPv4", .unsigned8⟩,
  ⟨178, "icmpTypeIPv6", .unsigned8⟩,
  ⟨179, "icmpCodeIPv6", .unsigned8⟩,
  ⟨180, "udpSourcePort", .unsigned16⟩,
  ⟨181, "udpDestinationPort", .unsigned16⟩,
  ⟨182, "tcpSourcePort", .unsigned16⟩,
  ⟨183, "tcpDestinationPort", .unsigned16⟩,
  ⟨184, "tcpSequenceNumber", .unsigned32⟩,
  ⟨185, "tcpAcknowledgementNumber", .unsigned32⟩,
  ⟨186, "tcpWindowSize", .unsigned16⟩,
  ⟨187, "tcpUrgentPointer", .unsigned16⟩,
  ⟨189, "ipHeaderLength", .unsigned8⟩,
  ⟨192, "ipTTL", .unsigned8⟩,
  ⟨195, "ipDiffServCodePoint", .unsigned8⟩,
  ⟨205, "udpMessageLength", .unsigned16⟩,
  ⟨206, "isMulticast", .unsigned8⟩,
  ⟨224, "ipTotalLength", .unsigned64⟩,
  ⟨225, "postNATSourceIPv4Address", .ipv4Address⟩,
  ⟨226, "postNATDestinationIPv4Address", .ipv4Address⟩,
  ⟨227, "postNAPTSourceTransportPort", .unsigned16⟩,
  ⟨228, "postNAPTDestinationTransportPort", .unsigned16⟩,
  ⟨230, "natEvent", .unsigned8⟩,
  ⟨233, "firewallEvent", .unsigned8⟩,
  ⟨234, "ingressVRFID", .unsigned32⟩,
  ⟨235, "egressVRFID", .unsigned32⟩,
  ⟨243, "dot1qVlanId", .unsigned16⟩,
  ⟨244, "dot1qPriority", .unsigned8⟩,
  ⟨245, "dot1qCustomerVlanId", .unsigned16⟩,
  ⟨256, "ethernetType", .unsigned16⟩,
  ⟨277, "observationPointId", .unsigned64⟩,
  ⟨300, "observationDomainName", .string⟩,
  ⟨302, "selectorId", .unsigned64⟩,
  ⟨305, "samplingPacketInterval", .unsigned32⟩,
  ⟨306, "samplingPacketSpace", .unsigned32⟩,
  ⟨309, "samplingSize", .unsigned32⟩,
  ⟨318, "selectorIdTotalFlowsObserved", .unsigned64⟩,
  ⟨322, "observationTimeSeconds", .dateTimeSeconds⟩,
  ⟨323, "observationTimeMilliseconds", .dateTimeMilliseconds⟩,
  ⟨324, "observationTimeMicroseconds", .dateTimeMicroseconds⟩,
  ⟨325, "observationTimeNanoseconds", .dateTimeNanoseconds⟩,
  ⟨351, "layer2OctetDeltaCount", .unsigned64⟩,
  ⟨352, "layer2OctetTotalCount", .unsigned64⟩]

/-- Look up a standard Information Element by id. -/
def lookup (id : UInt16) : Option IeDef := registry.find? (·.id = id)

end Iana

end Netflow
