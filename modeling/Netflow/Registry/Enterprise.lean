import Netflow.Registry.IanaIe

/-!
# Enterprise-scoped Information Elements

The bundled vendor tables, keyed by Private Enterprise Number, and the combined lookup
that honours the enterprise number of a field specifier.
-/

namespace Netflow

namespace Enterprise

/-- The VMware Private Enterprise Number. -/
def penVmware : UInt32 := 6876

/-- The Nokia Private Enterprise Number. -/
def penNokia : UInt32 := 637

/-- The bundled VMware NSX / vSphere elements. -/
def vmware : List IeDef := [
  ⟨880, "vmware.tenantProtocol", .unsigned8⟩,
  ⟨881, "vmware.tenantSourceIPv4", .ipv4Address⟩,
  ⟨882, "vmware.tenantDestIPv4", .ipv4Address⟩,
  ⟨883, "vmware.tenantSourceIPv6", .ipv6Address⟩,
  ⟨884, "vmware.tenantDestIPv6", .ipv6Address⟩,
  ⟨886, "vmware.tenantSourcePort", .unsigned16⟩,
  ⟨888, "vmware.tenantDestPort", .unsigned16⟩,
  ⟨890, "vmware.virtualObsID", .string⟩]

/-- The bundled Nokia elements. -/
def nokia : List IeDef := [
  ⟨91, "nokia.applicationId", .unsigned32⟩,
  ⟨92, "nokia.applicationName", .string⟩]

/-- Look up an enterprise element, its id with the enterprise bit already cleared. -/
def lookup (pen : UInt32) (id : UInt16) : Option IeDef :=
  if pen = penVmware then vmware.find? (·.id = id)
  else if pen = penNokia then nokia.find? (·.id = id)
  else none

end Enterprise

/-- Resolve an element by enterprise number (`0` for a standard one) and id. -/
def resolve (enterpriseNumber : UInt32) (id : UInt16) : Option IeDef :=
  if enterpriseNumber = 0 then Iana.lookup id else Enterprise.lookup enterpriseNumber id

end Netflow
