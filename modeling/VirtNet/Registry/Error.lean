import VirtNet.Bandwidth
import VirtNet.Device
import VirtNet.Text.Split

/-!
# Refusals of a registry

Why a registry refuses a device or a connection, and the report of each refusal.
-/

namespace VirtNet

/-- Why a registry refuses a record or knows nothing of it. -/
inductive RegistryError
  /-- A device has no id. -/
  | idMissing
  /-- A device's type is none of the three. -/
  | typeUnsupported (type : String)
  /-- A device's type is a number too long to be written. -/
  | typeUnwritable
  /-- A device's id is taken. -/
  | idTaken (id : String)
  /-- A device's static address is no address. -/
  | addressInvalid (ip : String)
  /-- A device's static address is that of another device. -/
  | addressTaken (ip owner : String)
  /-- The address of a router's interface is no address. -/
  | interfaceInvalid (key ip : String)
  /-- A router's interface addresses are not given by name. -/
  | interfacesUnnamed
  /-- No device has this id. -/
  | deviceUnknown (id : String)
  /-- An end of a connection is no device. -/
  | endpointUnknown
  /-- Both ends of a connection are the same device. -/
  | selfConnection
  /-- Both ends of a connection are virtual machines. -/
  | machinesConnected
  /-- The two devices are connected already. -/
  | alreadyConnected
  /-- The bandwidth of a connection cannot be read. -/
  | speedInvalid (reason : Bandwidth.LabelError)
  /-- The address of a connection's router is no address. -/
  | routerAddressInvalid (id ip : String)
deriving DecidableEq, Repr

namespace RegistryError

/-- The report of a refusal. Interface addresses without names, and a type without a
text, have none. -/
def message? : RegistryError → Option String
  | idMissing => some "Device id is required"
  | typeUnsupported type =>
    some (s!"Unsupported device type: {type}. Expected one of: " ++ Text.joinWith ", " DeviceType.words)
  | idTaken id => some s!"Device with ID {id} already exists"
  | addressInvalid ip => some s!"Invalid IP address format: {ip}"
  | addressTaken ip owner => some s!"IP address {ip} is already assigned to device {owner}"
  | interfaceInvalid key ip => some s!"Invalid interface IP format for {key}: {ip}"
  | typeUnwritable | interfacesUnnamed => none
  | deviceUnknown id => some s!"Device {id} not found"
  | endpointUnknown => some "One or both devices not found."
  | selfConnection => some "A device cannot be connected to itself."
  | machinesConnected => some "Connecting VM with VM is prohibited."
  | alreadyConnected => some "Connection already exists between these devices"
  | speedInvalid reason => some reason.message
  | routerAddressInvalid id ip => some s!"Invalid router interface IP for {id}: {ip}"

end RegistryError

end VirtNet
