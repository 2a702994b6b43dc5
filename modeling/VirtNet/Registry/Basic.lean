import VirtNet.Address
import VirtNet.Journal
import VirtNet.Registry.Error
import VirtNet.Value.Text

/-!
# Registries

A registry holds the devices and the connections of a design in the order in which they came, and
checks every record before it takes it in. A record is first drafted, with its fields as they were
written; `accept` and `link` say which drafts are taken in and as what. A refused draft changes nothing.
-/

namespace VirtNet

/-- The text of a value without the blanks around it; null and blank texts have none. -/
def Value.cleaned? : Value → Option String
  | .null => none
  | v =>
    let s := Text.strip v.toText
    if s.isEmpty then none else some s

/-- A device as it was written down. -/
structure Device.Draft where
  id : Value
  type : Value
  cpu : Value := .null
  memory : Value := .null
  storage : Value := .null
  ip : Value := .null
  /-- A mapping from interface keys to addresses. -/
  interfaceIps : Value := .null

/-- A connection as it was written down. -/
structure Connection.Draft where
  source : String
  target : String
  speed : Value := .null
  /-- The address of the router at the from side. -/
  sourceIp : Value := .null
  /-- The address of the router at the to side. -/
  targetIp : Value := .null

/-- The devices and connections of a design. -/
structure Registry where
  devices : List Device
  connections : List Connection
deriving DecidableEq

namespace Registry

/-- The registry of an empty design. -/
def empty : Registry := ⟨[], []⟩

/-- The device with an id. -/
def device? (r : Registry) (id : String) : Option Device := r.devices.find? (·.id == id)

/-- The device with an id, an unknown id being an error. -/
def device (r : Registry) (id : String) : Except RegistryError Device :=
  match r.device? id with
  | some d => .ok d
  | none => .error (.deviceUnknown id)

/-! ## Devices -/

/-- The id of a drafted device. -/
def draftedId (v : Value) : Except RegistryError String :=
  match v.cleaned? with
  | some id => .ok id
  | none => .error .idMissing

/-- The type of a drafted device. -/
def draftedType (v : Value) : Except RegistryError DeviceType :=
  let type := DeviceType.ofWord v.toText
  if type.isKnown then .ok type
  else
    match v.toText? with
    | some word => .error (.typeUnsupported word)
    | none => .error .typeUnwritable

/-- The static address of a drafted device: an address that no device has. -/
def draftedAddress (r : Registry) (v : Value) : Except RegistryError (Option String) :=
  match v.cleaned? with
  | none => .ok none
  | some ip =>
    if Address.isValid ip then
      match r.devices.find? (·.ip == some ip) with
      | some owner => .error (.addressTaken ip owner.id)
      | none => .ok (some ip)
    else .error (.addressInvalid ip)

/-- Adds drafted interface addresses to a map, in their order. Blank ones are left out. -/
def addInterfaces (m : OrderedMap String) :
    List (Value × Value) → Except RegistryError (OrderedMap String)
  | [] => .ok m
  | (k, v) :: rest =>
    match v.cleaned? with
    | none => addInterfaces m rest
    | some ip =>
      if Address.isValid ip then addInterfaces (m.insert k.toText ip) rest
      else .error (.interfaceInvalid k.toText ip)

/-- The interface addresses of a drafted device. Those of a device that is no router are dropped. -/
def draftedInterfaces (type : DeviceType) (v : Value) : Except RegistryError (OrderedMap String) :=
  if type = .router ∧ v.truthy then
    match v with
    | .dict entries => addInterfaces .empty entries
    | _ => .error .interfacesUnnamed
  else .ok .empty

/-- The device that a draft becomes. -/
def accept (r : Registry) (d : Device.Draft) : Except RegistryError Device := do
  let id ← draftedId d.id
  let type ← draftedType d.type
  if (r.device? id).isSome then throw (.idTaken id)
  let ip ← r.draftedAddress d.ip
  let interfaceIps ← draftedInterfaces type d.interfaceIps
  return {
    id, type, ip, interfaceIps
    cpu := d.cpu.cleaned?
    memory := d.memory.cleaned?
    storage := d.storage.cleaned? }

/-- Takes a drafted device in. -/
def addDevice (r : Registry) (draft : Device.Draft) : Journal RegistryError (Registry × Device) := do
  let d ← Journal.ofExcept (r.accept draft)
  let type := d.type.word?.getD ""
  Journal.note .info .registry s!"Device created: {d.id} ({type})"
  return ({ r with devices := r.devices ++ [d] }, d)

/-! ## Connections -/

/-- The two devices that a drafted connection may join. -/
def draftedEnds (r : Registry) (d : Connection.Draft) : Except RegistryError (Device × Device) :=
  match r.device? d.source, r.device? d.target with
  | some source, some target =>
    if source.id = target.id then .error .selfConnection
    else if source.type = .vm ∧ target.type = .vm then .error .machinesConnected
    else if r.connections.any (·.joins d.source d.target) then .error .alreadyConnected
    else .ok (source, target)
  | _, _ => .error .endpointUnknown

/-- The bandwidth label of a drafted connection. -/
def draftedSpeed (v : Value) : Except RegistryError (Option String) :=
  match v.cleaned? with
  | none => .ok none
  | some label =>
    match Bandwidth.megabits label with
    | .ok _ => .ok (some label)
    | .error reason => .error (.speedInvalid reason)

/-- The address that a drafted connection gives to one of its ends. Only a router takes one. -/
def draftedEndAddress (d : Device) (v : Value) : Journal RegistryError (Option String) :=
  match v.cleaned? with
  | none => pure none
  | some ip =>
    if d.isRouter then
      if Address.isValid ip then pure (some ip) else throw (.routerAddressInvalid d.id ip)
    else do
      Journal.note .info .registry s!"Ignoring router IP {ip} for non-router {d.id}"
      return none

/-- The connection that a draft becomes. -/
def link (r : Registry) (d : Connection.Draft) : Journal RegistryError Connection := do
  let (source, target) ← Journal.ofExcept (r.draftedEnds d)
  let speed ← Journal.ofExcept (draftedSpeed d.speed)
  let sourceIp ← draftedEndAddress source d.sourceIp
  let targetIp ← draftedEndAddress target d.targetIp
  return { source := source.id, target := target.id, sourceIp, targetIp, speed }

/-- Sets a device's address towards a peer. -/
def setInterface (id peer ip : String) (d : Device) : Device :=
  if d.id = id then { d with interfaceIps := d.interfaceIps.insert (Device.interfaceKey peer) ip }
  else d

/-- Sets a device's address towards a peer, if there is one, and notes it. -/
def recordInterface (id peer : String) (ip : Option String) (ds : List Device) :
    Journal RegistryError (List Device) :=
  match ip with
  | none => pure ds
  | some ip => do
    Journal.note .info .registry s!"Router {id} interface to {peer}: {ip}"
    return ds.map (setInterface id peer ip)

/-- Takes a drafted connection in. The addresses of its routers become interface addresses. -/
def addConnection (r : Registry) (draft : Connection.Draft) :
    Journal RegistryError (Registry × Connection) := do
  let c ← r.link draft
  let devices ← recordInterface c.source c.target c.sourceIp r.devices
  let devices ← recordInterface c.target c.source c.targetIp devices
  Journal.note .info .registry s!"Connection created: {c.key}"
  return (⟨devices, r.connections ++ [c]⟩, c)

/-! ## Removal -/

/-- Whether a connection has a device at one of its ends. -/
def touches (id : String) (c : Connection) : Bool := c.source == id || c.target == id

/-- Removes a device's address towards a peer. -/
def dropInterface (peer : String) (d : Device) : Device :=
  { d with interfaceIps := d.interfaceIps.erase (Device.interfaceKey peer) }

/-- The registry without a device, its connections, and the addresses towards it. -/
def without (r : Registry) (id : String) : Registry where
  devices := (r.devices.filter (·.id != id)).map (dropInterface id)
  connections := r.connections.filter fun c => !touches id c

/-- Removes a device; says how many devices and how many connections went. -/
def deleteDevice {ε : Type} (r : Registry) (id : String) : Journal ε (Registry × Nat × Nat) := do
  let rest := r.without id
  let devices := r.devices.length - rest.devices.length
  let connections := r.connections.length - rest.connections.length
  Journal.note .info .registry s!"Deleted {devices} device(s), {connections} connection(s) for {id}"
  return (rest, devices, connections)

end Registry

end VirtNet
