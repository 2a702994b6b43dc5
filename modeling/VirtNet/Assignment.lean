import VirtNet.Analysis

/-!
# Assignment of addresses

Gives every device an address on each of its segments, and every segment a gateway. On a connection's
segment an explicit address wins over the defaults, and the automatic side of two equal addresses
moves up by one. On every other segment routers are numbered from 1 and hosts from 10, past the static
addresses. The errors other than exhaustion arise only where an analysis does not fit its design.
-/

namespace VirtNet

/-- The address of a device on one of its segments. -/
structure Assignment where
  deviceId : String
  /-- The name of the segment. -/
  network : String
  ip : String
  subnet : String
  gateway : String
  /-- The position of the segment among the device's segments. -/
  index : Int
  /-- Whether the address was given and not chosen here. -/
  isCustom : Bool
  /-- The key of the segment's connection. -/
  connectionId : Option String
deriving DecidableEq, Repr

/-- The name of the interface that carries the address. -/
def Assignment.interfaceName (a : Assignment) : String := s!"eth{a.index + 1}"

/-- Why addresses cannot be assigned. -/
inductive AssignmentError
  /-- A segment has no host number left. -/
  | exhausted (subnet name : String)
  /-- A segment has a member that is not in the design. -/
  | unknownDevice (id : String)
  /-- The analysis has no segments for a device. -/
  | noNetworks (id : String)
  /-- A member of a segment does not have it among its segments. -/
  | notAttached (id name : String)
  /-- A device is on a segment that the analysis does not have. -/
  | unknownSegment (name : String)
  /-- A device is on a segment that does not have it as a member. -/
  | notAMember (id name : String)
  /-- A device of none of the three types stands at an end of a connection. -/
  | unhandledType (type : DeviceType)
  /-- An address to move away from has no host number. -/
  | noHostNumber (error : Address.HostError)
deriving DecidableEq, Repr

/-- The report of a segment without host numbers. -/
def exhaustedText (subnet name : String) : String := s!"No host addresses left in {subnet} ({name})"

namespace Assignment

/-- The host number that routers start from. -/
def routerHost : Nat := 1

/-- The host number of a host at the other end of a router's connection. -/
def routedHost : Nat := 10

/-- The host number of a host at the other end of a host's connection. -/
def unroutedHost : Nat := 11

/-- The largest host number. -/
def maxHost : Nat := 254

/-- An address and whether it was given. -/
structure Resolved where
  ip : String
  isCustom : Bool
deriving DecidableEq, Repr

/-- An address chosen by its host number. -/
def Resolved.auto (s : Segment) (n : Int) : Resolved := ⟨Address.host s.base n, false⟩

/-- An address that is given and not empty. -/
def given? (ip : Option String) : Option String := ip.filter (!·.isEmpty)

/-- A router's address at a connection: the connection's, else the one stored for the peer, else the
first host. -/
def routerAddress (d : Device) (c : Connection) (s : Segment) : Resolved :=
  let own := if c.source = d.id then given? c.sourceIp else none
  let other := if c.target = d.id then given? c.targetIp else none
  let stored := given? (d.interfaceIps.get? (Device.interfaceKey (c.peerOf d.id)))
  match own.or (other.or stored) with
  | some ip => ⟨ip, true⟩
  | none => .auto s routerHost

/-- A host's address at a connection: its static one on its first segment, else by the kind of peer. -/
def hostAddress (d peer : Device) (s : Segment) (index : Nat) : Resolved :=
  match index, given? d.ip with
  | 0, some ip => ⟨ip, true⟩
  | _, _ => .auto s (if peer.isRouter then routedHost else unroutedHost)

/-- The address of a device at a connection. -/
def endpointAddress (d peer : Device) (c : Connection) (s : Segment) (index : Nat) :
    Except AssignmentError Resolved :=
  match d.type with
  | .router => .ok (routerAddress d c s)
  | .vm | .switch => .ok (hostAddress d peer s index)
  | .other word => .error (.unhandledType (.other word))

/-- The position of a segment among a device's segments. -/
def indexOf (a : Analysis) (id name : String) : Except AssignmentError Nat :=
  match a.networks.get? id with
  | none => .error (.noNetworks id)
  | some names =>
    match names.findIdx? (· == name) with
    | none => .error (.notAttached id name)
    | some i => .ok i

/-- A device of the design. -/
def device (devices : List Device) (id : String) : Except AssignmentError Device :=
  match Analysis.deviceOf? devices id with
  | some d => .ok d
  | none => .error (.unknownDevice id)

/-- The automatic address after a taken one. -/
def nextAfter (s : Segment) (taken : String) : Except AssignmentError Resolved :=
  match Address.hostNumber taken with
  | .error e => .error (.noHostNumber e)
  | .ok n =>
    if (maxHost : Int) < n + 1 then .error (.exhausted s.subnet s.name) else .ok (.auto s (n + 1))

/-- The addresses of the members of a segment, and its gateway. -/
structure SegmentAddresses where
  byDevice : OrderedMap Resolved
  gateway : String

/-- Moves the automatic side of two equal addresses up by one, the second side first. -/
def separate (s : Segment) (source target : Device) (a b : Resolved) :
    Journal AssignmentError (Resolved × Resolved) := do
  if a.ip ≠ b.ip then return (a, b)
  else if !b.isCustom then return (a, ← Journal.ofExcept (nextAfter s a.ip))
  else if !a.isCustom then return (← Journal.ofExcept (nextAfter s b.ip), b)
  else
    Journal.note .warning .assignment
      s!"Devices {source.id} and {target.id} both use {a.ip} on {s.name}"
    return (a, b)

/-- The addresses of the two ends of a connection's segment. -/
def onConnection (devices : List Device) (a : Analysis) (s : Segment) (c : Connection) :
    Journal AssignmentError SegmentAddresses := do
  let source ← Journal.ofExcept (device devices c.source)
  let target ← Journal.ofExcept (device devices c.target)
  let i ← Journal.ofExcept (indexOf a source.id s.name)
  let x ← Journal.ofExcept (endpointAddress source target c s i)
  let j ← Journal.ofExcept (indexOf a target.id s.name)
  let y ← Journal.ofExcept (endpointAddress target source c s j)
  let (x, y) ← separate s source target x y
  let gateway :=
    if source.isRouter then x.ip
    else if target.isRouter then y.ip
    else Address.host s.base routerHost
  return ⟨.ofList [(source.id, x), (target.id, y)], gateway⟩

/-- The static address of a host whose first segment this is. -/
def static? (devices : List Device) (a : Analysis) (s : Segment) (id : String) :
    Except AssignmentError (Option String) := do
  let d ← device devices id
  let i ← indexOf a id s.name
  return if !d.isRouter && i == 0 then given? d.ip else none

/-- The smallest free host number from `host` on; `fuel` bounds the numbers to try. -/
def freeHost? (base : String) (taken : List String) : (fuel host : Nat) → Option Nat
  | 0, _ => none
  | fuel + 1, host =>
    if taken.contains (Address.host base host) then freeHost? base taken fuel (host + 1)
    else some host

/-- How far the numbering of a segment has come. -/
structure Pool where
  byDevice : OrderedMap Resolved
  /-- The addresses in use. -/
  taken : List String
  /-- Where the search for a router's number starts. -/
  nextRouter : Nat
  /-- Where the search for a host's number starts. -/
  nextHost : Nat
  /-- The address of the first router. -/
  gateway : Option String

/-- The first free address from a host number on, with that number. -/
def allocate (s : Segment) (taken : List String) (host : Nat) :
    Except AssignmentError (Nat × String) :=
  match freeHost? s.base taken (maxHost + 1 - host) host with
  | some n => .ok (n, Address.host s.base n)
  | none => .error (.exhausted s.subnet s.name)

/-- Numbers a member, unless it has an address already. -/
def number (devices : List Device) (s : Segment) (p : Pool) (id : String) :
    Except AssignmentError Pool := do
  if (p.byDevice.get? id).isSome then return p
  let d ← device devices id
  if d.isRouter then
    let (n, ip) ← allocate s p.taken p.nextRouter
    return { p with
      byDevice := p.byDevice.insert id ⟨ip, false⟩
      taken := ip :: p.taken
      nextRouter := n + 1
      gateway := p.gateway.or (some ip) }
  else
    let (n, ip) ← allocate s p.taken p.nextHost
    return { p with
      byDevice := p.byDevice.insert id ⟨ip, false⟩
      taken := ip :: p.taken
      nextHost := n + 1 }

/-- Numbers the members of a segment in order, static addresses being reserved first. -/
def pooled (devices : List Device) (a : Analysis) (s : Segment) :
    Except AssignmentError SegmentAddresses := do
  let statics ← s.members.mapM fun id => return (id, ← static? devices a s id)
  let reserved := statics.filterMap fun (id, ip) => ip.map fun ip => (id, Resolved.mk ip true)
  let byDevice := OrderedMap.ofList reserved
  let taken := byDevice.values.map Resolved.ip
  let p ← s.members.foldlM (number devices s) ⟨byDevice, taken, routerHost, routedHost, none⟩
  return ⟨p.byDevice, p.gateway.getD (Address.host s.base routerHost)⟩

/-- The addresses of a segment. -/
def onSegment (devices : List Device) (a : Analysis) (s : Segment) :
    Journal AssignmentError SegmentAddresses :=
  match s.connection with
  | some c => onConnection devices a s c
  | none => Journal.ofExcept (pooled devices a s)

/-- The assignment of a device on the segment at position `index` of its list. -/
def assignOne (a : Analysis) (resolved : OrderedMap SegmentAddresses) (id : String)
    (index : Nat) (name : String) : Journal AssignmentError Assignment := do
  match a.segments.get? name, resolved.get? name with
  | some s, some addresses =>
    match addresses.byDevice.get? id with
    | some r =>
      let x : Assignment :=
        { deviceId := id, network := name, ip := r.ip, subnet := s.subnet
          gateway := addresses.gateway, index, isCustom := r.isCustom, connectionId := s.connectionId }
      let origin := if r.isCustom then "CUSTOM" else "AUTO"
      Journal.note .debug .assignment
        s!"{id} {x.interfaceName}: {r.ip} on {name} ({s.subnet}) [{origin}]"
      return x
    | none => throw (.notAMember id name)
  | _, _ => throw (.unknownSegment name)

/-- The assignments of a device on the segments `names`, the first at position `index`. -/
def assignFrom (a : Analysis) (resolved : OrderedMap SegmentAddresses) (id : String) :
    (index : Nat) → (names : List String) → Journal AssignmentError (List Assignment)
  | _, [] => return []
  | index, name :: rest => do
    let x ← assignOne a resolved id index name
    return x :: (← assignFrom a resolved id (index + 1) rest)

/-- The assignments of every device, by device id. -/
def assign (devices : List Device) (a : Analysis) :
    Journal AssignmentError (OrderedMap (List Assignment)) := do
  let resolved ← a.segments.entries.mapM fun (name, s) => return (name, ← onSegment devices a s)
  let assigned ← devices.mapM fun d => do
    let names := (a.networks.get? d.id).getD []
    return (d.id, ← assignFrom a (.ofList resolved) d.id 0 names)
  return .ofList assigned

end Assignment

end VirtNet
