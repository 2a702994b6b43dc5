import VirtNet.OrderedMap

/-!
# Devices and connections

The records a design is made of: devices of three types and the connections between them.
-/

namespace VirtNet

/-- The type of a device. -/
inductive DeviceType
  | vm
  | router
  | switch
  /-- A word that names none of the types. -/
  | other (word : String)
deriving DecidableEq, Repr

namespace DeviceType

/-- The words for the three types, in the order in which they are offered. -/
def words : List String := ["vm", "router", "switch"]

/-- The type that a word names. -/
def ofWord (word : String) : DeviceType :=
  if word = "vm" then vm
  else if word = "router" then router
  else if word = "switch" then switch
  else other word

/-- The word for one of the three types. -/
def word? : DeviceType → Option String
  | vm => some "vm"
  | router => some "router"
  | switch => some "switch"
  | other _ => none

/-- Whether this is one of the three types. -/
def isKnown (t : DeviceType) : Bool := t.word?.isSome

end DeviceType

/-- A node of a network design. -/
structure Device where
  id : String
  type : DeviceType
  /-- A description of the processor, such as `2 cores`. -/
  cpu : Option String
  /-- A memory size, such as `4GB`. -/
  memory : Option String
  /-- A disk size, such as `20GB`. -/
  storage : Option String
  /-- A static address. -/
  ip : Option String
  /-- A router's own address towards each peer, under `to_` and the peer's id. -/
  interfaceIps : OrderedMap String
deriving DecidableEq

namespace Device

/-- Whether the device forwards traffic. -/
def isRouter (d : Device) : Bool := d.type == .router

/-- The key of a router's interface towards a peer. -/
def interfaceKey (peer : String) : String := "to_" ++ peer

/-- Equality that ignores the order of the interface addresses. -/
def same (d e : Device) : Bool :=
  d.id == e.id && d.type == e.type && d.cpu == e.cpu && d.memory == e.memory &&
    d.storage == e.storage && d.ip == e.ip && d.interfaceIps.sameEntries e.interfaceIps

end Device

/-- A link between two devices. -/
structure Connection where
  /-- The id of the device at the from side. -/
  source : String
  /-- The id of the device at the to side. -/
  target : String
  /-- The address of the router at the from side. -/
  sourceIp : Option String
  /-- The address of the router at the to side. -/
  targetIp : Option String
  /-- A bandwidth label, such as `1Gbps`. -/
  speed : Option String
deriving DecidableEq, Repr

namespace Connection

/-- The two ids with a hyphen between them. -/
def key (c : Connection) : String := c.source ++ "-" ++ c.target

/-- The key of the same link seen from the other side. -/
def reverseKey (c : Connection) : String := c.target ++ "-" ++ c.source

/-- Whether the link joins two given devices, in either direction. -/
def joins (c : Connection) (a b : String) : Bool :=
  (c.source == a && c.target == b) || (c.source == b && c.target == a)

/-- The device at the other end. -/
def peerOf (c : Connection) (id : String) : String := if id = c.source then c.target else c.source

end Connection

end VirtNet
