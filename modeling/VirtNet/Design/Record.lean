import VirtNet.Design.Basic

/-!
# Registries as written designs

How a registry is written down as a design: a mapping with a list of devices and a list of connections,
each of them a mapping with the fields that a reading looks for. A field without a value is left out.
-/

namespace VirtNet.Design

/-- A field with a text, left out if there is none. -/
def optionalField (key : String) (text : Option String) : List (String × Value) :=
  match text with
  | some s => [(key, .text s)]
  | none => []

/-- The interface addresses of a device as a mapping. -/
def interfacesRecord (m : OrderedMap String) : Value :=
  .record (m.entries.map fun (k, ip) => (k, .text ip))

/-- The field with the interface addresses of a device. An empty one is left out unless `empties`. -/
def interfacesField (empties : Bool) (m : OrderedMap String) : List (String × Value) :=
  if m.entries.isEmpty && !empties then [] else [("interface_ips", interfacesRecord m)]

/-- The fields of a device. -/
def deviceFields (empties : Bool) (d : Device) : List (String × Value) :=
  [("id", .text d.id)] ++ optionalField "type" d.type.word? ++ optionalField "cpu" d.cpu ++
    optionalField "memory" d.memory ++ optionalField "storage" d.storage ++ optionalField "ip" d.ip ++
    interfacesField empties d.interfaceIps

/-- The fields of a connection. -/
def connectionFields (c : Connection) : List (String × Value) :=
  [("from", .text c.source), ("to", .text c.target)] ++ optionalField "from_router_ip" c.sourceIp ++
    optionalField "to_router_ip" c.targetIp ++ optionalField "speed" c.speed

/-- The two lists of a design. -/
def fields (empties : Bool) (r : Registry) : List (String × Value) :=
  [("devices", .list (r.devices.map fun d => .record (deviceFields empties d))),
    ("connections", .list (r.connections.map fun c => .record (connectionFields c)))]

/-- A registry as a design; `empties` says whether empty interface addresses are written down. -/
def record (empties : Bool) (r : Registry) : Value := .record (fields empties r)

end VirtNet.Design
