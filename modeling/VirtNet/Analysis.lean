import VirtNet.Segment
import VirtNet.Value.Text

/-!
# Analysis of a design

An analysis divides a design into segments and lists, for every device, the segments it is on. There
are three ways to divide: one segment per connection, one segment for everything, and one segment per
type of device with the routers on all of them.
-/

namespace VirtNet

/-- A way to divide a design into segments. -/
inductive NetworkMode
  /-- One segment per connection. -/
  | connection
  /-- One segment for all devices. -/
  | shared
  /-- One segment per type of device; routers join every segment. -/
  | deviceType
deriving DecidableEq, Repr

namespace NetworkMode

/-- The modes with their names. -/
def table : List (String × NetworkMode) :=
  [("connection", connection), ("shared", shared), ("device-type", deviceType)]

/-- The names of the modes. -/
def names : List String := table.map Prod.fst

/-- The mode that a setting names. -/
def ofValue : Value → Except AnalysisError NetworkMode
  | .text s =>
    match table.lookup s with
    | some mode => .ok mode
    | none => .error (.unknownMode s)
  | v =>
    if v.isKey then
      match v.toText? with
      | some s => .error (.unknownMode s)
      | none => .error .modeUnwritable
    else .error .modeIsCollection

end NetworkMode

/-- The report of an analysis that failed; a mode that is a collection or has no text has none. -/
def AnalysisError.message? : AnalysisError → Option String
  | subnetMismatch label subnet found => some (mismatchText label subnet found)
  | unknownMode mode =>
    some (s!"Unknown network mode '{mode}'. Available modes: " ++ Text.joinWith ", " NetworkMode.names)
  | modeUnwritable | modeIsCollection => none

/-- The segments of a design and the segments of each device. -/
structure Analysis where
  /-- The segments by name. -/
  segments : OrderedMap Segment
  /-- The names of each device's segments, by device id. -/
  networks : OrderedMap (List String)
deriving DecidableEq

namespace Analysis

/-- The analysis of an empty design. -/
def empty : Analysis := ⟨.empty, .empty⟩

/-- The analysis in which every device is known and on no segment. -/
def start (devices : List Device) : Analysis :=
  ⟨.empty, .ofList (devices.map fun d => (d.id, []))⟩

/-- Adds a segment under its name. -/
def addSegment (a : Analysis) (s : Segment) : Analysis :=
  { a with segments := a.segments.insert s.name s }

/-- Puts a device on a further segment. -/
def attach (name : String) (a : Analysis) (id : String) : Analysis :=
  { a with networks := a.networks.modify id (· ++ [name]) }

/-- The device with an id; of several the last. -/
def deviceOf? (devices : List Device) (id : String) : Option Device :=
  devices.reverse.find? (·.id == id)

/-- The note on a segment of a finished analysis. -/
def segmentNote (name : String) (s : Segment) : Note :=
  let members := Text.joinWith " <-> " s.members
  let source := s.detectedFrom.getD "auto"
  ⟨.debug, .analysis, some s!"  {name}: {s.subnet} ({members}) [detected from: {source}]"⟩

/-- The note on a device of a finished analysis. -/
def deviceNote (id : String) (names : List String) : Note :=
  let list := Text.joinWith ", " names
  ⟨.debug, .analysis, some s!"  {id}: {names.length} network(s) {list}"⟩

/-- The notes on a finished analysis. -/
def notes (a : Analysis) : List Note :=
  ⟨.info, .analysis, some s!"Network segments: {a.segments.entries.length}"⟩ ::
    a.segments.entries.map (fun e => segmentNote e.1 e.2) ++
    a.networks.entries.map fun e => deviceNote e.1 e.2

/-- A finished analysis with its notes. -/
def logged (a : Analysis) : Journal AnalysisError Analysis := ⟨a.notes, .ok a⟩

/-- How far the analysis by connections has come. -/
structure LinkState where
  /-- The number of the next segment. -/
  next : Nat
  /-- The keys of the connections that have a segment, in both directions. -/
  seen : List String
  analysis : Analysis

/-- Gives a connection its segment, unless it has one already or an end of it is unknown. -/
def addLink (strict : Bool) (devices : List Device) (st : LinkState) (c : Connection) :
    Journal AnalysisError LinkState := do
  if st.seen.contains c.key || st.seen.contains c.reverseKey then return st
  match deviceOf? devices c.source, deviceOf? devices c.target with
  | some source, some target =>
    let s ← Segment.derive strict st.next [c.source, c.target]
      [c.sourceIp, c.targetIp, source.ip, target.ip] (some c)
    return {
      next := st.next + 1
      seen := c.key :: c.reverseKey :: st.seen
      analysis := ((st.analysis.addSegment s).attach s.name c.source).attach s.name c.target }
  | _, _ =>
    Journal.note .warning .analysis s!"Skipping connection {c.key} with unknown endpoint"
    return st

/-- One segment per connection, in the order of the connections. -/
def byConnection (strict : Bool) (devices : List Device) (connections : List Connection) :
    Journal AnalysisError Analysis := do
  let st ← connections.foldlM (addLink strict devices) ⟨1, [], start devices⟩
  logged st.analysis

/-- One segment for all devices. The connections' addresses come before the devices' as candidates. -/
def shared (strict : Bool) (devices : List Device) (connections : List Connection) :
    Journal AnalysisError Analysis := do
  if devices.isEmpty then return empty
  let candidates :=
    connections.flatMap (fun c => [c.sourceIp, c.targetIp]) ++ devices.map Device.ip
  let ids := devices.map Device.id
  let s ← Segment.derive strict 1 ids candidates none
  logged ⟨.ofList [(s.name, s)], .ofList (ids.map fun id => (id, [s.name]))⟩

/-- The types of the devices, each where it first occurs. -/
def typesOf : List Device → List DeviceType
  | [] => []
  | d :: rest => d.type :: (typesOf rest).filter (· ≠ d.type)

/-- The devices of a type. Words that name no type are not taken to mean the same, so such a word
stands for its first device alone. -/
def ofType (devices : List Device) (type : DeviceType) : List Device :=
  match type with
  | .other _ => (devices.find? (·.type == type)).toList
  | _ => devices.filter (·.type == type)

/-- Devices in the order of the design, equal devices together at the place of the first. -/
def inDesignOrder (devices members : List Device) : List Device :=
  let placed := members.map fun d => (devices.findIdx d.same, d)
  (placed.mergeSort fun a b => a.1 ≤ b.1).map Prod.snd

/-- Gives a type of device its segment. -/
def addType (strict : Bool) (devices : List Device) (st : Nat × Analysis) (type : DeviceType) :
    Journal AnalysisError (Nat × Analysis) := do
  let own := ofType devices type
  let members := if type = .router then own else devices.filter Device.isRouter ++ own
  let ids := (inDesignOrder devices members).map Device.id
  let s ← Segment.derive strict st.1 ids (own.map Device.ip) none
  return (st.1 + 1, ids.foldl (attach s.name) (st.2.addSegment s))

/-- One segment per type of device. -/
def byDeviceType (strict : Bool) (devices : List Device) : Journal AnalysisError Analysis := do
  let st ← (typesOf devices).foldlM (addType strict devices) (1, start devices)
  logged st.2

/-- The analysis of a design in a given mode. -/
def inMode (mode : NetworkMode) (strict : Bool) (devices : List Device)
    (connections : List Connection) : Journal AnalysisError Analysis :=
  match mode with
  | .connection => byConnection strict devices connections
  | .shared => shared strict devices connections
  | .deviceType => byDeviceType strict devices

/-- The analysis of a design in the mode that a setting names. -/
def analyze (mode : Value) (strict : Bool) (devices : List Device) (connections : List Connection) :
    Journal AnalysisError Analysis := do
  let mode ← Journal.ofExcept (NetworkMode.ofValue mode)
  inMode mode strict devices connections

end Analysis

end VirtNet
