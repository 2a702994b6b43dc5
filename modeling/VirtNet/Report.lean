import VirtNet.Export

/-!
# Reports

A report of a design for other programs: its devices with their addresses, its segments, and its
connections.
-/

namespace VirtNet.Report

/-- A text that may be absent. -/
def optional (s : Option String) : Value := s.elim .null .text

/-- An assignment in a report. -/
def ofAssignment (a : Assignment) : Value :=
  .record [
    ("network", .text a.network),
    ("ip", .text a.ip),
    ("subnet", .text a.subnet),
    ("gateway", .text a.gateway),
    ("interfaceName", .text a.interfaceName),
    ("isCustomIP", .bool a.isCustom),
    ("connectionId", optional a.connectionId)]

/-- A device in a report. -/
def ofDevice (d : Device) (assignments : List Assignment) : Except BuildError Value := do
  let type ← d.type.word
  return .record [
    ("id", .text d.id),
    ("type", .text type),
    ("ip", optional d.ip),
    ("interfaceIPs", .record (d.interfaceIps.entries.map fun (k, ip) => (k, .text ip))),
    ("networks", .list (assignments.map ofAssignment))]

/-- A segment in a report. -/
def ofSegment (s : Segment) : Value :=
  .record [
    ("name", .text s.name),
    ("subnet", .text s.subnet),
    ("networkBase", .text s.base),
    ("devices", .texts s.members),
    ("connectionId", optional s.connectionId),
    ("speed", optional s.speed),
    ("detectedFromIP", optional s.detectedFrom),
    ("allConnectionIPs", .texts s.addresses),
    ("consistent", .bool s.consistent)]

/-- A connection in a report. -/
def ofConnection (c : Connection) : Value :=
  .record [
    ("from", .text c.source),
    ("to", .text c.target),
    ("speed", optional c.speed),
    ("fromRouterIP", optional c.sourceIp),
    ("toRouterIP", optional c.targetIp)]

/-- A compiled design in a report. -/
def ofCompiled (c : Compiled) (networkMode : Value) : Except BuildError Value := do
  let devices ← c.devices.mapM fun d => ofDevice d (c.assignmentsOf d)
  return .record [
    ("networkMode", networkMode),
    ("devices", .list devices),
    ("networkSegments", .record (c.analysis.segments.entries.map fun (name, s) => (name, ofSegment s))),
    ("connections", .list (c.connections.map ofConnection))]

/-- A design compiled for a report; an empty one is not an error here. -/
def compiled (devices : List Device) (connections : List Connection) (settings : Settings) :
    Journal ExportError Compiled :=
  if devices.isEmpty then pure ⟨devices, connections, .empty, .empty⟩
  else Compiled.ofDesign devices connections settings

/-- The report of a design. -/
def describe (devices : List Device) (connections : List Connection) (settings : Settings) :
    Journal ExportError Value := do
  let c ← compiled devices connections settings
  (Journal.ofExcept (ofCompiled c settings.networkMode)).mapError .build

end VirtNet.Report
