import VirtNet.Manifest.Attachment
import VirtNet.Manifest.Claim
import VirtNet.Manifest.Machine

/-!
# Exports

Runs the analysis and the assignment of a design and renders the manifests that an export asks for as
one stream. A full export is the attachments, the claims and the machines; a staged deployment exports
the first two and the last one apart.
-/

namespace VirtNet

/-- Why a design cannot be exported. -/
inductive ExportError
  /-- The design is empty. -/
  | noDevices
  | analysis (error : AnalysisError)
  | assignment (error : AssignmentError)
  | build (error : BuildError)
deriving DecidableEq, Repr

/-- The report of an empty design. -/
def noDevicesText : String := "No devices to export. Please add some devices first."

/-- What an export contains. -/
inductive ExportMode
  /-- Attachments, claims and machines. -/
  | full
  /-- Attachments and claims. -/
  | claims
  /-- Machines. -/
  | machines
  /-- Machines without the designed network. -/
  | basic
deriving DecidableEq, Repr

/-- The modes with their names. -/
def ExportMode.table : List (String × ExportMode) :=
  [("full", full), ("pvcs", claims), ("vms", machines), ("basic", basic)]

/-- The token of a deployment begun at a given time, to the minute. -/
def Moment.generation (now : Moment) : String :=
  let d := now.date
  toString d.year ++ String.join ([d.month, d.day, now.hour, now.minute].map (padded 2))

/-- A design with its analysis and its addresses. -/
structure Compiled where
  devices : List Device
  connections : List Connection
  analysis : Analysis
  /-- The assignments of every device, by device id. -/
  assignments : OrderedMap (List Assignment)

namespace Compiled

/-- Analyses a design and assigns its addresses. -/
def ofDesign (devices : List Device) (connections : List Connection) (settings : Settings) :
    Journal ExportError Compiled := do
  if devices.isEmpty then throw .noDevices
  Journal.note .info .compilation
    s!"Compiling {devices.length} devices, {connections.length} connections"
  let analysis ←
    (Analysis.analyze settings.networkMode settings.strictSubnets devices connections).mapError .analysis
  let assignments ← (Assignment.assign devices analysis).mapError .assignment
  return { devices, connections, analysis, assignments }

/-- The assignments of a device. -/
def assignmentsOf (c : Compiled) (d : Device) : List Assignment :=
  (c.assignments.get? d.id).getD []

/-- The attachments of the segments. -/
def attachments (c : Compiled) (settings : Settings) : Journal BuildError (List Manifest) :=
  Attachment.buildAll c.analysis.segments.values settings

/-- The claims of the devices. -/
def claims (c : Compiled) (settings : Settings) : Except BuildError (List Manifest) :=
  c.devices.mapM fun d => Claim.build d settings

/-- The machines of the devices. -/
def machines (c : Compiled) (settings : Settings) (generation : String) :
    Journal BuildError (List Manifest) :=
  c.devices.mapM fun d => Machine.build d (c.assignmentsOf d) settings generation

end Compiled

/-- The header line with the time of the export. -/
def generatedLine (now : Moment) : String := "Generated: " ++ now.textWith "T"

/-- The header of an export. -/
def exportHeader (mode : ExportMode) (now : Moment) (devices connections segments : Nat)
    (networkMode : String) : List String :=
  match mode with
  | .full => [
      "KubeVirt Infrastructure with Connection-Based Networking",
      generatedLine now,
      s!"Devices: {devices} | Connections: {connections} | Network mode: {networkMode}",
      "",
      "DEPLOYMENT:",
      "1. Apply this complete file, or",
      "2. Apply PVCs first, wait for import, then apply VMs"]
  | .claims => [
      "KubeVirt PVCs and Network Setup",
      generatedLine now,
      "",
      "Apply this first and wait for CDI import completion",
      s!"Network segments: {segments}"]
  | .machines => [
      "KubeVirt VMs with Connection-Based Network Configuration",
      generatedLine now,
      "",
      "IMPORTANT: Apply after PVCs are ready (Status: Succeeded)",
      "Check with: kubectl get pvc"]
  | .basic => [
      "Basic KubeVirt VMs (Pod Network Only)",
      generatedLine now,
      "",
      "This creates VMs with basic pod networking only",
      "Use this for initial testing, then upgrade to full networking"]

/-- The manifests of an export of a compiled design. -/
def exportManifests (mode : ExportMode) (c : Compiled) (settings : Settings) (generation : String) :
    Journal BuildError (List Manifest) := do
  match mode with
  | .full =>
    let attachments ← c.attachments settings
    let claims ← Journal.ofExcept (c.claims settings)
    return attachments ++ claims ++ (← c.machines settings generation)
  | .claims =>
    let attachments ← c.attachments settings
    return attachments ++ (← Journal.ofExcept (c.claims settings))
  | .machines => c.machines settings generation
  | .basic => Journal.ofExcept (c.devices.mapM fun d => Machine.buildBasic d settings)

/-- The generation of an export: the one given, unless it is empty, else the one of the time. -/
def chosenGeneration (generation : Option String) (now : Moment) : String :=
  match generation with
  | some g => if g.isEmpty then now.generation else g
  | none => now.generation

/-- The text of an export. A basic export neither analyses the design nor notes anything. -/
def exportDesign (mode : ExportMode) (devices : List Device) (connections : List Connection)
    (settings : Settings) (generation : Option String) (now : Moment) :
    Journal ExportError String := do
  let c ←
    match mode with
    | .basic =>
      if devices.isEmpty then throw .noDevices
      pure ⟨devices, connections, .empty, .empty⟩
    | _ => Compiled.ofDesign devices connections settings
  let header := exportHeader mode now devices.length connections.length
    c.analysis.segments.entries.length settings.networkMode.toText
  let manifests ←
    (exportManifests mode c settings (chosenGeneration generation now)).mapError .build
  match Manifest.renderStream? header manifests with
  | some stream => return stream
  | none => throw (.build .unwritable)

end VirtNet
