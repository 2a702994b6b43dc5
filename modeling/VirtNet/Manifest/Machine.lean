import VirtNet.Manifest.Basic
import VirtNet.UserData

/-!
# Virtual machines

Each device becomes a machine with its claim as disk, its user data, an interface on the cluster's own
network, and one interface for each of its segments.
-/

namespace VirtNet.Machine

/-- The interface on the cluster's own network. -/
def podNetwork : String := "default"

/-- The name of the disk. -/
def diskName : String := "disk0"

/-- The name of the disk that carries the user data. -/
def userDataDisk : String := "cloudinitdisk"

/-- The interfaces of a machine: the cluster's network first, then a bridge for each segment. -/
def interfaces (segments : List String) : Value :=
  .list (.record [("name", .text podNetwork), ("masquerade", .record [])] ::
    segments.map fun name => .record [("name", .text name), ("bridge", .record [])])

/-- The networks of a machine, in the order of its interfaces. -/
def networks (segments : List String) : Value :=
  .list (.record [("name", .text podNetwork), ("pod", .record [])] ::
    segments.map fun name =>
      .record [("name", .text name), ("multus", .record [("networkName", .text name)])])

/-- The machine proper: processor, memory, disks and interfaces. -/
def templateSpec (d : Device) (segments : List String) (userData : String) :
    Except BuildError Value := do
  let cores ← (Quantity.cores d.cpu d.type).mapError BuildError.cores
  return .record [
    ("domain", .record [
      ("cpu", .record [("cores", .int cores)]),
      ("devices", .record [
        ("disks", .list [
          .record [("disk", .record [("bus", .text "virtio")]), ("name", .text diskName)],
          .record [
            ("cdrom", .record [("bus", .text "sata"), ("readonly", .bool true)]),
            ("name", .text userDataDisk)]]),
        ("interfaces", interfaces segments)]),
      ("machine", .record [("type", .text "q35")]),
      ("resources", .record [
        ("requests", .record [("memory", .text (Quantity.memory d.memory d.type))])])]),
    ("networks", networks segments),
    ("volumes", .list [
      .record [
        ("name", .text diskName),
        ("persistentVolumeClaim", .record [("claimName", .text (Naming.claimName d.id))])],
      .record [
        ("name", .text userDataDisk),
        ("cloudInitNoCloud", .record [("userData", .text userData)])]])]

/-- A machine document. -/
def document (metadata template : List (String × Value)) : Value :=
  .record [
    ("apiVersion", .text "kubevirt.io/v1"),
    ("kind", .text "VirtualMachine"),
    ("metadata", .record metadata),
    ("spec", .record [("runStrategy", .text "Always"), ("template", .record template)])]

/-- The machine of a device with its assignments, in one generation of a deployment. -/
def build (d : Device) (assignments : List Assignment) (settings : Settings) (generation : String) :
    Journal BuildError Manifest := do
  let userData ← UserData.render d assignments settings
  let type ← Journal.ofExcept d.type.word
  let count := toString assignments.length
  let spec ← Journal.ofExcept (templateSpec d (assignments.map Assignment.network) userData)
  return {
    comment := s!"{type.toUpper}: {d.id} with Multi-Interface Configuration ({count} interfaces)"
    body := document
      [("name", .text (Naming.machineName d.id generation)),
        ("labels", .record [
          ("kubevirt.io/os", .text "linux"),
          ("device-type", .text type),
          ("device-id", .text (Naming.labelValue d.id)),
          ("deployment-version", .text generation),
          ("interface-count", .text count)])]
      [("metadata", .record [("labels", .record [
          ("deployment-id", .text generation), ("network-interfaces", .text count)])]),
        ("spec", spec)] }

/-- The machine of a device on the cluster's own network alone. -/
def buildBasic (d : Device) (settings : Settings) : Except BuildError Manifest := do
  let userData ← UserData.renderBasic d settings
  let type ← d.type.word
  let spec ← templateSpec d [] userData
  return {
    comment := s!"Basic {type.toUpper}: {d.id}"
    body := document
      [("name", .text (Naming.resourceName d.id)),
        ("labels", .record [
          ("kubevirt.io/os", .text "linux"),
          ("device-type", .text type),
          ("device-id", .text (Naming.labelValue d.id))])]
      [("spec", spec)] }

end VirtNet.Machine
