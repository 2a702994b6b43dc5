import VirtNet.Manifest.Basic
import VirtNet.Manifest.Error
import VirtNet.Naming
import VirtNet.Settings.Basic

/-!
# Storage claims

Each device has a claim on a disk of its own, filled from the base image.
-/

namespace VirtNet.Claim

/-- The storage claim of a device. -/
def build (d : Device) (settings : Settings) : Except BuildError Manifest := do
  let type ← d.type.word
  return {
    comment := s!"PVC for {type.toUpper}: {d.id}"
    body := .record [
      ("apiVersion", .text "v1"),
      ("kind", .text "PersistentVolumeClaim"),
      ("metadata", .record [
        ("name", .text (Naming.claimName d.id)),
        ("labels", .record [
          ("app", .text "containerized-data-importer"),
          ("device-type", .text type),
          ("device-id", .text (Naming.labelValue d.id))]),
        ("annotations", .record [("cdi.kubevirt.io/storage.import.endpoint", settings.imageUrl)])]),
      ("spec", .record [
        ("accessModes", .texts ["ReadWriteOnce"]),
        ("resources", .record [
          ("requests", .record [("storage", .text (Quantity.storage d.storage))])]),
        ("storageClassName", settings.storageClass)])] }

end VirtNet.Claim
