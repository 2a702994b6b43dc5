import VirtNet.Quantity

/-!
# Why a manifest cannot be built

A processor count may have too many digits, and a setting may be a number too long to be written. Each
other cause arises only from records or settings that were not read from a document.
-/

namespace VirtNet

/-- Why a manifest or a machine's user data cannot be built. -/
inductive BuildError
  /-- The device's type has no name of its own. -/
  | unnamedType (type : DeviceType)
  /-- The device's type has no way to set up its network. -/
  | unhandledType (type : DeviceType)
  /-- The base of a segment has fewer than three octets. -/
  | noThirdOctet (segment : String)
  /-- The processor count cannot be read. -/
  | cores (error : Quantity.CoresError)
  /-- The limit of the user data is no number. -/
  | limitNotANumber
  /-- A setting that is to be written has no text. -/
  | unwritable
deriving DecidableEq, Repr

/-- The word for a device's type. -/
def DeviceType.word (t : DeviceType) : Except BuildError String :=
  match t.word? with
  | some w => .ok w
  | none => .error (.unnamedType t)

end VirtNet
