import VirtNet.Registry.Error

/-!
# Faults of a written design

Why a design cannot be read from a document, and the report of each fault.
-/

namespace VirtNet

/-- Why a document is no design. -/
inductive DesignError
  /-- The document is no mapping. -/
  | notAMapping
  /-- The devices or the connections are no list. -/
  | notLists
  /-- The device at this place, counted from one, is no mapping or has no id. -/
  | deviceMalformed (place : Nat)
  /-- The interface addresses of a device are no mapping. -/
  | interfacesMalformed (id : String)
  /-- The connection at this place, counted from one, is no mapping or lacks an end. -/
  | connectionMalformed (place : Nat)
  /-- A field is a number too long to be written. -/
  | unwritable
  /-- The registry refuses a record. -/
  | refused (reason : RegistryError)
deriving DecidableEq, Repr

/-- The report of a fault. A refused record is reported as the registry does; a field without a text has
no report. -/
def DesignError.message? : DesignError → Option String
  | notAMapping => some "Design must be a mapping with 'devices' and 'connections'"
  | notLists => some "'devices' and 'connections' must be lists"
  | deviceMalformed place => some s!"Device #{place} must be a mapping with an 'id'"
  | interfacesMalformed id => some s!"interface_ips of device {id} must be a mapping"
  | connectionMalformed place => some s!"Connection #{place} must be a mapping with 'from' and 'to'"
  | unwritable => none
  | refused reason => reason.message?

end VirtNet
