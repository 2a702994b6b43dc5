import VirtNet.Value.Text

/-!
# Faults of written settings

Why a document gives no settings, and the report of each fault.
-/

namespace VirtNet

/-- Why a document gives no settings. -/
inductive SettingsError
  /-- The document is no mapping. -/
  | notAMapping
  /-- The part under this key is no mapping. -/
  | partMalformed (key : String)
  /-- The login users cannot be listed. -/
  | usersMalformed
  /-- The number under this key is none. -/
  | notANumber (key : String) (value : Value)
  /-- A value that is to be shown or taken as a text has none. -/
  | unwritable
  /-- The number under this key is infinite. -/
  | infinite (key : String)
  /-- The host numbers that attachments may hand out are no range within a network. -/
  | rangeInvalid (first last : Int)
  /-- There is a reference to a secret and nothing to look it up in. -/
  | secretsUnavailable
  /-- There is no secret under this reference, and a report says why. -/
  | secretRefused (reference report : String)
  /-- The secret under a reference cannot be asked for. -/
  | secretUnreachable

/-- The report of a fault. A malformed part, malformed users, a value without a text, an infinite number
and a secret that cannot be asked for have none. -/
def SettingsError.message? : SettingsError → Option String
  | notAMapping => some "Settings must be a mapping"
  | partMalformed _ | usersMalformed | unwritable | infinite _ | secretUnreachable => none
  | notANumber key value => some s!"Setting '{key}' must be an integer, got {value.literal}"
  | rangeInvalid first last => some s!"Invalid IPAM range {first}-{last}"
  | secretsUnavailable =>
    some "1Password CLI (op) not found but settings contain an op:// reference."
  | secretRefused reference report =>
    some s!"Failed to read 1Password reference '{reference}': {report}"

end VirtNet
