import VirtNet.OrderedMap
import VirtNet.Settings.Error
import VirtNet.Text.Blank

/-!
# Secrets

A text in the settings can refer to a secret, which is asked for in a vault. A vault is given by what comes
of asking for each reference, so nothing is assumed of it.
-/

namespace VirtNet

/-- What comes of asking for a secret. -/
inductive SecretAnswer
  /-- The secret. -/
  | secret (text : String)
  /-- There is none, and a report says why. -/
  | refused (report : String)
  /-- The vault cannot be asked, or what it answers is no text. -/
  | nothing
deriving DecidableEq, Repr

/-- Where secrets are kept. -/
structure Vault where
  /-- What comes of asking for the secret under a reference. -/
  answer : String → SecretAnswer

namespace Vault

/-- The vault with the secrets of a table. -/
def ofTable (table : OrderedMap String) : Vault where
  answer reference := (table.get? reference).elim (.refused "item not found") .secret

instance : Coe (OrderedMap String) Vault := ⟨ofTable⟩

end Vault

/-- The vault of a run; none where there is nothing to ask. -/
abbrev Secrets := Option Vault

namespace Secrets

/-- How a reference to a secret starts. -/
def mark : List Char := "op://".toList

/-- Whether a text refers to a secret. -/
def refers (s : String) : Bool := mark.isPrefixOf s.toList

/-- The character that nothing that is asked for can have. -/
def referenceEnd : Char := '\x00'

/-- The secret under a reference, without the blanks around it. -/
def ask (secrets : Secrets) (reference : String) : Except SettingsError String :=
  if reference.toList.contains referenceEnd then .error .secretUnreachable
  else
    match secrets with
    | none => .error .secretsUnavailable
    | some vault =>
      match vault.answer reference with
      | .secret text => .ok (Text.strip text)
      | .refused report => .error (.secretRefused reference report)
      | .nothing => .error .secretUnreachable

end Secrets

end VirtNet
