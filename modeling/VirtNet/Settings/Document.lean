import VirtNet.Settings.Basic
import VirtNet.Settings.Secrets
import VirtNet.Text.Numeral

/-!
# Settings as a document

Settings are written as a mapping. What is missing in it keeps its default. A text that is a reference
to a secret stands for the secret, wherever one value is expected.
-/

namespace VirtNet

namespace Settings

/-- A value, with the secret in the place of a reference to one. -/
def resolve (secrets : Secrets) (v : Value) : Except SettingsError Value :=
  match v with
  | .text s => if Secrets.refers s then (secrets.ask s).map .text else .ok v
  | v => .ok v

/-- The fields of a part of the settings: a missing part has none, nor has one that counts as false. -/
def partFields (key : String) (fields : List (Value × Value)) :
    Except SettingsError (List (Value × Value)) :=
  let v := (Value.lookup key fields).getD .null
  match v.truthy, v.opened with
  | false, _ => .ok []
  | true, .dict entries => .ok entries
  | true, _ => .error (.partMalformed key)

/-- A field with its default, references resolved. -/
def resolved (secrets : Secrets) (key : String) (default : Value) (fields : List (Value × Value)) :
    Except SettingsError Value :=
  resolve secrets ((Value.lookup key fields).getD default)

/-- A byte as the character with its code; a byte outside ASCII is no digit. -/
def asciiChar (b : UInt8) : Char := if b < 128 then Char.ofNat b.toNat else '\x00'

/-- A value as text. -/
def written (v : Value) : Except SettingsError String :=
  match v.toText? with
  | some s => .ok s
  | none => .error .unwritable

/-- The fault of a value that is no whole number. -/
def notANumber (key : String) (v : Value) : SettingsError :=
  if v.hasText then .notANumber key v else .unwritable

/-- The whole number that a value stands for. The fraction of a number is dropped. -/
def wholeNumber (key : String) (v : Value) : Except SettingsError Int :=
  let parsed (cs : List Char) : Except SettingsError Int :=
    match Text.int? cs with
    | some n => .ok n
    | none => .error (notANumber key v)
  match v, v.wholePart? with
  | _, some n => .ok n
  | .text s, none => parsed s.toList
  | .bytes bs, none => parsed (bs.map asciiChar)
  | .float x, none => .error (if x.isNaN then notANumber key v else .infinite key)
  | _, none => .error (notANumber key v)

/-- A field that is a whole number. -/
def number (secrets : Secrets) (key : String) (default : Value) (fields : List (Value × Value)) :
    Except SettingsError Int := do
  wholeNumber key (← resolved secrets key default fields)

/-- The accounts that a value lists: one as a text, or the members of a collection. -/
def users (v : Value) : Except SettingsError (List String) :=
  match v.opened with
  | .text s => .ok [s]
  | .bytes bs => .ok (bs.map fun b => toString b.toNat)
  | .list items | .set items => items.mapM written
  | .pair a b => [a, b].mapM written
  | .dict entries => entries.mapM fun e => written e.1
  | _ => .error .usersMalformed

/-- Whether two host numbers are the ends of a range within a /24 network, without the first host and
the broadcast address. -/
def isRange (first last : Int) : Bool := 1 < first && first ≤ last && last < 255

/-- The fault of two host numbers that are no such ends. -/
def notARange (first last : Int) : SettingsError :=
  if Text.isWritable first && Text.isWritable last then .rangeInvalid first last else .unwritable

/-- The settings that the fields of a document give. -/
def ofFields (secrets : Secrets) (fields : List (Value × Value)) : Except SettingsError Settings := do
  let base : Settings := {}
  let login ← partFields "login" fields
  let accounts := (Value.lookup "users" login).getD (.texts base.loginUsers)
  let networkMode ← resolved secrets "network_mode" base.networkMode fields
  let strictSubnets := ((Value.lookup "strict_subnets" fields).getD (.bool base.strictSubnets)).truthy
  let storageClass ← resolved secrets "storage_class" base.storageClass fields
  let imageUrl ← resolved secrets "image_url" base.imageUrl fields
  let loginUsers ← users accounts
  let loginPassword ← written (← resolved secrets "password" (.text base.loginPassword) login)
  let userDataLimit ← number secrets "user_data_limit" base.userDataLimit fields
  let ipam ← partFields "ipam" fields
  let first ← number secrets "range_start" base.ipamStart ipam
  let last ← number secrets "range_end" base.ipamEnd ipam
  let management ← partFields "management" fields
  let managementInterface ← resolved secrets "interface" base.managementInterface management
  let managementGateway ← resolved secrets "gateway" base.managementGateway management
  if isRange first last then
    return {
      networkMode, strictSubnets, storageClass, imageUrl, loginUsers, loginPassword
      userDataLimit := .int userDataLimit
      ipamStart := .int first
      ipamEnd := .int last
      managementInterface, managementGateway }
  else throw (notARange first last)

/-- The settings that a document gives. A document that counts as false gives the defaults. -/
def ofDocument (secrets : Secrets) (data : Value) : Except SettingsError Settings :=
  match data.truthy, data.opened with
  | false, _ => .ok {}
  | true, .dict fields => ofFields secrets fields
  | true, _ => .error .notAMapping

end Settings

end VirtNet
