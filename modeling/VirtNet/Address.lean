import VirtNet.Text.Numeral
import VirtNet.Text.Split

/-!
# IPv4 addresses and their /24 networks

An address is four decimal octets with dots between them. Its base is what stands before the third dot
and names the /24 network; its host number is the last octet. The functions work on texts, so that an
address written by hand is kept exactly as written.
-/

namespace VirtNet.Address

/-- The value of an octet: one to three ASCII digits without a leading zero, at most 255. -/
def octet? (cs : List Char) : Option Nat :=
  if cs.isEmpty || 3 < cs.length || !cs.all Char.isDigit || (cs.head? == some '0' && cs.length != 1)
  then none
  else
    let n := Text.digitsValue cs
    if n ≤ 255 then some n else none

/-- The four octets of an address, blanks around it aside. -/
def octets? (s : String) : Option (List Nat) :=
  let parts := Text.fields '.' (Text.trimBy Text.isBlank s.toList)
  if parts.length = 4 then parts.mapM octet? else none

/-- Whether a text is an address. -/
def isValid (s : String) : Bool := (octets? s).isSome

/-- The dotted fields of a text, blanks around it aside. -/
def dotted (s : String) : List (List Char) := Text.fields '.' (Text.trimBy Text.isBlank s.toList)

/-- The first three octets of an address. -/
def base (s : String) : String := String.ofList (Text.join ['.'] ((dotted s).take 3))

/-- The address of a host in a network given by its base. -/
def host (base : String) (n : Int) : String := s!"{base}.{n}"

/-- Why a text has no host number. -/
inductive HostError
  /-- It has fewer than four fields. -/
  | noHostPart
  /-- Its fourth field is no number. -/
  | notANumber
deriving DecidableEq, Repr

/-- The last octet of an address. Of any other text, the fourth field read as a number. -/
def hostNumber (s : String) : Except HostError Int :=
  match (dotted s)[3]? with
  | none => .error .noHostPart
  | some part =>
    match Text.int? part with
    | some n => .ok n
    | none => .error .notANumber

end VirtNet.Address
