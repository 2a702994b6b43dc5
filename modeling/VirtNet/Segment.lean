import VirtNet.Address
import VirtNet.Device
import VirtNet.Journal
import VirtNet.Text.Split

/-!
# Network segments

A segment is an isolated /24 network with its member devices. Its subnet comes from the first valid
address among the candidates, or from a fallback that the segment's number selects. A segment whose
valid candidates lie in different networks is inconsistent, which strict derivation refuses.
-/

namespace VirtNet

/-- An isolated network of a design. -/
structure Segment where
  name : String
  /-- The network in prefix form, such as `192.168.1.0/24`. -/
  subnet : String
  /-- The first three octets of the network. -/
  base : String
  /-- The ids of the devices on the network. -/
  members : List String
  /-- The connection that the network stands for, if it stands for one. -/
  connection : Option Connection
  /-- The address that the subnet was derived from. -/
  detectedFrom : Option String
  /-- Every address that was considered. -/
  addresses : List String
  /-- Whether the valid addresses considered share one network. -/
  consistent : Bool
deriving DecidableEq, Repr

namespace Segment

/-- The key of the segment's connection. -/
def connectionId (s : Segment) : Option String := s.connection.map Connection.key

/-- The bandwidth label of the segment's connection. -/
def speed (s : Segment) : Option String := s.connection.bind Connection.speed

/-- The third octet of the network, if the base has one. -/
def thirdOctet? (s : Segment) : Option String :=
  (Text.fields '.' s.base.toList)[2]?.map String.ofList

/-- The subnet of a base. -/
def subnetOf (base : String) : String := base ++ ".0/24"

/-- The base of the segment with the given number when no address decides it. -/
def fallbackBase (number : Nat) : String := s!"192.168.{number}"

/-- The name of the segment with the given number. -/
def nameOf (number : Nat) : String := s!"net{number}"

end Segment

/-- Why a design has no analysis. -/
inductive AnalysisError
  /-- Strict analysis met addresses of different networks. -/
  | subnetMismatch (label subnet : String) (found : List String)
  /-- No network mode has this name. -/
  | unknownMode (mode : String)
  /-- The network mode is a number too long to be written. -/
  | modeUnwritable
  /-- The network mode is a collection, which cannot name anything. -/
  | modeIsCollection
deriving DecidableEq, Repr

/-- The report of addresses of different networks. -/
def mismatchText (label subnet : String) (found : List String) : String :=
  s!"Not all IPs in {label} are in the same subnet: expected {subnet}, found " ++
    Text.joinWith ", " found

namespace Segment

/-- The candidates that are texts at all. -/
def present (candidates : List (Option String)) : List String :=
  candidates.filterMap fun c => c.filter (!·.isEmpty)

/-- The segment with a number, its members and the addresses that may decide its subnet. -/
def formed (number : Nat) (members : List String) (candidates : List (Option String))
    (connection : Option Connection) : Segment :=
  let addresses := present candidates
  let valid := addresses.filter Address.isValid
  let base := (valid.head?.map Address.base).getD (fallbackBase number)
  { name := nameOf number
    subnet := subnetOf base
    base
    members
    connection
    detectedFrom := valid.head?
    addresses
    consistent := valid.all fun ip => Address.base ip == base }

/-- The segment's connection, or its name, for reports. -/
def label (s : Segment) : String := s.connectionId.getD s.name

/-- Forms a segment. Inconsistent addresses are an error when `strict` and a warning otherwise. -/
def derive (strict : Bool) (number : Nat) (members : List String)
    (candidates : List (Option String)) (connection : Option Connection) :
    Journal AnalysisError Segment := do
  let s := formed number members candidates connection
  if !s.consistent then
    if strict then throw (.subnetMismatch s.label s.subnet s.addresses)
    Journal.note .warning .analysis (mismatchText s.label s.subnet s.addresses)
  match s.detectedFrom with
  | some ip => Journal.note .debug .analysis s!"Derived subnet {s.subnet} for {s.name} from IP {ip}"
  | none => pure ()
  return s

end Segment

end VirtNet
