import VirtNet.Json.Text
import VirtNet.Manifest.Basic
import VirtNet.Manifest.Error
import VirtNet.Naming
import VirtNet.Segment
import VirtNet.Settings.Basic

/-!
# Network attachments

Each segment becomes a bridge on the cluster's nodes and an attachment that machines refer to. A
bridge is named for the third octet of its network; a later segment with the same octet gets its own
number appended.
-/

namespace VirtNet.Attachment

/-- The name of a segment without the word that starts it. -/
def shortName (name : String) : String :=
  if "net".toList.isPrefixOf name.toList then String.ofList (name.toList.drop 3) else name

/-- The third octet of a segment. -/
def thirdOctet (s : Segment) : Except BuildError String :=
  match s.thirdOctet? with
  | some octet => .ok octet
  | none => .error (.noThirdOctet s.name)

/-- Names a segment's bridge, given the names in use, and notes a name that was in use. -/
def bridgeName (used : List String) (s : Segment) : Journal BuildError String := do
  let octet ← Journal.ofExcept (thirdOctet s)
  let name := "br" ++ octet
  if used.contains name then
    let longer := s!"{name}n{shortName s.name}"
    Journal.note .warning .attachment
      s!"Bridge {name} already used, {s.name} uses {longer} instead"
    return longer
  else return name

/-- Names the bridges of further segments. -/
def bridgeNamesFrom (used : List String) (names : OrderedMap String) :
    List Segment → Journal BuildError (OrderedMap String)
  | [] => return names
  | s :: rest => do
    let name ← bridgeName used s
    bridgeNamesFrom (name :: used) (names.insert s.name name) rest

/-- The bridge of each segment, by segment name. -/
def bridgeNames (segments : List Segment) : Journal BuildError (OrderedMap String) :=
  bridgeNamesFrom [] .empty segments

/-- The address at an end of the range of host numbers that a segment hands out. -/
def rangeEnd (s : Segment) (host : Value) : Value := .text s!"{s.base}.{host.toText}"

/-- The configuration of a segment's bridge: addresses are handed out on each node, from a range of
host numbers. -/
def bridgeConfig (s : Segment) (bridge : String) (settings : Settings) : Value :=
  .record [
    ("cniVersion", .text "0.3.1"),
    ("name", .text s.name),
    ("type", .text "bridge"),
    ("bridge", .text bridge),
    ("isDefaultGateway", .bool false),
    ("isGateway", .bool false),
    ("ipMasq", .bool false),
    ("hairpinMode", .bool true),
    ("ipam", .record [
      ("type", .text "host-local"),
      ("subnet", .text s.subnet),
      ("rangeStart", rangeEnd s settings.ipamStart),
      ("rangeEnd", rangeEnd s settings.ipamEnd)])]

/-- A subnet with hyphens for its marks. -/
def hyphened (subnet : String) : String :=
  String.ofList (subnet.toList.map fun c => if c == '/' || c == '.' then '-' else c)

/-- The labels of an attachment. -/
def labels (s : Segment) (octet : String) : Value :=
  let connection :=
    match s.connectionId.filter (!·.isEmpty) with
    | some key => [("connection", Value.text (Naming.labelValue key))]
    | none => []
  .record ([
    ("network-type", .text "infrastructure-segment"),
    ("network-subnet", .text (Naming.labelValue (hyphened s.subnet))),
    ("network-octet", .text octet)] ++ connection)

/-- The attachment of a segment. -/
def build (s : Segment) (bridge : String) (settings : Settings) : Journal BuildError Manifest := do
  Journal.note .info .attachment
    s!"Creating NetworkAttachmentDefinition {s.name}: {s.subnet} (bridge: {bridge})"
  let octet ← Journal.ofExcept (thirdOctet s)
  let config := (Json.ofValue (bridgeConfig s bridge settings)).toOption.getD ""
  let members := Text.joinWith " <-> " s.members
  return {
    comment := s!"Network {s.name}: {s.subnet} ({members})"
    body := .record [
      ("apiVersion", .text "k8s.cni.cncf.io/v1"),
      ("kind", .text "NetworkAttachmentDefinition"),
      ("metadata", .record [("name", .text s.name), ("labels", labels s octet)]),
      ("spec", .record [("config", .text (config ++ "\n"))])] }

/-- The attachments of some segments, in order. -/
def buildAll (segments : List Segment) (settings : Settings) : Journal BuildError (List Manifest) := do
  let bridges ← bridgeNames segments
  segments.mapM fun s => build s ((bridges.get? s.name).getD "") settings

end VirtNet.Attachment
