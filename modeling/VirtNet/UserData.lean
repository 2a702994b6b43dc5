import VirtNet.Assignment
import VirtNet.Manifest.Error
import VirtNet.Naming
import VirtNet.Settings.Basic
import VirtNet.Text.Blank
import VirtNet.Yaml.Writer

/-!
# User data of a machine

What a machine runs when it first starts: accounts, and a script that brings up its interfaces. A
machine takes only so many bytes of it, so there is an abbreviated form with the first account and the
first interface.
-/

namespace VirtNet.UserData

/-- Where the network script is put. -/
def scriptPath : String := "/tmp/net.sh"

/-- The packages of a machine without a designed network. -/
def basicPackages : List String :=
  ["net-tools", "iputils-ping", "traceroute", "wget", "curl", "tcpdump", "iperf3", "openssh-server"]

/-- The name that the machine gives the interface of a segment at first. The interface of the
management network comes before them. -/
def cardName (index : Int) : String := s!"enp{index + 2}s0"

/-- The text of user data. -/
def serialize (config : Value) : String :=
  "#cloud-config\n" ++ Text.stripEnd (Yaml.toYaml config) ++ "\n"

/-- The accounts with their password. -/
def passwords (users : List String) (password : String) : Value :=
  .record [
    ("list", .text (String.join (users.map fun user => s!"{user}:{password}\n"))),
    ("expire", .bool false)]

/-- The lines that bring up the interface of a segment. -/
def interfaceLines (a : Assignment) : List String :=
  let card := cardName a.index
  let name := a.interfaceName
  [s!"ip link set {card} name {name} 2>/dev/null||true",
    s!"ip addr add {a.ip}/24 dev {name}",
    s!"ip link set {name} up"]

/-- A setting as text. -/
def written (v : Value) : Except BuildError String :=
  match v.toText? with
  | some s => .ok s
  | none => .error .unwritable

/-- The lines that direct traffic: a router forwards it, and a host sends it to the gateway of its
first segment before it tries the management network. -/
def routingLines (type : DeviceType) (assignments : List Assignment) (settings : Settings) :
    Except BuildError (List String) :=
  match type, assignments with
  | .other word, _ => .error (.unhandledType (.other word))
  | .router, _ => .ok ["echo 1>/proc/sys/net/ipv4/ip_forward", "iptables -A FORWARD -j ACCEPT"]
  | _, [] => .ok []
  | _, first :: _ => do
    let management ← written settings.managementInterface
    let gateway ← written settings.managementGateway
    return [
      s!"ip route del default via {gateway} dev {management} 2>/dev/null||true",
      s!"ip route add default via {first.gateway} dev {first.interfaceName} metric 50",
      s!"ip route add default via {gateway} dev {management} metric 100 2>/dev/null||true"]

/-- The command that asks for an address on the management network. -/
def managementLine (settings : Settings) : Except BuildError String := do
  return s!"dhclient {← written settings.managementInterface}"

/-- The script that brings up a machine's interfaces. -/
def networkScript (d : Device) (assignments : List Assignment) (settings : Settings) :
    Except BuildError String := do
  let management ← managementLine settings
  let routing ← routingLines d.type assignments settings
  let lines := ["#!/bin/bash", management] ++ assignments.flatMap interfaceLines ++ routing
  return Text.joinWith "\n" lines ++ "\n"

/-- What every machine starts with. -/
def identity (d : Device) : List (String × Value) :=
  [("hostname", .text (Naming.resourceName d.id)), ("ssh_pwauth", .bool true)]

/-- The full form. -/
def full (d : Device) (assignments : List Assignment) (settings : Settings) :
    Except BuildError Value := do
  let network ←
    if assignments.isEmpty then do
      let management ← managementLine settings
      pure [("runcmd", Value.texts [management])]
    else do
      let script ← networkScript d assignments settings
      pure [
        ("write_files", .list [.record [
          ("path", .text scriptPath), ("permissions", .text "0755"), ("content", .text script)]]),
        ("runcmd", .texts [scriptPath])]
  return .record (identity d ++ [
    ("disable_root", .bool false),
    ("chpasswd", passwords settings.loginUsers settings.loginPassword)] ++ network)

/-- The abbreviated form: the first account, and the first interface alone. -/
def minimal (d : Device) (assignments : List Assignment) (settings : Settings) :
    Except BuildError Value := do
  let management ← managementLine settings
  let card := cardName 0
  let network :=
    match assignments with
    | [] => []
    | first :: _ =>
      [s!"ip addr add {first.ip}/24 dev {card}",
        s!"ip link set {card} up",
        s!"ip route add default via {first.gateway} dev {card}"]
  return .record (identity d ++ [
    ("chpasswd", passwords (settings.loginUsers.take 1) settings.loginPassword),
    ("runcmd", .texts (management :: network))])

/-- The most bytes of user data. -/
def limit (settings : Settings) : Except BuildError Int :=
  match settings.userDataLimit.wholePart? with
  | some n => .ok n
  | none => .error .limitNotANumber

/-- What is noted on the size of user data, if the limit can be written. -/
def limitText (id : String) (size : Nat) (most : Int) : Option String :=
  if Text.isWritable most then
    some s!"Cloud-init size for {id}: {size} bytes (limit: {most})"
  else none

/-- The user data of a machine: the full form when it is within the limit, else the abbreviated one,
whatever its size. -/
def render (d : Device) (assignments : List Assignment) (settings : Settings) :
    Journal BuildError String := do
  let config ← Journal.ofExcept (full d assignments settings)
  let text := serialize config
  let size := text.utf8ByteSize
  let most ← Journal.ofExcept (limit settings)
  Journal.write ⟨.debug, .userData, limitText d.id size most⟩
  if size ≤ most then return text
  Journal.note .warning .userData
    s!"Cloud-init too large for {d.id} ({size} bytes), using minimal config"
  let shorter := serialize (← Journal.ofExcept (minimal d assignments settings))
  let shorterSize := shorter.utf8ByteSize
  if most < shorterSize then
    Journal.note .error .userData
      s!"Minimal cloud-init for {d.id} still exceeds limit: {shorterSize} bytes"
  return shorter

/-- The user data of a machine without a designed network. -/
def renderBasic (d : Device) (settings : Settings) : Except BuildError String := do
  let type ← d.type.word
  return serialize (.record (identity d ++ [
    ("disable_root", .bool false),
    ("chpasswd", passwords settings.loginUsers settings.loginPassword),
    ("package_update", .bool true),
    ("packages", .texts basicPackages),
    ("runcmd", .texts [
      "systemctl enable ssh",
      "systemctl start ssh",
      s!"echo \"{d.id} ({type}) is ready on pod network\"",
      "ip addr show"])]))

end VirtNet.UserData
