import VirtNet.Design.Error
import VirtNet.Registry.Basic

/-!
# Written designs

A design is written as a mapping with a list of devices and a list of connections. Its records go
through a registry one by one, the devices first, so that a written design holds what a registry built
by hand would hold. A fault ends the reading; the records before it stay in the registry.
-/

namespace VirtNet.Design

/-- A reading that a fault has ended. -/
structure Halted where
  error : DesignError
  /-- The registry with the records before the fault. -/
  registry : Registry

/-- A value as text. -/
def written (v : Value) : Except DesignError String :=
  match v.toText? with
  | some s => .ok s
  | none => .error .unwritable

/-- A field of a record as text; a missing one stays null. -/
def given (key : String) (fields : List (Value × Value)) : Except DesignError Value :=
  match Value.lookupSome key fields with
  | some v => (written v).map .text
  | none => .ok .null

/-- The interface addresses of a written device, as texts under texts. -/
def interfaceTexts (entries : List (Value × Value)) : Except DesignError Value := do
  let texts ← entries.mapM fun (k, v) => return (Value.text (← written k), Value.text (← written v))
  return .dict (Value.inserted texts)

/-- The draft of a written device with an id. -/
def deviceDraftOf (id : Value) (fields : List (Value × Value)) : Except DesignError Device.Draft := do
  let interfaces := (Value.lookup "interface_ips" fields).getD .null
  let entries ←
    match interfaces.truthy, interfaces.opened with
    | false, _ => pure []
    | true, .dict entries => pure entries
    | true, _ => throw (.interfacesMalformed (← written id))
  return {
    id := .text (← written id)
    type := (Value.lookup "type" fields).getD (.text "vm")
    cpu := ← given "cpu" fields
    memory := ← given "memory" fields
    storage := ← given "storage" fields
    ip := ← given "ip" fields
    interfaceIps := ← interfaceTexts entries }

/-- The draft of a written device. -/
def deviceDraft (place : Nat) (v : Value) : Except DesignError Device.Draft :=
  match v.opened with
  | .dict fields =>
    match Value.lookup "id" fields with
    | none => .error (.deviceMalformed place)
    | some id => deviceDraftOf id fields
  | _ => .error (.deviceMalformed place)

/-- The draft of a written connection. -/
def connectionDraft (place : Nat) (v : Value) : Except DesignError Connection.Draft :=
  match v.opened with
  | .dict fields =>
    match Value.lookup "from" fields, Value.lookup "to" fields with
    | some source, some target => do
      return {
        source := ← written source
        target := ← written target
        speed := ← given "speed" fields
        sourceIp := ← given "from_router_ip" fields
        targetIp := ← given "to_router_ip" fields }
    | _, _ => .error (.connectionMalformed place)
  | _ => .error (.connectionMalformed place)

/-- Adds written devices, the first of them at the given place. -/
def addDevices (r : Registry) (place : Nat) : List Value → Journal Halted Registry
  | [] => pure r
  | v :: rest => do
    let draft ← (Journal.ofExcept (deviceDraft place v)).mapError (⟨·, r⟩)
    let (r', _) ← (r.addDevice draft).mapError fun e => ⟨.refused e, r⟩
    addDevices r' (place + 1) rest

/-- Adds written connections, the first of them at the given place. -/
def addConnections (r : Registry) (place : Nat) : List Value → Journal Halted Registry
  | [] => pure r
  | v :: rest => do
    let draft ← (Journal.ofExcept (connectionDraft place v)).mapError (⟨·, r⟩)
    let (r', _) ← (r.addConnection draft).mapError fun e => ⟨.refused e, r⟩
    addConnections r' (place + 1) rest

/-- A list under a key of a mapping; what counts as false is an empty list. -/
def listUnder? (key : String) (fields : List (Value × Value)) : Option (List Value) :=
  let v := (Value.lookup key fields).getD .null
  match v.truthy, v.opened with
  | false, _ => some []
  | true, .list items => some items
  | true, _ => none

/-- Adds a written design to a registry. -/
def readInto (r : Registry) (data : Value) : Journal Halted Registry :=
  match data.opened with
  | .dict fields =>
    match listUnder? "devices" fields, listUnder? "connections" fields with
    | some devices, some connections => do
      let r ← addDevices r 1 devices
      addConnections r 1 connections
    | _, _ => throw ⟨.notLists, r⟩
  | _ => throw ⟨.notAMapping, r⟩

/-- The registry of a written design. -/
def read (data : Value) : Journal DesignError Registry :=
  (readInto .empty data).mapError Halted.error

end VirtNet.Design
