import VirtNet.Design.Record
import VirtNet.Proofs.Registry.Tidy

/-!
# Reading a written registry

A registry that was written down as a design is read back as it was (`read_record`). The draft of a
written device says what the device is (`deviceDraft_record`), and a registry with the devices before it
takes the draft in as the device itself (`SoundDevices.accepts`): every field passes its check and
survives its cleaning, because it did so before. Connections are read in the same way, and recording
their addresses a second time changes nothing, since each of them is there already
(`joined_of_recorded`).
-/

namespace VirtNet

/-! ## Texts and mappings as values -/

namespace Value

variable {text : Option String}

/-- A text as a value, null if there is none. -/
def optional (text : Option String) : Value :=
  match text with
  | some s => .text s
  | none => .null

/-- A tidy text, or its absence, survives a cleaning. -/
theorem cleaned?_optional (h : Text.Tidy text) : (optional text).cleaned? = text := by
  cases text with
  | none => rfl
  | some s => exact cleaned?_text (h s rfl).1 (h s rfl).2

variable {es : List (String × Value)}

/-- Lookup in a mapping with text keys. -/
theorem lookup_record (key : String) (es : List (String × Value)) :
    lookup key (es.map fun e => (.text e.1, e.2)) = OrderedMap.lookupIn key es := by
  induction es with
  | nil => rfl
  | cons e rest ih =>
    obtain ⟨k, v⟩ := e
    have hsame : (Value.text k).sameKey (.text key) = (k == key) := rfl
    simp only [List.map_cons, lookup, OrderedMap.lookupIn, hsame, beq_iff_eq, ih]

/-- Insertion into a mapping with text keys. -/
theorem insert_record (key : String) (value : Value) (es : List (String × Value)) :
    insert (.text key) value (es.map fun e => (.text e.1, e.2)) =
      (OrderedMap.insertIn key value es).map fun e => (.text e.1, e.2) := by
  induction es with
  | nil => rfl
  | cons e rest ih =>
    obtain ⟨k, v⟩ := e
    have hsame : (Value.text k).sameKey (.text key) = (k == key) := rfl
    simp only [List.map_cons, insert, OrderedMap.insertIn, hsame, beq_iff_eq, ih]
    split
    · next hk => rw [List.map_cons, hk]
    · rfl

/-- Entries with text keys are inserted one after the other as into a map. -/
theorem foldl_insert_record (es : List (String × Value)) (m : OrderedMap Value) :
    (es.map fun e => (Value.text e.1, e.2)).foldl (fun es e => insert e.1 e.2 es)
        (m.entries.map fun e => (.text e.1, e.2)) =
      (es.foldl (fun m e => m.insert e.1 e.2) m).entries.map fun e => (.text e.1, e.2) := by
  induction es generalizing m with
  | nil => rfl
  | cons e rest ih =>
    rw [List.map_cons, List.foldl_cons, List.foldl_cons, insert_record]
    exact ih (m.insert e.1 e.2)

/-- Inserting entries with different text keys one after the other gives the entries. -/
theorem inserted_record (hn : (es.map Prod.fst).Nodup) :
    inserted (es.map fun e => (.text e.1, e.2)) = es.map fun e => (.text e.1, e.2) := by
  have hofList : (OrderedMap.ofList es).entries = es := OrderedMap.entries_ofList hn
  calc inserted (es.map fun e => (.text e.1, e.2))
      = (OrderedMap.ofList es).entries.map fun e => (.text e.1, e.2) :=
        foldl_insert_record es .empty
    _ = es.map fun e => (.text e.1, e.2) := by rw [hofList]

/-- A mapping with text keys, its entries written out. -/
theorem record_eq (es : List (String × Value)) :
    record es = .dict (es.map fun e => (.text e.1, e.2)) := rfl

end Value

/-! ## Drafts of records -/

/-- The draft that says what a device is. -/
def Device.Draft.ofDevice (d : Device) : Device.Draft where
  id := .text d.id
  type := .text (d.type.word?.getD "vm")
  cpu := .optional d.cpu
  memory := .optional d.memory
  storage := .optional d.storage
  ip := .optional d.ip
  interfaceIps := Design.interfacesRecord d.interfaceIps

/-- The draft that says what a connection is. -/
def Connection.Draft.ofConnection (c : Connection) : Connection.Draft where
  source := c.source
  target := c.target
  speed := .optional c.speed
  sourceIp := .optional c.sourceIp
  targetIp := .optional c.targetIp

namespace Design

variable {key : String} {text : Option String} {empties : Bool}

/-- An optional field holds its text under its own key. -/
@[simp]
theorem lookupIn_optionalField (key key' : String) (text : Option String) :
    OrderedMap.lookupIn key' (optionalField key text) = if key = key' then text.map .text else none := by
  cases text <;> simp [optionalField, OrderedMap.lookupIn]

/-- The interface addresses are under their own key. -/
@[simp]
theorem lookupIn_interfacesField (key' : String) (m : OrderedMap String) :
    OrderedMap.lookupIn key' (interfacesField empties m) =
      if "interface_ips" = key' ∧ (m.entries ≠ [] ∨ empties = true) then some (interfacesRecord m)
      else none := by
  unfold interfacesField
  cases hm : m.entries <;> cases empties <;> simp [OrderedMap.lookupIn]

/-- A text is written as it is. -/
theorem written_text (s : String) : written (.text s) = .ok s := rfl

theorem given_eq {es : List (String × Value)} (h : OrderedMap.lookupIn key es = text.map .text) :
    given key (es.map fun e => (.text e.1, e.2)) = .ok (.optional text) := by
  unfold given Value.lookupSome
  rw [Value.lookup_record, h]
  cases text <;> rfl

/-- A loop over entries that are texts finds the texts. -/
theorem written_entries (es : List (String × String)) :
    (es.map fun e => (Value.text e.1, Value.text e.2)).mapM
        (fun (k, v) => return (Value.text (← written k), Value.text (← written v))) =
      .ok (es.map fun e => (Value.text e.1, Value.text e.2)) := by
  refine Outcome.mapM_eq_ok.2 ?_
  rw [List.forall₂_same]
  intro e he
  obtain ⟨e', -, rfl⟩ := List.mem_map.1 he
  rfl

/-- The interface addresses of a record, as texts under texts, are the interface addresses. -/
theorem interfaceTexts_record (m : OrderedMap String) :
    interfaceTexts (m.entries.map fun e => (.text e.1, .text e.2)) = .ok (interfacesRecord m) := by
  have hkeys : ((m.entries.map fun e => (e.1, Value.text e.2)).map Prod.fst).Nodup := by
    rw [List.map_map]
    exact m.nodup
  have hinserted := Value.inserted_record hkeys
  rw [List.map_map] at hinserted
  unfold interfaceTexts
  rw [written_entries, Outcome.ok_bind]
  exact congrArg (fun entries => Except.ok (Value.dict entries))
    (hinserted.trans (List.map_map ..).symm)

/-- The draft of a written device says what the device is. -/
theorem deviceDraft_record (place : Nat) (d : Device) :
    deviceDraft place (.record (deviceFields empties d)) = .ok (.ofDevice d) := by
  have hid : OrderedMap.lookupIn "id" (deviceFields empties d) = some (.text d.id) := by
    simp [deviceFields, OrderedMap.lookupIn]
  have htype : OrderedMap.lookupIn "type" (deviceFields empties d) = d.type.word?.map .text := by
    simp [deviceFields, OrderedMap.lookupIn]
  have hcpu : given "cpu" _ = .ok (.optional d.cpu) :=
    given_eq (by simp [deviceFields, OrderedMap.lookupIn] :
      OrderedMap.lookupIn "cpu" (deviceFields empties d) = d.cpu.map .text)
  have hmemory : given "memory" _ = .ok (.optional d.memory) :=
    given_eq (by simp [deviceFields, OrderedMap.lookupIn] :
      OrderedMap.lookupIn "memory" (deviceFields empties d) = d.memory.map .text)
  have hstorage : given "storage" _ = .ok (.optional d.storage) :=
    given_eq (by simp [deviceFields, OrderedMap.lookupIn] :
      OrderedMap.lookupIn "storage" (deviceFields empties d) = d.storage.map .text)
  have hip : given "ip" _ = .ok (.optional d.ip) :=
    given_eq (by simp [deviceFields, OrderedMap.lookupIn] :
      OrderedMap.lookupIn "ip" (deviceFields empties d) = d.ip.map .text)
  have hdefault : (d.type.word?.map Value.text).getD (.text "vm") =
      .text (d.type.word?.getD "vm") := by
    cases d.type.word? <;> rfl
  have htexts := interfaceTexts_record d.interfaceIps
  have hinterfaces : OrderedMap.lookupIn "interface_ips" (deviceFields empties d) =
      if d.interfaceIps.entries ≠ [] ∨ empties = true then some (interfacesRecord d.interfaceIps)
      else none := by
    simp [deviceFields, OrderedMap.lookupIn]
  rw [Value.record_eq]
  unfold deviceDraft
  simp only [Value.opened, Value.lookup_record, hid]
  unfold deviceDraftOf
  simp only [Value.lookup_record, htype, hdefault, hcpu, hmemory, hstorage, hip, written_text,
    Outcome.ok_bind]
  cases hm : d.interfaceIps.entries with
  | nil =>
    -- whether they are written down or not, no interface addresses count as none
    have hnone : ((OrderedMap.lookupIn "interface_ips" (deviceFields empties d)).getD .null).truthy =
        false := by
      rw [hinterfaces, hm]
      cases empties <;> simp [interfacesRecord, hm, Value.record, Value.truthy]
    rw [hm, List.map_nil] at htexts
    simp only [hnone, pure_bind, htexts, Outcome.ok_bind]
    rfl
  | cons e es =>
    have hsome : (OrderedMap.lookupIn "interface_ips" (deviceFields empties d)).getD .null =
        .dict ((e :: es).map fun e => (.text e.1, .text e.2)) := by
      rw [hinterfaces, hm, if_pos (.inl (List.cons_ne_nil e es)), Option.getD_some, ← hm]
      unfold interfacesRecord
      rw [Value.record_eq, List.map_map]
      rfl
    have htrue : (Value.dict ((e :: es).map fun e => (.text e.1, .text e.2))).truthy = true := rfl
    rw [hm] at htexts
    simp only [hsome, htrue, Value.opened, pure_bind, htexts, Outcome.ok_bind]
    rfl

/-- The draft of a written connection says what the connection is. -/
theorem connectionDraft_record (place : Nat) (c : Connection) :
    connectionDraft place (.record (connectionFields c)) = .ok (.ofConnection c) := by
  have hsource : OrderedMap.lookupIn "from" (connectionFields c) = some (.text c.source) := by
    simp [connectionFields, OrderedMap.lookupIn]
  have htarget : OrderedMap.lookupIn "to" (connectionFields c) = some (.text c.target) := by
    simp [connectionFields, OrderedMap.lookupIn]
  have hsourceIp : given "from_router_ip" _ = .ok (.optional c.sourceIp) :=
    given_eq (by simp [connectionFields, OrderedMap.lookupIn] :
      OrderedMap.lookupIn "from_router_ip" (connectionFields c) = c.sourceIp.map .text)
  have htargetIp : given "to_router_ip" _ = .ok (.optional c.targetIp) :=
    given_eq (by simp [connectionFields, OrderedMap.lookupIn] :
      OrderedMap.lookupIn "to_router_ip" (connectionFields c) = c.targetIp.map .text)
  have hspeed : given "speed" _ = .ok (.optional c.speed) :=
    given_eq (by simp [connectionFields, OrderedMap.lookupIn] :
      OrderedMap.lookupIn "speed" (connectionFields c) = c.speed.map .text)
  rw [Value.record_eq]
  unfold connectionDraft
  simp only [Value.opened, Value.lookup_record, hsource, htarget, hsourceIp, htargetIp, hspeed,
    written_text, Outcome.ok_bind]
  rfl

end Design

/-! ## What is read is what was written -/

namespace Registry

variable {r : Registry} {d : Device} {c : Connection}

/-- Adding interface addresses that are proper adds them as they are. -/
theorem addInterfaces_record {es : List (String × String)} (m : OrderedMap String)
    (h : ∀ e ∈ es, Address.Proper e.2) :
    addInterfaces m (es.map fun e => (.text e.1, .text e.2)) =
      .ok (es.foldl (fun m e => m.insert e.1 e.2) m) := by
  induction es generalizing m with
  | nil => rfl
  | cons e rest ih =>
    have hproper : Address.Proper e.2 := h e List.mem_cons_self
    have hclean : (Value.text e.2).cleaned? = some e.2 :=
      Value.cleaned?_text (Address.ne_empty_of_isValid hproper.1) hproper.2
    have hkey : (Value.text e.1).toText = e.1 := rfl
    rw [List.map_cons, addInterfaces, hclean]
    simp only [hproper.1, if_true, hkey]
    exact ih _ fun e' he' => h e' (List.mem_cons_of_mem _ he')

/-- The interface addresses of a device are read as they were written. -/
theorem draftedInterfaces_record (h : SoundAddresses d) :
    draftedInterfaces d.type (Design.interfacesRecord d.interfaceIps) = .ok d.interfaceIps := by
  have hrecord : Design.interfacesRecord d.interfaceIps =
      .dict (d.interfaceIps.entries.map fun e => (.text e.1, .text e.2)) := by
    rw [Design.interfacesRecord, Value.record_eq, List.map_map]
    rfl
  have hofList : OrderedMap.ofList d.interfaceIps.entries = d.interfaceIps :=
    OrderedMap.ext (OrderedMap.entries_ofList d.interfaceIps.nodup)
  unfold draftedInterfaces
  rw [hrecord]
  split
  · have hadded := addInterfaces_record .empty h.interfaces
    exact hadded.trans (congrArg Except.ok hofList)
  · next hnone =>
    -- Either the device is no router, or it has no interface addresses.
    have hempty : d.interfaceIps = .empty := by
      by_cases hr : d.isRouter = true
      · have htype : d.type = .router := by simpa [Device.isRouter] using hr
        apply OrderedMap.ext
        simpa [htype, Value.truthy] using hnone
      · exact h.of_router (by simpa using hr)
    rw [hempty]

/-- The word of a type names the type. -/
theorem ofWord_word {type : DeviceType} (h : type.isKnown = true) :
    DeviceType.ofWord (type.word?.getD "vm") = type := by
  cases type with
  | vm => rfl
  | router => rfl
  | switch => rfl
  | other word => cases h

/-- The draft of the last of some sound devices is taken in as this device after the others. -/
theorem SoundDevices.accepts {ds : List Device} {cs : List Connection}
    (h : SoundDevices (ds ++ [d])) (ht : TidyDevice d) : Accepts ⟨ds, cs⟩ (.ofDevice d) d := by
  have hd : d ∈ ds ++ [d] := List.mem_append_right _ (List.mem_singleton_self d)
  have haddresses := h.addresses d hd
  exact {
    id := Value.cleaned?_text (h.ids d hd).1 (h.ids d hd).2
    type := (ofWord_word (h.known d hd)).symm
    known := h.known d hd
    unused := by
      intro e he hid
      have hn := h.ids_nodup
      rw [List.map_append, List.map_singleton, List.nodup_append] at hn
      exact hn.2.2 e.id (List.mem_map_of_mem he) d.id (List.mem_singleton_self _) hid
    ip := (Value.cleaned?_optional (Address.Proper.tidy haddresses.static)).symm
    ip_free := by
      intro ip hip
      refine ⟨(haddresses.static ip hip).1, ?_⟩
      intro e he heip
      have hn := h.statics_nodup
      rw [List.filterMap_append, List.nodup_append] at hn
      have hold : ip ∈ ds.filterMap Device.ip := List.mem_filterMap.2 ⟨e, he, heip⟩
      have hnew : ip ∈ [d].filterMap Device.ip := by simp [hip]
      exact hn.2.2 ip hold ip hnew rfl
    interfaces := draftedInterfaces_record haddresses
    cpu := (Value.cleaned?_optional ht.cpu).symm
    memory := (Value.cleaned?_optional ht.memory).symm
    storage := (Value.cleaned?_optional ht.storage).symm }

/-- The address that a router keeps is taken at that router. -/
theorem takesAddress_optional {ip : Option String}
    (h : ∀ a, ip = some a → d.isRouter = true ∧ Address.Proper a) :
    TakesAddress d (.optional ip) ip where
  eq := by
    rw [Value.cleaned?_optional (Address.Proper.tidy fun a ha => (h a ha).2)]
    cases ip with
    | none => simp
    | some a => rw [if_pos (h a rfl).1]
  valid a ha := (h a ha).2.1

/-- The draft of a connection that follows others is taken in as this connection after the others. -/
theorem SoundConnections.links {ds : List Device} {done rest : List Connection}
    (hds : SoundDevices ds) (h : SoundConnections ds (done ++ c :: rest)) (ht : Text.Tidy c.speed) :
    ∃ s t, Links ⟨ds, done⟩ (.ofConnection c) s t c := by
  have hc : c ∈ done ++ c :: rest := List.mem_append_right _ List.mem_cons_self
  obtain ⟨hne, s, hs, t, ht', hsid, htid, hvm⟩ := h.ends c hc
  have hsource : Registry.device? ⟨ds, done⟩ c.source = some s := by rw [← hsid, hds.device? hs]
  have htarget : Registry.device? ⟨ds, done⟩ c.target = some t := by rw [← htid, hds.device? ht']
  refine ⟨s, t, ?_⟩
  exact {
    source := hsource
    target := htarget
    source_eq := hsid.symm
    target_eq := htid.symm
    distinct := by rwa [hsid, htid]
    not_machines := hvm
    fresh := by
      intro e he
      have hpairs := (List.pairwise_append.1 h.pairs).2.2 e he c List.mem_cons_self
      exact (joins_comm e c).trans hpairs
    speed := (Value.cleaned?_optional ht).symm
    speed_read := h.speeds c hc
    sourceIp := by
      refine takesAddress_optional fun a ha => ?_
      obtain ⟨hr, hproper, -⟩ := (h.sourceIps c hc a ha).of_id hds hs hsid
      exact ⟨hr, hproper⟩
    targetIp := by
      refine takesAddress_optional fun a ha => ?_
      obtain ⟨hr, hproper, -⟩ := (h.targetIps c hc a ha).of_id hds ht' htid
      exact ⟨hr, hproper⟩ }

/-- Recording an address that is there already changes nothing. -/
theorem withInterface_of_recorded {id peer : String} {ip : Option String}
    (h : ∀ a, ip = some a → d.id = id → d.interfaceIps.get? (Device.interfaceKey peer) = some a) :
    withInterface id peer ip d = d := by
  cases ip with
  | none => rfl
  | some a =>
    unfold withInterface setInterface
    dsimp only
    split
    · next hid => rw [OrderedMap.insert_of_get? (h a rfl hid)]
    · rfl

/-- Taking a connection in again whose addresses are there already changes no device. -/
theorem joined_of_recorded {ds : List Device} {done rest : List Connection}
    (hds : SoundDevices ds) (h : SoundConnections ds (done ++ c :: rest)) :
    joined ⟨ds, done⟩ c = ⟨ds, done ++ [c]⟩ := by
  have hc : c ∈ done ++ c :: rest := List.mem_append_right _ List.mem_cons_self
  have hsame : ∀ d ∈ ds, withLink c d = d := by
    intro d hd
    have hsource : withInterface c.source c.target c.sourceIp d = d :=
      withInterface_of_recorded fun a ha hid => ((h.sourceIps c hc a ha).of_id hds hd hid).2.2
    have htarget : withInterface c.target c.source c.targetIp d = d :=
      withInterface_of_recorded fun a ha hid => ((h.targetIps c hc a ha).of_id hds hd hid).2.2
    rw [withLink, hsource, htarget]
  have hmap : ds.map (withLink c) = ds := by
    calc ds.map (withLink c) = ds.map id := List.map_congr_left hsame
      _ = ds := List.map_id ds
  rw [joined, hmap]

end Registry

namespace Design

variable {key : String} {empties : Bool}

/-- Reading the devices that follow others adds them as they were written. -/
theorem addDevices_record (done : List Device) {rest : List Device} {cs : List Connection} (place : Nat)
    (h : Registry.SoundDevices (done ++ rest)) (ht : ∀ d ∈ rest, Registry.TidyDevice d) :
    (addDevices ⟨done, cs⟩ place (rest.map fun d => .record (deviceFields empties d))).outcome =
      .ok ⟨done ++ rest, cs⟩ := by
  induction rest generalizing done place with
  | nil =>
    rw [List.append_nil]
    rfl
  | cons d rest ih =>
    -- the device is checked against those before it alone, which are sound without the rest
    have hsplit : done ++ d :: rest = done ++ [d] ++ rest := by simp
    rw [hsplit] at h ⊢
    have hfront : Registry.SoundDevices (done ++ [d]) := h.sublist (List.sublist_append_left _ rest)
    have hadded : ((⟨done, cs⟩ : Registry).addDevice (.ofDevice d)).outcome =
        .ok (⟨done ++ [d], cs⟩, d) :=
      Registry.addDevice_eq_ok.2 ⟨hfront.accepts (ht d List.mem_cons_self), rfl⟩
    rw [List.map_cons, addDevices, deviceDraft_record]
    simp only [Journal.outcome_bind, Journal.outcome_mapError, Journal.outcome_ofExcept,
      Outcome.mapError_ok, Outcome.ok_bind, hadded]
    exact ih _ (place + 1) h fun e he => ht e (List.mem_cons_of_mem _ he)

/-- Reading the connections that follow others adds them as they were written, and leaves the devices
as they are. -/
theorem addConnections_record {ds : List Device} (done : List Connection) {rest : List Connection}
    (place : Nat)
    (hds : Registry.SoundDevices ds) (h : Registry.SoundConnections ds (done ++ rest))
    (ht : ∀ c ∈ rest, Text.Tidy c.speed) :
    (addConnections ⟨ds, done⟩ place (rest.map fun c => .record (connectionFields c))).outcome =
      .ok ⟨ds, done ++ rest⟩ := by
  induction rest generalizing done place with
  | nil =>
    rw [List.append_nil]
    rfl
  | cons c rest ih =>
    -- all devices are there already, with the addresses of every connection
    have hlinks := h.links hds (ht c List.mem_cons_self)
    have hjoined := Registry.joined_of_recorded hds h
    have hadded : ((⟨ds, done⟩ : Registry).addConnection (.ofConnection c)).outcome =
        .ok (⟨ds, done ++ [c]⟩, c) := Registry.addConnection_eq_ok.2 ⟨hlinks, hjoined.symm⟩
    have hsplit : done ++ c :: rest = done ++ [c] ++ rest := by simp
    rw [List.map_cons, addConnections, connectionDraft_record]
    simp only [Journal.outcome_bind, Journal.outcome_mapError, Journal.outcome_ofExcept,
      Outcome.mapError_ok, Outcome.ok_bind, hadded]
    rw [hsplit] at h ⊢
    exact ih _ (place + 1) h fun e he => ht e (List.mem_cons_of_mem _ he)

/-- The list under a key of a mapping with text keys. -/
theorem listUnder?_record {es : List (String × Value)} {items : List Value}
    (h : OrderedMap.lookupIn key es = some (.list items)) :
    listUnder? key (es.map fun e => (.text e.1, e.2)) = some items := by
  unfold listUnder?
  rw [Value.lookup_record, h]
  cases items <;> rfl

/-- Writing a registry down as a design and reading the design loses nothing: whatever the registry went
through, the reading succeeds and gives the same devices and connections in the same order, with the same
interface addresses in the same order. Fields without a value are left out of the design, and empty
interface addresses are written down or left out, as `empties` says. -/
theorem read_record (history : List Change) (empties : Bool) :
    (read (record empties (Registry.after history))).outcome = .ok (Registry.after history) := by
  have hr := Registry.wellFormed_after history
  have ht := Registry.tidyTexts_after history
  generalize Registry.after history = r at hr ht
  have hdevices : listUnder? "devices" ((fields empties r).map fun e => (.text e.1, e.2)) =
      some (r.devices.map fun d => .record (deviceFields empties d)) := listUnder?_record rfl
  have hconnections : listUnder? "connections" ((fields empties r).map fun e => (.text e.1, e.2)) =
      some (r.connections.map fun c => .record (connectionFields c)) := listUnder?_record rfl
  -- the devices come first, into the empty registry, and the connections find all of them there
  have hfirst : (addDevices .empty 1
      (r.devices.map fun d => .record (deviceFields empties d))).outcome = .ok ⟨r.devices, []⟩ :=
    addDevices_record [] 1 hr.devices ht.devices
  have hthen : (addConnections ⟨r.devices, []⟩ 1
      (r.connections.map fun c => .record (connectionFields c))).outcome = .ok r :=
    addConnections_record [] 1 hr.devices hr.connections ht.speeds
  unfold read readInto record
  rw [Value.record_eq]
  simp only [Value.opened, hdevices, hconnections]
  rw [Journal.outcome_mapError, Journal.outcome_bind, hfirst, Outcome.ok_bind, hthen,
    Outcome.mapError_ok]

/-- What a registry of two routers went through: a connection with a bandwidth, one whose two routers have
addresses, and one that goes again with its host. -/
def reworked : List Change := [
  .addDevice {
    id := .text " R ", type := .text "router", interfaceIps := .record [("to_x", .text "10.9.0.1")] },
  .addDevice { id := .text "S", type := .text "router", cpu := .text "4 cores" },
  .addDevice { id := .text "a", type := .text "vm", ip := .text "10.0.0.5" },
  .addDevice { id := .text "b", type := .text "vm", memory := .text "2GB" },
  .addConnection { source := "R", target := "b", sourceIp := .text "10.2.0.1" },
  .addConnection { source := "R", target := "a", sourceIp := .text "10.0.0.1", speed := .text "1Gbps" },
  .addConnection { source := "S", target := "R", sourceIp := .text "10.1.0.1", targetIp := .text "10.1.0.2" },
  .deleteDevice "b"]

/-- The registry that this leaves, with its addresses in order, is what its written form gives. -/
theorem read_record_reworked :
    let r : Registry := {
      devices := [
        ⟨"R", .router, none, none, none, none,
          .ofList [("to_x", "10.9.0.1"), ("to_a", "10.0.0.1"), ("to_S", "10.1.0.2")]⟩,
        ⟨"S", .router, some "4 cores", none, none, none, .ofList [("to_R", "10.1.0.1")]⟩,
        ⟨"a", .vm, none, none, none, some "10.0.0.5", .empty⟩]
      connections := [
        ⟨"R", "a", some "10.0.0.1", none, some "1Gbps"⟩,
        ⟨"S", "R", some "10.1.0.1", some "10.1.0.2", none⟩] }
    Registry.after reworked = r ∧ (read (record false r)).outcome = .ok r := by
  intro r
  have hafter : Registry.after reworked = r := by decide +kernel
  have hread := read_record reworked false
  rw [hafter] at hread
  exact ⟨hafter, hread⟩

end Design

end VirtNet
