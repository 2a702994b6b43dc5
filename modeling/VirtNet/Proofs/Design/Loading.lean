import VirtNet.Proofs.Registry.Acceptance
import VirtNet.Proofs.Value.Writable

/-!
# Reading a design record by record

A written design asks a registry for one change after the other: a device for each record in its list of
devices, then a connection for each record in its list of connections (`asked`). A reading makes these
changes in order. It ends when all of them are made, at the first record that is malformed, or at the first
one that the registry refuses, and it leaves the registry with the changes before (`readInto_folds`). This
needs nothing of the registry, and of the design only that its numbers can be written; every fault then has
a report.
-/

namespace VirtNet

/-! ## Reports of refusals -/

namespace Registry

variable {r : Registry}

/-- A type that can be written is refused with a report. -/
theorem message?_of_draftedType {v : Value} (hv : v.hasText = true) {reason : RegistryError}
    (h : draftedType v = .error reason) : reason.message?.isSome = true := by
  unfold draftedType at h
  simp only [Value.toText?_of_hasText hv] at h
  split at h
  · cases h
  · obtain rfl := Except.error.inj h
    rfl

/-- Interface addresses are refused one by one. -/
theorem addInterfaces_eq_error {es : List (Value × Value)} {m : OrderedMap String}
    {reason : RegistryError} (h : addInterfaces m es = .error reason) :
    ∃ key ip, reason = .interfaceInvalid key ip := by
  induction es generalizing m with
  | nil => cases h
  | cons e rest ih =>
    rw [addInterfaces] at h
    split at h
    · exact ih h
    · split at h
      · exact ih h
      · exact ⟨_, _, (Except.error.inj h).symm⟩

/-- The reasons for which a draft of a device can be refused. -/
inductive DeviceRefusal (draft : Device.Draft) : RegistryError → Prop
  | idMissing : DeviceRefusal draft .idMissing
  | type {reason : RegistryError} (h : draftedType draft.type = .error reason) :
    DeviceRefusal draft reason
  | idTaken (id : String) : DeviceRefusal draft (.idTaken id)
  | addressInvalid (ip : String) : DeviceRefusal draft (.addressInvalid ip)
  | addressTaken (ip owner : String) : DeviceRefusal draft (.addressTaken ip owner)
  | interfaceInvalid (key ip : String) : DeviceRefusal draft (.interfaceInvalid key ip)
  | interfacesUnnamed (h : ∀ entries, draft.interfaceIps ≠ .dict entries) :
    DeviceRefusal draft .interfacesUnnamed

/-- A device is refused for one of these reasons. -/
theorem deviceRefusal_of_addDevice {draft : Device.Draft} {reason : RegistryError}
    (h : (r.addDevice draft).outcome = .error reason) : DeviceRefusal draft reason := by
  have haccept : r.accept draft = .error reason := by
    simp only [addDevice, Journal.outcome_bind, Journal.outcome_ofExcept, Outcome.bind_eq_error] at h
    rcases h with h | ⟨d, -, h | ⟨-, -, ⟨⟩⟩⟩
    · exact h
    · cases h
  -- the checks of a draft, in the order in which they are made
  unfold accept at haccept
  rcases Outcome.bind_eq_error.1 haccept with hid | ⟨id, -, haccept⟩
  · unfold draftedId at hid
    split at hid
    · cases hid
    · obtain rfl := Except.error.inj hid
      exact .idMissing
  rcases Outcome.bind_eq_error.1 haccept with hkind | ⟨type, -, haccept⟩
  · exact .type hkind
  split at haccept
  · obtain rfl := Except.error.inj haccept
    exact .idTaken id
  rcases Outcome.bind_eq_error.1 haccept with hip | ⟨ip, -, haccept⟩
  · unfold draftedAddress at hip
    split at hip
    · cases hip
    · split at hip
      · split at hip
        · obtain rfl := Except.error.inj hip
          exact .addressTaken _ _
        · cases hip
      · obtain rfl := Except.error.inj hip
        exact .addressInvalid _
  rcases Outcome.bind_eq_error.1 haccept with hadded | ⟨interfaceIps, -, ⟨⟩⟩
  unfold draftedInterfaces at hadded
  split at hadded
  · split at hadded
    · obtain ⟨key, ip, rfl⟩ := addInterfaces_eq_error hadded
      exact .interfaceInvalid key ip
    · next hunnamed =>
      obtain rfl := Except.error.inj hadded
      exact .interfacesUnnamed hunnamed
  · cases hadded

/-- A device whose type can be written, with interface addresses in a mapping, is refused with a report. -/
theorem message?_of_addDevice {draft : Device.Draft} (htype : draft.type.hasText = true)
    {entries : List (Value × Value)} (hinterfaces : draft.interfaceIps = .dict entries)
    {reason : RegistryError} (h : (r.addDevice draft).outcome = .error reason) :
    reason.message?.isSome = true := by
  cases deviceRefusal_of_addDevice h with
  | type hkind => exact message?_of_draftedType htype hkind
  | interfacesUnnamed hunnamed => exact absurd hinterfaces (hunnamed entries)
  | _ => rfl

/-- An address at an end of a connection is refused with a report. -/
theorem message?_of_draftedEndAddress {d : Device} {v : Value} {reason : RegistryError}
    (h : (draftedEndAddress d v).outcome = .error reason) : reason.message?.isSome = true := by
  unfold draftedEndAddress at h
  split at h
  · cases h
  · split at h
    · split at h
      · cases h
      · obtain rfl := Except.error.inj h
        rfl
    · cases h

/-- A connection is refused with a report. -/
theorem message?_of_addConnection {draft : Connection.Draft} {reason : RegistryError}
    (h : (r.addConnection draft).outcome = .error reason) : reason.message?.isSome = true := by
  have hlink : (r.link draft).outcome = .error reason := by
    -- once there is a connection nothing else is checked
    simp only [addConnection, Journal.outcome_bind, outcome_recordInterface, Outcome.ok_bind,
      Journal.outcome_note, Journal.outcome_pure, Outcome.bind_eq_error] at h
    rcases h with h | ⟨c, -, ⟨⟩⟩
    exact h
  unfold link at hlink
  rcases Journal.bind_eq_error.1 hlink with hends | ⟨⟨s, t⟩, -, hlink⟩
  · rw [Journal.outcome_ofExcept] at hends
    unfold draftedEnds at hends
    repeat' split at hends
    all_goals cases hends
    all_goals rfl
  rcases Journal.bind_eq_error.1 hlink with hspeed | ⟨speed, -, hlink⟩
  · rw [Journal.outcome_ofExcept] at hspeed
    unfold draftedSpeed at hspeed
    split at hspeed
    · cases hspeed
    · split at hspeed
      · cases hspeed
      · obtain rfl := Except.error.inj hspeed
        rfl
  rcases Journal.bind_eq_error.1 hlink with hsource | ⟨sourceIp, -, hlink⟩
  · exact message?_of_draftedEndAddress hsource
  rcases Journal.bind_eq_error.1 hlink with htarget | ⟨targetIp, -, ⟨⟩⟩
  exact message?_of_draftedEndAddress htarget

/-- The registry refuses a change for a reason. -/
def Refuses (r : Registry) (change : Change) (reason : RegistryError) : Prop :=
  match change with
  | .addDevice draft => (r.addDevice draft).outcome = .error reason
  | .addConnection draft => (r.addConnection draft).outcome = .error reason
  | _ => False

end Registry

namespace Design

/-! ## What records ask for -/

/-- A field of a record as a text; a missing one, and one that is null, is null. -/
def textUnder (key : String) (fields : List (Value × Value)) : Value :=
  match Value.lookupSome key fields with
  | some v => .text v.toText
  | none => .null

/-- The entries of the interface addresses in a record: none if they count as false, and nothing if they are
no mapping. -/
def interfaceEntries? (fields : List (Value × Value)) : Option (List (Value × Value)) :=
  let interfaces := (Value.lookup "interface_ips" fields).getD .null
  match interfaces.truthy, interfaces.opened with
  | false, _ => some []
  | true, .dict entries => some entries
  | true, _ => none

/-- What the record of a device asks for, unless it is malformed. -/
def deviceAsked (place : Nat) (v : Value) : Except DesignError Change :=
  match v.opened with
  | .dict fields =>
    match Value.lookup "id" fields, interfaceEntries? fields with
    | none, _ => .error (.deviceMalformed place)
    | some id, none => .error (.interfacesMalformed id.toText)
    | some id, some entries => .ok (.addDevice {
        id := .text id.toText
        type := (Value.lookup "type" fields).getD (.text "vm")
        cpu := textUnder "cpu" fields
        memory := textUnder "memory" fields
        storage := textUnder "storage" fields
        ip := textUnder "ip" fields
        interfaceIps := .dict (Value.inserted
          (entries.map fun e => (.text e.1.toText, .text e.2.toText))) })
  | _ => .error (.deviceMalformed place)

/-- What the record of a connection asks for, unless it is malformed. -/
def connectionAsked (place : Nat) (v : Value) : Except DesignError Change :=
  match v.opened with
  | .dict fields =>
    match Value.lookup "from" fields, Value.lookup "to" fields with
    | some source, some target => .ok (.addConnection {
        source := source.toText
        target := target.toText
        speed := textUnder "speed" fields
        sourceIp := textUnder "from_router_ip" fields
        targetIp := textUnder "to_router_ip" fields })
    | _, _ => .error (.connectionMalformed place)
  | _ => .error (.connectionMalformed place)

/-- What the records of a design ask for, in order: the devices first, each list counted from one. -/
def asked (devices connections : List Value) : List (Except DesignError Change) :=
  (devices.mapIdx fun i v => deviceAsked (i + 1) v) ++
    connections.mapIdx fun i v => connectionAsked (i + 1) v

/-- How the reading of records into a registry ends: the changes that the first of them ask for are made in
full, and the next record, if there is one, is malformed or refused. -/
inductive Folds (r : Registry) (asks : List (Except DesignError Change)) :
    Except Halted Registry → Prop
  /-- All changes are made. -/
  | finished {changes : List Change} {r' : Registry} (records : asks = changes.map .ok)
      (made : r.attemptAll? changes = some r') : Folds r asks (.ok r')
  /-- A record is malformed. -/
  | malformed {changes : List Change} {fault : DesignError} {rest : List (Except DesignError Change)}
      {r' : Registry} (records : asks = changes.map .ok ++ .error fault :: rest)
      (made : r.attemptAll? changes = some r') : Folds r asks (.error ⟨fault, r'⟩)
  /-- The registry that the changes before have left refuses a change. -/
  | refused {changes : List Change} {change : Change} {rest : List (Except DesignError Change)}
      {r' : Registry} {reason : RegistryError}
      (records : asks = changes.map .ok ++ .ok change :: rest)
      (made : r.attemptAll? changes = some r') (refusal : r'.Refuses change reason) :
      Folds r asks (.error ⟨.refused reason, r'⟩)

/-- Without records nothing changes. -/
theorem Folds.nil (r : Registry) : Folds r [] (.ok r) := @finished _ _ [] _ rfl rfl

/-- A malformed first record ends the reading before any change. -/
theorem Folds.malformed_first (r : Registry) (fault : DesignError)
    (asks : List (Except DesignError Change)) : Folds r (.error fault :: asks) (.error ⟨fault, r⟩) :=
  @malformed _ _ [] _ _ _ rfl rfl

/-- So does one that is refused. -/
theorem Folds.refused_first {r : Registry} {change : Change} {reason : RegistryError}
    (asks : List (Except DesignError Change)) (h : r.Refuses change reason) :
    Folds r (.ok change :: asks) (.error ⟨.refused reason, r⟩) :=
  @refused _ _ [] _ _ _ _ rfl rfl h

/-- A change that is made goes before the others. -/
theorem Folds.cons {r r' : Registry} {change : Change} {asks : List (Except DesignError Change)}
    {outcome : Except Halted Registry} (hmade : r.attempt? change = some r')
    (h : Folds r' asks outcome) : Folds r (.ok change :: asks) outcome := by
  have hall : ∀ {changes : List Change} {r'' : Registry}, r'.attemptAll? changes = some r'' →
      r.attemptAll? (change :: changes) = some r'' := by
    intro changes r'' h
    rw [Registry.attemptAll?, List.foldlM_cons, hmade]
    exact h
  cases h with
  | @finished changes _ hrecords hchanges =>
    exact .finished (by rw [hrecords, List.map_cons]) (hall hchanges)
  | @malformed changes fault rest _ hrecords hchanges =>
    exact .malformed (by rw [hrecords, List.map_cons, List.cons_append]) (hall hchanges)
  | @refused changes change' rest _ reason hrecords hchanges hrefusal =>
    exact .refused (by rw [hrecords, List.map_cons, List.cons_append]) (hall hchanges) hrefusal

/-! ## Drafts -/

section Drafts

variable {v : Value} {fields : List (Value × Value)}

theorem written_of_hasText (h : v.hasText = true) : written v = .ok v.toText := by
  rw [written, Value.toText?_of_hasText h]

/-- What is written can be written. -/
theorem hasText_of_written {text : String} (h : written v = .ok text) : v.hasText = true := by
  cases htext : v.hasText with
  | true => rfl
  | false =>
    rw [written, Value.toText?, htext] at h
    cases h

/-- What cannot be written is malformed. -/
theorem written_eq_error {fault : DesignError} (h : written v = .error fault) : fault = .unwritable := by
  unfold written at h
  split at h
  · cases h
  · exact (Except.error.inj h).symm

theorem given_eq_error {key : String} {fault : DesignError}
    (h : given key fields = .error fault) : fault = .unwritable := by
  unfold given at h
  split at h
  · next w _ =>
    cases hw : written w with
    | ok s =>
      rw [hw] at h
      cases h
    | error fault' =>
      rw [hw] at h
      obtain rfl := Except.error.inj h
      exact written_eq_error hw
  · cases h

theorem interfaceTexts_eq_error {entries : List (Value × Value)} {fault : DesignError}
    (h : interfaceTexts entries = .error fault) : fault = .unwritable := by
  unfold interfaceTexts at h
  rcases Outcome.bind_eq_error.1 h with hloop | ⟨_, -, ⟨⟩⟩
  obtain ⟨e, -, he⟩ := Outcome.exists_of_mapM_eq_error hloop
  rcases Outcome.bind_eq_error.1 he with hkey | ⟨_, -, he⟩
  · exact written_eq_error hkey
  rcases Outcome.bind_eq_error.1 he with hvalue | ⟨_, -, ⟨⟩⟩
  exact written_eq_error hvalue

/-- A value is written as its text. -/
theorem eq_toText_of_written {text : String} (h : written v = .ok text) : text = v.toText :=
  (Except.ok.inj ((written_of_hasText (hasText_of_written h)).symm.trans h)).symm

/-- The draft of a device with interface addresses that were written as a mapping. -/
def deviceDraftWith (id : Value) (fields entries : List (Value × Value)) :
    Except DesignError Device.Draft := do
  return {
    id := .text (← written id)
    type := (Value.lookup "type" fields).getD (.text "vm")
    cpu := ← given "cpu" fields
    memory := ← given "memory" fields
    storage := ← given "storage" fields
    ip := ← given "ip" fields
    interfaceIps := ← interfaceTexts entries }

/-- The draft of a written device has the interface addresses of its record, if they are a mapping. -/
theorem deviceDraftOf_eq (id : Value) (fields : List (Value × Value)) :
    deviceDraftOf id fields =
      match interfaceEntries? fields with
      | some entries => deviceDraftWith id fields entries
      | none => written id >>= fun text => .error (.interfacesMalformed text) := by
  unfold deviceDraftOf interfaceEntries?
  dsimp only
  cases htruthy : ((Value.lookup "interface_ips" fields).getD .null).truthy with
  | false => rfl
  | true =>
    cases ((Value.lookup "interface_ips" fields).getD .null).opened with
    | dict entries => rfl
    | _ => cases written id <;> rfl

/-- A field that can be written is read as its text. -/
theorem given_eq_textUnder (h : (Value.dict fields).hasText = true) (key : String) :
    given key fields = .ok (textUnder key fields) := by
  unfold given textUnder
  cases hv : Value.lookupSome key fields with
  | none => rfl
  | some v =>
    have htext := written_of_hasText (Value.hasText_lookup h (Value.lookup_of_lookupSome hv))
    simp only [htext]
    rfl

/-- Interface addresses that can be written are read as texts under texts. -/
theorem interfaceTexts_eq {entries : List (Value × Value)} (h : (Value.dict entries).hasText = true) :
    interfaceTexts entries =
      .ok (.dict (Value.inserted (entries.map fun e => (.text e.1.toText, .text e.2.toText)))) := by
  refine Outcome.bind_eq_ok.2 ⟨_, Outcome.mapM_eq_ok.2 ?_, rfl⟩
  refine List.forall₂_map_right_iff.2 (List.forall₂_same.2 fun e he => ?_)
  obtain ⟨hkey, hvalue⟩ := Value.hasText_dict.1 h e he
  simp only [written_of_hasText hkey, written_of_hasText hvalue]
  rfl

/-- Interface addresses that are read as texts can be written. -/
theorem hasText_of_interfaceTexts {entries : List (Value × Value)} {w : Value}
    (h : interfaceTexts entries = .ok w) : (Value.dict entries).hasText = true := by
  unfold interfaceTexts at h
  obtain ⟨texts, htexts, -⟩ := Outcome.bind_eq_ok.1 h
  refine Value.hasText_dict.2 fun e he => ?_
  obtain ⟨_, -, he⟩ := Outcome.mem_of_mapM_eq_ok htexts he
  obtain ⟨_, hkey, he⟩ := Outcome.bind_eq_ok.1 he
  obtain ⟨_, hvalue, -⟩ := Outcome.bind_eq_ok.1 he
  exact ⟨hasText_of_written hkey, hasText_of_written hvalue⟩

/-- Interface addresses that cannot be written are malformed. -/
theorem interfaceTexts_eq_unwritable {entries : List (Value × Value)}
    (h : (Value.dict entries).hasText = false) : interfaceTexts entries = .error .unwritable := by
  cases hread : interfaceTexts entries with
  | ok w =>
    rw [hasText_of_interfaceTexts hread] at h
    cases h
  | error fault => rw [interfaceTexts_eq_error hread]

/-- What the draft of a written device says, where there is one: the id and the type are those of the record,
and the interface addresses are the texts of its entries, which can be written. -/
theorem deviceDraft_eq_ok {place : Nat} {draft : Device.Draft} (h : deviceDraft place v = .ok draft) :
    ∃ fields id entries, v.opened = .dict fields ∧ Value.lookup "id" fields = some id ∧
      interfaceEntries? fields = some entries ∧ (Value.dict entries).hasText = true ∧
      draft.id = .text id.toText ∧ draft.type = (Value.lookup "type" fields).getD (.text "vm") ∧
      draft.interfaceIps =
        .dict (Value.inserted (entries.map fun e => (.text e.1.toText, .text e.2.toText))) := by
  unfold deviceDraft at h
  split at h
  · next fields hfields =>
    split at h
    · cases h
    · next id hid =>
      rw [deviceDraftOf_eq] at h
      split at h
      · next entries hentries =>
        simp only [deviceDraftWith, Outcome.bind_eq_ok] at h
        obtain ⟨text, hwritten, _, -, _, -, _, -, _, -, w, hw, ⟨⟩⟩ := h
        have htext := hasText_of_interfaceTexts hw
        obtain rfl := Except.ok.inj ((interfaceTexts_eq htext).symm.trans hw)
        refine ⟨fields, id, entries, hfields, hid, hentries, htext, ?_, rfl, rfl⟩
        rw [eq_toText_of_written hwritten]
      · obtain ⟨_, -, ⟨⟩⟩ := Outcome.bind_eq_ok.1 h
  · cases h

/-- The entries of interface addresses that can be written can be written. -/
theorem hasText_interfaceEntries (h : (Value.dict fields).hasText = true)
    {entries : List (Value × Value)} (hentries : interfaceEntries? fields = some entries) :
    (Value.dict entries).hasText = true := by
  have hopened := Value.hasText_opened (Value.hasText_lookup_getD "interface_ips" h
    (rfl : Value.null.hasText = true))
  unfold interfaceEntries? at hentries
  dsimp only at hentries
  split at hentries
  · obtain rfl := Option.some.inj hentries
    rfl
  · next hdict =>
    obtain rfl := Option.some.inj hentries
    rwa [hdict] at hopened
  · cases hentries

/-- The draft of a written device is what its record asks for. -/
theorem deviceDraft_eq_asked (h : v.hasText = true) (place : Nat) :
    (deviceDraft place v).map Change.addDevice = deviceAsked place v := by
  have hopened := Value.hasText_opened h
  unfold deviceDraft deviceAsked
  cases hv : v.opened with
  | dict fields =>
    rw [hv] at hopened
    cases hid : Value.lookup "id" fields with
    | none => simp [hid, Except.map]
    | some id =>
      have hidText := written_of_hasText (Value.hasText_lookup hopened hid)
      simp only [deviceDraftOf, hid, hidText, given_eq_textUnder hopened]
      have hentries := @hasText_interfaceEntries _ hopened
      unfold interfaceEntries? at hentries ⊢
      dsimp only at hentries ⊢
      cases htruthy : ((Value.lookup "interface_ips" fields).getD .null).truthy with
      | false => rfl
      | true =>
        cases hinterfaces : ((Value.lookup "interface_ips" fields).getD .null).opened with
        | dict entries =>
          simp only [htruthy, hinterfaces] at hentries
          have htexts := interfaceTexts_eq (hentries rfl)
          simp only [pure_bind, Outcome.ok_bind, htexts]
          rfl
        | _ => rfl
  | _ => rfl

/-- The draft of a written connection is what its record asks for. -/
theorem connectionDraft_eq_asked (h : v.hasText = true) (place : Nat) :
    (connectionDraft place v).map Change.addConnection = connectionAsked place v := by
  have hopened := Value.hasText_opened h
  unfold connectionDraft connectionAsked
  cases hv : v.opened with
  | dict fields =>
    rw [hv] at hopened
    dsimp only
    cases hsource : Value.lookup "from" fields with
    | none => rfl
    | some source =>
      cases htarget : Value.lookup "to" fields with
      | none => rfl
      | some target =>
        have hsourceText := written_of_hasText (Value.hasText_lookup hopened hsource)
        have htargetText := written_of_hasText (Value.hasText_lookup hopened htarget)
        simp only [hsourceText, htargetText, given_eq_textUnder hopened]
        rfl
  | _ => rfl

end Drafts

/-! ## Readings -/

/-- What a reading of devices that succeeds leaves: the devices that were there, and one for each record. -/
theorem exists_of_addDevices {r r' : Registry} {place : Nat} {vs : List Value}
    (h : (addDevices r place vs).outcome = .ok r') :
    (∀ d ∈ r.devices, d ∈ r'.devices) ∧ ∀ v ∈ vs, ∃ place draft, deviceDraft place v = .ok draft ∧
      ∃ r₁ d, Registry.Accepts r₁ draft d ∧ d ∈ r'.devices := by
  induction vs generalizing r place with
  | nil =>
    obtain rfl := Except.ok.inj h
    exact ⟨fun _ hd => hd, List.forall_mem_nil _⟩
  | cons v rest ih =>
    rw [addDevices] at h
    obtain ⟨draft, hdraft, h⟩ := Journal.bind_eq_ok.1 h
    obtain ⟨⟨r₁, d⟩, hadded, h⟩ := Journal.bind_eq_ok.1 h
    obtain ⟨haccepts, rfl⟩ := Registry.addDevice_eq_ok.1 (Outcome.mapError_eq_ok.1 hadded)
    obtain ⟨hstay, hrest⟩ := ih h
    refine ⟨fun e he => hstay e (List.mem_append_left _ he), List.forall_mem_cons.2 ⟨?_, hrest⟩⟩
    exact ⟨place, draft, Outcome.mapError_eq_ok.1 hdraft, r, d, haccepts,
      hstay d (List.mem_append_right _ (List.mem_singleton_self d))⟩

/-- A reading of connections makes the changes that their records ask for. -/
theorem folds_addConnections (r : Registry) (place : Nat) {vs : List Value}
    (h : ∀ v ∈ vs, v.hasText = true) :
    Folds r (vs.mapIdx fun i v => connectionAsked (i + place) v) (addConnections r place vs).outcome := by
  induction vs generalizing r place with
  | nil => exact .nil r
  | cons v rest ih =>
    rw [List.forall_mem_cons] at h
    have hplaces : (fun (i : Nat) v => connectionAsked (i + 1 + place) v) =
        fun i v => connectionAsked (i + (place + 1)) v := by
      funext i v
      rw [Nat.add_assoc, Nat.add_comm 1 place]
    rw [List.mapIdx_cons, Nat.zero_add, hplaces, ← connectionDraft_eq_asked h.1, addConnections]
    simp only [Journal.outcome_bind, Journal.outcome_mapError, Journal.outcome_ofExcept]
    cases hdraft : connectionDraft place v with
    | error fault => exact .malformed_first r fault _
    | ok draft =>
      simp only [Outcome.mapError_ok, Outcome.ok_bind]
      cases hadded : (r.addConnection draft).outcome with
      | error reason => exact .refused_first _ hadded
      | ok added =>
        have hmade : r.attempt? (.addConnection draft) = some added.1 :=
          Registry.toOption_map_eq_some.2 ⟨added, hadded, rfl⟩
        exact .cons hmade (ih added.1 (place + 1) h.2)

/-- A reading of devices makes the changes that their records ask for, and what is read after them goes on
from there. -/
theorem folds_addDevices (r : Registry) (place : Nat) {vs : List Value} (h : ∀ v ∈ vs, v.hasText = true)
    {asks : List (Except DesignError Change)} {next : Registry → Journal Halted Registry}
    (hnext : ∀ r', Folds r' asks (next r').outcome) :
    Folds r ((vs.mapIdx fun i v => deviceAsked (i + place) v) ++ asks)
      (addDevices r place vs >>= next).outcome := by
  induction vs generalizing r place with
  | nil => exact hnext r
  | cons v rest ih =>
    rw [List.forall_mem_cons] at h
    -- the places of the rest are one further
    have hplaces : (fun (i : Nat) v => deviceAsked (i + 1 + place) v) =
        fun i v => deviceAsked (i + (place + 1)) v := by
      funext i v
      rw [Nat.add_assoc, Nat.add_comm 1 place]
    rw [List.mapIdx_cons, Nat.zero_add, hplaces, ← deviceDraft_eq_asked h.1, addDevices]
    simp only [Journal.outcome_bind, Journal.outcome_mapError, Journal.outcome_ofExcept]
    cases hdraft : deviceDraft place v with
    | error fault => exact .malformed_first r fault _
    | ok draft =>
      simp only [Outcome.mapError_ok, Outcome.ok_bind]
      cases hadded : (r.addDevice draft).outcome with
      | error reason => exact .refused_first _ hadded
      | ok added =>
        have hmade : r.attempt? (.addDevice draft) = some added.1 :=
          Registry.toOption_map_eq_some.2 ⟨added, hadded, rfl⟩
        have hrest := ih added.1 (place + 1) h.2
        rw [Journal.outcome_bind] at hrest
        exact .cons hmade hrest

/-! ## Reports of faults -/

/-- Whether a record that a reading ends at is reported: the fault of a malformed one, and every refusal of
the change that another asks for. -/
def Reported (ask : Except DesignError Change) : Prop :=
  match ask with
  | .error fault => fault.message?.isSome = true
  | .ok change => ∀ (r : Registry) reason, r.Refuses change reason → reason.message?.isSome = true

/-- The record of a device is reported. -/
theorem reported_deviceAsked {v : Value} (h : v.hasText = true) (place : Nat) :
    Reported (deviceAsked place v) := by
  have hopened := Value.hasText_opened h
  unfold deviceAsked
  split
  · next fields hfields =>
    split
    · exact rfl
    · exact rfl
    · rw [hfields] at hopened
      exact fun r reason hrefusal =>
        Registry.message?_of_addDevice (Value.hasText_lookup_getD _ hopened rfl) rfl hrefusal
  · exact rfl

/-- The record of a connection is reported. -/
theorem reported_connectionAsked (place : Nat) (v : Value) : Reported (connectionAsked place v) := by
  unfold connectionAsked
  split
  · split
    · exact fun r reason hrefusal => Registry.message?_of_addConnection hrefusal
    · exact rfl
  · exact rfl

/-- The records of a design are reported. -/
theorem reported_asked {devices connections : List Value} (h : ∀ v ∈ devices, v.hasText = true)
    {ask : Except DesignError Change} (hask : ask ∈ asked devices connections) : Reported ask := by
  rcases List.mem_append.1 hask with hask | hask
  · obtain ⟨i, hi, rfl⟩ := List.mem_mapIdx.1 hask
    exact reported_deviceAsked (h _ (List.getElem_mem hi)) _
  · obtain ⟨i, hi, rfl⟩ := List.mem_mapIdx.1 hask
    exact reported_connectionAsked _ _

/-- A reading of records that are reported ends with a report, if it ends with a fault. -/
theorem Folds.reported {r : Registry} {asks : List (Except DesignError Change)} {halted : Halted}
    (h : Folds r asks (.error halted)) (hall : ∀ ask ∈ asks, Reported ask) :
    halted.error.message?.isSome = true := by
  cases h with
  | @malformed changes fault rest r' hrecords hmade =>
    have hlast : Reported (.error fault) :=
      hall _ (hrecords ▸ List.mem_append_right _ List.mem_cons_self)
    exact hlast
  | @refused changes change rest r' reason hrecords hmade hrefusal =>
    have hlast : Reported (.ok change) :=
      hall _ (hrecords ▸ List.mem_append_right _ List.mem_cons_self)
    exact hlast r' reason hrefusal

/-! ## Designs -/

/-- The records of a design, those of devices and those of connections, if it is a mapping with two lists.
What counts as false is an empty list. -/
def records? (data : Value) : Option (List Value × List Value) :=
  match data.opened with
  | .dict fields =>
    match listUnder? "devices" fields, listUnder? "connections" fields with
    | some devices, some connections => some (devices, connections)
    | _, _ => none
  | _ => none

/-- The items of a list in a mapping that can be written can be written. -/
theorem hasText_of_mem_listUnder {key : String} {fields : List (Value × Value)}
    (h : (Value.dict fields).hasText = true) {items : List Value}
    (hitems : listUnder? key fields = some items) : ∀ v ∈ items, v.hasText = true := by
  have hopened := Value.hasText_opened (Value.hasText_lookup_getD key h
    (rfl : Value.null.hasText = true))
  unfold listUnder? at hitems
  dsimp only at hitems
  split at hitems
  · obtain rfl := Option.some.inj hitems
    exact List.forall_mem_nil _
  · next hlist =>
    obtain rfl := Option.some.inj hitems
    rw [hlist] at hopened
    exact Value.hasText_list.1 hopened
  · cases hitems

/-- A document that is no mapping with two lists changes nothing, and this is reported. -/
theorem readInto_of_records?_eq_none (r : Registry) {data : Value} (h : records? data = none) :
    ∃ fault, (readInto r data).outcome = .error ⟨fault, r⟩ ∧ fault.message?.isSome = true := by
  unfold records? at h
  unfold readInto
  cases hopened : data.opened with
  | dict fields =>
    simp only [hopened] at h
    refine ⟨.notLists, ?_, rfl⟩
    dsimp only
    cases hdevices : listUnder? "devices" fields with
    | none => rfl
    | some devices =>
      cases hconnections : listUnder? "connections" fields with
      | none => rfl
      | some connections =>
        simp only [hdevices, hconnections] at h
        cases h
  | _ => exact ⟨.notAMapping, rfl, rfl⟩

/-- A document that is a mapping with two lists is read record by record. -/
theorem outcome_readInto (r : Registry) {data : Value} {devices connections : List Value}
    (h : records? data = some (devices, connections)) :
    (readInto r data).outcome =
      (addDevices r 1 devices >>= fun r' => addConnections r' 1 connections).outcome := by
  unfold records? at h
  split at h
  · next fields hfields =>
    split at h
    · next hdevices hconnections =>
      obtain ⟨rfl, rfl⟩ := Prod.mk.inj (Option.some.inj h)
      unfold readInto
      simp only [hfields, hdevices, hconnections]
    · cases h
  · cases h

/-- A document that is a mapping with two lists is read record by record, and its records can be written if
it can. -/
theorem readInto_of_records? (r : Registry) {data : Value} (h : data.hasText = true)
    {devices connections : List Value} (hrecords : records? data = some (devices, connections)) :
    (∀ v ∈ devices, v.hasText = true) ∧ (∀ v ∈ connections, v.hasText = true) ∧
      (readInto r data).outcome =
        (addDevices r 1 devices >>= fun r' => addConnections r' 1 connections).outcome := by
  have hread := outcome_readInto r hrecords
  have hopened := Value.hasText_opened h
  unfold records? at hrecords
  split at hrecords
  · next fields hfields =>
    rw [hfields] at hopened
    split at hrecords
    · next hdevices hconnections =>
      obtain ⟨rfl, rfl⟩ := Prod.mk.inj (Option.some.inj hrecords)
      exact ⟨hasText_of_mem_listUnder hopened hdevices, hasText_of_mem_listUnder hopened hconnections, hread⟩
    · cases hrecords
  · cases hrecords

/-- Reading a design into a registry is asking the registry for one change after the other. Whatever the
registry holds and whatever the design is, as long as its numbers can be written:

* a fault is always reported, the refusal of a record as the registry reports it;
* a design that is a mapping with two lists makes the changes that its records ask for, in their order, up to
  the first record that is malformed or refused, and leaves the registry with these changes;
* any other document leaves the registry as it was. -/
theorem readInto_folds (r : Registry) {data : Value} (h : data.hasText = true) :
    (∀ halted, (readInto r data).outcome = .error halted → ∃ message,
      halted.error.message? = some message ∧
        ∀ reason, halted.error = .refused reason → reason.message? = some message) ∧
    (∀ devices connections, records? data = some (devices, connections) →
      Folds r (asked devices connections) (readInto r data).outcome) ∧
    (records? data = none → ∃ fault, (readInto r data).outcome = .error ⟨fault, r⟩) := by
  have hfolds : ∀ devices connections, records? data = some (devices, connections) →
      Folds r (asked devices connections) (readInto r data).outcome := by
    intro devices connections hrecords
    obtain ⟨hdevices, hconnections, hread⟩ := readInto_of_records? r h hrecords
    rw [hread]
    exact folds_addDevices r 1 hdevices fun r' => folds_addConnections r' 1 hconnections
  refine ⟨?_, hfolds, ?_⟩
  · intro halted hhalted
    have hreport : halted.error.message?.isSome = true := by
      cases hrecords : records? data with
      | none =>
        obtain ⟨fault, hfault, hmessage⟩ := readInto_of_records?_eq_none r hrecords
        obtain rfl := Except.error.inj (hhalted.symm.trans hfault)
        exact hmessage
      | some lists =>
        obtain ⟨hdevices, -, -⟩ := readInto_of_records? r h hrecords
        have hrun := hfolds lists.1 lists.2 hrecords
        rw [hhalted] at hrun
        exact hrun.reported fun ask hask => reported_asked hdevices hask
    obtain ⟨message, hmessage⟩ := Option.isSome_iff_exists.1 hreport
    refine ⟨message, hmessage, fun reason hreason => ?_⟩
    rwa [hreason] at hmessage
  · intro hnone
    obtain ⟨fault, hfault, -⟩ := readInto_of_records?_eq_none r hnone
    exact ⟨fault, hfault⟩

/-- A design whose second device has the id of the first. -/
def takenId : Value := .record [
  ("devices", .list [.record [("id", .text "R1"), ("type", .text "router")],
    .record [("id", .text " R1 ")], .record [("id", .text "B"), ("cpu", .null)]]),
  ("connections", .list [.record [("from", .text "R1"), ("to", .text "B")]])]

/-- The first device is taken in, the second is refused, and nothing after it is read. -/
theorem readInto_folds_takenId :
    takenId.hasText = true ∧
    (∃ devices connections, records? takenId = some (devices, connections) ∧
      (asked devices connections).length = 4 ∧
      Folds .empty (asked devices connections) (readInto .empty takenId).outcome) ∧
    (left (readInto .empty takenId).outcome).devices.map Device.id = ["R1"] :=
  ⟨rfl, ⟨_, _, rfl, rfl, (readInto_folds .empty rfl).2.1 _ _ rfl⟩, by decide +kernel⟩

end Design

end VirtNet
