import VirtNet.Proofs.Registry.Addressing

/-!
# Designs that repeat their ids

The connections of a written design name their ends by ids of its devices. A reading looks them up as they
are written, while the devices have their ids without the blanks around them. So a design whose connections
repeat the ids as the devices give them is read as far as its ends go, exactly when no end has blanks
around it (`text_addresses_iff`).
-/

namespace VirtNet.Design

open Registry

variable {r r' : Registry} {place : Nat} {v : Value} {text : String}

/-- The text of a field of a record, if the record has the field. -/
def fieldText? (key : String) (v : Value) : Option String :=
  match v.opened with
  | .dict fields => (Value.lookup key fields).map Value.toText
  | _ => none

theorem fieldText?_eq {fields : List (Value × Value)} (h : v.opened = .dict fields) (key : String) :
    fieldText? key v = (Value.lookup key fields).map Value.toText := by
  rw [fieldText?, h]

/-- The record of a connection names an end by this text. -/
def NamesEnd (v : Value) (text : String) : Prop :=
  fieldText? "from" v = some text ∨ fieldText? "to" v = some text

/-- Each end of a connection is named by a text that a device gives as its id. -/
def RepeatsIds (devices connections : List Value) : Prop :=
  ∀ v ∈ connections, ∀ text, NamesEnd v text → ∃ w ∈ devices, fieldText? "id" w = some text

/-- The id of a drafted device is the one of its record. -/
theorem fieldText?_of_deviceDraft {draft : Device.Draft} (h : deviceDraft place v = .ok draft) :
    ∃ text, fieldText? "id" v = some text ∧ draft.id = .text text := by
  obtain ⟨fields, id, -, hfields, hid, -, -, hdraft, -⟩ := deviceDraft_eq_ok h
  exact ⟨id.toText, by rw [fieldText?_eq hfields, hid, Option.map_some], hdraft⟩

/-- The ends of a drafted connection are those of its record. -/
theorem fieldText?_of_connectionDraft {draft : Connection.Draft}
    (h : connectionDraft place v = .ok draft) :
    fieldText? "from" v = some draft.source ∧ fieldText? "to" v = some draft.target := by
  unfold connectionDraft at h
  split at h
  · next fields hfields =>
    split at h
    · next source target hsource htarget =>
      simp only [Outcome.bind_eq_ok] at h
      obtain ⟨s, hs, t, ht, _, -, _, -, _, -, ⟨⟩⟩ := h
      rw [fieldText?_eq hfields, fieldText?_eq hfields, hsource, htarget, Option.map_some, Option.map_some,
        eq_toText_of_written hs, eq_toText_of_written ht]
      exact ⟨rfl, rfl⟩
    · cases h
  · cases h

/-- A record of a device that gives no draft is malformed; the registry is not asked. -/
theorem deviceDraft_ne_refused (place : Nat) (v : Value) (reason : RegistryError) :
    deviceDraft place v ≠ .error (.refused reason) := by
  intro h
  unfold deviceDraft at h
  split at h
  · split at h
    · cases h
    · rw [deviceDraftOf_eq] at h
      split at h
      · unfold deviceDraftWith at h
        simp only [Outcome.bind_eq_error] at h
        rcases h with h | ⟨_, -, h | ⟨_, -, h | ⟨_, -, h | ⟨_, -, h | ⟨_, -, h | ⟨_, -, ⟨⟩⟩⟩⟩⟩⟩⟩
        · cases written_eq_error h
        · cases given_eq_error h
        · cases given_eq_error h
        · cases given_eq_error h
        · cases given_eq_error h
        · cases interfaceTexts_eq_error h
      · rcases Outcome.bind_eq_error.1 h with h | ⟨_, -, ⟨⟩⟩
        cases written_eq_error h
  · cases h

/-- The same for a record of a connection. -/
theorem connectionDraft_ne_refused (place : Nat) (v : Value) (reason : RegistryError) :
    connectionDraft place v ≠ .error (.refused reason) := by
  intro h
  unfold connectionDraft at h
  split at h
  · split at h
    · simp only [Outcome.bind_eq_error] at h
      rcases h with h | ⟨_, -, h | ⟨_, -, h | ⟨_, -, h | ⟨_, -, h | ⟨_, -, ⟨⟩⟩⟩⟩⟩⟩
      · cases written_eq_error h
      · cases written_eq_error h
      · cases given_eq_error h
      · cases given_eq_error h
      · cases given_eq_error h
    · cases h
  · cases h

/-! ### Readings -/

/-- A reading of devices is not ended by an unknown end. -/
theorem addDevices_ne_endpointUnknown {vs : List Value} {halted : Halted}
    (h : (addDevices r place vs).outcome = .error halted) : halted.error ≠ .refused .endpointUnknown := by
  induction vs generalizing r place with
  | nil => cases h
  | cons v rest ih =>
    rw [addDevices] at h
    rcases Journal.bind_eq_error.1 h with hdraft | ⟨draft, -, h⟩
    · obtain ⟨fault, hfault, rfl⟩ := Outcome.mapError_eq_error.1 hdraft
      rintro rfl
      exact deviceDraft_ne_refused place v _ hfault
    rcases Journal.bind_eq_error.1 h with hadded | ⟨added, -, h⟩
    · obtain ⟨reason, hreason, rfl⟩ := Outcome.mapError_eq_error.1 hadded
      rintro ⟨⟩
      exact addDevice_ne_endpointUnknown draft hreason
    · exact ih h

/-- The ends of written connections are ids of devices. -/
def KnowsEnds (r : Registry) (connections : List Value) : Prop :=
  ∀ v ∈ connections, ∀ text, NamesEnd v text → ∃ d ∈ r.devices, d.id = text

/-- A connection that is taken in leaves the ids of the devices. -/
theorem exists_mem_joined_iff (c : Connection) (id : String) :
    (∃ d ∈ (r.joined c).devices, d.id = id) ↔ ∃ d ∈ r.devices, d.id = id := by
  simp [joined]

/-- A reading of connections that succeeds has found their ends. -/
theorem knowsEnds_of_addConnections {vs : List Value}
    (h : (addConnections r place vs).outcome = .ok r') : KnowsEnds r vs := by
  induction vs generalizing r place with
  | nil => exact List.forall_mem_nil _
  | cons v rest ih =>
    rw [addConnections] at h
    obtain ⟨draft, hdraft, h⟩ := Journal.bind_eq_ok.1 h
    obtain ⟨⟨r₁, c⟩, hadded, h⟩ := Journal.bind_eq_ok.1 h
    simp only [Journal.outcome_mapError, Journal.outcome_ofExcept, Outcome.mapError_eq_ok] at hdraft hadded
    obtain ⟨⟨s, t, hc⟩, rfl⟩ := addConnection_eq_ok.1 hadded
    refine List.forall_mem_cons.2 ⟨?_, ?_⟩
    · obtain ⟨hsource, htarget⟩ := fieldText?_of_connectionDraft hdraft
      rintro text (htext | htext)
      · obtain rfl := Option.some.inj (hsource.symm.trans htext)
        exact ⟨s, device?_eq_some hc.source⟩
      · obtain rfl := Option.some.inj (htarget.symm.trans htext)
        exact ⟨t, device?_eq_some hc.target⟩
    · intro w hw text htext
      exact (exists_mem_joined_iff c text).1 (ih h w hw text htext)

/-- A reading of connections whose ends are there is not ended by an unknown end. -/
theorem addConnections_ne_endpointUnknown {vs : List Value} (hknown : KnowsEnds r vs) {halted : Halted}
    (h : (addConnections r place vs).outcome = .error halted) :
    halted.error ≠ .refused .endpointUnknown := by
  induction vs generalizing r place with
  | nil => cases h
  | cons v rest ih =>
    obtain ⟨hv, hrest⟩ := List.forall_mem_cons.1 hknown
    rw [addConnections] at h
    -- the draft, the registry or the reading of the rest may end it
    rcases Journal.bind_eq_error.1 h with hdraft | ⟨draft, hdraft, h⟩
    · obtain ⟨fault, hfault, rfl⟩ := Outcome.mapError_eq_error.1 hdraft
      rintro rfl
      exact connectionDraft_ne_refused place v _ hfault
    rcases Journal.bind_eq_error.1 h with hadded | ⟨⟨r₁, c⟩, hadded, h⟩
    · obtain ⟨reason, hreason, rfl⟩ := Outcome.mapError_eq_error.1 hadded
      rintro ⟨⟩
      have hsome : ∀ text, NamesEnd v text → r.device? text ≠ none := by
        intro text htext hnone
        obtain ⟨d, hd, hid⟩ := hv text htext
        exact device?_eq_none.1 hnone d hd hid
      obtain ⟨hsource, htarget⟩ := fieldText?_of_connectionDraft (Outcome.mapError_eq_ok.1 hdraft)
      rcases addConnection_eq_endpointUnknown.1 hreason with hnone | hnone
      · exact hsome _ (.inl hsource) hnone
      · exact hsome _ (.inr htarget) hnone
    · obtain ⟨-, rfl⟩ := addConnection_eq_ok.1 (Outcome.mapError_eq_ok.1 hadded)
      refine ih ?_ h
      intro w hw text htext
      exact (exists_mem_joined_iff c text).2 (hrest w hw text htext)

/-- Whatever a registry went through, the text that was given as the id of a device stands for the device,
once it is taken in, exactly when there are no blanks around it; else it stands for no device. A design
whose connections name their ends by the texts that its devices give as their ids ends with an unknown end
only if there are blanks around one of these texts, and if there are, it is not read. -/
theorem text_addresses_iff (history : List Change) :
    (∀ text draft r' d, draft.id = .text text →
      ((after history).addDevice draft).outcome = .ok (r', d) →
        (r'.Addresses text d ↔ Text.strip text = text) ∧ (Text.strip text ≠ text → r'.Misses text)) ∧
    ∀ data devices connections, records? data = some (devices, connections) →
      RepeatsIds devices connections →
        (∀ halted, (readInto (after history) data).outcome = .error halted →
          halted.error = .refused .endpointUnknown →
            ∃ v ∈ connections, ∃ text, NamesEnd v text ∧ Text.strip text ≠ text) ∧
        ((∃ v ∈ connections, ∃ text, NamesEnd v text ∧ Text.strip text ≠ text) →
          ∃ halted, (readInto (after history) data).outcome = .error halted) := by
  have hr : (after history).WellFormed := wellFormed_after history
  refine ⟨?_, ?_⟩
  · intro text draft r' d htext hok
    obtain ⟨haccepts, rfl⟩ := addDevice_eq_ok.1 hok
    exact hr.addresses_iff_of_accepts haccepts htext
  · intro data devices connections hrecords hrepeats
    rw [outcome_readInto _ hrecords]
    refine ⟨?_, ?_⟩
    · intro halted hhalted hunknown
      rcases Journal.bind_eq_error.1 hhalted with hdevices | ⟨r₁, hdevices, hconnections⟩
      · exact absurd hunknown (addDevices_ne_endpointUnknown hdevices)
      by_contra hnone
      refine addConnections_ne_endpointUnknown ?_ hconnections hunknown
      intro v hv text htext
      obtain ⟨w, hw, hid⟩ := hrepeats v hv text htext
      obtain ⟨_, draft, hdraft, _, d, haccepts, hd⟩ := (exists_of_addDevices hdevices).2 w hw
      obtain ⟨text', htext', hdid⟩ := fieldText?_of_deviceDraft hdraft
      have hsame : text' = text := Option.some.inj (htext'.symm.trans hid)
      rw [hsame] at hdid
      refine ⟨d, hd, (haccepts.id_eq hdid).trans ?_⟩
      by_contra hpadded
      exact hnone ⟨v, hv, text, htext, hpadded⟩
    · rintro ⟨v, hv, text, htext, hpadded⟩
      -- were the design read, a device would have the padded text as its id
      cases hread : (addDevices (after history) 1 devices >>= fun r' =>
          addConnections r' 1 connections).outcome with
      | error halted => exact ⟨halted, rfl⟩
      | ok r₂ =>
        obtain ⟨r₁, hdevices, hconnections⟩ := Journal.bind_eq_ok.1 hread
        have hr₁ := addDevices_keeps (D := fun _ => True) (fun _ _ _ _ h hd => WellFormed.accepted h hd)
          devices (fun _ _ _ _ _ => trivial) _ 1 hr
        rw [hdevices] at hr₁
        obtain ⟨d, hd, hid⟩ := knowsEnds_of_addConnections hconnections v hv text htext
        exact absurd hid (hr₁.ne_of_padded hpadded d hd)

/-- A router whose id is given with a blank after it, and a connection that repeats the id. -/
def paddedId : Value := .record [
  ("devices", .list [.record [("id", .text "R "), ("type", .text "router")], .record [("id", .text "b")]]),
  ("connections", .list [.record [("from", .text "R "), ("to", .text "b")]])]

/-- The router is taken in, but nothing finds it by the text that was given, neither lookup nor the
connection of a design. -/
theorem text_addresses_padded :
    (∃ r' d, ((after []).addDevice { id := .text "R ", type := .text "router" }).outcome = .ok (r', d) ∧
      r'.device "R " = .error (.deviceUnknown "R ")) ∧
    ∃ devices connections, records? paddedId = some (devices, connections) ∧
      RepeatsIds devices connections ∧
      ∃ halted, (readInto (after []) paddedId).outcome = .error halted ∧
        halted.error = .refused .endpointUnknown := by
  refine ⟨⟨_, _, rfl, by decide +kernel⟩, _, _, rfl, ?_, _, rfl, by decide +kernel⟩
  intro v hv text htext
  obtain rfl := List.mem_singleton.1 hv
  rcases htext with htext | htext
  · obtain rfl : "R " = text := Option.some.inj htext
    exact ⟨_, List.mem_cons_self, rfl⟩
  · obtain rfl : "b" = text := Option.some.inj htext
    exact ⟨_, List.mem_cons_of_mem _ List.mem_cons_self, rfl⟩

end VirtNet.Design
