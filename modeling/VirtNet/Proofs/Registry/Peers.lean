import VirtNet.Proofs.Registry.Additions
import VirtNet.Proofs.Registry.Removal

/-!
# Addresses towards devices that are not there

A router may be drafted with an address towards a peer that does not exist yet. Any other interface address
is towards a device of the registry (`tied_after`): a connection has both of its ends there, and a removal
takes the addresses towards the removed device along. So a removal that finds no device drops no more than
addresses that were drafted for it, and it changes nothing exactly when there are none
(`deleteDevice_unchanged_iff`).
-/

namespace VirtNet.Registry

variable {r r' : Registry} {id key : String} {d : Device} {c : Connection} {S : String → Prop}

/-! ## Where interface addresses come from -/

/-- Every key of an interface address is that of a device of the registry, or `S` tells of it. -/
def Tied (S : String → Prop) (r : Registry) : Prop :=
  ∀ d ∈ r.devices, ∀ key ∈ d.interfaceIps.keys,
    (∃ e ∈ r.devices, key = Device.interfaceKey e.id) ∨ S key

/-- A connection brings no keys but those of its ends. -/
theorem mem_keys_withLink (h : key ∈ (withLink c d).interfaceIps.keys) :
    key ∈ d.interfaceIps.keys ∨ key = Device.interfaceKey c.source ∨ key = Device.interfaceKey c.target := by
  rw [← OrderedMap.isSome_get?_iff, withLink, get?_withInterface, get?_withInterface] at h
  split at h
  · next htarget => exact .inr (.inl htarget.2)
  · split at h
    · next hsource => exact .inr (.inr hsource.2)
    · exact .inl (OrderedMap.isSome_get?_iff.1 h)

/-- A device that is taken in has keys that its draft supplies. -/
theorem Tied.accepted (h : r.Tied S) {draft : Device.Draft} (hd : r.Accepts draft d)
    (hdraft : ∀ key, draft.supplies key = true → S key) :
    Tied S ⟨r.devices ++ [d], r.connections⟩ := by
  intro e he key hkey
  rcases List.mem_append.1 he with he | he
  · refine (h e he key hkey).imp_left ?_
    rintro ⟨peer, hpeer, rfl⟩
    exact ⟨peer, List.mem_append_left _ hpeer, rfl⟩
  · rw [List.mem_singleton.1 he] at hkey
    exact .inr (hdraft key (hd.supplies hkey))

/-- The ends of a connection that is taken in are devices of the registry. -/
theorem Tied.joined (h : r.Tied S) {draft : Connection.Draft} {s t : Device}
    (hc : r.Links draft s t c) : (r.joined c).Tied S := by
  have hstays : ∀ peer ∈ r.devices, ∃ e ∈ (r.joined c).devices,
      Device.interfaceKey peer.id = Device.interfaceKey e.id := fun peer hpeer =>
    ⟨withLink c peer, List.mem_map_of_mem hpeer, by rw [withLink_id]⟩
  obtain ⟨⟨hs, hsid⟩, ht, htid⟩ := hc.mem
  intro e he key hkey
  obtain ⟨d, hd, rfl⟩ := List.mem_map.1 he
  rcases mem_keys_withLink hkey with hold | rfl | rfl
  · refine (h d hd key hold).imp_left ?_
    rintro ⟨peer, hpeer, rfl⟩
    exact hstays peer hpeer
  · exact .inl (hsid ▸ hstays s hs)
  · exact .inl (htid ▸ hstays t ht)

/-- With a device go the addresses towards it. -/
theorem Tied.without (h : r.Tied S) (id : String) : (r.without id).Tied S := by
  intro e he key hkey
  obtain ⟨d, hd, rfl⟩ := exists_of_mem_without he
  rw [dropInterface, OrderedMap.keys_erase, List.mem_filter, decide_eq_true_eq] at hkey
  refine (h d hd key hkey.1).imp_left ?_
  rintro ⟨peer, hpeer, rfl⟩
  have hne : peer.id ≠ id := fun hid => hkey.2 (by rw [hid])
  exact ⟨dropInterface id peer, mem_without hpeer hne, rfl⟩

/-- Whatever a registry went through, an interface address in it is towards one of its devices or was
supplied with a draft. -/
theorem tied_after (history : List Change) :
    (after history).Tied fun key =>
      ∃ change ∈ history, ∃ draft, change.Offers draft ∧ draft.supplies key = true := by
  refine after_induction_offered ?empty ?device ?connection ?removal
  case empty => exact fun d hd => absurd hd List.not_mem_nil
  case device =>
    rintro r draft d ⟨change, hchange, hoffer⟩ h hd
    exact h.accepted hd fun key hkey => ⟨change, hchange, draft, hoffer, hkey⟩
  case connection => exact fun r draft s t c h hc => h.joined hc
  case removal => exact fun r id h => h.without id

/-! ## Removals that find nothing -/

/-- A removal counts no device exactly when no device has the id. -/
theorem length_sub_without_eq_zero_iff :
    r.devices.length - (r.without id).devices.length = 0 ↔ ∀ d ∈ r.devices, d.id ≠ id := by
  have hlength : (r.without id).devices.length = (r.devices.filter (·.id != id)).length :=
    List.length_map _
  have hle := List.length_filter_le (fun d : Device => d.id != id) r.devices
  have hall := @List.length_filter_eq_length_iff _ (fun d : Device => d.id != id) r.devices
  simp only [bne_iff_ne] at hall
  rw [hlength, ← hall]
  omega

/-- The devices after a removal that finds none are those before, less an address towards the id. -/
theorem devices_without (h : ∀ d ∈ r.devices, d.id ≠ id) :
    (r.without id).devices = r.devices.map (dropInterface id) := by
  have hstay : r.devices.filter (·.id != id) = r.devices := by
    refine List.filter_eq_self.2 fun d hd => ?_
    simpa using h d hd
  rw [without, hstay]

/-- A removal leaves no address towards the removed device. -/
theorem not_mem_keys_of_mem_without (h : d ∈ (r.without id).devices) :
    Device.interfaceKey id ∉ d.interfaceIps.keys := by
  obtain ⟨e, -, rfl⟩ := exists_of_mem_without h
  simp [dropInterface, OrderedMap.keys_erase]

/-- Whatever a registry went through, a removal from it that counts no device and no connection finds no
device with the id. It leaves the connections, and each device in its place but for an address towards the
id. So it changes nothing exactly when no device keeps such an address; and if one does, the address was
supplied with the draft of a device. -/
theorem deleteDevice_unchanged_iff (history : List Change) {id : String} {r' : Registry}
    (h : ((after history).deleteDevice id : Journal RegistryError (Registry × Nat × Nat)).outcome =
      .ok (r', 0, 0)) :
    (∀ d ∈ (after history).devices, d.id ≠ id) ∧
    r'.connections = (after history).connections ∧
    r'.devices = (after history).devices.map (dropInterface id) ∧
    (r' = after history ↔
      ∀ d ∈ (after history).devices, Device.interfaceKey id ∉ d.interfaceIps.keys) ∧
    (r' ≠ after history → ∃ change ∈ history, ∃ draft,
      change.Offers draft ∧ draft.supplies (Device.interfaceKey id) = true) := by
  have hr : (after history).WellFormed := wellFormed_after history
  obtain ⟨rfl, hcounts⟩ := Prod.mk.inj (Except.ok.inj h)
  have hnone := length_sub_without_eq_zero_iff.1 (Prod.mk.inj hcounts).1
  have hunchanged : (after history).without id = after history ↔
      ∀ d ∈ (after history).devices, Device.interfaceKey id ∉ d.interfaceIps.keys := by
    constructor
    · intro hsame d hd
      rw [← hsame] at hd
      exact not_mem_keys_of_mem_without hd
    · exact fun hkeys => without_eq_self hnone hkeys (hr.touches_eq_false hnone)
  refine ⟨hnone, hr.connections_without hnone, devices_without hnone, hunchanged, ?_⟩
  intro hchanged
  rw [Ne, hunchanged] at hchanged
  simp only [not_forall, not_not] at hchanged
  obtain ⟨d, hd, hkey⟩ := hchanged
  -- no device has the id, so the key is not that of a device
  refine (tied_after history d hd _ hkey).resolve_left ?_
  rintro ⟨e, he, hid⟩
  exact hnone e he (Device.interfaceKey_inj.1 hid).symm

/-- A router with an address towards a peer that is not there. -/
def expectant : List Change := [.addDevice {
  id := .text "R"
  type := .text "router"
  interfaceIps := .record [("to_b", .text "10.0.0.1"), ("to_c", .text "10.0.1.1")] }]

/-- Removing another device that is not there changes nothing. -/
theorem deleteDevice_unchanged_other : ∃ r',
    ((after expectant).deleteDevice "a" : Journal RegistryError (Registry × Nat × Nat)).outcome =
      .ok (r', 0, 0) ∧ r' = after expectant := by
  have hnone : ∀ d ∈ (after expectant).devices, Device.interfaceKey "a" ∉ d.interfaceIps.keys := by
    decide +kernel
  exact ⟨_, rfl, (deleteDevice_unchanged_iff expectant rfl).2.2.2.1.2 hnone⟩

/-- Removing the peer that is not there removes no device and no connection, but the router loses its
address. -/
theorem deleteDevice_expected : ∃ r',
    ((after expectant).deleteDevice "b" : Journal RegistryError (Registry × Nat × Nat)).outcome =
      .ok (r', 0, 0) ∧ r' ≠ after expectant := ⟨_, rfl, by decide +kernel⟩

end VirtNet.Registry
