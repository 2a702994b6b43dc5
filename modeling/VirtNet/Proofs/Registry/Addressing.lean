import VirtNet.Proofs.Design.Loading
import VirtNet.Proofs.Registry.Peers

/-!
# Devices by the text that was given as their id

A registry keeps a device under its id without the blanks around it. Lookup, connections and removals take
an id as it is given. So the text that was given as the id of a device stands for the device exactly when
there are no blanks around it, and else for nothing (`addresses_iff_of_accepts`).
-/

namespace VirtNet

/-- A text that was cleaned is the text without the blanks around it. -/
theorem Value.eq_strip_of_cleaned?_text {s t : String} (h : (Value.text s).cleaned? = some t) :
    t = Text.strip s := by
  unfold cleaned? at h
  simp only [Option.ite_none_left_eq_some, Option.some.injEq] at h
  exact h.2.symm

namespace Registry

variable {r r' : Registry} {text : String} {d : Device}

/-! ## Unknown ends -/

/-- The ends of a connection are unknown when one of them is. -/
theorem draftedEnds_eq_endpointUnknown {draft : Connection.Draft} :
    r.draftedEnds draft = .error .endpointUnknown ↔
      r.device? draft.source = none ∨ r.device? draft.target = none := by
  unfold draftedEnds
  cases hs : r.device? draft.source with
  | none => simp
  | some s =>
    cases ht : r.device? draft.target with
    | none => simp
    | some t =>
      -- every other refusal has a reason of its own
      simp only [reduceCtorEq, or_self, iff_false]
      repeat' split
      all_goals simp

theorem draftedSpeed_ne_endpointUnknown (v : Value) : draftedSpeed v ≠ .error .endpointUnknown := by
  unfold draftedSpeed
  repeat' split
  all_goals simp

theorem draftedEndAddress_ne_endpointUnknown (d : Device) (v : Value) :
    (draftedEndAddress d v).outcome ≠ .error .endpointUnknown := by
  unfold draftedEndAddress
  repeat' split
  all_goals intro h
  all_goals cases h

/-- A connection is refused for an unknown end when one of its ends is unknown. -/
theorem addConnection_eq_endpointUnknown {draft : Connection.Draft} :
    (r.addConnection draft).outcome = .error .endpointUnknown ↔
      r.device? draft.source = none ∨ r.device? draft.target = none := by
  rw [← draftedEnds_eq_endpointUnknown]
  simp only [addConnection, link, Journal.outcome_bind, Journal.outcome_ofExcept, Journal.outcome_note,
    Journal.outcome_pure, outcome_recordInterface, Outcome.bind_eq_error, Outcome.ok_bind,
    draftedSpeed_ne_endpointUnknown, draftedEndAddress_ne_endpointUnknown, reduceCtorEq, and_false,
    exists_false, or_false]

/-- A device is never refused for an unknown end. -/
theorem addDevice_ne_endpointUnknown (draft : Device.Draft) :
    (r.addDevice draft).outcome ≠ .error .endpointUnknown := by
  intro h
  cases deviceRefusal_of_addDevice h with
  | type hkind =>
    unfold draftedType at hkind
    dsimp only at hkind
    split at hkind
    · cases hkind
    · split at hkind
      · cases hkind
      · cases hkind

/-! ## What a text stands for -/

/-- In the registry `r` the text stands for the device `d`. -/
structure Addresses (r : Registry) (text : String) (d : Device) : Prop where
  /-- Lookup of the text finds the device. -/
  device : r.device text = .ok d
  /-- A connection from the text is one from the device; its other end alone may be unknown. -/
  source : ∀ draft : Connection.Draft, draft.source = text →
    ((r.addConnection draft).outcome = .error .endpointUnknown ↔ r.device? draft.target = none) ∧
      ∀ r' c, (r.addConnection draft).outcome = .ok (r', c) → c.source = d.id
  /-- So is a connection to the text. -/
  target : ∀ draft : Connection.Draft, draft.target = text →
    ((r.addConnection draft).outcome = .error .endpointUnknown ↔ r.device? draft.source = none) ∧
      ∀ r' c, (r.addConnection draft).outcome = .ok (r', c) → c.target = d.id
  /-- A removal of the text removes the device, its connections, and the addresses towards it. -/
  removal : ∃ rest n, (r.deleteDevice text : Journal RegistryError (Registry × Nat × Nat)).outcome =
      .ok (rest, 1, n) ∧
    rest.devices = (r.devices.erase d).map (dropInterface d.id) ∧
    rest.connections = r.connections.filter fun c => !touches d.id c

/-- In the registry `r` the text stands for no device. -/
structure Misses (r : Registry) (text : String) : Prop where
  device : r.device text = .error (.deviceUnknown text)
  connection : ∀ draft : Connection.Draft, draft.source = text ∨ draft.target = text →
    (r.addConnection draft).outcome = .error .endpointUnknown
  removal : ∃ rest, (r.deleteDevice text : Journal RegistryError (Registry × Nat × Nat)).outcome =
      .ok (rest, 0, 0) ∧
    rest.devices = r.devices.map (dropInterface text) ∧ rest.connections = r.connections

theorem outcome_deleteDevice (r : Registry) (id : String) :
    (r.deleteDevice id : Journal RegistryError (Registry × Nat × Nat)).outcome =
      .ok (r.without id, r.devices.length - (r.without id).devices.length,
        r.connections.length - (r.without id).connections.length) := rfl

/-- The id of a device stands for the device. -/
theorem WellFormed.addresses (h : r.WellFormed) (hd : d ∈ r.devices) : r.Addresses d.id d where
  device := by
    have hfound : r.device? d.id = some d := h.devices.device? hd
    rw [device, hfound]
  source := by
    intro draft hsource
    have hfound : r.device? draft.source = some d := hsource ▸ h.devices.device? hd
    constructor
    · simp [addConnection_eq_endpointUnknown, hfound]
    · intro r' c hok
      obtain ⟨⟨s, t, hc⟩, -⟩ := addConnection_eq_ok.1 hok
      rw [hc.source_eq, ← Option.some.inj (hc.source.symm.trans hfound)]
  target := by
    intro draft htarget
    have hfound : r.device? draft.target = some d := htarget ▸ h.devices.device? hd
    constructor
    · simp [addConnection_eq_endpointUnknown, hfound]
    · intro r' c hok
      obtain ⟨⟨s, t, hc⟩, -⟩ := addConnection_eq_ok.1 hok
      rw [hc.target_eq, ← Option.some.inj (hc.target.symm.trans hfound)]
  removal := by
    -- no other device has the id, so what stays is all but the device
    have hrest : r.devices.filter (·.id != d.id) = r.devices.erase d := by
      have hn : r.devices.Nodup := List.Nodup.of_map _ h.devices.ids_nodup
      rw [hn.erase_eq_filter]
      refine List.filter_congr fun e he => ?_
      rw [Bool.eq_iff_iff, bne_iff_ne, bne_iff_ne]
      exact not_congr ⟨fun hid => h.devices.eq_of_id he hd hid, fun heq => heq ▸ rfl⟩
    have hcount : r.devices.length - (r.without d.id).devices.length = 1 := by
      have hlength := List.length_erase_of_mem hd
      have hpos := List.length_pos_of_mem hd
      rw [Registry.without, List.length_map, hrest, hlength]
      omega
    exact ⟨_, _, by rw [outcome_deleteDevice, hcount], by rw [Registry.without, hrest], rfl⟩

/-- A text that is no device's id stands for none. -/
theorem WellFormed.misses (h : r.WellFormed) (htext : ∀ d ∈ r.devices, d.id ≠ text) : r.Misses text where
  device := by rw [device, device?_eq_none.2 htext]
  connection := by
    rintro draft (rfl | rfl)
    · exact addConnection_eq_endpointUnknown.2 (.inl (device?_eq_none.2 htext))
    · exact addConnection_eq_endpointUnknown.2 (.inr (device?_eq_none.2 htext))
  removal := by
    have hconnections := h.connections_without htext
    refine ⟨r.without text, ?_, devices_without htext, hconnections⟩
    rw [outcome_deleteDevice, length_sub_without_eq_zero_iff.2 htext, hconnections, Nat.sub_self]

/-- A text with blanks around it is no device's id. -/
theorem WellFormed.ne_of_padded (h : r.WellFormed) (hpadded : Text.strip text ≠ text) :
    ∀ d ∈ r.devices, d.id ≠ text := by
  rintro d hd rfl
  exact hpadded (h.devices.ids d hd).2

/-- The id of a device that is taken in is the text that was given, without the blanks around it. -/
theorem Accepts.id_eq {draft : Device.Draft} (h : r.Accepts draft d) (htext : draft.id = .text text) :
    d.id = Text.strip text :=
  Value.eq_strip_of_cleaned?_text (htext ▸ h.id)

/-- A text does not both stand for a device and for none. -/
theorem Misses.not_addresses (h : r.Misses text) (d : Device) : ¬ r.Addresses text d := by
  intro hd
  have hboth := h.device.symm.trans hd.device
  cases hboth

/-- After a device was taken in, the text that was given as its id stands for it if no blanks are around it,
and else for nothing. -/
theorem WellFormed.addresses_iff_of_accepts (h : r.WellFormed) {draft : Device.Draft}
    (hd : r.Accepts draft d) (htext : draft.id = .text text) :
    (Addresses ⟨r.devices ++ [d], r.connections⟩ text d ↔ Text.strip text = text) ∧
      (Text.strip text ≠ text → Misses ⟨r.devices ++ [d], r.connections⟩ text) := by
  have hid := hd.id_eq htext
  have hmem : d ∈ r.devices ++ [d] := List.mem_append_right _ (List.mem_singleton_self d)
  have hmisses : Text.strip text ≠ text → Misses ⟨r.devices ++ [d], r.connections⟩ text := fun hpadded =>
    (h.accepted hd).misses ((h.accepted hd).ne_of_padded hpadded)
  refine ⟨⟨fun haddresses => ?_, fun hstrip => ?_⟩, hmisses⟩
  · by_contra hpadded
    exact (hmisses hpadded).not_addresses d haddresses
  · have haddresses := (h.accepted hd).addresses hmem
    rwa [hid, hstrip] at haddresses

end Registry

end VirtNet
