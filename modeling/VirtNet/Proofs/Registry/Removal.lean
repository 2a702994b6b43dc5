import VirtNet.Proofs.Registry.WellFormed

/-!
# A removed device leaves no trace

A device that is added, connected, and removed again might never have been there: the changes to other
devices in between are made in full without it as well, and leave the same registry
(`attemptAll?_without`). The registry with the device and the one without it are compared at every change
by removing the device there and then (`without`). A change that touches the device is one that the
removal takes back; every other change commutes with the removal.
-/

namespace VirtNet

/-- Whether a draft gives an interface address under a key. -/
def Device.Draft.supplies (key : String) (draft : Device.Draft) : Bool :=
  match draft.interfaceIps with
  | .dict entries => entries.any fun e => e.1.toText == key
  | _ => false

namespace Change

/-- Whether a change takes a device or a connection in or removes a device other than `id`, and gives
nobody an interface address towards `id` but by a connection. -/
def spares (id : String) : Change → Bool
  | .addDevice draft => !draft.supplies (Device.interfaceKey id)
  | .addConnection _ => true
  | .deleteDevice other => other != id
  | .clear | .load _ => false

/-- Whether a change takes in a connection of the device `id`. -/
def touches (id : String) : Change → Bool
  | .addConnection draft => draft.source == id || draft.target == id
  | _ => false

end Change

namespace Registry

variable {r r' : Registry} {id : String} {d : Device} {c : Connection}

/-! ## Devices without an address towards the removed one -/

/-- A device without an address towards a peer has none to drop. -/
theorem dropInterface_of_not_mem (h : Device.interfaceKey id ∉ d.interfaceIps.keys) :
    dropInterface id d = d := by
  rw [dropInterface, OrderedMap.erase_of_not_mem h]

/-- Addresses towards two peers can be dropped in either order. -/
theorem dropInterface_comm (peer peer' : String) (d : Device) :
    dropInterface peer (dropInterface peer' d) = dropInterface peer' (dropInterface peer d) := by
  simp only [dropInterface, OrderedMap.erase_comm]

/-- An address that is recorded towards a peer is dropped with those towards the peer. -/
theorem dropInterface_withInterface_self (other : String) (ip : Option String) (d : Device) :
    dropInterface id (withInterface other id ip d) = dropInterface id d := by
  cases ip with
  | none => rfl
  | some ip =>
    simp only [withInterface, setInterface]
    split
    · simp only [dropInterface, OrderedMap.erase_insert_self]
    · rfl

/-- Recording an address towards one peer and dropping that towards another can be done in either
order. -/
theorem dropInterface_withInterface_of_ne {peer : String} (h : peer ≠ id) (other : String)
    (ip : Option String) (d : Device) :
    dropInterface id (withInterface other peer ip d) =
      withInterface other peer ip (dropInterface id d) := by
  have hkey : Device.interfaceKey peer ≠ Device.interfaceKey id := by
    rwa [Ne, Device.interfaceKey_inj]
  cases ip with
  | none => rfl
  | some ip =>
    have hid : (dropInterface id d).id = d.id := rfl
    simp only [withInterface, setInterface, hid]
    split
    · simp only [dropInterface, OrderedMap.erase_insert_of_ne hkey]
    · rfl

/-- Nothing is recorded at a device that is not meant. -/
theorem withInterface_of_ne {other peer : String} (h : d.id ≠ other) (ip : Option String) :
    withInterface other peer ip d = d := by
  cases ip with
  | none => rfl
  | some ip => exact if_neg h

/-- What a connection of the removed device records at another device is dropped. -/
theorem dropInterface_withLink_of_touches (hc : touches id c = true) (hd : d.id ≠ id) :
    dropInterface id (withLink c d) = dropInterface id d := by
  simp only [touches, Bool.or_eq_true, beq_iff_eq] at hc
  rcases hc with rfl | rfl
  · rw [withLink, dropInterface_withInterface_self, withInterface_of_ne hd]
  · have hd' : (withInterface c.source c.target c.sourceIp d).id ≠ c.target := by
      rwa [withInterface_id]
    rw [withLink, withInterface_of_ne hd', dropInterface_withInterface_self]

/-- What any other connection records stays. -/
theorem dropInterface_withLink_of_not_touches (hc : touches id c = false) (d : Device) :
    dropInterface id (withLink c d) = withLink c (dropInterface id d) := by
  simp only [touches, Bool.or_eq_false_iff, beq_eq_false_iff_ne] at hc
  rw [withLink, withLink, dropInterface_withInterface_of_ne hc.1, dropInterface_withInterface_of_ne hc.2]

/-! ## Registries without the removed device -/

/-- A registry in which nothing tells of a device is as it is without the device. -/
theorem without_eq_self (hid : ∀ d ∈ r.devices, d.id ≠ id)
    (hkeys : ∀ d ∈ r.devices, Device.interfaceKey id ∉ d.interfaceIps.keys)
    (hcs : ∀ c ∈ r.connections, touches id c = false) : r.without id = r := by
  have hdevices : r.devices.filter (·.id != id) = r.devices := by
    refine List.filter_eq_self.2 ?_
    intro d hd
    simpa using hid d hd
  have hdrop : r.devices.map (dropInterface id) = r.devices := by
    rw [List.map_congr_left fun d hd => dropInterface_of_not_mem (hkeys d hd), List.map_id']
  have hconnections : (r.connections.filter fun c => !touches id c) = r.connections := by
    refine List.filter_eq_self.2 ?_
    intro c hc
    rw [hcs c hc]
    rfl
  rw [without, hdevices, hdrop, hconnections]

/-- No connection of a device that is not there is left over. -/
theorem WellFormed.touches_eq_false (h : r.WellFormed) (hid : ∀ d ∈ r.devices, d.id ≠ id) :
    ∀ c ∈ r.connections, touches id c = false := by
  intro c hc
  obtain ⟨-, s, hs, t, ht, hsid, htid, -⟩ := h.connections.ends c hc
  simp only [touches, Bool.or_eq_false_iff, beq_eq_false_iff_ne]
  exact ⟨hsid ▸ hid s hs, htid ▸ hid t ht⟩

/-- A removal that finds no device leaves the connections. -/
theorem WellFormed.connections_without (h : r.WellFormed) (hid : ∀ d ∈ r.devices, d.id ≠ id) :
    (r.without id).connections = r.connections := by
  refine List.filter_eq_self.2 fun c hc => ?_
  rw [h.touches_eq_false hid c hc]
  rfl

/-- The removed device is the last one taken in. -/
theorem without_append_self (hd : d.id = id) :
    without ⟨r.devices ++ [d], r.connections⟩ id = r.without id := by
  have hgone : [d].filter (·.id != id) = [] := by simp [hd]
  simp only [without, List.filter_append, hgone, List.append_nil]

/-- Another device is taken in and has no address towards the removed one. -/
theorem without_append_of_ne (hd : d.id ≠ id) (hkey : Device.interfaceKey id ∉ d.interfaceIps.keys) :
    without ⟨r.devices ++ [d], r.connections⟩ id =
      ⟨(r.without id).devices ++ [d], (r.without id).connections⟩ := by
  have hstays : [d].filter (·.id != id) = [d] := by simp [hd]
  simp only [without, List.filter_append, hstays, List.map_append, List.map_singleton,
    dropInterface_of_not_mem hkey]

/-- The devices other than the removed one, after a connection was recorded at them. -/
theorem devices_joined_without : ((r.joined c).without id).devices =
    (r.devices.filter (·.id != id)).map fun d => dropInterface id (withLink c d) := by
  have hsame : (fun d : Device => d.id != id) ∘ withLink c = fun d => d.id != id := by
    funext d
    simp
  rw [without, joined, List.filter_map, hsame, List.map_map]
  rfl

/-- A connection of the removed device is taken back with it. -/
theorem joined_without_of_touches (hc : touches id c = true) :
    (r.joined c).without id = r.without id := by
  have hdevices : ((r.joined c).without id).devices = (r.without id).devices := by
    rw [devices_joined_without]
    refine List.map_congr_left ?_
    intro d hd
    have hne : d.id ≠ id := by simpa using (List.mem_filter.1 hd).2
    exact dropInterface_withLink_of_touches hc hne
  have hconnections : ((r.joined c).without id).connections = (r.without id).connections := by
    simp [without, joined, List.filter_append, hc]
  calc (r.joined c).without id
      = ⟨((r.joined c).without id).devices, ((r.joined c).without id).connections⟩ := rfl
    _ = r.without id := by rw [hdevices, hconnections]

/-- A connection of other devices can be taken in before the removal or after it. -/
theorem joined_without_of_not_touches (hc : touches id c = false) :
    (r.joined c).without id = (r.without id).joined c := by
  have hdevices : ((r.joined c).without id).devices = (r.without id).devices.map (withLink c) := by
    rw [devices_joined_without, without, List.map_map]
    exact List.map_congr_left fun d _ => dropInterface_withLink_of_not_touches hc d
  have hconnections : ((r.joined c).without id).connections =
      (r.without id).connections ++ [c] := by
    simp [without, joined, List.filter_append, hc]
  calc (r.joined c).without id
      = ⟨((r.joined c).without id).devices, ((r.joined c).without id).connections⟩ := rfl
    _ = (r.without id).joined c := by rw [hdevices, hconnections, joined]

/-- Two devices can be removed in either order. -/
theorem without_comm (r : Registry) (id other : String) :
    (r.without id).without other = (r.without other).without id := by
  have hsame : ∀ i j, (fun d : Device => d.id != i) ∘ dropInterface j = fun d => d.id != i :=
    fun _ _ => rfl
  simp only [without, List.filter_map, hsame, List.map_map, List.filter_filter, Bool.and_comm]
  congr 2
  funext d
  exact dropInterface_comm other id d

/-! ## What is taken in without the removed device -/

/-- A device of the registry without the removed one is there in the registry. -/
theorem exists_of_mem_without {e : Device} (he : e ∈ (r.without id).devices) :
    ∃ e₀ ∈ r.devices, e = dropInterface id e₀ := by
  obtain ⟨e₀, he₀, rfl⟩ := List.mem_map.1 he
  exact ⟨e₀, (List.mem_filter.1 he₀).1, rfl⟩

/-- What a registry takes in as a device it takes in without the removed one. -/
theorem Accepts.without {draft : Device.Draft} (h : r.Accepts draft d) (id : String) :
    (r.without id).Accepts draft d where
  id := h.id
  type := h.type
  known := h.known
  unused := by
    intro e he
    obtain ⟨e₀, he₀, rfl⟩ := exists_of_mem_without he
    exact h.unused e₀ he₀
  ip := h.ip
  ip_free := by
    intro ip hip
    obtain ⟨hvalid, hfree⟩ := h.ip_free ip hip
    refine ⟨hvalid, ?_⟩
    intro e he
    obtain ⟨e₀, he₀, rfl⟩ := exists_of_mem_without he
    exact hfree e₀ he₀
  interfaces := h.interfaces
  cpu := h.cpu
  memory := h.memory
  storage := h.storage

/-- Lookup of a device other than the removed one. -/
theorem device?_without {other : String} (h : other ≠ id) :
    (r.without id).device? other = (r.device? other).map (dropInterface id) := by
  have hsame : (fun d : Device => d.id == other) ∘ dropInterface id = fun d => d.id == other := rfl
  unfold device? Registry.without
  rw [List.find?_map, hsame, List.find?_filter]
  congr 2
  funext d
  -- a device with the id asked for is not the removed one
  by_cases hd : d.id = other
  · simp [hd, h]
  · simp [hd]

/-- What a registry takes in as a connection of other devices it takes in without the removed one. -/
theorem Links.without {draft : Connection.Draft} {s t : Device} (h : r.Links draft s t c)
    (hs : draft.source ≠ id) (ht : draft.target ≠ id) :
    (r.without id).Links draft (dropInterface id s) (dropInterface id t) c where
  source := by rw [device?_without hs, h.source, Option.map_some]
  target := by rw [device?_without ht, h.target, Option.map_some]
  source_eq := h.source_eq
  target_eq := h.target_eq
  distinct := h.distinct
  not_machines := h.not_machines
  fresh := fun e he => h.fresh e (List.mem_filter.1 he).1
  speed := h.speed
  speed_read := h.speed_read
  sourceIp := ⟨h.sourceIp.eq, h.sourceIp.valid⟩
  targetIp := ⟨h.targetIp.eq, h.targetIp.valid⟩

/-- The interface addresses of a device that is taken in are under keys that its draft supplies. -/
theorem addInterfaces_keys {es : List (Value × Value)} {m m' : OrderedMap String} {key : String}
    (h : addInterfaces m es = .ok m') (hkey : key ∈ m'.keys) :
    key ∈ m.keys ∨ ∃ e ∈ es, e.1.toText = key := by
  induction es generalizing m with
  | nil =>
    cases h
    exact .inl hkey
  | cons kv rest ih =>
    obtain ⟨k, v⟩ := kv
    have hlater : (∃ e ∈ rest, e.1.toText = key) → ∃ e ∈ (k, v) :: rest, e.1.toText = key := by
      rintro ⟨e, he, hek⟩
      exact ⟨e, List.mem_cons_of_mem _ he, hek⟩
    simp only [addInterfaces] at h
    cases hc : v.cleaned? with
    | none =>
      simp only [hc] at h
      exact (ih h).imp_right hlater
    | some ip =>
      simp only [hc] at h
      split at h
      · rcases ih h with hm | hrest
        · rw [OrderedMap.keys_insert] at hm
          split at hm
          · exact .inl hm
          · rcases List.mem_append.1 hm with hm | hnew
            · exact .inl hm
            · exact .inr ⟨(k, v), List.mem_cons_self, (List.mem_singleton.1 hnew).symm⟩
        · exact .inr (hlater hrest)
      · cases h

theorem Accepts.supplies {draft : Device.Draft} (h : r.Accepts draft d) {key : String}
    (hkey : key ∈ d.interfaceIps.keys) : draft.supplies key = true := by
  have hinterfaces := h.interfaces
  unfold draftedInterfaces at hinterfaces
  have hempty : ∀ {m : OrderedMap String}, m = .empty → key ∉ m.keys := by
    rintro m rfl
    exact List.not_mem_nil
  split at hinterfaces
  · split at hinterfaces
    · next entries hentries =>
      rcases addInterfaces_keys hinterfaces hkey with hnone | ⟨e, he, hek⟩
      · exact absurd hnone (hempty rfl)
      · rw [Device.Draft.supplies, hentries]
        exact List.any_eq_true.2 ⟨e, he, beq_iff_eq.2 hek⟩
    · cases hinterfaces
  · rw [Except.ok.injEq] at hinterfaces
    exact absurd hkey (hempty hinterfaces.symm)

/-! ## Runs with and without the device -/

/-- One change, with the device there and with it removed beforehand. -/
theorem attempt?_without {change : Change} (hspares : change.spares id = true)
    (hmem : ∃ e ∈ r.devices, e.id = id) (h : r.attempt? change = some r') :
    (∃ e ∈ r'.devices, e.id = id) ∧
      if change.touches id then r'.without id = r.without id
      else (r.without id).attempt? change = some (r'.without id) := by
  obtain ⟨e, he, heid⟩ := hmem
  cases change with
  | addDevice draft =>
    obtain ⟨d, hd, rfl⟩ := attempt?_addDevice.1 h
    -- the id is in use, so the further device is another one
    have hne : d.id ≠ id := fun hid => hd.unused e he (heid.trans hid.symm)
    have hkey : Device.interfaceKey id ∉ d.interfaceIps.keys := by
      intro hkey
      have hsupplied := hd.supplies hkey
      rw [Change.spares, hsupplied] at hspares
      cases hspares
    refine ⟨⟨e, List.mem_append_left _ he, heid⟩, ?_⟩
    rw [without_append_of_ne hne hkey]
    exact attempt?_addDevice.2 ⟨d, hd.without id, rfl⟩
  | addConnection draft =>
    obtain ⟨c, s, t, hc, rfl⟩ := attempt?_addConnection.1 h
    have hsource : c.source = draft.source := hc.source_eq.trans (device?_eq_some hc.source).2
    have htarget : c.target = draft.target := hc.target_eq.trans (device?_eq_some hc.target).2
    have htouches : (Change.addConnection draft).touches id = touches id c := by
      rw [Change.touches, touches, hsource, htarget]
    refine ⟨⟨withLink c e, List.mem_map_of_mem he, by rw [withLink_id, heid]⟩, ?_⟩
    rw [htouches]
    split
    · next htrue => exact joined_without_of_touches htrue
    · next hfalse =>
      rw [Bool.not_eq_true] at hfalse
      rw [joined_without_of_not_touches hfalse]
      simp only [touches, Bool.or_eq_false_iff, beq_eq_false_iff_ne, hsource, htarget] at hfalse
      exact attempt?_addConnection.2 ⟨c, _, _, hc.without hfalse.1 hfalse.2, rfl⟩
  | deleteDevice other =>
    have hne : other ≠ id := by simpa [Change.spares] using hspares
    obtain rfl : r.without other = r' := Option.some.inj (attempt?_deleteDevice.symm.trans h)
    refine ⟨⟨dropInterface other e, mem_without he (heid ▸ hne.symm), heid⟩, ?_⟩
    rw [without_comm]
    exact attempt?_deleteDevice
  | clear => cases hspares
  | load design => cases hspares

/-- A run of changes, with the device there and with it removed beforehand. -/
theorem attemptAll?_spares {changes : List Change} (hspares : ∀ s ∈ changes, s.spares id = true)
    (hmem : ∃ e ∈ r.devices, e.id = id) (h : r.attemptAll? changes = some r') :
    (r.without id).attemptAll? (changes.filter fun s => !s.touches id) = some (r'.without id) := by
  induction changes generalizing r with
  | nil =>
    obtain rfl : r = r' := Option.some.inj h
    rfl
  | cons change rest ih =>
    unfold attemptAll? at h
    rw [List.foldlM_cons, Option.bind_eq_bind, Option.bind_eq_some_iff] at h
    obtain ⟨mid, hmid, hrest⟩ := h
    obtain ⟨hmem', hstep⟩ := attempt?_without (hspares change List.mem_cons_self) hmem hmid
    have hlater := ih (fun s hs => hspares s (List.mem_cons_of_mem _ hs)) hmem' hrest
    by_cases htouches : change.touches id = true
    · rw [if_pos htouches] at hstep
      rw [List.filter_cons_of_neg (by simp [htouches]), ← hstep]
      exact hlater
    · rw [if_neg htouches] at hstep
      rw [List.filter_cons_of_pos (by simp [htouches])]
      unfold attemptAll?
      rw [List.foldlM_cons, Option.bind_eq_bind, hstep, Option.bind_some]
      exact hlater

/-- Whatever a registry went through, as long as nothing in it tells of the device `id`: if that device is
taken in, other devices are taken in, connected with it or with each other, and removed, all without
fault, and at last the device is removed, then the changes without the device, its connections and its
removal are made without fault as well, and leave the same registry. -/
theorem attemptAll?_without (history : List Change) {id : String} {draft : Device.Draft}
    {changes : List Change} {r' : Registry}
    (hnew : ∀ d ∈ (after history).devices, d.id ≠ id)
    (hkeys : ∀ d ∈ (after history).devices, Device.interfaceKey id ∉ d.interfaceIps.keys)
    (hdraft : draft.id.cleaned? = some id) (hspares : ∀ s ∈ changes, s.spares id = true)
    (h : (after history).attemptAll? (.addDevice draft :: (changes ++ [.deleteDevice id])) = some r') :
    (after history).attemptAll? (changes.filter fun s => !s.touches id) = some r' := by
  have hcs := (wellFormed_after history).touches_eq_false hnew
  unfold attemptAll? at h
  rw [List.foldlM_cons, Option.bind_eq_bind, Option.bind_eq_some_iff] at h
  obtain ⟨r₁, hr₁, h⟩ := h
  rw [List.foldlM_append, Option.bind_eq_bind, Option.bind_eq_some_iff] at h
  obtain ⟨r₂, hr₂, hlast⟩ := h
  obtain ⟨d, hd, rfl⟩ := attempt?_addDevice.1 hr₁
  have hid : d.id = id := Option.some.inj (hd.id.symm.trans hdraft)
  have hmem : ∃ e ∈ (after history).devices ++ [d], e.id = id :=
    ⟨d, List.mem_append_right _ (List.mem_singleton_self d), hid⟩
  have hwithout := attemptAll?_spares hspares hmem hr₂
  rw [without_append_self hid, without_eq_self hnew hkeys hcs] at hwithout
  rw [hwithout]
  exact hlast

/-- A router `R` connected to a host. -/
def beforeVisit : List Change := [
  .addDevice { id := .text "R", type := .text "router" },
  .addDevice { id := .text "a", type := .text "vm" },
  .addConnection { source := "R", target := "a", sourceIp := .text "10.0.0.1" }]

/-- A second router. -/
def visitor : Device.Draft where
  id := .text " V "
  type := .text "router"
  ip := .text "10.0.9.9"

/-- The second router is connected with the first one and with a further host, which the first one is
connected with as well; the first host goes. -/
def duringVisit : List Change := [
  .addConnection {
    source := "V"
    target := "R"
    sourceIp := .text "10.0.1.1"
    targetIp := .text "10.0.1.2" },
  .addDevice { id := .text "b", type := .text "vm" },
  .addConnection { source := "b", target := "V", targetIp := .text "10.0.2.1" },
  .addConnection { source := "R", target := "b", sourceIp := .text "10.0.3.1" },
  .deleteDevice "a"]

/-- The second router leaves, and what is left is the first one and its connection with the further
host. -/
theorem attemptAll?_without_visit : ∃ r',
    (after beforeVisit).attemptAll? (.addDevice visitor :: (duringVisit ++ [.deleteDevice "V"])) =
      some r' ∧
    (after beforeVisit).attemptAll? (duringVisit.filter fun s => !s.touches "V") = some r' ∧
    r'.devices.map (fun d => (d.id, d.interfaceIps.entries)) =
      [("R", [("to_b", "10.0.3.1")]), ("b", [])] ∧
    r'.connections.map Connection.key = ["R-b"] := by
  have hrun : ((after beforeVisit).attemptAll?
      (.addDevice visitor :: (duringVisit ++ [.deleteDevice "V"]))).map
        (fun r' => (r'.devices.map (fun d => (d.id, d.interfaceIps.entries)),
          r'.connections.map Connection.key)) =
      some ([("R", [("to_b", "10.0.3.1")]), ("b", [])], ["R-b"]) := by
    decide +kernel
  obtain ⟨r', hr', hleft⟩ := Option.map_eq_some_iff.1 hrun
  have hwithout := attemptAll?_without beforeVisit (by decide +kernel) (by decide +kernel)
    (by decide +kernel) (by decide +kernel) hr'
  obtain ⟨hdevices, hconnections⟩ := Prod.mk.inj hleft
  exact ⟨r', hr', hwithout, hdevices, hconnections⟩

end Registry

end VirtNet
