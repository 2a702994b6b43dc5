import VirtNet.Proofs.Registry.Tidy

/-!
# Additions are made in full or not at all

`Admits` and `Joinable` list what a registry asks of a draft: of a device that is to be taken in, and of a
connection between two devices. A draft is taken in exactly when it meets them (`exists_addDevice_iff`,
`exists_addConnection_iff`), and otherwise nothing changes, since all checks come before the first change
(`addDevice_eq_error`, `addConnection_eq_error`). A connection that is taken in changes no device but by the
addresses that the routers at its ends keep towards each other (`addConnection_changes`).
-/

namespace VirtNet

/-- The word for a type among the three is a known type. -/
theorem DeviceType.isKnown_ofWord {word : String} :
    (DeviceType.ofWord word).isKnown = true ↔ word ∈ DeviceType.words := by
  unfold ofWord words
  by_cases hvm : word = "vm"
  · simp [hvm, isKnown, word?]
  · by_cases hrouter : word = "router"
    · simp [hrouter, isKnown, word?]
    · by_cases hswitch : word = "switch" <;> simp [hvm, hrouter, hswitch, isKnown, word?]

/-- Only the word for it names the type of routers. -/
theorem DeviceType.ofWord_eq_router {word : String} :
    DeviceType.ofWord word = .router ↔ word = "router" := by
  unfold ofWord
  by_cases hvm : word = "vm"
  · simp [hvm]
  · by_cases hrouter : word = "router"
    · simp [hrouter]
    · by_cases hswitch : word = "switch" <;> simp [hvm, hrouter, hswitch]

namespace Registry

variable {r : Registry}

/-! ## Devices -/

/-- What the registry `r` asks of a draft to take it in as a device. -/
structure Admits (r : Registry) (draft : Device.Draft) : Prop where
  /-- The cleaned id is there, and no device has it. -/
  id : ∃ id, draft.id.cleaned? = some id ∧ ∀ d ∈ r.devices, d.id ≠ id
  /-- The type is one of the three. -/
  type : draft.type.toText ∈ DeviceType.words
  /-- The cleaned static address is absent, or an address that no device has. -/
  ip : ∀ ip, draft.ip.cleaned? = some ip →
    Address.isValid ip = true ∧ ∀ d ∈ r.devices, d.ip ≠ some ip
  /-- The interface addresses of a router are absent, or a mapping in which all that is not blank is an
  address. -/
  interfaces : draft.type.toText = "router" → draft.interfaceIps.truthy = true →
    ∃ entries, draft.interfaceIps = .dict entries ∧
      ∀ e ∈ entries, ∀ ip, e.2.cleaned? = some ip → Address.isValid ip = true

/-- Drafted interface addresses can be added when all that are not blank are addresses. -/
theorem exists_addInterfaces_iff {es : List (Value × Value)} {m : OrderedMap String} :
    (∃ m', addInterfaces m es = .ok m') ↔
      ∀ e ∈ es, ∀ ip, e.2.cleaned? = some ip → Address.isValid ip = true := by
  induction es generalizing m with
  | nil => simp [addInterfaces]
  | cons e rest ih =>
    obtain ⟨k, v⟩ := e
    rw [List.forall_mem_cons, addInterfaces]
    cases hc : v.cleaned? with
    | none => simp [ih]
    | some ip =>
      by_cases hv : Address.isValid ip = true
      · simp [hv, ih]
      · simp [hv]

/-- When the interface addresses of a draft pass their checks. -/
theorem exists_draftedInterfaces_iff {type : DeviceType} {v : Value} :
    (∃ m, draftedInterfaces type v = .ok m) ↔ (type = .router → v.truthy = true →
      ∃ entries, v = .dict entries ∧
        ∀ e ∈ entries, ∀ ip, e.2.cleaned? = some ip → Address.isValid ip = true) := by
  unfold draftedInterfaces
  by_cases hchecked : type = .router ∧ v.truthy = true
  · rw [if_pos hchecked]
    cases v with
    | dict entries => simp [hchecked.1, hchecked.2, exists_addInterfaces_iff]
    | _ => simp [hchecked.1, hchecked.2]
  · rw [if_neg hchecked]
    simp only [Except.ok.injEq, exists_eq', true_iff]
    exact fun htype hv => absurd ⟨htype, hv⟩ hchecked

/-- A draft becomes a device under the conditions of `Admits`, and only then. -/
theorem exists_accepts_iff {draft : Device.Draft} : (∃ d, r.Accepts draft d) ↔ r.Admits draft := by
  constructor
  · rintro ⟨d, hd⟩
    refine {
      id := ⟨d.id, hd.id, hd.unused⟩
      type := DeviceType.isKnown_ofWord.1 (hd.type ▸ hd.known)
      ip := fun ip hip => hd.ip_free ip (hd.ip.trans hip)
      interfaces := ?_ }
    intro hrouter
    have htype : d.type = .router := by rw [hd.type, hrouter]; rfl
    exact exists_draftedInterfaces_iff.1 ⟨_, hd.interfaces⟩ htype
  · intro h
    obtain ⟨id, hid, hunused⟩ := h.id
    obtain ⟨m, hm⟩ := exists_draftedInterfaces_iff.2 fun htype =>
      h.interfaces (DeviceType.ofWord_eq_router.1 htype)
    exact ⟨{
      id, type := DeviceType.ofWord draft.type.toText, ip := draft.ip.cleaned?, interfaceIps := m
      cpu := draft.cpu.cleaned?
      memory := draft.memory.cleaned?
      storage := draft.storage.cleaned? }, {
      id := hid
      type := rfl
      known := DeviceType.isKnown_ofWord.2 h.type
      unused := hunused
      ip := rfl
      ip_free := h.ip
      interfaces := hm
      cpu := rfl
      memory := rfl
      storage := rfl }⟩

/-! ## Connections -/

/-- What the registry `r` asks of a draft to take it in as a connection from the device `s` to the device
`t`. -/
structure Joinable (r : Registry) (draft : Connection.Draft) (s t : Device) : Prop where
  source_mem : s ∈ r.devices
  target_mem : t ∈ r.devices
  /-- The ends have the ids that the draft names. -/
  source : s.id = draft.source
  target : t.id = draft.target
  /-- They are different. -/
  distinct : draft.source ≠ draft.target
  /-- They are not both virtual machines. -/
  not_machines : ¬ (s.type = .vm ∧ t.type = .vm)
  /-- No connection joins them. -/
  fresh : ∀ e ∈ r.connections, e.joins draft.source draft.target = false
  /-- The cleaned bandwidth label is absent or can be read. -/
  speed : ∀ label, draft.speed.cleaned? = some label → ∃ x, Bandwidth.megabits label = .ok x
  /-- At a router, the cleaned address is absent or an address. -/
  sourceIp : s.isRouter = true → ∀ ip, draft.sourceIp.cleaned? = some ip → Address.isValid ip = true
  targetIp : t.isRouter = true → ∀ ip, draft.targetIp.cleaned? = some ip → Address.isValid ip = true

/-- When an end of a connection can take a drafted address. -/
theorem exists_takesAddress_iff {d : Device} {v : Value} :
    (∃ ip, TakesAddress d v ip) ↔
      (d.isRouter = true → ∀ ip, v.cleaned? = some ip → Address.isValid ip = true) := by
  constructor
  · rintro ⟨ip, h⟩ hrouter a ha
    refine h.valid a ?_
    rw [h.eq, if_pos hrouter, ha]
  · intro h
    refine ⟨_, rfl, ?_⟩
    intro a ha
    split at ha
    · next hrouter => exact h hrouter a ha
    · cases ha

/-- A draft becomes a connection under the conditions of `Joinable`, and only then. -/
theorem exists_links_iff (h : r.WellFormed) {draft : Connection.Draft} {s t : Device} :
    (∃ c, r.Links draft s t c) ↔ r.Joinable draft s t := by
  constructor
  · rintro ⟨c, hc⟩
    obtain ⟨hs, hsid⟩ := device?_eq_some hc.source
    obtain ⟨ht, htid⟩ := device?_eq_some hc.target
    exact {
      source_mem := hs
      target_mem := ht
      source := hsid
      target := htid
      distinct := by rw [← hsid, ← htid]; exact hc.distinct
      not_machines := hc.not_machines
      fresh := hc.fresh
      speed := fun label hlabel => hc.speed_read label (hc.speed.trans hlabel)
      sourceIp := exists_takesAddress_iff.1 ⟨_, hc.sourceIp⟩
      targetIp := exists_takesAddress_iff.1 ⟨_, hc.targetIp⟩ }
  · intro hj
    obtain ⟨sourceIp, hsourceIp⟩ := exists_takesAddress_iff.2 hj.sourceIp
    obtain ⟨targetIp, htargetIp⟩ := exists_takesAddress_iff.2 hj.targetIp
    refine ⟨{ source := s.id, target := t.id, sourceIp, targetIp, speed := draft.speed.cleaned? }, {
      source := ?_
      target := ?_
      source_eq := rfl
      target_eq := rfl
      distinct := by rw [hj.source, hj.target]; exact hj.distinct
      not_machines := hj.not_machines
      fresh := hj.fresh
      speed := rfl
      speed_read := hj.speed
      sourceIp := hsourceIp
      targetIp := htargetIp }⟩
    · rw [← hj.source]
      exact h.devices.device? hj.source_mem
    · rw [← hj.target]
      exact h.devices.device? hj.target_mem

/-! ## What a connection changes -/

/-- The device `d'` is `d` with at most the address changed that a router at an end of the connection `c`
keeps towards the other end; then it is the address of the connection at that end. -/
structure Recorded (c : Connection) (d d' : Device) : Prop where
  /-- Nothing but interface addresses changes. -/
  same : d' = { d with interfaceIps := d'.interfaceIps }
  /-- The keys stay in their order. -/
  keys : d.interfaceIps.keys <+: d'.interfaceIps.keys
  entries : ∀ key, d'.interfaceIps.get? key = d.interfaceIps.get? key ∨ d.isRouter = true ∧
    (d.id = c.source ∧ key = Device.interfaceKey c.target ∧ d'.interfaceIps.get? key = c.sourceIp ∨
      d.id = c.target ∧ key = Device.interfaceKey c.source ∧ d'.interfaceIps.get? key = c.targetIp)

/-- The keys of the interfaces stay where they were when an address is recorded. -/
theorem keys_withInterface (id peer : String) (ip : Option String) (d : Device) :
    d.interfaceIps.keys <+: (withInterface id peer ip d).interfaceIps.keys := by
  cases ip with
  | none => exact List.prefix_rfl
  | some ip =>
    simp only [withInterface, setInterface]
    split
    · simp only [OrderedMap.keys_insert]
      split
      · exact List.prefix_rfl
      · exact List.prefix_append _ _
    · exact List.prefix_rfl

/-- Lookup after an address was recorded, if there was one to record. -/
theorem get?_withInterface (id peer key : String) (ip : Option String) (d : Device) :
    (withInterface id peer ip d).interfaceIps.get? key =
      if d.id = id ∧ key = Device.interfaceKey peer then ip.or (d.interfaceIps.get? key)
      else d.interfaceIps.get? key := by
  cases ip with
  | none => simp [withInterface]
  | some ip =>
    simp only [withInterface, setInterface]
    by_cases hid : d.id = id
    · simp [hid, OrderedMap.get?_insert, @eq_comm _ _ key]
    · simp [hid]

/-- Recording the addresses of a connection that is taken in changes no more than those. -/
theorem Links.recorded (h : r.WellFormed) {draft : Connection.Draft} {s t : Device} {c : Connection}
    (hc : r.Links draft s t c) {d : Device} (hd : d ∈ r.devices) : Recorded c d (withLink c d) := by
  obtain ⟨⟨hs, hsid⟩, ht, htid⟩ := hc.mem
  obtain ⟨m, hm⟩ := exists_withLink_eq c d
  refine ⟨by rw [hm], ?_, ?_⟩
  · exact (keys_withInterface _ _ _ d).trans (keys_withInterface _ _ _ _)
  · intro key
    rw [withLink, get?_withInterface, get?_withInterface, withInterface_id]
    by_cases htarget : d.id = c.target ∧ key = Device.interfaceKey c.source
    · -- a device is not at both ends
      have hsource : ¬ (d.id = c.source ∧ key = Device.interfaceKey c.target) := fun hsource =>
        hc.ne (hsource.1.symm.trans htarget.1)
      rw [if_pos htarget, if_neg hsource]
      cases hip : c.targetIp with
      | none => exact .inl rfl
      | some ip =>
        obtain rfl : d = t := h.devices.eq_of_id hd ht (htarget.1.trans htid.symm)
        exact .inr ⟨(hc.targetIp.proper hip).2, .inr ⟨htarget.1, htarget.2, rfl⟩⟩
    · rw [if_neg htarget]
      by_cases hsource : d.id = c.source ∧ key = Device.interfaceKey c.target
      · rw [if_pos hsource]
        cases hip : c.sourceIp with
        | none => exact .inl rfl
        | some ip =>
          obtain rfl : d = s := h.devices.eq_of_id hd hs (hsource.1.trans hsid.symm)
          exact .inr ⟨(hc.sourceIp.proper hip).2, .inl ⟨hsource.1, hsource.2, rfl⟩⟩
      · rw [if_neg hsource]
        exact .inl rfl

/-! ## All or nothing -/

/-- A device is taken in under the conditions of `Admits`, and only then. -/
theorem exists_addDevice_iff {draft : Device.Draft} :
    (∃ r' d, (r.addDevice draft).outcome = .ok (r', d)) ↔ r.Admits draft := by
  rw [← exists_accepts_iff]
  constructor
  · rintro ⟨r', d, hok⟩
    exact ⟨d, (addDevice_eq_ok.1 hok).1⟩
  · rintro ⟨d, hd⟩
    exact ⟨_, d, addDevice_eq_ok.2 ⟨hd, rfl⟩⟩

/-- A connection is taken in under the conditions of `Joinable`, and only then. -/
theorem exists_addConnection_iff (h : r.WellFormed) {draft : Connection.Draft} :
    (∃ r' c, (r.addConnection draft).outcome = .ok (r', c)) ↔ ∃ s t, r.Joinable draft s t := by
  constructor
  · rintro ⟨r', c, hok⟩
    obtain ⟨⟨s, t, hc⟩, -⟩ := addConnection_eq_ok.1 hok
    exact ⟨s, t, (exists_links_iff h).1 ⟨c, hc⟩⟩
  · rintro ⟨s, t, hj⟩
    obtain ⟨c, hc⟩ := (exists_links_iff h).2 hj
    exact ⟨_, c, addConnection_eq_ok.2 ⟨⟨s, t, hc⟩, rfl⟩⟩

/-- What a connection that is taken in leaves: the connection at the end, and the devices in their places,
each changed by no more than the addresses that are recorded. -/
theorem addConnection_changes (h : r.WellFormed) {r' : Registry} {draft : Connection.Draft}
    {c : Connection} (hok : (r.addConnection draft).outcome = .ok (r', c)) :
    c.source = draft.source ∧ c.target = draft.target ∧ r'.connections = r.connections ++ [c] ∧
      List.Forall₂ (Recorded c) r.devices r'.devices := by
  obtain ⟨⟨s, t, hc⟩, rfl⟩ := addConnection_eq_ok.1 hok
  refine ⟨?_, ?_, rfl, ?_⟩
  · rw [hc.source_eq, (device?_eq_some hc.source).2]
  · rw [hc.target_eq, (device?_eq_some hc.target).2]
  · rw [joined, List.forall₂_map_right_iff, List.forall₂_same]
    exact fun d hd => hc.recorded h hd

/-- Whatever a registry went through, it takes a drafted device in exactly under the conditions of `Admits`
and a drafted connection exactly under those of `Joinable`. What is refused is refused by the checks, `accept`
and `link`, which read the registry and give none; all of them come before the first change, so it changes
nothing. A device that is taken in goes to the end of the devices and changes nothing else; a connection goes
to the end of the connections and changes at most the address that a router at each of its ends keeps towards
the other. -/
theorem additions_all_or_nothing (history : List Change) :
    let r := after history
    (∀ draft, (∃ r' d, (r.addDevice draft).outcome = .ok (r', d)) ↔ r.Admits draft) ∧
    (∀ draft, (∃ r' c, (r.addConnection draft).outcome = .ok (r', c)) ↔
      ∃ s t, r.Joinable draft s t) ∧
    (∀ draft e, (r.addDevice draft).outcome = .error e →
      r.accept draft = .error e ∧ r.apply (.addDevice draft) = r) ∧
    (∀ draft e, (r.addConnection draft).outcome = .error e →
      (r.link draft).outcome = .error e ∧ r.apply (.addConnection draft) = r) ∧
    (∀ draft r' d, (r.addDevice draft).outcome = .ok (r', d) →
      r.apply (.addDevice draft) = r' ∧ r' = ⟨r.devices ++ [d], r.connections⟩) ∧
    ∀ draft r' c, (r.addConnection draft).outcome = .ok (r', c) →
      r.apply (.addConnection draft) = r' ∧ c.source = draft.source ∧ c.target = draft.target ∧
        r'.connections = r.connections ++ [c] ∧ List.Forall₂ (Recorded c) r.devices r'.devices := by
  intro r
  have h : r.WellFormed := wellFormed_after history
  refine ⟨fun _ => exists_addDevice_iff, fun _ => exists_addConnection_iff h, ?_, ?_, ?_, ?_⟩
  · intro draft e hfail
    refine ⟨addDevice_eq_error.1 hfail, ?_⟩
    rw [apply, hfail, kept]
  · intro draft e hfail
    refine ⟨addConnection_eq_error.1 hfail, ?_⟩
    rw [apply, hfail, kept]
  · intro draft r' d hok
    exact ⟨by rw [apply, hok, kept], (addDevice_eq_ok.1 hok).2⟩
  · intro draft r' c hok
    exact ⟨by rw [apply, hok, kept], addConnection_changes h hok⟩

end Registry

end VirtNet
