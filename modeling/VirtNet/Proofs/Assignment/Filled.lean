import VirtNet.Proofs.Assignment.Connection

/-!
# What the addresses of a segment are

However a segment is filled, an address on it is given or chosen. A given one is the static address of
a member, the address that the segment's connection has for one of its ends, or the one that a router
keeps towards its peer (`Given`). A chosen one has a host number in the segment's network. `Filled`
gathers this with what the addresses of one segment have to do with each other.
-/

namespace VirtNet.Assignment

/-- The router `d` keeps the address `ip` towards its peer at the connection `c`. -/
structure KeptAt (d : Device) (c : Connection) (ip : String) : Prop where
  touches : Registry.touches d.id c = true
  isRouter : d.isRouter = true
  interface : d.interfaceIps.get? (Device.interfaceKey (c.peerOf d.id)) = some ip

/-- The address `ip` is given to the device `d` on the segment `s`. -/
inductive Given (s : Segment) (d : Device) (ip : String) : Prop
  /-- It is the static address of a member that is no router. -/
  | static (hmem : d.id ∈ s.members) (hrouter : d.isRouter = false) (h : d.ip = some ip)
  /-- It is the address of the segment's connection at the end of the device. -/
  | linked (c : Connection) (hc : s.connection = some c)
      (h : c.source = d.id ∧ c.sourceIp = some ip ∨ c.target = d.id ∧ c.targetIp = some ip)
  /-- It is the address that a router at an end of the segment's connection keeps towards its peer. -/
  | stored (c : Connection) (hc : s.connection = some c) (h : KeptAt d c ip)

/-- The addresses `sa` fill the segment `s` of a design with the devices `ds`. -/
structure Filled (ds : List Device) (s : Segment) (sa : SegmentAddresses) : Prop where
  /-- An address that is not given has a host number in the segment's network. -/
  chosen : ∀ id r, sa.byDevice.get? id = some r → r.isCustom = false →
    ∃ n : Nat, n ≤ maxHost ∧ r.ip = Address.host s.base n
  /-- Every other address is given. -/
  given : ∀ id r, sa.byDevice.get? id = some r → r.isCustom = true →
    ∃ d ∈ ds, d.id = id ∧ Given s d r.ip
  /-- Only at a connection can two addresses be the same, and only if both are given. -/
  distinct : ∀ i j x y, sa.byDevice.get? i = some x → sa.byDevice.get? j = some y → i ≠ j →
    x.ip = y.ip → x.isCustom = true ∧ y.isCustom = true ∧ s.connection.isSome = true
  /-- The gateway is the address of a member, or that of the first host. -/
  gateway : sa.gateway = Address.host s.base routerHost ∨
    ∃ id r, sa.byDevice.get? id = some r ∧ sa.gateway = r.ip

variable {ds : List Device} {d e source target : Device} {s : Segment} {c : Connection} {i j : Nat}
  {x y x' y' r : Resolved} {sa : SegmentAddresses} {ip : String}

/-! ## Connections -/

/-- An address that is given and not empty is given. -/
theorem of_given? {given : Option String} (h : given? given = some ip) : given = some ip :=
  (Option.filter_eq_some_iff.1 h).1

/-- A router's address is the connection's, the one kept towards the peer, or a chosen one. -/
theorem routerAddress_given (hc : s.connection = some c) (htouches : Registry.touches d.id c = true)
    (hrouter : d.isRouter = true) (h : (routerAddress d c s).isCustom = true) :
    Given s d (routerAddress d c s).ip := by
  unfold routerAddress at *
  dsimp only at *
  split at h
  · next ip hip =>
    rcases Option.or_eq_some_iff.1 hip with hown | ⟨-, hrest⟩
    · split at hown
      · next hsource => exact .linked c hc (.inl ⟨hsource, of_given? hown⟩)
      · cases hown
    · rcases Option.or_eq_some_iff.1 hrest with hother | ⟨-, hstored⟩
      · split at hother
        · next htarget => exact .linked c hc (.inr ⟨htarget, of_given? hother⟩)
        · cases hother
      · exact .stored c hc ⟨htouches, hrouter, of_given? hstored⟩
  · cases h

/-- An address of an end that is not chosen is given. -/
theorem endpointAddress_given (hc : s.connection = some c) (hmem : d.id ∈ s.members)
    (htouches : Registry.touches d.id c = true) (h : endpointAddress d e c s i = .ok r)
    (hr : r.isCustom = true) : Given s d r.ip := by
  -- a host's address is given only as its static one
  have hhost : d.isRouter = false → hostAddress d e s i = r → Given s d r.ip := by
    rintro hrouter rfl
    unfold hostAddress at *
    split at hr
    · next ip hip => exact .static hmem hrouter (of_given? hip)
    · cases hr
  unfold endpointAddress at h
  cases htype : d.type with
  | router =>
    simp only [htype, Except.ok.injEq] at h
    subst h
    exact routerAddress_given hc htouches (by simp [Device.isRouter, htype]) hr
  | vm =>
    simp only [htype, Except.ok.injEq] at h
    exact hhost (by simp [Device.isRouter, htype]) h
  | switch =>
    simp only [htype, Except.ok.injEq] at h
    exact hhost (by simp [Device.isRouter, htype]) h
  | other word => simp [htype] at h

/-- The segment of a connection is filled. -/
theorem Ends.filled (h : Ends ds s c i j source target x y x' y' sa) (hc : s.connection = some c)
    (hmembers : s.members = [c.source, c.target]) : Filled ds s sa := by
  refine ⟨?_, ?_, ?_, ?_⟩
  · -- a chosen address has one of the numbers for the end of a link
    intro id r hr hauto
    have hbound : ∀ {d : Device} {n : Nat}, n ∈ linkHosts d → n ≤ maxHost := by
      intro d n hn
      have hle := le_of_mem_linkHosts hn
      unfold maxHost
      omega
    rcases (h.get? id r).1 hr with ⟨-, rfl⟩ | ⟨-, rfl⟩
    · obtain ⟨n, hn, hip⟩ := h.source_placed.chosen hauto
      exact ⟨n, hbound hn, hip⟩
    · obtain ⟨n, hn, hip⟩ := h.target_placed.chosen hauto
      exact ⟨n, hbound hn, hip⟩
  · -- a custom address was kept when the ends were told apart, so it is the one that was given
    intro id r hr hcustom
    rcases (h.get? id r).1 hr with ⟨rfl, rfl⟩ | ⟨rfl, rfl⟩
    · have hkept := h.separated.source (.inr hcustom)
      refine ⟨source, h.source_mem, h.source_id, ?_⟩
      rw [hkept] at hcustom ⊢
      refine endpointAddress_given hc ?_ ?_ h.source_address hcustom
      · simp [hmembers, h.source_id]
      · simp [Registry.touches, h.source_id]
    · have hkept := h.separated.target (.inr hcustom)
      refine ⟨target, h.target_mem, h.target_id, ?_⟩
      rw [hkept] at hcustom ⊢
      refine endpointAddress_given hc ?_ ?_ h.target_address hcustom
      · simp [hmembers, h.target_id]
      · simp [Registry.touches, h.target_id]
  · -- the ends have one address only where both were given it
    intro k l u v hu hv hne hip
    have hsome : s.connection.isSome = true := by rw [hc]; rfl
    rcases (h.get? k u).1 hu with ⟨hk, rfl⟩ | ⟨hk, rfl⟩
    · rcases (h.get? l v).1 hv with ⟨hl, rfl⟩ | ⟨hl, rfl⟩
      · exact absurd (hk.trans hl.symm) hne
      · obtain ⟨hx, hy⟩ := h.separated.differ hip
        exact ⟨hx, hy, hsome⟩
    · rcases (h.get? l v).1 hv with ⟨hl, rfl⟩ | ⟨hl, rfl⟩
      · obtain ⟨hx, hy⟩ := h.separated.differ hip.symm
        exact ⟨hy, hx, hsome⟩
      · exact absurd (hk.trans hl.symm) hne
  · -- the gateway is the address of an end that is a router, or the first number for routers
    rw [h.gateway]
    split
    · exact .inr ⟨c.source, x', (h.get? _ _).2 (.inl ⟨rfl, rfl⟩), rfl⟩
    · split
      · exact .inr ⟨c.target, y', (h.get? _ _).2 (.inr ⟨rfl, rfl⟩), rfl⟩
      · exact .inl rfl

/-! ## Addresses that are given in a registry -/

/-- An address that a router keeps is an address without blanks around it. -/
theorem KeptAt.proper (h : KeptAt d c ip) (haddresses : Registry.SoundAddresses d) :
    Address.Proper ip := by
  have hentry : (Device.interfaceKey (c.peerOf d.id), ip) ∈ d.interfaceIps.entries :=
    OrderedMap.get?_eq_some_iff.1 h.interface
  have hproper := haddresses.interfaces _ hentry
  exact hproper

/-- An address that is given to a device of a registry is an address without blanks around it. -/
theorem Given.proper {r : Registry} (h : r.WellFormed) (hd : d ∈ r.devices)
    (hs : ∀ c, s.connection = some c → c ∈ r.connections) (hgiven : Given s d ip) :
    Address.Proper ip := by
  have haddresses : Registry.SoundAddresses d := h.devices.addresses d hd
  cases hgiven with
  | static _ _ hip => exact haddresses.static ip hip
  | linked c hc hend =>
    -- the router at the end keeps the address, whichever end it is
    rcases hend with ⟨-, hip⟩ | ⟨-, hip⟩
    · have hkeeps := h.connections.sourceIps c (hs c hc) ip hip
      exact hkeeps.1
    · have hkeeps := h.connections.targetIps c (hs c hc) ip hip
      exact hkeeps.1
  | stored c _ hkept => exact hkept.proper haddresses

/-- The address that a router keeps towards its peer is the one that it is given at their connection. -/
theorem Given.eq_kept {r : Registry} (h : r.WellFormed) (hmem : c ∈ r.connections)
    (hs : s.connection = some c) (hd : d ∈ r.devices) {kept : String} (hkept : KeptAt d c kept)
    (hgiven : Given s d ip) : ip = kept := by
  cases hgiven with
  | static _ hhost _ =>
    rw [hkept.isRouter] at hhost
    cases hhost
  | linked c' hc' hend =>
    obtain rfl : c' = c := Option.some.inj (hc'.symm.trans hs)
    have hne : c'.source ≠ c'.target := (h.connections.ends c' hmem).1
    -- the registry has the router keep what the connection gives it
    have hget : d.interfaceIps.get? (Device.interfaceKey (c'.peerOf d.id)) = some ip := by
      rcases hend with ⟨hid, hip⟩ | ⟨hid, hip⟩
      · have hpeer : c'.peerOf d.id = c'.target := by rw [Connection.peerOf, if_pos hid.symm]
        rw [hpeer]
        exact ((h.connections.sourceIps c' hmem ip hip).of_id h.devices hd hid.symm).2.2
      · have hpeer : c'.peerOf d.id = c'.source := by
          rw [Connection.peerOf, if_neg (fun e => hne (e.symm.trans hid.symm))]
        rw [hpeer]
        exact ((h.connections.targetIps c' hmem ip hip).of_id h.devices hd hid.symm).2.2
    exact Option.some.inj (hget.symm.trans hkept.interface)
  | stored c' hc' hstored =>
    obtain rfl : c' = c := Option.some.inj (hc'.symm.trans hs)
    exact Option.some.inj (hstored.interface.symm.trans hkept.interface)

/-- A router that keeps an address towards the peer of a connection is given one there. -/
theorem KeptAt.isCustom_routerAddress (h : KeptAt d c ip) (hip : ip ≠ "") :
    (routerAddress d c s).isCustom = true := by
  have hgiven : given? (some ip) = some ip := by simp [given?, Option.filter, hip]
  unfold routerAddress
  dsimp only
  rw [h.interface, hgiven]
  split
  · rfl
  · next hnone =>
    simp at hnone

/-- So it is when the ends are told apart. -/
theorem Ends.isCustom_of_kept (h : Ends ds s c i j source target x y x' y' sa)
    (hds : Registry.SoundDevices ds) (hd : d ∈ ds) (hkept : KeptAt d c ip) (hip : ip ≠ "") :
    ∃ r, sa.byDevice.get? d.id = some r ∧ r.isCustom = true := by
  have hcustom : (routerAddress d c s).isCustom = true := hkept.isCustom_routerAddress hip
  have htype : d.type = .router := beq_iff_eq.1 hkept.isRouter
  have haddress : ∀ e n, endpointAddress d e c s n = .ok (routerAddress d c s) := by
    intro e n
    simp only [endpointAddress, htype]
  have htouches := hkept.touches
  simp only [Registry.touches, Bool.or_eq_true, beq_iff_eq] at htouches
  rcases htouches with hid | hid
  · obtain rfl : source = d := hds.eq_of_id h.source_mem hd (h.source_id.trans hid)
    have hx : x = routerAddress source c s :=
      Except.ok.inj (h.source_address.symm.trans (haddress target i))
    have hsame : x' = x := h.separated.source (.inl (hx ▸ hcustom))
    refine ⟨x', (h.get? _ _).2 (.inl ⟨h.source_id, rfl⟩), ?_⟩
    rw [hsame, hx, hcustom]
  · obtain rfl : target = d := hds.eq_of_id h.target_mem hd (h.target_id.trans hid)
    have hy : y = routerAddress target c s :=
      Except.ok.inj (h.target_address.symm.trans (haddress source j))
    have hsame : y' = y := h.separated.target (.inl (hy ▸ hcustom))
    refine ⟨y', (h.get? _ _).2 (.inr ⟨h.target_id, rfl⟩), ?_⟩
    rw [hsame, hy, hcustom]

end VirtNet.Assignment
