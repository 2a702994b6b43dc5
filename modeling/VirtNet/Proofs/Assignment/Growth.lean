import VirtNet.Proofs.Assignment.Drawn

/-!
# A design that grows

Taking a further device or connection in never renumbers what is there (`assignments_grow`). To the
connections that were there a device looks as before (`SameOn`): a connection records addresses at its
ends, but no other connection joins the pair, so none of them reads what is recorded. The analysis goes
through the connections in order, so its old segments come first and stay as they are
(`Continues.segments`), and a device keeps its old segments at their positions (`Continues.networks`). So
the old segments are given the addresses that they had (`Continues.onSegment`).
-/

namespace VirtNet

/-- Whether a change takes a device or a connection in. -/
def Change.grows : Change → Bool
  | .addDevice _ | .addConnection _ => true
  | .deleteDevice _ | .clear | .load _ => false

namespace Registry

/-- To the connections `cs` the device `d'` is what `d` is: it has the same id, type and static address,
and the same address towards each peer. -/
structure SameOn (cs : List Connection) (d d' : Device) : Prop where
  id : d'.id = d.id
  type : d'.type = d.type
  ip : d'.ip = d.ip
  interface : ∀ c ∈ cs, touches d.id c = true →
    d'.interfaceIps.get? (Device.interfaceKey (c.peerOf d.id)) =
      d.interfaceIps.get? (Device.interfaceKey (c.peerOf d.id))

/-- The registry `r'` holds what `r` holds, and further devices and connections after it. -/
structure Grown (r r' : Registry) : Prop where
  devices : ∀ d ∈ r.devices, ∃ d' ∈ r'.devices, SameOn r.connections d d'
  connections : r.connections <+: r'.connections

variable {r r' : Registry} {d d' e e' : Device} {c : Connection}

theorem SameOn.refl (cs : List Connection) (d : Device) : SameOn cs d d :=
  ⟨rfl, rfl, rfl, fun _ _ _ => rfl⟩

theorem SameOn.isRouter {cs : List Connection} (h : SameOn cs d d') : d'.isRouter = d.isRouter := by
  rw [Device.isRouter, h.type, ← Device.isRouter]

/-- A connection that touches a device joins it with its peer. -/
theorem joins_peerOf {id : String} (h : touches id c = true) : c.joins id (c.peerOf id) = true := by
  simp only [touches, Bool.or_eq_true, beq_iff_eq] at h
  rw [joins_eq_true_iff, Connection.peerOf]
  by_cases hs : id = c.source
  · rw [if_pos hs]
    exact .inl ⟨hs.symm, rfl⟩
  · rw [if_neg hs]
    rcases h with hsource | htarget
    · exact absurd hsource.symm hs
    · exact .inr ⟨rfl, htarget⟩

/-- To the connections of a registry its devices are what they were before a further connection was
taken in. -/
theorem Links.sameOn {draft : Connection.Draft} {s t : Device} (hc : r.Links draft s t c) (d : Device) :
    SameOn r.connections d (withLink c d) where
  id := withLink_id c d
  type := withLink_type c d
  ip := withLink_ip c d
  interface := by
    intro e he htouches
    have hjoins := joins_peerOf htouches
    have hfresh := hc.fresh_ends e he
    rw [← Bool.not_eq_true, joins_eq_true_iff] at hfresh
    rw [joins_eq_true_iff] at hjoins
    -- an address towards the same peer would be one of a connection that joins the same pair
    refine get?_withLink_of_ne ?_ ?_
    · intro hid hpeer
      rw [hpeer, hid] at hjoins
      exact hfresh hjoins
    · intro hid hpeer
      rw [hpeer, hid] at hjoins
      exact hfresh hjoins.symm

/-- A device or a connection that is taken in makes a registry grow. -/
theorem grown_of_attempt? {change : Change} (hgrows : change.grows = true)
    (h : r.attempt? change = some r') : r.Grown r' := by
  cases change with
  | addDevice draft =>
    obtain ⟨d, -, rfl⟩ := attempt?_addDevice.1 h
    exact ⟨fun e he => ⟨e, List.mem_append_left _ he, SameOn.refl _ e⟩, List.prefix_refl _⟩
  | addConnection draft =>
    obtain ⟨c, s, t, hc, rfl⟩ := attempt?_addConnection.1 h
    exact ⟨fun e he => ⟨withLink c e, List.mem_map_of_mem he, hc.sameOn e⟩, List.prefix_append _ _⟩
  | _ => cases hgrows

end Registry

namespace Analysis

variable {r r' : Registry} {a a' : Analysis} {cs cs' kept : List Connection} {c : Connection}

/-! ## The segments of a grown design -/

/-- The connections that were left stay, whatever follows. -/
theorem prefix_foldl_retain : kept <+: cs.foldl retain kept := by
  induction cs generalizing kept with
  | nil => exact List.prefix_refl kept
  | cons c cs ih =>
    have hstep : kept <+: retain kept c := by
      unfold retain
      split
      · exact List.prefix_refl kept
      · exact List.prefix_append kept [c]
    rw [List.foldl_cons]
    exact hstep.trans ih

/-- The connections that are left of a list are left of a longer one. -/
theorem links_prefix (h : cs <+: cs') : links cs <+: links cs' := by
  obtain ⟨more, rfl⟩ := h
  rw [links, links, List.foldl_append]
  exact prefix_foldl_retain

/-- The names of a device's segments come before those of further connections. -/
theorem linkNames_prefix (id : String) (h : kept <+: cs) : linkNames id kept <+: linkNames id cs := by
  obtain ⟨more, rfl⟩ := h
  unfold linkNames
  rw [List.zipIdx_append, List.filter_append, List.map_append]
  exact List.prefix_append _ _

/-- A device has the static address that it had. -/
theorem staticOf_grow (hr' : r'.WellFormed) (hr : r.WellFormed) (hg : r.Grown r') {id : String}
    (hid : ∃ d ∈ r.devices, d.id = id) : staticOf r'.devices id = staticOf r.devices id := by
  obtain ⟨d, hd, rfl⟩ := hid
  obtain ⟨d', hd', hsame⟩ := hg.devices d hd
  have hold : deviceOf? r.devices d.id = some d := deviceOf?_of_mem hr.devices.ids_nodup hd
  have hnew : deviceOf? r'.devices d.id = some d' := by
    rw [← hsame.id, deviceOf?_of_mem hr'.devices.ids_nodup hd']
  rw [staticOf, staticOf, hold, hnew]
  exact hsame.ip

/-- The segments that were there come first, and are what they were. -/
theorem linkSegments_grow (hr' : r'.WellFormed) (hr : r.WellFormed) (hg : r.Grown r') :
    linkSegments r.devices (links r.connections) <+: linkSegments r'.devices (links r'.connections) := by
  obtain ⟨more, hmore⟩ := links_prefix hg.connections
  have hsame : linkSegments r'.devices (links r.connections) =
      linkSegments r.devices (links r.connections) := by
    unfold linkSegments
    refine List.map_congr_left ?_
    rintro ⟨c, k⟩ hck
    have hc : c ∈ links r.connections := List.fst_mem_of_mem_zipIdx hck
    obtain ⟨-, s, hs, t, ht, hsid, htid, -⟩ := hr.connections.ends c (mem_of_mem_links hc)
    dsimp only
    rw [linkSegment, linkSegment, staticOf_grow hr' hr hg ⟨s, hs, hsid⟩,
      staticOf_grow hr' hr hg ⟨t, ht, htid⟩]
  rw [← hmore, ← hsame]
  unfold linkSegments
  rw [List.zipIdx_append, List.map_append]
  exact List.prefix_append _ _

end Analysis

namespace Assignment

variable {r r' : Registry} {a a' : Analysis} {d d' e e' : Device} {c : Connection} {s : Segment}
  {id name : String} {names more : List String}

/-! ## The addresses of the old segments -/

/-- A segment keeps its position when further ones follow. -/
theorem indexOf_append (hnames : a.networks.get? id = some names)
    (hnames' : a'.networks.get? id = some (names ++ more)) (hname : name ∈ names) :
    indexOf a' id name = indexOf a id name := by
  obtain ⟨i, hi⟩ := exists_findIdx? hname
  have hi' : (names ++ more).findIdx? (· == name) = some i := by
    rw [List.findIdx?_append, hi, Option.some_or]
  simp only [indexOf, hnames, hnames', hi, hi']

/-- An end that is the same to the connection, at a peer of the same kind, has the same address. -/
theorem endpointAddress_sameOn {cs : List Connection} (hd : Registry.SameOn cs d d')
    (he : e'.isRouter = e.isRouter) (hc : c ∈ cs) (htouches : Registry.touches d.id c = true)
    (i : Nat) : endpointAddress d' e' c s i = endpointAddress d e c s i := by
  have hrouter : routerAddress d' c s = routerAddress d c s := by
    unfold routerAddress
    rw [hd.id, hd.interface c hc htouches]
  have hhost : hostAddress d' e' s i = hostAddress d e s i := by
    unfold hostAddress
    rw [hd.ip, he]
  unfold endpointAddress
  rw [hd.type, hrouter, hhost]

/-- Telling two addresses apart depends on the devices in its notes alone. -/
theorem outcome_separate (s : Segment) (d d' e e' : Device) (x y : Resolved) :
    (separate s d' e' x y).outcome = (separate s d e x y).outcome := by
  unfold separate
  split
  · rfl
  · split
    · rfl
    · split
      · rfl
      · rfl

/-- The addresses at a connection are the same when its ends are the same to it, and have the segment at
the same positions. -/
theorem onConnection_sameOn {cs : List Connection} {ds ds' : List Device} (hc : c ∈ cs)
    (hd : device ds c.source = .ok d) (hd' : device ds' c.source = .ok d')
    (he : device ds c.target = .ok e) (he' : device ds' c.target = .ok e')
    (hsource : Registry.SameOn cs d d') (htarget : Registry.SameOn cs e e')
    (hi : indexOf a' d.id s.name = indexOf a d.id s.name)
    (hj : indexOf a' e.id s.name = indexOf a e.id s.name)
    (hdc : d.id = c.source) (hec : e.id = c.target) :
    (onConnection ds' a' s c).outcome = (onConnection ds a s c).outcome := by
  have hx : ∀ i, endpointAddress d' e' c s i = endpointAddress d e c s i :=
    endpointAddress_sameOn hsource htarget.isRouter hc (by simp [Registry.touches, hdc])
  have hy : ∀ j, endpointAddress e' d' c s j = endpointAddress e d c s j :=
    endpointAddress_sameOn htarget hsource.isRouter hc (by simp [Registry.touches, hec])
  unfold onConnection
  simp only [Journal.outcome_bind, Journal.outcome_ofExcept, Journal.outcome_pure, hd, hd', he, he',
    Outcome.ok_bind, hsource.id, htarget.id, hsource.isRouter, htarget.isRouter, hi, hj, hx, hy,
    outcome_separate s d d' e e']

/-- The devices of a grown design are found under the ids that they had. -/
theorem exists_device_grow (hr : r.WellFormed) (hr' : r'.WellFormed) (hg : r.Grown r')
    (hd : d ∈ r.devices) : ∃ d', Registry.SameOn r.connections d d' ∧
      device r.devices d.id = .ok d ∧ device r'.devices d.id = .ok d' := by
  obtain ⟨d', hd', hsame⟩ := hg.devices d hd
  refine ⟨d', hsame, device_of_mem hr.devices.ids_nodup hd, ?_⟩
  rw [← hsame.id, device_of_mem hr'.devices.ids_nodup hd']

/-- How two analyses by connections, of a design and of what it grows to, go together. -/
structure Continues (r r' : Registry) (a a' : Analysis) : Prop where
  old : r.WellFormed
  new : r'.WellFormed
  grown : r.Grown r'
  ofOld : Analysis.OfLinks r.devices (Analysis.links r.connections) a
  ofNew : Analysis.OfLinks r'.devices (Analysis.links r'.connections) a'

/-- The segments that were there come first, and are what they were. -/
theorem Continues.segments (h : Continues r r' a a') : a.segments.entries <+: a'.segments.entries := by
  rw [h.ofOld.segments, h.ofNew.segments]
  exact Analysis.linkSegments_grow h.new h.old h.grown

/-- A segment that was there is found under its name. -/
theorem Continues.get?_segments (h : Continues r r' a a') (hs : a.segments.get? name = some s) :
    a'.segments.get? name = some s := by
  rw [OrderedMap.get?_eq_some_iff] at hs ⊢
  exact h.segments.subset hs

/-- A device has its old segments first. -/
theorem Continues.networks (h : Continues r r' a a') (hd : d ∈ r.devices) :
    a.networks.get? d.id = some (Analysis.linkNames d.id (Analysis.links r.connections)) ∧
      ∃ more, a'.networks.get? d.id =
        some (Analysis.linkNames d.id (Analysis.links r.connections) ++ more) := by
  refine ⟨h.ofOld.networks d hd, ?_⟩
  obtain ⟨d', hd', hsame⟩ := h.grown.devices d hd
  obtain ⟨more, hmore⟩ :=
    Analysis.linkNames_prefix d.id (Analysis.links_prefix h.grown.connections)
  refine ⟨more, ?_⟩
  rw [← hsame.id, h.ofNew.networks d' hd', hsame.id, hmore]

/-- A segment that was there is given the addresses that it had, and the same gateway. -/
theorem Continues.onSegment (h : Continues r r' a a') {entry : String × Segment}
    (he : entry ∈ a.segments.entries) :
    (onSegment r'.devices a' entry.2).outcome = (onSegment r.devices a entry.2).outcome := by
  rw [h.ofOld.segments, mem_linkSegments] at he
  obtain ⟨⟨c, k⟩, hck, rfl⟩ := he
  have hc : c ∈ Analysis.links r.connections := List.fst_mem_of_mem_zipIdx hck
  have hmem : c ∈ r.connections := Analysis.mem_of_mem_links hc
  obtain ⟨-, d, hd, e, he, hdc, hec, -⟩ := h.old.connections.ends c hmem
  obtain ⟨d', hsource, hdold, hdnew⟩ := exists_device_grow h.old h.new h.grown hd
  obtain ⟨e', htarget, heold, henew⟩ := exists_device_grow h.old h.new h.grown he
  -- the ends have the segment among their old ones, and so at its old position
  have hindex : ∀ d ∈ r.devices, Registry.touches d.id c = true →
      indexOf a' d.id (Segment.nameOf k) = indexOf a d.id (Segment.nameOf k) := by
    intro d hd htouches
    obtain ⟨hnames, more, hnames'⟩ := h.networks hd
    exact indexOf_append hnames hnames' (mem_linkNames.2 ⟨(c, k), hck, htouches, rfl⟩)
  exact onConnection_sameOn hmem (hdc ▸ hdold) (hdc ▸ hdnew) (hec ▸ heold) (hec ▸ henew) hsource htarget
    (hindex d hd (by simp [Registry.touches, hdc])) (hindex e he (by simp [Registry.touches, hec]))
    hdc hec

/-! ## The assignments of the old devices -/

variable {resolved resolved' : OrderedMap SegmentAddresses} {xs xs' : List Assignment}

/-- The assignment on a segment depends on that segment and its addresses alone. -/
theorem assignOne_congr (hs : a'.segments.get? name = a.segments.get? name)
    (hsa : resolved'.get? name = resolved.get? name) (id : String) (index : Nat) :
    (assignOne a' resolved' id index name).outcome = (assignOne a resolved id index name).outcome := by
  unfold assignOne
  rw [hs, hsa]

/-- Where the assignments on some segments stay what they were, they come before those on further
segments. -/
theorem assignFrom_prefix {index : Nat}
    (hone : ∀ name ∈ names, ∀ index, (assignOne a' resolved' id index name).outcome =
      (assignOne a resolved id index name).outcome)
    (hxs : (assignFrom a resolved id index names).outcome = .ok xs)
    (hxs' : (assignFrom a' resolved' id index (names ++ more)).outcome = .ok xs') : xs <+: xs' := by
  induction names generalizing index xs xs' with
  | nil =>
    cases hxs
    exact List.nil_prefix
  | cons name rest ih =>
    obtain ⟨x, ys, hx, hys, rfl⟩ := assignFrom_cons_eq_ok.1 hxs
    obtain ⟨x', ys', hx', hys', rfl⟩ := assignFrom_cons_eq_ok.1 hxs'
    have hsame : x' = x := by
      rw [hone name List.mem_cons_self index, hx] at hx'
      exact (Except.ok.inj hx').symm
    rw [hsame, List.cons_prefix_cons]
    exact ⟨rfl, ih (fun n hn => hone n (List.mem_cons_of_mem _ hn)) hys hys'⟩

/-- The assignments of a device that was there come first, and are what they were. -/
theorem Continues.assigned (h : Continues r r' a a') {assigned assigned' : OrderedMap (List Assignment)}
    (hassigned : (assign r.devices a).outcome = .ok assigned)
    (hassigned' : (assign r'.devices a').outcome = .ok assigned') (hd : d ∈ r.devices) :
    ∃ xs xs', assigned.get? d.id = some xs ∧ assigned'.get? d.id = some xs' ∧ xs <+: xs' := by
  obtain ⟨d', hd', hsame⟩ := h.grown.devices d hd
  obtain ⟨hnames, more, hnames'⟩ := h.networks hd
  obtain ⟨resolved, xs, hresolved, hxs, hget⟩ := exists_assignFrom hassigned h.old.devices.ids_nodup hd
  obtain ⟨resolved', xs', hresolved', hxs', hget'⟩ :=
    exists_assignFrom hassigned' h.new.devices.ids_nodup hd'
  rw [hnames, Option.getD_some] at hxs
  rw [hsame.id, hnames', Option.getD_some] at hxs'
  rw [hsame.id] at hget'
  refine ⟨xs, xs', hget, hget', assignFrom_prefix ?_ hxs hxs'⟩
  intro name hname index
  -- in both runs the name stands for one segment, which is given the same addresses
  obtain ⟨x, -, i, hone⟩ := Outcome.exists_of_forall₂ (assignFrom_eq_ok hxs) hname
  obtain ⟨x', -, i', hone'⟩ :=
    Outcome.exists_of_forall₂ (assignFrom_eq_ok hxs') (List.mem_append_left more hname)
  obtain ⟨s, sa, hs, hsa, hok⟩ := exists_settled hresolved hone
  obtain ⟨s', sa', hs', hsa', hok'⟩ := exists_settled hresolved' hone'
  have hsegment : a'.segments.get? name = some s := h.get?_segments hs
  obtain rfl : s = s' := Option.some.inj (hsegment.symm.trans hs')
  have hsettled := h.onSegment (OrderedMap.get?_eq_some_iff.1 hs)
  obtain rfl : sa = sa' := Except.ok.inj ((hok.symm.trans hsettled.symm).trans hok')
  exact assignOne_congr (hsegment.trans hs.symm) (hsa'.trans hsa.symm) d.id index

/-- Whatever a registry went through, taking a further device or a further connection in renumbers
nothing. In lenient analyses by connections, before and after, the old segments come first and are what
they were, and they are given the same addresses and the same gateway; and the assignments of every old
device come first among its new ones, and are what they were. -/
theorem assignments_grow (history : List Change) {change : Change} (hgrows : change.grows = true)
    (h : (Registry.after history).attempt? change = some r') :
    let r := Registry.after history
    ∃ a a' assigned assigned',
      (Analysis.byConnection false r.devices r.connections).outcome = .ok a ∧
      (Analysis.byConnection false r'.devices r'.connections).outcome = .ok a' ∧
      (assign r.devices a).outcome = .ok assigned ∧
      (assign r'.devices a').outcome = .ok assigned' ∧
      a.segments.entries <+: a'.segments.entries ∧
      (∀ e ∈ a.segments.entries, ∃ sa, (onSegment r.devices a e.2).outcome = .ok sa ∧
        (onSegment r'.devices a' e.2).outcome = .ok sa) ∧
      ∀ d ∈ r.devices, ∃ xs xs', assigned.get? d.id = some xs ∧ assigned'.get? d.id = some xs' ∧
        xs <+: xs' := by
  intro r
  have hr : r.WellFormed := Registry.wellFormed_after history
  -- the grown registry is what a longer history leaves
  have hr' : r'.WellFormed := by
    have hafter : Registry.after (history ++ [change]) = r' := by
      rw [Registry.after, List.foldl_append, List.foldl_cons, List.foldl_nil]
      exact Registry.apply_of_attempt? h
    rw [← hafter]
    exact Registry.wellFormed_after (history ++ [change])
  obtain ⟨a, ha⟩ := Analysis.exists_byConnection r.devices r.connections
  obtain ⟨a', ha'⟩ := Analysis.exists_byConnection r'.devices r'.connections
  have hcontinues : Continues r r' a a' := {
    old := hr
    new := hr'
    grown := Registry.grown_of_attempt? hgrows h
    ofOld := Analysis.byConnection_ofLinks hr ha
    ofNew := Analysis.byConnection_ofLinks hr' ha' }
  have hkept : ∀ {r : Registry}, r.WellFormed → ∀ c ∈ Analysis.links r.connections,
      Registry.JoinsKnown r.devices c :=
    fun hr c hc => hr.connections.ends c (Analysis.mem_of_mem_links hc)
  obtain ⟨assigned, hassigned, -⟩ := assign_ofLinks hr.devices (hkept hr) hcontinues.ofOld
  obtain ⟨assigned', hassigned', -⟩ := assign_ofLinks hr'.devices (hkept hr') hcontinues.ofNew
  refine ⟨a, a', assigned, assigned', ha, ha', hassigned, hassigned', hcontinues.segments, ?_, ?_⟩
  · intro e he
    obtain ⟨sa, hsa, -⟩ := onSegment_settled hr.devices (hkept hr) hcontinues.ofOld he
    exact ⟨sa, hsa, (hcontinues.onSegment he).trans hsa⟩
  · intro d hd
    exact hcontinues.assigned hassigned hassigned' hd

/-- A router `R` connected to a host with a static address, and a host that is not connected. -/
def oneHost : List Change := [
  .addDevice { id := .text "R", type := .text "router" },
  .addDevice { id := .text "a", type := .text "vm", ip := .text "10.0.0.1" },
  .addDevice { id := .text "b", type := .text "vm" },
  .addConnection { source := "R", target := "a" }]

/-- The other host is connected, and the router is given an address there. -/
def otherHost : Change :=
  .addConnection { source := "b", target := "R", targetIp := .text "10.0.5.1" }

/-- What a device is assigned in the lenient analysis of a registry by connections. -/
def addressesIn (r : Registry) (id : String) : Option (List (String × String × Bool)) := do
  let a ← (Analysis.byConnection false r.devices r.connections).outcome.toOption
  let assigned ← (assign r.devices a).outcome.toOption
  return addressesOf assigned id

/-- The router keeps its first address when the other host is connected. -/
theorem assignments_grow_otherHost : ∃ r', (Registry.after oneHost).attempt? otherHost = some r' ∧
    addressesIn (Registry.after oneHost) "R" = some [("net1", "10.0.0.2", false)] ∧
    addressesIn r' "R" = some [("net1", "10.0.0.2", false), ("net2", "10.0.5.1", true)] ∧
    ∃ a a' assigned assigned',
      (Analysis.byConnection false (Registry.after oneHost).devices
        (Registry.after oneHost).connections).outcome = .ok a ∧
      (Analysis.byConnection false r'.devices r'.connections).outcome = .ok a' ∧
      (assign (Registry.after oneHost).devices a).outcome = .ok assigned ∧
      (assign r'.devices a').outcome = .ok assigned' ∧ a.segments.entries <+: a'.segments.entries ∧
      ∀ d ∈ (Registry.after oneHost).devices, ∃ xs xs', assigned.get? d.id = some xs ∧
        assigned'.get? d.id = some xs' ∧ xs <+: xs' := by
  have hrun : ((Registry.after oneHost).attempt? otherHost).map (addressesIn · "R") =
      some (some [("net1", "10.0.0.2", false), ("net2", "10.0.5.1", true)]) := by
    decide +kernel
  obtain ⟨r', hr', haddresses⟩ := Option.map_eq_some_iff.1 hrun
  have hbefore : addressesIn (Registry.after oneHost) "R" = some [("net1", "10.0.0.2", false)] := by
    decide +kernel
  obtain ⟨a, a', assigned, assigned', ha, ha', hassigned, hassigned', hsegments, -, hdevices⟩ :=
    assignments_grow oneHost rfl hr'
  exact ⟨r', hr', hbefore, haddresses, a, a', assigned, assigned', ha, ha', hassigned, hassigned',
    hsegments, hdevices⟩

end Assignment

end VirtNet
