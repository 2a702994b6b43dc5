import VirtNet.Proofs.Assignment.Links

/-!
# The order of the devices

In the analysis by connections the order in which the devices were entered does not matter
(`byConnection_perm`). The connections alone number the segments, and a device is looked up by its id, so
the turns of the analysis do not see the order; what differs is the order in which the ids stand in the list
of networks, and lookup does not see that. A segment is given its addresses from what is looked up
(`onSegment_alike`). Only the last loop goes through the devices in their order, and it never stops: in an
analysis by connections every device is a member of the segments that it is on (`Attached`).
-/

namespace VirtNet

variable {ds ds' : List Device} {a a' : Analysis}

/-- Where ids are distinct, what is found under an id does not depend on the order of the devices. -/
theorem Analysis.deviceOf?_perm (h : ds.Perm ds') (hn : (ds.map Device.id).Nodup) :
    deviceOf? ds' = deviceOf? ds := by
  have hn' : (ds'.map Device.id).Nodup := (h.map Device.id).nodup_iff.1 hn
  funext id
  ext d
  constructor
  · intro hd
    obtain ⟨hmem, rfl⟩ := deviceOf?_eq_some hd
    exact deviceOf?_of_mem hn (h.mem_iff.2 hmem)
  · intro hd
    obtain ⟨hmem, rfl⟩ := deviceOf?_eq_some hd
    exact deviceOf?_of_mem hn' (h.mem_iff.1 hmem)

namespace Analysis

/-! ## Analyses that differ in their order -/

/-- Two analyses with the same segments in the same order, and under every id the same list of networks. -/
structure Alike (a a' : Analysis) : Prop where
  segments : a'.segments = a.segments
  networks : ∀ id, a'.networks.get? id = a.networks.get? id

/-- Every segment that a device is on is there, and is that of a connection with the device at an end. The
names of the segments are those of numbers below `next`. -/
structure Attached (next : Nat) (a : Analysis) : Prop where
  numbered : ∀ name ∈ a.segments.keys, ∃ k < next, name = Segment.nameOf k
  attached : ∀ id names, a.networks.get? id = some names → ∀ name ∈ names, ∃ s c,
    a.segments.get? name = some s ∧ s.connection = some c ∧ Registry.touches id c = true

theorem Alike.addSegment (h : Alike a a') (s : Segment) : Alike (a.addSegment s) (a'.addSegment s) where
  segments := by rw [Analysis.addSegment, h.segments, Analysis.addSegment]
  networks := h.networks

theorem Alike.attach (h : Alike a a') (name id : String) :
    Alike (a.attach name id) (a'.attach name id) where
  segments := h.segments
  networks id' := by
    show (a'.networks.modify id (· ++ [name])).get? id' = (a.networks.modify id (· ++ [name])).get? id'
    rw [OrderedMap.get?_modify, OrderedMap.get?_modify, h.networks]

/-- At the start the ids may stand in either order. -/
theorem alike_start (h : ds.Perm ds') (hn : (ds.map Device.id).Nodup) : Alike (start ds) (start ds') where
  segments := rfl
  networks := by
    refine OrderedMap.get?_ofList_perm (h.map fun d => (d.id, [])) ?_
    rw [List.map_map]
    exact hn

/-- At the start no device is on a segment. -/
theorem attached_start : Attached 1 (start ds) where
  numbered _ h := nomatch h
  attached := by
    intro id names hnames name hname
    have hmem := OrderedMap.mem_of_mem_ofList (OrderedMap.mem_of_get? hnames)
    obtain ⟨d, -, hd⟩ := List.mem_map.1 hmem
    obtain rfl := (Prod.mk.inj hd).2
    cases hname

/-- Putting the end of a connection on the connection's segment. -/
theorem Attached.attach {next : Nat} {s : Segment} {c : Connection} {id : String} (h : Attached next a)
    (hs : a.segments.get? s.name = some s) (hc : s.connection = some c)
    (hid : Registry.touches id c = true) : Attached next (a.attach s.name id) where
  numbered := h.numbered
  attached := by
    intro id' names hnames name hname
    have hmodify : (a.networks.modify id (· ++ [s.name])).get? id' = some names := hnames
    rw [OrderedMap.get?_modify] at hmodify
    split at hmodify
    · next hsame =>
      subst hsame
      obtain ⟨old, hold, rfl⟩ := Option.map_eq_some_iff.1 hmodify
      rcases List.mem_append.1 hname with hname | hname
      · exact h.attached id old hold name hname
      · rw [List.mem_singleton.1 hname]
        exact ⟨s, c, hs, hc, hid⟩
    · exact h.attached id' names hmodify name hname

/-- Giving a connection its segment, whose name is new. -/
theorem Attached.addSegment {next : Nat} {s : Segment} (h : Attached next a)
    (hname : s.name = Segment.nameOf next) : Attached (next + 1) (a.addSegment s) where
  numbered := by
    intro name hmem
    have hkeys : name ∈ (a.segments.insert s.name s).keys := hmem
    rw [← OrderedMap.isSome_get?_iff, OrderedMap.get?_insert] at hkeys
    split at hkeys
    · next hsame => exact ⟨next, Nat.lt_succ_self next, hsame ▸ hname⟩
    · obtain ⟨k, hk, hnamed⟩ := h.numbered name (OrderedMap.isSome_get?_iff.1 hkeys)
      exact ⟨k, Nat.lt_succ_of_lt hk, hnamed⟩
  attached := by
    intro id names hnames name hmem
    obtain ⟨t, c, ht, hc, hid⟩ := h.attached id names hnames name hmem
    refine ⟨t, c, ?_, hc, hid⟩
    -- the new name is none of the names so far, so nothing is put in another's place
    have hne : s.name ≠ name := by
      intro hsame
      have hkey : name ∈ a.segments.keys := OrderedMap.isSome_get?_iff.1 (by rw [ht]; rfl)
      obtain ⟨k, hk, hold⟩ := h.numbered name hkey
      have hnumber : next = k := Segment.nameOf_inj.1 (hname.symm.trans (hsame.trans hold))
      omega
    exact (OrderedMap.get?_insert_of_ne hne).trans ht

/-! ## The loop through the connections -/

/-- Two states of the loop that differ in the order of the ids alone. -/
structure LinkState.Alike (st st' : LinkState) : Prop where
  next : st'.next = st.next
  seen : st'.seen = st.seen
  analysis : Analysis.Alike st.analysis st'.analysis
  attached : Attached st.next st.analysis

/-- One turn of the loop, with the devices in either order. -/
theorem LinkState.Alike.addLink {st st' : LinkState} (h : st.Alike st') {strict : Bool}
    (hds : deviceOf? ds' = deviceOf? ds) (c : Connection) :
    Outcome.Agree LinkState.Alike (Analysis.addLink strict ds st c).outcome
      (Analysis.addLink strict ds' st' c).outcome := by
  -- the order of the devices could only show in lookups
  have hstatic : linkSegment ds' = linkSegment ds := by
    funext number c
    rw [linkSegment, linkSegment, staticOf, staticOf, staticOf, staticOf, hds]
  by_cases hseen : c.key ∈ st.seen ∨ c.reverseKey ∈ st.seen
  · rw [addLink_of_seen hseen, addLink_of_seen (h.seen ▸ hseen)]
    exact .ok h
  by_cases hknown : (deviceOf? ds c.source).isSome ∧ (deviceOf? ds c.target).isSome
  · rw [outcome_addLink hknown.1 hknown.2 hseen,
      outcome_addLink (hds ▸ hknown.1) (hds ▸ hknown.2) (h.seen ▸ hseen), hstatic, h.next]
    split
    · exact .error _
    · refine .ok ?_
      have hs : (st.analysis.addSegment (linkSegment ds st.next c)).segments.get?
          (linkSegment ds st.next c).name = some (linkSegment ds st.next c) :=
        OrderedMap.get?_insert_self _ _ _
      have hadded := h.attached.addSegment (s := linkSegment ds st.next c) rfl
      have hsource := hadded.attach hs rfl (by simp [Registry.touches] : Registry.touches c.source c = true)
      have htarget := hsource.attach hs rfl (by simp [Registry.touches] : Registry.touches c.target c = true)
      rw [LinkState.withLink, LinkState.withLink, hstatic, h.next, h.seen]
      exact {
        next := rfl
        seen := rfl
        analysis := ((h.analysis.addSegment _).attach _ _).attach _ _
        attached := htarget }
  · rw [addLink_of_unknown hknown, addLink_of_unknown (hds ▸ hknown)]
    exact .ok h

/-- The analysis by connections does not see the order of the devices. -/
theorem byConnection_alike (h : ds.Perm ds') (hn : (ds.map Device.id).Nodup) (strict : Bool)
    (cs : List Connection) :
    Outcome.Agree (fun a a' => Alike a a' ∧ ∃ next, Attached next a)
      (byConnection strict ds cs).outcome (byConnection strict ds' cs).outcome := by
  have hds := deviceOf?_perm h hn
  unfold byConnection
  rw [Journal.outcome_bind, Journal.outcome_bind, Journal.outcome_foldlM, Journal.outcome_foldlM]
  have hstart : LinkState.Alike ⟨1, [], start ds⟩ ⟨1, [], start ds'⟩ := {
    next := rfl
    seen := rfl
    analysis := alike_start h hn
    attached := attached_start }
  refine Outcome.Agree.bind (Outcome.Agree.foldlM (fun st st' c _ hst => ?_) hstart) ?_
  · exact hst.addLink hds c
  · exact fun st st' hst => .ok ⟨hst.analysis, st.next, hst.attached⟩

end Analysis

namespace Assignment

open Analysis (Alike Attached)

/-! ## The addresses of the segments -/

/-- A segment is given the same addresses from analyses that differ in their order, with the devices in
either order. -/
theorem onSegment_alike (hds : Analysis.deviceOf? ds' = Analysis.deviceOf? ds) (h : Alike a a')
    (s : Segment) : onSegment ds' a' s = onSegment ds a s := by
  have hdevice : device ds' = device ds := by
    funext id
    rw [device, device, hds]
  have hindex : indexOf a' = indexOf a := by
    funext id name
    rw [indexOf, indexOf, h.networks]
  have hstatic : static? ds' a' s = static? ds a s := by
    funext id
    rw [static?, static?, hdevice, hindex]
  have hnumber : number ds' s = number ds s := by
    funext p id
    rw [number, number, hdevice]
  have hpooled : pooled ds' a' s = pooled ds a s := by
    rw [pooled, pooled, hstatic, hnumber]
  unfold onSegment onConnection
  rw [hdevice, hindex, hpooled]

/-- The addresses of a connection's segment have one for each of its ends. -/
theorem isSome_of_onConnection {s : Segment} {c : Connection} {sa : SegmentAddresses} {id : String}
    (h : (onConnection ds a s c).outcome = .ok sa) (hid : Registry.touches id c = true) :
    (sa.byDevice.get? id).isSome = true := by
  have hfound : ∀ {id d}, device ds id = .ok d → d.id = id := by
    intro id d hd
    unfold device at hd
    split at hd
    · next hsome =>
      obtain rfl := Except.ok.inj hd
      exact (Analysis.deviceOf?_eq_some hsome).2
    · cases hd
  simp only [onConnection, Journal.outcome_bind, Journal.outcome_ofExcept, Outcome.bind_eq_ok] at h
  obtain ⟨source, hsource, target, htarget, -, -, -, -, -, -, -, -, ⟨x, y⟩, -, ⟨⟩⟩ := h
  have hends : id = source.id ∨ id = target.id := by
    rw [hfound hsource, hfound htarget]
    rcases (Bool.or_eq_true _ _).mp hid with hid | hid
    · exact .inl (beq_iff_eq.1 hid).symm
    · exact .inr (beq_iff_eq.1 hid).symm
  show (((OrderedMap.empty.insert source.id x).insert target.id y).get? id).isSome = true
  rw [OrderedMap.get?_insert, OrderedMap.get?_insert]
  split
  · rfl
  · next hne =>
    rw [if_pos (hends.resolve_right fun h => hne h.symm).symm]
    rfl

/-! ## The assignments of the devices -/

/-- In an analysis by connections whose segments have addresses, a device is assigned one on each segment
that it is on. -/
theorem exists_assignFrom_attached {next : Nat} (h : Attached next a)
    {resolved : List (String × SegmentAddresses)}
    (hresolved : a.segments.entries.mapM (fun e => do
      return (e.1, ← (onSegment ds a e.2).outcome)) = .ok resolved) (id : String) :
    ∃ xs, (assignFrom a (.ofList resolved) id 0 ((a.networks.get? id).getD [])).outcome = .ok xs := by
  have hkeys : resolved.map Prod.fst = a.segments.entries.map Prod.fst := by
    refine Outcome.map_of_mapM_eq_ok hresolved fun e r hr => ?_
    obtain ⟨sa, -, hr⟩ := Outcome.bind_eq_ok.1 hr
    obtain rfl := Except.ok.inj hr
    rfl
  have hone : ∀ name ∈ (a.networks.get? id).getD [], ∀ index, ∃ x,
      (assignOne a (.ofList resolved) id index name).outcome = .ok x ∧ x.network = name ∧ True := by
    intro name hname index
    cases hnames : a.networks.get? id with
    | none =>
      rw [hnames] at hname
      cases hname
    | some names =>
      rw [hnames, Option.getD_some] at hname
      obtain ⟨s, c, hs, hc, hid⟩ := h.attached id names hnames name hname
      obtain ⟨r, hr, hok⟩ := Outcome.mem_of_mapM_eq_ok hresolved (OrderedMap.get?_eq_some_iff.1 hs)
      obtain ⟨sa, hsa, hpair⟩ := Outcome.bind_eq_ok.1 hok
      obtain rfl := Except.ok.inj hpair
      have hget : (OrderedMap.ofList resolved).get? name = some sa :=
        (OrderedMap.get?_ofList (hkeys ▸ a.segments.nodup)).2 hr
      have hsettled : (onConnection ds a s c).outcome = .ok sa := by
        rw [onSegment, hc] at hsa
        exact hsa
      obtain ⟨x, hx⟩ := Option.isSome_iff_exists.1 (isSome_of_onConnection hsettled hid)
      exact ⟨_, outcome_assignOne index hs hget hx, rfl, trivial⟩
  obtain ⟨xs, hxs, -, -⟩ := assignFrom_forall hone 0
  exact ⟨xs, hxs⟩

/-- Analyses that differ in their order give a device the same assignments. -/
theorem assignFrom_alike (h : Alike a a') (resolved : OrderedMap SegmentAddresses) (id : String)
    (index : Nat) (names : List String) :
    assignFrom a' resolved id index names = assignFrom a resolved id index names := by
  induction names generalizing index with
  | nil => rfl
  | cons name rest ih =>
    have hone : assignOne a' resolved id index name = assignOne a resolved id index name := by
      rw [assignOne, assignOne, h.segments]
    rw [assignFrom, assignFrom, ih, hone]

/-- The assignment of an analysis by connections does not see the order of the devices. -/
theorem assign_alike (hp : ds.Perm ds') (hn : (ds.map Device.id).Nodup) (h : Alike a a') {next : Nat}
    (hattached : Attached next a) :
    Outcome.Agree (fun assigned assigned' => ∀ id, assigned'.get? id = assigned.get? id)
      (assign ds a).outcome (assign ds' a').outcome := by
  have hsegments : (fun e : String × Segment => do return (e.1, ← onSegment ds' a' e.2)) =
      fun e => do return (e.1, ← onSegment ds a e.2) := by
    funext e
    rw [onSegment_alike (Analysis.deviceOf?_perm hp hn) h]
  unfold assign
  rw [h.segments, hsegments, Journal.outcome_bind, Journal.outcome_bind, Journal.outcome_mapM]
  cases hresolved : a.segments.entries.mapM
      (fun e => (do return (e.1, ← onSegment ds a e.2) : Journal _ _).outcome) with
  | error e => exact .error e
  | ok resolved =>
    -- every device is assigned something, so both loops go through all devices
    simp only [Journal.outcome_bind, Journal.outcome_pure] at hresolved
    choose xs hxs using exists_assignFrom_attached hattached hresolved
    have hloop : ∀ ds : List Device, (ds.mapM fun d => (do
        return (d.id, ← assignFrom a (.ofList resolved) d.id 0 ((a.networks.get? d.id).getD [])) :
          Journal AssignmentError _)).outcome = .ok (ds.map fun d => (d.id, xs d.id)) := by
      intro ds
      rw [Journal.outcome_mapM, Outcome.mapM_eq_ok, List.forall₂_map_right_iff, List.forall₂_same]
      intro d _
      rw [Journal.outcome_bind, hxs]
      rfl
    have hkeys : ((ds.map fun d => (d.id, xs d.id)).map Prod.fst).Nodup := by
      rw [List.map_map]
      exact hn
    simp only [Outcome.ok_bind, assignFrom_alike h, h.networks, Journal.outcome_bind, hloop]
    exact .ok (OrderedMap.get?_ofList_perm (hp.map _) hkeys)

/-- In the analysis by connections the order in which the devices were entered does not matter. For devices
with distinct ids in two orders, and whatever the connections, the analyses fail with one error, or both
succeed with the same segments in the same order and the same list of networks for every id; and then the
assignments fail with one error, or both succeed and are the same for every id. -/
theorem byConnection_perm (hp : ds.Perm ds') (hn : (ds.map Device.id).Nodup) (strict : Bool)
    (cs : List Connection) :
    Outcome.Agree
      (fun a a' => a'.segments = a.segments ∧ (∀ id, a'.networks.get? id = a.networks.get? id) ∧
        Outcome.Agree (fun assigned assigned' => ∀ id, assigned'.get? id = assigned.get? id)
          (assign ds a).outcome (assign ds' a').outcome)
      (Analysis.analyze (.text "connection") strict ds cs).outcome
      (Analysis.analyze (.text "connection") strict ds' cs).outcome := by
  have hmode : ∀ ds, (Analysis.analyze (.text "connection") strict ds cs).outcome =
      (Analysis.byConnection strict ds cs).outcome := fun ds => rfl
  rw [hmode, hmode]
  refine (Analysis.byConnection_alike hp hn strict cs).imp fun a a' h => ?_
  obtain ⟨halike, next, hattached⟩ := h
  exact ⟨halike.segments, halike.networks, assign_alike hp hn halike hattached⟩

/-- A router, a host with a static address, and a device of a type that is none of the three. -/
def threeKinds : List Device := [
  ⟨"R", .router, none, none, none, none, .empty⟩,
  ⟨"a", .vm, none, none, none, some "10.0.0.1", .empty⟩,
  ⟨"p", .other "printer", none, none, none, none, .empty⟩]

/-- A connection of the router to the host, one to a device that is not there, and one back. -/
def threeLinks : List Connection := [
  ⟨"R", "a", none, none, none⟩, ⟨"R", "x", none, none, none⟩, ⟨"a", "R", none, none, none⟩]

/-- What the three devices are assigned: the router moves up from the static address of the host, and the
device of no type is on no segment. -/
def threeAssigned : OrderedMap (List Assignment) := .ofList [
  ("R", [⟨"R", "net1", "10.0.0.2", "10.0.0.0/24", "10.0.0.2", 0, false, some "R-a"⟩]),
  ("a", [⟨"a", "net1", "10.0.0.1", "10.0.0.0/24", "10.0.0.2", 0, true, some "R-a"⟩]),
  ("p", [])]

/-- The devices are read from the last to the first. Both runs give the router and the host one segment, on
the network of the host's static address, and both assign the same. -/
theorem byConnection_perm_threeKinds :
    threeKinds.Perm threeKinds.reverse ∧ (threeKinds.map Device.id).Nodup ∧
    ∃ a a' assigned',
      (Analysis.analyze (.text "connection") true threeKinds threeLinks).outcome = .ok a ∧
      (Analysis.analyze (.text "connection") true threeKinds.reverse threeLinks).outcome = .ok a' ∧
      a.segments.entries.map (fun e => (e.1, e.2.subnet, e.2.members)) =
        [("net1", "10.0.0.0/24", ["R", "a"])] ∧
      a'.segments = a.segments ∧ (∀ id, a'.networks.get? id = a.networks.get? id) ∧
      (assign threeKinds a).outcome = .ok threeAssigned ∧
      (assign threeKinds.reverse a').outcome = .ok assigned' ∧
      ∀ id, assigned'.get? id = threeAssigned.get? id := by
  have hperm : threeKinds.Perm threeKinds.reverse := (List.reverse_perm threeKinds).symm
  have hids : (threeKinds.map Device.id).Nodup := by decide
  have hrun : ((Analysis.analyze (.text "connection") true threeKinds threeLinks).outcome.toOption.any
      fun a => decide (
        a.segments.entries.map (fun e => (e.1, e.2.subnet, e.2.members)) =
          [("net1", "10.0.0.0/24", ["R", "a"])] ∧
        ((assign threeKinds a).outcome.toOption.any (· = threeAssigned)) = true)) = true := by
    decide +kernel
  obtain ⟨a, ha, hsegments, hassign⟩ := Outcome.exists_of_any_toOption hrun
  obtain ⟨assigned, hassigned, rfl⟩ := Outcome.exists_of_any_toOption hassign
  obtain ⟨a', ha', hsame, hnetworks, hagree⟩ :=
    (byConnection_perm hperm hids true threeLinks).exists_ok ha
  obtain ⟨assigned', hassigned', hlookup⟩ := hagree.exists_ok hassigned
  exact ⟨hperm, hids, a, a', assigned', ha, ha', hsegments, hsame, hnetworks, hassigned, hassigned',
    hlookup⟩

end Assignment

end VirtNet
