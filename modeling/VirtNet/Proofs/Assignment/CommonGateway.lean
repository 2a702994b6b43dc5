import VirtNet.Proofs.Assignment.Gateway

/-!
# One gateway for all members

The assignments on one segment all record one gateway (`CommonGateway.same`), and where the segment has a
router, that is the address that a router of the segment has been assigned there, with no regard to
whether the address is given, numbered or moved away from another (`CommonGateway.router`). Which router
that is depends on the mode: at a connection the source comes before the target, and elsewhere the order
of the members decides (`Leads`).
-/

namespace VirtNet.Assignment

/-- The router `e` is the one of the segment whose address is the gateway. -/
inductive Leads (ds : List Device) (s : Segment) (e : Device) : Prop
  /-- It is the source of the segment's connection. -/
  | source (c : Connection) (hc : s.connection = some c) (hid : e.id = c.source)
  /-- It is the target, and the source is no router. -/
  | target (c : Connection) (hc : s.connection = some c) (hid : e.id = c.target)
      (hsource : ∀ d ∈ ds, d.id = c.source → d.isRouter = false)
  /-- The segment stands for no connection, and no member before it is a router. -/
  | first (hc : s.connection = none) (before after : List String)
      (hmembers : s.members = before ++ e.id :: after)
      (hbefore : ∀ d ∈ ds, d.id ∈ before → d.isRouter = false)

/-- The gateways in the assignments on the segment `s`, whose name is `name`. -/
structure CommonGateway (ds : List Device) (assigned : OrderedMap (List Assignment)) (name : String)
    (s : Segment) : Prop where
  /-- Every member has an assignment on the segment. -/
  covers : ∀ id ∈ s.members, ∃ x, On assigned id name x
  /-- No two assignments on the segment have different gateways. -/
  same : ∀ id x id' x', On assigned id name x → On assigned id' name x' → x.gateway = x'.gateway
  /-- If a member is a router, there is one whose address is the gateway in every assignment. -/
  router : (∃ d ∈ ds, d.isRouter = true ∧ d.id ∈ s.members) →
    ∃ e ∈ ds, e.isRouter = true ∧ e.id ∈ s.members ∧ Leads ds s e ∧
      ∀ z, On assigned e.id name z → ∀ id x, On assigned id name x → x.gateway = z.ip

variable {ds : List Device} {d e : Device} {s : Segment} {a : Analysis} {ids : List String}
  {name : String} {assigned : OrderedMap (List Assignment)} {reg : Registry} {mode : NetworkMode}

/-- Before the first router there is none. -/
theorem exists_split_of_firstRouter? (h : firstRouter? ds ids = some e) :
    ∃ before after, ids = before ++ e.id :: after ∧ firstRouter? ds before = none := by
  obtain ⟨before, id, after, hids, hfound, hbefore⟩ := List.findSome?_eq_some_iff.1 h
  obtain ⟨hdevice, -⟩ := Option.filter_eq_some_iff.1 hfound
  obtain ⟨-, rfl⟩ := Analysis.deviceOf?_eq_some hdevice
  exact ⟨before, after, hids, List.findSome?_eq_none_iff.2 hbefore⟩

/-- The first router of a segment in an analysis of a registry leads it. -/
theorem leads_of_firstRouter? (h : reg.WellFormed)
    (ha : Analysis.Follows reg.devices (Analysis.plans mode reg.devices reg.connections) a)
    (hs : a.segments.get? name = some s) (hfirst : firstRouter? reg.devices s.members = some e) :
    Leads reg.devices s e := by
  obtain ⟨before, after, hsplit, hbefore⟩ := exists_split_of_firstRouter? hfirst
  have hhosts : ∀ d ∈ reg.devices, d.id ∈ before → d.isRouter = false := fun d hd hid =>
    isRouter_of_firstRouter? h.devices hd hbefore hid
  -- the source stands before the target, so at a connection the order of the members decides as well
  obtain ⟨p, k, hpk, -, rfl⟩ := ha.exists_plan hs
  cases Analysis.plans_cover h (List.fst_mem_of_mem_zipIdx hpk) with
  | pool hnone _ => exact .first hnone before after hsplit hhosts
  | link c _ hlink =>
    subst hlink
    -- the members are the two ends of the connection
    have hends : [c.source, c.target] = before ++ e.id :: after := hsplit
    match before, hends, hhosts with
    | [], hends, _ => exact .source c rfl (List.cons.inj hends).1.symm
    | [id], hends, hhosts =>
      obtain ⟨rfl, htail⟩ := List.cons.inj hends
      refine .target c rfl (List.cons.inj htail).1.symm fun d hd hid => hhosts d hd ?_
      exact List.mem_singleton.2 hid
    | _ :: _ :: _, hends, _ =>
      have hlength := congrArg List.length hends
      simp only [List.length_cons, List.length_nil, List.length_append] at hlength
      omega

/-- In an assignment of an analysis of a registry, every segment has one gateway. -/
theorem commonGateway_of_follows (h : reg.WellFormed)
    (ha : Analysis.Follows reg.devices (Analysis.plans mode reg.devices reg.connections) a)
    (hassigned : (assign reg.devices a).outcome = .ok assigned) (hs : a.segments.get? name = some s) :
    CommonGateway reg.devices assigned name s := by
  obtain ⟨p, k, hpk, hname, hsegment⟩ := ha.exists_plan hs
  have hcovers : ∀ id ∈ s.members, ∃ x, On assigned id name x := by
    intro id hid
    rw [hsegment] at hid
    exact hname ▸ exists_on h ha hassigned hpk hid
  refine ⟨hcovers, ?_, ?_⟩
  · intro id x id' x' hx hx'
    obtain ⟨sa, y, hdrawn⟩ := hx.drawn hassigned hs
    obtain ⟨sa', y', hdrawn'⟩ := hx'.drawn hassigned hs
    obtain rfl : sa = sa' := Except.ok.inj (hdrawn.addresses.symm.trans hdrawn'.addresses)
    rw [hdrawn.gateway, hdrawn'.gateway]
  · rintro ⟨d, hd, hrouter, hid⟩
    obtain ⟨x, hx⟩ := hcovers d.id hid
    obtain ⟨sa, y, hdrawn⟩ := hx.drawn hassigned hs
    cases onSegment_gateway h ha hs hdrawn.addresses with
    | host hfirst _ =>
      rw [isRouter_of_firstRouter? h.devices hd hfirst hid] at hrouter
      cases hrouter
    | router e r hfirst hr hgateway =>
      obtain ⟨he, hemem, herouter⟩ := firstRouter?_eq_some hfirst
      refine ⟨e, he, herouter, hemem, leads_of_firstRouter? h ha hs hfirst, ?_⟩
      intro z hz id x' hx'
      -- both are read off the one list of addresses of the segment
      obtain ⟨sa₁, r₁, hz⟩ := hz.drawn hassigned hs
      obtain ⟨sa₂, r₂, hx'⟩ := hx'.drawn hassigned hs
      obtain rfl : sa = sa₁ := Except.ok.inj (hdrawn.addresses.symm.trans hz.addresses)
      obtain rfl : sa = sa₂ := Except.ok.inj (hdrawn.addresses.symm.trans hx'.addresses)
      obtain rfl : r = r₁ := Option.some.inj (hr.symm.trans hz.member)
      rw [hx'.gateway, hgateway, hz.ip]

/-- A segment of a registry stands for a connection exactly in the mode by connections. -/
theorem isSome_connection_iff
    (ha : Analysis.Follows reg.devices (Analysis.plans mode reg.devices reg.connections) a)
    (hs : a.segments.get? name = some s) : s.connection.isSome = true ↔ mode = .connection := by
  obtain ⟨p, k, hpk, -, rfl⟩ := ha.exists_plan hs
  have hp := List.fst_mem_of_mem_zipIdx hpk
  have hsame : (Segment.ofPlan k p).connection = p.connection := rfl
  rw [hsame]
  constructor
  · intro hsome
    by_contra hmode
    rw [Analysis.connection_of_mem_plans hmode hp] at hsome
    cases hsome
  · intro hmode
    by_contra hnone
    exact Analysis.ne_connection_of_none hp (Option.not_isSome_iff_eq_none.1 hnone) hmode

/-- Whatever a registry went through, whatever the mode and strict or not: where an analysis and an
assignment after it succeed, each segment has one gateway, which all assignments on it record. With a router
among the members, the gateway is the address that one and the same router of the segment is assigned on it:
by connections the source if that is a router, else the target, and in the other modes the first router in
the order of the members. -/
theorem assign_commonGateway (history : List Change) (mode : Value) (strict : Bool) {a : Analysis}
    {assigned : OrderedMap (List Assignment)}
    (ha : (Analysis.analyze mode strict (Registry.after history).devices
      (Registry.after history).connections).outcome = .ok a)
    (hassigned : (assign (Registry.after history).devices a).outcome = .ok assigned) :
    ∃ m, NetworkMode.ofValue mode = .ok m ∧ ∀ name s, a.segments.get? name = some s →
      (s.connection.isSome = true ↔ m = .connection) ∧
        CommonGateway (Registry.after history).devices assigned name s := by
  have h : (Registry.after history).WellFormed := Registry.wellFormed_after history
  obtain ⟨m, hmode, hfollows⟩ := Analysis.analyze_follows h ha
  refine ⟨m, hmode, fun name s hs => ⟨isSome_connection_iff hfollows hs, ?_⟩⟩
  exact commonGateway_of_follows h hfollows hassigned hs

/-- A host with the first host number of its network as static address, connected to a router. -/
def crowdedRouter : List Change := [
  .addDevice { id := .text "a", type := .text "vm", ip := .text "10.0.0.1" },
  .addDevice { id := .text "R", type := .text "router" },
  .addConnection { source := "a", target := "R" }]

/-- The router moves away from the host's address, and the gateway is the address that it moves to. -/
theorem assign_commonGateway_crowdedRouter : ∃ (a : Analysis) (assigned : OrderedMap (List Assignment)),
    (addressesOf assigned "a" = [("net1", "10.0.0.1", true)] ∧
      addressesOf assigned "R" = [("net1", "10.0.0.2", false)] ∧
      gatewaysOf assigned "a" = [("net1", "10.0.0.2")] ∧
      gatewaysOf assigned "R" = [("net1", "10.0.0.2")]) ∧
    ∃ m, NetworkMode.ofValue (.text "connection") = .ok m ∧
      ∀ name s, a.segments.get? name = some s → (s.connection.isSome = true ↔ m = .connection) ∧
        CommonGateway (Registry.after crowdedRouter).devices assigned name s := by
  obtain ⟨a, assigned, ha, hassigned, hrun⟩ := @exists_assigned
    (fun _ assigned => addressesOf assigned "a" = [("net1", "10.0.0.1", true)] ∧
      addressesOf assigned "R" = [("net1", "10.0.0.2", false)] ∧
      gatewaysOf assigned "a" = [("net1", "10.0.0.2")] ∧
      gatewaysOf assigned "R" = [("net1", "10.0.0.2")]) inferInstance
    crowdedRouter (.text "connection") false (by decide +kernel)
  exact ⟨a, assigned, hrun, assign_commonGateway crowdedRouter (.text "connection") false ha hassigned⟩

end VirtNet.Assignment
