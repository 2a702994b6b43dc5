import VirtNet.Proofs.Analysis.Members
import VirtNet.Proofs.Assignment.Drawn

/-!
# The gateway of a segment

The gateway of a segment is the address of its first router, in the order of the members, or the first
host number where it has none (`onSegment_gateway`). What a device that is no router gets is its static
address on its first segment and a host number past those of routers elsewhere
(`onSegment_hostResolved`). The two decide when a device has the gateway of its first segment among its own
addresses (`ownGateway_iff`).
-/

namespace VirtNet.Assignment

/-- The first router among some devices. -/
def firstRouter? (ds : List Device) (ids : List String) : Option Device :=
  ids.findSome? fun id => (Analysis.deviceOf? ds id).filter Device.isRouter

/-- Where the gateway of a segment is from. -/
inductive GatewayFrom (ds : List Device) (s : Segment) (sa : SegmentAddresses) : Prop
  /-- It is the address of the segment's first router. -/
  | router (e : Device) (r : Resolved) (hfirst : firstRouter? ds s.members = some e)
      (hr : sa.byDevice.get? e.id = some r) (h : sa.gateway = r.ip)
  /-- The segment has no router, and it is the first host number. -/
  | host (hfirst : firstRouter? ds s.members = none) (h : sa.gateway = Address.host s.base routerHost)

/-- The address `r` of a device that is no router on the segment at position `i` of its list. -/
inductive HostResolved (d : Device) (s : Segment) (i : Nat) (r : Resolved) : Prop
  /-- It is the device's static address, on its first segment. -/
  | static (hi : i = 0) (hip : given? d.ip = some r.ip) (hcustom : r.isCustom = true)
  /-- It has a host number past those that routers start from. -/
  | chosen (n : Nat) (hn : routedHost ≤ n) (hip : r.ip = Address.host s.base n)
      (hauto : r.isCustom = false) (hstatic : i = 0 → given? d.ip = none)

variable {ds : List Device} {d e : Device} {s : Segment} {c : Connection} {a : Analysis}
  {p p' start : Pool} {sa : SegmentAddresses} {ids : List String} {id name : String} {i : Nat}
  {r : Resolved}

theorem firstRouter?_append (ids ids' : List String) :
    firstRouter? ds (ids ++ ids') = (firstRouter? ds ids).or (firstRouter? ds ids') :=
  List.findSome?_append

theorem firstRouter?_singleton (h : Analysis.deviceOf? ds id = some d) :
    firstRouter? ds [id] = if d.isRouter then some d else none := by
  simp [firstRouter?, h, Option.filter]

/-- The first router is one of the devices. -/
theorem firstRouter?_eq_some (h : firstRouter? ds ids = some e) :
    e ∈ ds ∧ e.id ∈ ids ∧ e.isRouter = true := by
  obtain ⟨id, hid, hfound⟩ := List.exists_of_findSome?_eq_some h
  obtain ⟨hdevice, hrouter⟩ := Option.filter_eq_some_iff.1 hfound
  obtain ⟨hmem, hsame⟩ := Analysis.deviceOf?_eq_some hdevice
  exact ⟨hmem, hsame ▸ hid, hrouter⟩

/-- Without a first router, none of the devices is a router. -/
theorem isRouter_of_firstRouter? (hds : Registry.SoundDevices ds) (hd : d ∈ ds)
    (h : firstRouter? ds ids = none) (hid : d.id ∈ ids) : d.isRouter = false := by
  rw [firstRouter?, List.findSome?_eq_none_iff] at h
  have hnone := h d.id hid
  rw [Analysis.deviceOf?_of_mem hds.ids_nodup hd, Option.filter_eq_none_iff] at hnone
  exact Bool.eq_false_iff.2 (hnone d rfl)

/-! ## Pooled segments -/

/-- What one turn of the numbering does. -/
inductive Turn (ds : List Device) (s : Segment) (p : Pool) (id : String) (d : Device) : Pool → Prop
  /-- A member that has an address keeps it. -/
  | keep (r : Resolved) (hr : p.byDevice.get? id = some r) : Turn ds s p id d p
  /-- A router gets a number, and the segment a gateway unless it has one. -/
  | router (p' : Pool) (n : Nat) (hnew : p.byDevice.get? id = none) (hrouter : d.isRouter = true)
      (hbyDevice : p'.byDevice = p.byDevice.insert id ⟨Address.host s.base n, false⟩)
      (hgateway : p'.gateway = p.gateway.or (some (Address.host s.base n)))
      (hnext : p'.nextHost = p.nextHost) : Turn ds s p id d p'
  /-- Any other device gets a number from the next one on. -/
  | host (p' : Pool) (n : Nat) (hnew : p.byDevice.get? id = none) (hhost : d.isRouter = false)
      (hbyDevice : p'.byDevice = p.byDevice.insert id ⟨Address.host s.base n, false⟩)
      (hgateway : p'.gateway = p.gateway) (hn : p.nextHost ≤ n) (hnext : p'.nextHost = n + 1) :
      Turn ds s p id d p'

theorem turn_of_number (h : number ds s p id = .ok p') (hd : Analysis.deviceOf? ds id = some d) :
    Turn ds s p id d p' := by
  have hstep := @step_number ds s p id
  rw [h] at hstep
  cases hstep with
  | keep r hr => exact .keep r hr
  | give e n hnew he hn =>
    obtain rfl : d = e := Option.some.inj (hd.symm.trans he)
    obtain ⟨-, rfl⟩ := Analysis.deviceOf?_eq_some hd
    cases hrouter : d.isRouter with
    | true => exact .router _ n hnew hrouter rfl (if_pos hrouter) (if_pos hrouter)
    | false =>
      have hhost : ¬ d.isRouter = true := Bool.eq_false_iff.1 hrouter
      have hstart : p.nextHost ≤ n := by
        simpa only [Pool.cursor, if_neg hhost] using hn.start
      exact .host _ n hnew hrouter rfl (if_neg hhost) hstart (if_neg hhost)

/-- What holds when the members `done` have been gone through, the numbering having begun with the pool
`start`. -/
structure Turned (ds : List Device) (s : Segment) (start : Pool) (done : List String) (p : Pool) :
    Prop where
  /-- The gateway is the address of the first router that was met. -/
  gateway : match firstRouter? ds done with
    | none => p.gateway = none
    | some e => ∃ r, p.byDevice.get? e.id = some r ∧ p.gateway = some r.ip
  /-- A router has an address only if it was met. -/
  routers : ∀ d ∈ ds, d.isRouter = true → ∀ r, p.byDevice.get? d.id = some r → d.id ∈ done
  /-- Any other device has the address that it began with, or a number past those of routers. -/
  hosts : ∀ d ∈ ds, d.isRouter = false → ∀ r, p.byDevice.get? d.id = some r →
    start.byDevice.get? d.id = some r ∨ start.byDevice.get? d.id = none ∧
      ∃ n, routedHost ≤ n ∧ r = ⟨Address.host s.base (n : Nat), false⟩
  /-- Nobody has lost the address that they began with. -/
  kept : ∀ id r, start.byDevice.get? id = some r → p.byDevice.get? id = some r
  nextHost : routedHost ≤ p.nextHost

/-- A turn of the numbering at a member that has no address keeps the invariant, its number being past
those of routers unless it is one. -/
theorem Turned.insert {done : List String} (hds : Registry.SoundDevices ds)
    (h : Turned ds s start done p) (hd : d ∈ ds) {n : Nat} (hnew : p.byDevice.get? d.id = none)
    (hbyDevice : p'.byDevice = p.byDevice.insert d.id ⟨Address.host s.base n, false⟩)
    (hn : d.isRouter = false → routedHost ≤ n) (hnext : routedHost ≤ p'.nextHost)
    (hgateway : match firstRouter? ds (done ++ [d.id]) with
      | none => p'.gateway = none
      | some e => ∃ r, p'.byDevice.get? e.id = some r ∧ p'.gateway = some r.ip) :
    Turned ds s start (done ++ [d.id]) p' where
  gateway := hgateway
  routers := by
    intro e he hrouter r hr
    rw [hbyDevice, OrderedMap.get?_insert] at hr
    split at hr
    · next hid => exact List.mem_append_right _ (List.mem_singleton.2 hid.symm)
    · exact List.mem_append_left _ (h.routers e he hrouter r hr)
  hosts := by
    intro e he hhost r hr
    rw [hbyDevice, OrderedMap.get?_insert] at hr
    split at hr
    · next hid =>
      obtain rfl : d = e := hds.eq_of_id hd he hid
      -- the numbering keeps what was reserved, so nothing was reserved for a member without an address
      refine .inr ⟨?_, n, hn hhost, (Option.some.inj hr).symm⟩
      rw [Option.eq_none_iff_forall_ne_some]
      intro u hu
      rw [h.kept d.id u hu] at hnew
      cases hnew
    · exact h.hosts e he hhost r hr
  kept := by
    intro i u hu
    rw [hbyDevice]
    exact OrderedMap.get?_insert_of_new hnew (h.kept i u hu)
  nextHost := hnext

/-- A router that was met before stays the first, as long as nothing is taken from the pool. -/
theorem Turned.gateway_of_first {done : List String} (h : Turned ds s start done p)
    (hfirst : firstRouter? ds done = some e)
    (hentries : ∀ i u, p.byDevice.get? i = some u → p'.byDevice.get? i = some u)
    (hgateway : ∀ g, p.gateway = some g → p'.gateway = some g) :
    ∃ r, p'.byDevice.get? e.id = some r ∧ p'.gateway = some r.ip := by
  have hmet := h.gateway
  rw [hfirst] at hmet
  obtain ⟨r, hr, hip⟩ := hmet
  exact ⟨r, hentries _ _ hr, hgateway _ hip⟩

theorem Turned.gateway_of_none {done : List String} (h : Turned ds s start done p)
    (hfirst : firstRouter? ds done = none) : p.gateway = none := by
  have hmet := h.gateway
  rwa [hfirst] at hmet

/-- While no router was met, what has an address is no router. -/
theorem Turned.isRouter_eq_false {done : List String} (hds : Registry.SoundDevices ds)
    (h : Turned ds s start done p) (hfirst : firstRouter? ds done = none) (hd : d ∈ ds)
    (hr : p.byDevice.get? d.id = some r) : d.isRouter = false := by
  rw [Bool.eq_false_iff]
  intro hrouter
  have hmet := h.routers d hd hrouter r hr
  rw [isRouter_of_firstRouter? hds hd hfirst hmet] at hrouter
  cases hrouter

/-- One turn of the numbering. -/
theorem Turned.number {done : List String} (hds : Registry.SoundDevices ds)
    (h : Turned ds s start done p) (hok : Assignment.number ds s p d.id = .ok p') (hd : d ∈ ds) :
    Turned ds s start (done ++ [d.id]) p' := by
  have hdevice : Analysis.deviceOf? ds d.id = some d := Analysis.deviceOf?_of_mem hds.ids_nodup hd
  have happend : firstRouter? ds (done ++ [d.id]) =
      (firstRouter? ds done).or (if d.isRouter then some d else none) := by
    rw [firstRouter?_append, firstRouter?_singleton hdevice]
  cases turn_of_number hok hdevice with
  | keep r hr =>
    refine ⟨?_, ?_, h.hosts, h.kept, h.nextHost⟩
    · rw [happend]
      cases hfirst : firstRouter? ds done with
      | some e => exact h.gateway_of_first hfirst (fun _ _ hu => hu) fun _ hg => hg
      | none =>
        rw [if_neg (by simp [h.isRouter_eq_false hds hfirst hd hr])]
        exact h.gateway_of_none hfirst
    · intro e he hrouter u hu
      exact List.mem_append_left _ (h.routers e he hrouter u hu)
  | router _ n hnew hrouter hbyDevice hgateway hnext =>
    refine h.insert hds hd hnew hbyDevice (fun hhost => ?_) (hnext ▸ h.nextHost) ?_
    · rw [hrouter] at hhost
      cases hhost
    · rw [happend, if_pos hrouter]
      cases hfirst : firstRouter? ds done with
      | some e =>
        refine h.gateway_of_first hfirst ?_ fun g hg => ?_
        · exact fun i u hu => hbyDevice ▸ OrderedMap.get?_insert_of_new hnew hu
        · rw [hgateway, hg]
          rfl
      | none =>
        refine ⟨⟨Address.host s.base n, false⟩, ?_, ?_⟩
        · rw [hbyDevice, OrderedMap.get?_insert_self]
        · rw [hgateway, h.gateway_of_none hfirst]
          rfl
  | host _ n hnew hhost hbyDevice hgateway hn hnext =>
    refine h.insert hds hd hnew hbyDevice (fun _ => Nat.le_trans h.nextHost hn) ?_ ?_
    · rw [hnext]
      exact Nat.le_succ_of_le (Nat.le_trans h.nextHost hn)
    · rw [happend, if_neg (by simp [hhost])]
      cases hfirst : firstRouter? ds done with
      | some e =>
        exact h.gateway_of_first hfirst (fun i u hu => hbyDevice ▸ OrderedMap.get?_insert_of_new hnew hu)
          fun g hg => hgateway ▸ hg
      | none => exact hgateway.trans (h.gateway_of_none hfirst)

theorem map_fst_reserved (statics : List (String × Option String)) :
    (reserved statics).map Prod.fst = (statics.filter fun e => e.2.isSome).map Prod.fst := by
  rw [reserved, List.map_filterMap, ← List.filterMap_eq_filter, List.map_filterMap]
  refine List.filterMap_congr ?_
  rintro ⟨j, ip?⟩ -
  cases ip? <;> rfl

/-- The addresses that a numbering of the members begins with are the static ones. -/
theorem get?_reserved {statics : List (String × Option String)} (hn : s.members.Nodup)
    (hstatics : (s.members.mapM fun id => do return (id, ← static? ds a s id)) = .ok statics)
    (hid : id ∈ s.members) :
    ∃ ip, static? ds a s id = .ok ip ∧
      (OrderedMap.ofList (reserved statics)).get? id = ip.map fun ip => ⟨ip, true⟩ := by
  have hkeys : statics.map Prod.fst = s.members.map fun id => id := by
    refine Outcome.map_of_mapM_eq_ok hstatics ?_
    intro i e he
    rw [Outcome.bind_eq_ok] at he
    obtain ⟨ip, -, hpure⟩ := he
    cases hpure
    rfl
  rw [List.map_id'] at hkeys
  obtain ⟨e, he, hstatic⟩ := Outcome.mem_of_mapM_eq_ok hstatics hid
  rw [Outcome.bind_eq_ok] at hstatic
  obtain ⟨ip, hip, hpure⟩ := hstatic
  cases hpure
  refine ⟨ip, hip, ?_⟩
  -- what is reserved stands under the ids that it is reserved for, each of which is there once
  have hnodup : ((reserved statics).map Prod.fst).Nodup := by
    rw [map_fst_reserved]
    exact List.Nodup.sublist (List.filter_sublist.map Prod.fst) (hkeys ▸ hn)
  cases ip with
  | some ip => exact (OrderedMap.get?_ofList hnodup).2 (mem_reserved.2 ⟨ip, he, rfl⟩)
  | none =>
    rw [Option.map_none, Option.eq_none_iff_forall_ne_some]
    intro u hu
    obtain ⟨ip, hmem, -⟩ := mem_reserved.1 ((OrderedMap.get?_ofList hnodup).1 hu)
    have hsame := List.inj_on_of_nodup_map (hkeys ▸ hn) he hmem rfl
    cases hsame

/-- The numbering of a segment that succeeds went through all of its members. -/
theorem pooled_turned (hds : Registry.SoundDevices ds)
    (hmembers : ∀ id ∈ s.members, ∃ d ∈ ds, d.id = id) (hok : pooled ds a s = .ok sa) :
    ∃ statics p, (s.members.mapM fun id => do return (id, ← static? ds a s id)) = .ok statics ∧
      Turned ds s (startPool (.ofList (reserved statics))) s.members p ∧
      sa = ⟨p.byDevice, p.gateway.getD (Address.host s.base routerHost)⟩ := by
  obtain ⟨statics, p, hstatics, hp, rfl⟩ := pooled_eq_ok.1 hok
  refine ⟨statics, p, hstatics, ?_, rfl⟩
  refine Outcome.foldlM_keeps_done ?_ ?_ hp
  · intro done q id q' hid hturned hturn
    obtain ⟨d, hd, rfl⟩ := hmembers id hid
    exact hturned.number hds hturn hd
  · refine ⟨rfl, ?_, ?_, fun _ _ hr => hr, Nat.le_refl _⟩
    · -- a static address is never a router's
      intro d hd hrouter r hr
      obtain ⟨-, -, e, he, hid, hhost, -⟩ := of_reserved hstatics hr
      rw [hds.eq_of_id he hd hid, hrouter] at hhost
      cases hhost
    · exact fun d _ _ r hr => .inl hr

theorem pooled_gatewayFrom (hds : Registry.SoundDevices ds)
    (hmembers : ∀ id ∈ s.members, ∃ d ∈ ds, d.id = id) (hok : pooled ds a s = .ok sa) :
    GatewayFrom ds s sa := by
  obtain ⟨statics, p, -, hturned, rfl⟩ := pooled_turned hds hmembers hok
  have hgateway := hturned.gateway
  cases hfirst : firstRouter? ds s.members with
  | none =>
    rw [hfirst] at hgateway
    have hnone : p.gateway = none := hgateway
    refine .host hfirst ?_
    rw [hnone]
    rfl
  | some e =>
    rw [hfirst] at hgateway
    obtain ⟨r, hr, hip⟩ := hgateway
    refine .router e r hfirst hr ?_
    rw [hip]
    rfl

theorem pooled_hostResolved (hds : Registry.SoundDevices ds) (hn : s.members.Nodup)
    (hmembers : ∀ id ∈ s.members, ∃ d ∈ ds, d.id = id) (hok : pooled ds a s = .ok sa) (hd : d ∈ ds)
    (hhost : d.isRouter = false) (hid : d.id ∈ s.members) (hi : indexOf a d.id s.name = .ok i)
    (hr : sa.byDevice.get? d.id = some r) : HostResolved d s i r := by
  obtain ⟨statics, p, hstatics, hturned, rfl⟩ := pooled_turned hds hmembers hok
  obtain ⟨ip, hip, hget⟩ := get?_reserved hn hstatics hid
  have hstatic : static? ds a s d.id = .ok (if i = 0 then given? d.ip else none) := by
    simp [static?, device_of_mem hds.ids_nodup hd, hi, hhost, bind, Except.bind, pure, Except.pure]
  obtain rfl := Except.ok.inj (hip.symm.trans hstatic)
  rcases hturned.hosts d hd hhost r hr with hold | ⟨hnew, n, hn, rfl⟩
  · obtain ⟨ip, hip, rfl⟩ := Option.map_eq_some_iff.1 (hget.symm.trans hold)
    split at hip
    · next hi => exact .static hi hip rfl
    · cases hip
  · refine .chosen n hn rfl rfl fun hi => ?_
    rw [if_pos hi] at hget
    exact Option.map_eq_none_iff.1 (hget.symm.trans hnew)

/-! ## Connections -/

variable {source target : Device} {x y x' y' : Resolved} {j : Nat}

theorem Ends.gatewayFrom (h : Ends ds s c i j source target x y x' y' sa)
    (hds : Registry.SoundDevices ds) (hmembers : s.members = [c.source, c.target]) :
    GatewayFrom ds s sa := by
  have hsource : Analysis.deviceOf? ds c.source = some source :=
    h.source_id ▸ Analysis.deviceOf?_of_mem hds.ids_nodup h.source_mem
  have htarget : Analysis.deviceOf? ds c.target = some target :=
    h.target_id ▸ Analysis.deviceOf?_of_mem hds.ids_nodup h.target_mem
  have hfirst : firstRouter? ds s.members =
      (if source.isRouter then some source else none).or
        (if target.isRouter then some target else none) := by
    rw [hmembers, ← List.singleton_append, firstRouter?_append, firstRouter?_singleton hsource,
      firstRouter?_singleton htarget]
  have hgateway := h.gateway
  cases hsourceRouter : source.isRouter with
  | true =>
    rw [hsourceRouter] at hfirst hgateway
    exact .router source x' hfirst ((h.get? _ _).2 (.inl ⟨h.source_id, rfl⟩)) hgateway
  | false =>
    rw [hsourceRouter] at hfirst hgateway
    cases htargetRouter : target.isRouter with
    | true =>
      rw [htargetRouter] at hfirst hgateway
      exact .router target y' hfirst ((h.get? _ _).2 (.inr ⟨h.target_id, rfl⟩)) hgateway
    | false =>
      rw [htargetRouter] at hfirst hgateway
      exact .host hfirst hgateway

/-- What an end that is no router has when it is told apart from the other. -/
theorem hostResolved_of_placed (hhost : d.isRouter = false) (haddress : endpointAddress d e c s i = .ok x)
    (hkept : x.isCustom = true ∨ x'.isCustom = true → x' = x)
    (hplaced : Placed (linkHosts d) d s i x') : HostResolved d s i x' := by
  -- an end that is no router has the address of a host, whatever the connection says
  have hx : x = hostAddress d e s i := by
    unfold endpointAddress at haddress
    cases htype : d.type with
    | router => simp [Device.isRouter, htype] at hhost
    | vm | switch =>
      rw [htype] at haddress
      exact (Except.ok.inj haddress).symm
    | other word =>
      rw [htype] at haddress
      cases haddress
  unfold hostAddress at hx
  split at hx
  · next ip hip =>
    have hsame : x' = x := hkept (.inl (hx ▸ rfl))
    subst hsame hx
    exact .static rfl hip rfl
  · next hnone =>
    have hauto : x'.isCustom = false := by
      rw [Bool.eq_false_iff]
      intro hcustom
      rw [hkept (.inr hcustom), hx] at hcustom
      cases hcustom
    obtain ⟨n, hn, hip⟩ := hplaced.chosen hauto
    refine .chosen n ?_ hip hauto ?_
    · rw [linkHosts, if_neg (by simp [hhost])] at hn
      simp only [List.mem_cons, List.not_mem_nil, or_false] at hn
      unfold routedHost
      omega
    · rintro rfl
      rw [Option.eq_none_iff_forall_ne_some]
      exact fun ip hip => hnone ip rfl hip

theorem Ends.hostResolved (h : Ends ds s c i j source target x y x' y' sa)
    (hds : Registry.SoundDevices ds) (hd : d ∈ ds) (hhost : d.isRouter = false) {k : Nat}
    (hi : indexOf a c.source s.name = .ok i) (hj : indexOf a c.target s.name = .ok j)
    (hk : indexOf a d.id s.name = .ok k) (hr : sa.byDevice.get? d.id = some r) :
    HostResolved d s k r := by
  rcases (h.get? _ _).1 hr with ⟨hid, rfl⟩ | ⟨hid, rfl⟩
  · obtain rfl : source = d := hds.eq_of_id h.source_mem hd (h.source_id.trans hid.symm)
    obtain rfl : i = k := Except.ok.inj (hi.symm.trans (hid ▸ hk))
    exact hostResolved_of_placed hhost h.source_address h.separated.source h.source_placed
  · obtain rfl : target = d := hds.eq_of_id h.target_mem hd (h.target_id.trans hid.symm)
    obtain rfl : j = k := Except.ok.inj (hj.symm.trans (hid ▸ hk))
    exact hostResolved_of_placed hhost h.target_address h.separated.target h.target_placed

/-! ## The segments of an analysis -/

section Segments

variable {reg : Registry} {mode : NetworkMode}

/-- In an analysis of a registry, the gateway of a segment is the address of its first router, or the
first host number where it has none. -/
theorem onSegment_gateway (h : reg.WellFormed)
    (ha : Analysis.Follows reg.devices (Analysis.plans mode reg.devices reg.connections) a)
    (hs : a.segments.get? name = some s) (hok : (onSegment reg.devices a s).outcome = .ok sa) :
    GatewayFrom reg.devices s sa := by
  cases onSegment_origin h ha hs hok with
  | ends _ _ _ _ _ _ _ _ _ _ hmembers _ _ hends => exact hends.gatewayFrom h.devices hmembers
  | numbered _ _ hmembers hpooled => exact pooled_gatewayFrom h.devices hmembers hpooled

/-- A device of the registry that is no router has its static address, on its first segment alone, or a
host number past those that routers start from. -/
theorem onSegment_hostResolved (h : reg.WellFormed)
    (ha : Analysis.Follows reg.devices (Analysis.plans mode reg.devices reg.connections) a)
    (hs : a.segments.get? name = some s) (hok : (onSegment reg.devices a s).outcome = .ok sa)
    (hd : d ∈ reg.devices) (hhost : d.isRouter = false) (hi : indexOf a d.id name = .ok i)
    (hid : d.id ∈ s.members) (hr : sa.byDevice.get? d.id = some r) : HostResolved d s i r := by
  obtain ⟨p, k, -, rfl, rfl⟩ := ha.exists_plan hs
  cases onSegment_origin h ha hs hok with
  | ends _ _ _ _ _ _ _ _ _ _ _ hsource htarget hends =>
    exact hends.hostResolved h.devices hd hhost hsource htarget hi hr
  | numbered _ hnodup hmembers hpooled =>
    exact pooled_hostResolved h.devices hnodup hmembers hpooled hd hhost hid hi hr

/-! ## Gateways that are one's own -/

/-- The gateway of the first segment `s` of the device `d` with the assignments `xs` is one of the
device's own addresses. -/
inductive OwnGateway (ds : List Device) (assigned : OrderedMap (List Assignment)) (d : Device)
    (s : Segment) (xs : List Assignment) : Prop
  /-- The device is the segment's first router. -/
  | first (hfirst : firstRouter? ds s.members = some d)
  /-- The segment has no router, and the device's static address is that of the first host number. -/
  | unrouted (hfirst : firstRouter? ds s.members = none)
      (hip : d.ip = some (Address.host s.base routerHost))
  /-- Another device is the segment's first router, and the device has that router's address as well, on
  this segment or another. Unless the device is a router, the address is given to the first router. -/
  | shared (e : Device) (z y : Assignment) (hfirst : firstRouter? ds s.members = some e) (hne : e.id ≠ d.id)
      (hz : On assigned e.id s.name z) (hy : y ∈ xs) (hip : y.ip = z.ip)
      (hcustom : d.isRouter = false → z.isCustom = true)

variable {assigned : OrderedMap (List Assignment)} {x y : Assignment} {xs : List Assignment}

/-- Two addresses with a host number are the same only if their host numbers are. -/
theorem host_eq_host {b b' : String} {m n : Nat} (hb : Address.IsBase b) (hb' : Address.IsBase b')
    (h : Address.host b m = Address.host b' n) : m = n := by
  have hbase := congrArg Address.base h
  rw [Address.base_host hb, Address.base_host hb'] at hbase
  rw [hbase] at h
  exact Address.host_inj.1 h

/-- A router at a connection has a host number below those of other devices, if it is not given an
address. -/
theorem Ends.chosen_router {source target : Device} {u v u' v' : Resolved} {j : Nat}
    (h : Ends ds s c i j source target u v u' v' sa) (hds : Registry.SoundDevices ds) (he : e ∈ ds)
    (hrouter : e.isRouter = true) (hr : sa.byDevice.get? e.id = some r) (hauto : r.isCustom = false) :
    ∃ n : Nat, n < routedHost ∧ r.ip = Address.host s.base n := by
  have hplaced : Placed (linkHosts e) e s i r ∨ Placed (linkHosts e) e s j r := by
    rcases (h.get? _ _).1 hr with ⟨hid, rfl⟩ | ⟨hid, rfl⟩
    · obtain rfl : source = e := hds.eq_of_id h.source_mem he (h.source_id.trans hid.symm)
      exact .inl h.source_placed
    · obtain rfl : target = e := hds.eq_of_id h.target_mem he (h.target_id.trans hid.symm)
      exact .inr h.target_placed
  obtain ⟨n, hn, hip⟩ := hplaced.elim (fun hp => hp.chosen hauto) (fun hp => hp.chosen hauto)
  refine ⟨n, ?_, hip⟩
  rw [linkHosts, if_pos hrouter] at hn
  simp only [List.mem_cons, List.not_mem_nil, or_false] at hn
  unfold routedHost
  omega

/-- A device is a member of the segments that it has assignments on. -/
theorem mem_members_of_assigned (h : reg.WellFormed)
    (ha : Analysis.Follows reg.devices (Analysis.plans mode reg.devices reg.connections) a)
    (hassigned : (assign reg.devices a).outcome = .ok assigned) (hd : d ∈ reg.devices)
    (hget : assigned.get? d.id = some xs) (hy : y ∈ xs) {p : Segment.Plan} {k : Nat}
    (hpk : (p, k) ∈ (Analysis.plans mode reg.devices reg.connections).zipIdx 1)
    (hname : y.network = Segment.nameOf k) : d.id ∈ (Segment.ofPlan k p).members := by
  obtain ⟨ys, hys, hnetworks⟩ := assign_networks hassigned h.devices.ids_nodup hd (ha.networks d hd)
  obtain rfl : xs = ys := Option.some.inj (hget.symm.trans hys)
  have hmem : y.network ∈ xs.map Assignment.network := List.mem_map_of_mem hy
  rw [hnetworks, hname, Analysis.nameOf_mem_plannedNames hpk] at hmem
  exact hmem

/-- Where an assignment of a device that is no router is from. -/
theorem exists_hostResolved (h : reg.WellFormed)
    (ha : Analysis.Follows reg.devices (Analysis.plans mode reg.devices reg.connections) a)
    (hassigned : (assign reg.devices a).outcome = .ok assigned) (hd : d ∈ reg.devices)
    (hhost : d.isRouter = false) (hget : assigned.get? d.id = some xs) (hy : y ∈ xs) :
    ∃ s sa r i, Drawn reg.devices a d.id y s sa r ∧ Address.IsBase s.base ∧
      y.network ∈ Analysis.plannedNames d.id (Analysis.plans mode reg.devices reg.connections) ∧
      indexOf a d.id y.network = .ok i ∧ HostResolved d s i r := by
  obtain ⟨s, sa, r, hdrawn⟩ := assign_drawn hassigned (OrderedMap.get?_eq_some_iff.1 hget) hy
  obtain ⟨p, k, hpk, hname, hs⟩ := ha.exists_plan hdrawn.segment
  have hid : d.id ∈ s.members := hs ▸ mem_members_of_assigned h ha hassigned hd hget hy hpk hname
  have hmem : y.network ∈ Analysis.plannedNames d.id (Analysis.plans mode reg.devices reg.connections) := by
    rw [hname, Analysis.nameOf_mem_plannedNames hpk]
    rw [hs] at hid
    exact hid
  obtain ⟨i, hi⟩ := exists_indexOf (ha.networks d hd) hmem
  exact ⟨s, sa, r, i, hdrawn, hs ▸ Segment.isBase_formed, hmem, hi,
    onSegment_hostResolved h ha hdrawn.segment hdrawn.addresses hd hhost hi hid hdrawn.member⟩

/-- A device's first segment is the one of its first assignment. -/
theorem indexOf_eq_zero_iff (h : reg.WellFormed)
    (ha : Analysis.Follows reg.devices (Analysis.plans mode reg.devices reg.connections) a)
    (hassigned : (assign reg.devices a).outcome = .ok assigned) (hd : d ∈ reg.devices)
    {rest : List Assignment} (hget : assigned.get? d.id = some (x :: rest))
    (hi : indexOf a d.id name = .ok i) : i = 0 ↔ name = x.network := by
  obtain ⟨ys, hys, hnetworks⟩ := assign_networks hassigned h.devices.ids_nodup hd (ha.networks d hd)
  obtain rfl : x :: rest = ys := Option.some.inj (hget.symm.trans hys)
  rw [eq_zero_iff_of_indexOf hi, ha.networks d hd, ← hnetworks]
  simp [@eq_comm _ name]

/-- Without a router on its first segment, a device has the first host number there only as its static
address, and nowhere else. -/
theorem exists_firstHost_iff (h : reg.WellFormed)
    (ha : Analysis.Follows reg.devices (Analysis.plans mode reg.devices reg.connections) a)
    (hassigned : (assign reg.devices a).outcome = .ok assigned) (hd : d ∈ reg.devices)
    (hhost : d.isRouter = false) {rest : List Assignment} (hget : assigned.get? d.id = some (x :: rest))
    (hbase : Address.IsBase s.base) :
    (∃ y ∈ x :: rest, y.ip = Address.host s.base routerHost) ↔
      d.ip = some (Address.host s.base routerHost) := by
  constructor
  · rintro ⟨y, hy, hip⟩
    obtain ⟨s', sa, v, j, hdrawn, hbase', -, -, hresolved⟩ :=
      exists_hostResolved h ha hassigned hd hhost hget hy
    rw [hdrawn.ip] at hip
    cases hresolved with
    | static _ hgiven _ => exact hip ▸ of_given? hgiven
    | chosen n hn hchosen _ _ =>
      rw [hchosen] at hip
      obtain rfl := host_eq_host hbase' hbase hip
      exact absurd hn (by decide)
  · intro hip
    obtain ⟨s', sa, v, j, hdrawn, -, -, hj, hresolved⟩ :=
      exists_hostResolved h ha hassigned hd hhost hget List.mem_cons_self
    -- the address of a number is not empty, so the device is given it
    have hgiven : given? d.ip = some (Address.host s.base routerHost) := by
      have hne : Address.host s.base routerHost ≠ "" := by
        intro hempty
        have hlist := congrArg String.toList hempty
        simp [Address.toList_host] at hlist
      rw [hip]
      simp [given?, Option.filter, hne]
    refine ⟨x, List.mem_cons_self, ?_⟩
    rw [hdrawn.ip]
    cases hresolved with
    | static _ hv _ => exact Option.some.inj (hv.symm.trans hgiven)
    | chosen _ _ _ _ hnone =>
      rw [hnone ((indexOf_eq_zero_iff h ha hassigned hd hget hj).2 rfl)] at hgiven
      cases hgiven

/-- A device that is no router has the address of a router on its first segment, there or on another, only
if the router is given it. -/
theorem isCustom_of_shared (h : reg.WellFormed)
    (ha : Analysis.Follows reg.devices (Analysis.plans mode reg.devices reg.connections) a)
    (hassigned : (assign reg.devices a).outcome = .ok assigned) (hd : d ∈ reg.devices)
    (hhost : d.isRouter = false) {rest : List Assignment} (hget : assigned.get? d.id = some (x :: rest))
    (hx : Drawn reg.devices a d.id x s sa r) (he : e ∈ reg.devices) (hrouter : e.isRouter = true)
    {u : Resolved} (hu : sa.byDevice.get? e.id = some u) (hy : y ∈ x :: rest) (hip : y.ip = u.ip) :
    u.isCustom = true := by
  obtain ⟨s', sa', v, j, hdrawn, hbase', hymem, hj, hresolved⟩ :=
    exists_hostResolved h ha hassigned hd hhost hget hy
  have hne : d.id ≠ e.id := by
    intro hid
    rw [h.devices.eq_of_id hd he hid, hrouter] at hhost
    cases hhost
  -- on one segment, two members have one address only if both are given it
  have hsame : y.network = x.network → u.isCustom = true := by
    intro hnetwork
    obtain rfl : s = s' := Option.some.inj ((hnetwork ▸ hx.segment).symm.trans hdrawn.segment)
    obtain rfl : sa = sa' := Except.ok.inj (hx.addresses.symm.trans hdrawn.addresses)
    have hfilled := onSegment_filled h ha hx.segment hx.addresses
    exact (hfilled.distinct _ _ v u hdrawn.member hu hne (hdrawn.ip ▸ hip)).2.1
  obtain ⟨p, k, hpk, hname, rfl⟩ := ha.exists_plan hx.segment
  cases onSegment_origin h ha hx.segment hx.addresses with
  | ends _ _ _ _ _ _ _ _ _ _ _ _ _ hends =>
    cases hresolved with
    | static hj0 _ _ => exact hsame ((indexOf_eq_zero_iff h ha hassigned hd hget hj).1 hj0)
    | chosen n hn hchosen _ _ =>
      by_contra hauto
      obtain ⟨m, hm, huip⟩ := hends.chosen_router h.devices he hrouter hu (Bool.eq_false_iff.2 hauto)
      rw [hdrawn.ip, hchosen, huip] at hip
      obtain rfl := host_eq_host hbase' Segment.isBase_formed hip
      exact absurd hm (Nat.not_lt.2 hn)
  | numbered hnone _ _ _ =>
    -- the device is on no other segment
    have hp := List.fst_mem_of_mem_zipIdx hpk
    obtain ⟨_, _, _, _, -, -, hxmem, -, -⟩ :=
      exists_hostResolved h ha hassigned hd hhost hget List.mem_cons_self
    exact hsame (Analysis.eq_of_mem_plannedNames h (Analysis.ne_connection_of_none hp hnone) hd hhost
      hymem hxmem)

/-- When a device has the gateway of its first segment among its own addresses: it is the segment's first
router, or there is none and its static address is that of the first host number, or it has the address of
the segment's first router as well. -/
theorem ownGateway_iff (h : reg.WellFormed)
    (ha : Analysis.Follows reg.devices (Analysis.plans mode reg.devices reg.connections) a)
    (hassigned : (assign reg.devices a).outcome = .ok assigned) (hd : d ∈ reg.devices)
    {rest : List Assignment} (hget : assigned.get? d.id = some (x :: rest))
    (hs : a.segments.get? x.network = some s) :
    (∃ y ∈ x :: rest, y.ip = x.gateway) ↔ OwnGateway reg.devices assigned d s (x :: rest) := by
  obtain ⟨s', sa, u, hx⟩ :=
    assign_drawn hassigned (OrderedMap.get?_eq_some_iff.1 hget) List.mem_cons_self
  obtain rfl : s = s' := Option.some.inj (hs.symm.trans hx.segment)
  obtain ⟨p, k, hpk, hname, hsegment⟩ := ha.exists_plan hs
  have hsname : a.segments.get? s.name = some s := by
    rw [hname, hsegment] at hs
    rw [hsegment]
    exact hs
  rw [hx.gateway]
  cases onSegment_gateway h ha hs hx.addresses with
  | host hfirst hgateway =>
    have hhost : d.isRouter = false := isRouter_of_firstRouter? h.devices hd hfirst
      (hsegment ▸ mem_members_of_assigned h ha hassigned hd hget List.mem_cons_self hpk hname)
    rw [hgateway, exists_firstHost_iff h ha hassigned hd hhost hget (hsegment ▸ Segment.isBase_formed)]
    constructor
    · exact .unrouted hfirst
    · rintro (hfirst' | ⟨-, hip⟩ | ⟨e, _, _, hfirst', _, _, _, _, _⟩)
      · rw [hfirst] at hfirst'
        cases hfirst'
      · exact hip
      · rw [hfirst] at hfirst'
        cases hfirst'
  | router e r hfirst hr hgateway =>
    obtain ⟨he, hemem, hrouter⟩ := firstRouter?_eq_some hfirst
    -- what the router is assigned on the segment is its address there
    have hassignment : ∀ z, On assigned e.id s.name z → z.ip = r.ip ∧ z.isCustom = r.isCustom := by
      intro z hz
      obtain ⟨sa', r', hdrawn⟩ := hz.drawn hassigned hsname
      obtain rfl : sa = sa' := Except.ok.inj (hx.addresses.symm.trans hdrawn.addresses)
      obtain rfl : r = r' := Option.some.inj (hr.symm.trans hdrawn.member)
      exact ⟨hdrawn.ip, hdrawn.isCustom⟩
    rw [hgateway]
    constructor
    · rintro ⟨y, hy, hip⟩
      by_cases hid : e.id = d.id
      · obtain rfl : e = d := h.devices.eq_of_id he hd hid
        exact .first hfirst
      · obtain ⟨z, hz⟩ : ∃ z, On assigned e.id s.name z := by
          rw [hsegment] at hemem ⊢
          exact exists_on h ha hassigned hpk hemem
        obtain ⟨hzip, hzcustom⟩ := hassignment z hz
        refine .shared e z y hfirst hid hz hy (hip.trans hzip.symm) fun hhost => ?_
        exact hzcustom.trans (isCustom_of_shared h ha hassigned hd hhost hget hx he hrouter hr hy hip)
    · rintro (hfirst' | ⟨hnone, -⟩ | ⟨e', z, y, hfirst', -, hz, hy, hip, -⟩)
      · obtain rfl : e = d := Option.some.inj (hfirst.symm.trans hfirst')
        obtain rfl : r = u := Option.some.inj (hr.symm.trans hx.member)
        exact ⟨x, List.mem_cons_self, hx.ip⟩
      · rw [hfirst] at hnone
        cases hnone
      · obtain rfl : e = e' := Option.some.inj (hfirst.symm.trans hfirst')
        exact ⟨y, hy, hip.trans (hassignment z hz).1⟩

end Segments

end VirtNet.Assignment
