import VirtNet.Proofs.Assignment.Growth

/-!
# The direction of a router's connection

A connection between a router and a host has no direction (`routerLink_reversed`): when its ends change
places, along with the addresses given to them, every device is assigned what it was, and only the key of
the connection is another. The segment keeps its name and its number, and as its addresses lie in one
network, whichever of them comes first decides the same subnet (`base_formed_perm`). The ends are given the
addresses that they had. They are told apart in the same way, since the order of two ends would matter for
two addresses that are chosen alone, and a router and a host are never chosen the same one
(`separate_reversed`).
-/

namespace VirtNet

/-! ## Reversed connections -/

namespace Connection

/-- The same link seen from the other side. -/
def reversed (c : Connection) : Connection :=
  { c with source := c.target, target := c.source, sourceIp := c.targetIp, targetIp := c.sourceIp }

/-- One connection reversed among others. -/
def turn (c d : Connection) : Connection := if d = c then d.reversed else d

variable {c d e : Connection}

theorem turn_self (c : Connection) : turn c c = c.reversed := if_pos rfl

theorem turn_of_ne (h : d ≠ c) : turn c d = d := if_neg h

/-- What holds of a connection and of its reversal holds of it whether it is turned or not. -/
theorem turn_cases {P : Connection → Prop} (h : P d) (hreversed : P d.reversed) : P (turn c d) := by
  unfold turn
  split
  · exact hreversed
  · exact h

/-- Among connections that are distinct, a connection is turned where it stands. -/
theorem map_turn {before after : List Connection} (hn : (before ++ c :: after).Nodup) :
    (before ++ c :: after).map (turn c) = before ++ c.reversed :: after := by
  obtain ⟨-, hafter, hbefore⟩ := List.nodup_append.1 hn
  have hother : ∀ cs : List Connection, c ∉ cs → cs.map (turn c) = cs := by
    intro cs hc
    calc cs.map (turn c) = cs.map id := List.map_congr_left fun d hd => turn_of_ne fun h => hc (h ▸ hd)
      _ = cs := List.map_id cs
  have hnotBefore : c ∉ before := fun hc => hbefore c hc c List.mem_cons_self rfl
  rw [List.map_append, List.map_cons, hother before hnotBefore, hother after (List.nodup_cons.1 hafter).1,
    turn_self]

theorem touches_reversed (id : String) (c : Connection) :
    Registry.touches id c.reversed = Registry.touches id c :=
  Bool.or_comm _ _

theorem touches_turn (id : String) : Registry.touches id (turn c d) = Registry.touches id d :=
  turn_cases (P := fun d' => Registry.touches id d' = Registry.touches id d) rfl (touches_reversed id d)

theorem joins_reversed (a b : String) : c.reversed.joins a b = c.joins a b := by
  rw [Bool.eq_iff_iff, Registry.joins_eq_true_iff, Registry.joins_eq_true_iff]
  constructor <;> (rintro (⟨hs, ht⟩ | ⟨hs, ht⟩) <;> simp_all [reversed])

/-- A reversed connection looks like those that it looked like. -/
theorem looksLike_reversed : c.reversed.looksLike d = c.looksLike d := by
  have hkeys : ∀ key, [c.reverseKey, c.key].contains key = [c.key, c.reverseKey].contains key := by
    intro key
    rw [List.contains_cons, List.contains_cons, List.contains_cons, List.contains_cons,
      Bool.or_left_comm]
  show ([c.reverseKey, c.key].contains d.key || [c.reverseKey, c.key].contains d.reverseKey) = _
  rw [hkeys, hkeys]
  rfl

theorem looksLike_reversed_right : c.looksLike d.reversed = c.looksLike d := Bool.or_comm _ _

theorem looksLike_turn : (turn c d).looksLike (turn c e) = d.looksLike e := by
  refine turn_cases (P := fun d' => d'.looksLike (turn c e) = d.looksLike e) ?_ ?_
  · exact turn_cases (P := fun e' => d.looksLike e' = d.looksLike e) rfl looksLike_reversed_right
  · rw [looksLike_reversed]
    exact turn_cases (P := fun e' => d.looksLike e' = d.looksLike e) rfl looksLike_reversed_right

end Connection

open Connection

/-! ## Registries with a connection reversed -/

namespace Registry

variable {ds : List Device} {cs : List Connection} {c : Connection}

theorem JoinsKnown.reversed (h : JoinsKnown ds c) : JoinsKnown ds c.reversed := by
  obtain ⟨hne, s, hs, t, ht, hsid, htid, hvm⟩ := h
  exact ⟨hne.symm, t, ht, s, hs, htid, hsid, fun h => hvm h.symm⟩

/-- Sound connections stay sound when one of them is reversed. -/
theorem SoundConnections.turn (h : SoundConnections ds cs) (c : Connection) :
    SoundConnections ds (cs.map (Connection.turn c)) where
  ends := by
    intro e he
    obtain ⟨d, hd, rfl⟩ := List.mem_map.1 he
    exact turn_cases (h.ends d hd) (h.ends d hd).reversed
  pairs := by
    rw [List.pairwise_map]
    refine h.pairs.imp fun {d e} hde => ?_
    -- whether two connections join the same devices does not depend on their directions
    have hleft : ∀ a b, (Connection.turn c e).joins a b = e.joins a b := fun a b =>
      turn_cases (P := fun e' => e'.joins a b = e.joins a b) rfl (joins_reversed a b)
    rw [hleft]
    refine turn_cases (P := fun d' => e.joins d'.source d'.target = false) hde ?_
    rw [joins_comm, joins_reversed, ← joins_comm]
    exact hde
  sourceIps := by
    intro e he
    obtain ⟨d, hd, rfl⟩ := List.mem_map.1 he
    exact turn_cases (P := fun d' => ∀ ip, d'.sourceIp = some ip → Keeps ds d'.source d'.target ip)
      (h.sourceIps d hd) (h.targetIps d hd)
  targetIps := by
    intro e he
    obtain ⟨d, hd, rfl⟩ := List.mem_map.1 he
    exact turn_cases (P := fun d' => ∀ ip, d'.targetIp = some ip → Keeps ds d'.target d'.source ip)
      (h.targetIps d hd) (h.sourceIps d hd)
  speeds := by
    intro e he
    obtain ⟨d, hd, rfl⟩ := List.mem_map.1 he
    have hspeed : (Connection.turn c d).speed = d.speed :=
      turn_cases (P := fun d' => d'.speed = d.speed) rfl rfl
    rw [hspeed]
    exact h.speeds d hd

/-- No connection occurs twice among sound ones. -/
theorem SoundConnections.nodup (h : SoundConnections ds cs) : cs.Nodup := by
  refine h.pairs.imp fun {d e} hde => ?_
  rintro rfl
  have hself : d.joins d.source d.target = true := joins_eq_true_iff.2 (.inl ⟨rfl, rfl⟩)
  rw [hself] at hde
  cases hde

/-- A connection with a router at one end and a device that is no router at the other. -/
def JoinsRouter (ds : List Device) (c : Connection) : Prop :=
  ∃ router ∈ ds, ∃ host ∈ ds, router.isRouter = true ∧ host.isRouter = false ∧
    (c.source = router.id ∧ c.target = host.id ∨ c.source = host.id ∧ c.target = router.id)

/-- Exactly one end of such a connection is a router. -/
theorem JoinsRouter.isRouter (h : JoinsRouter ds c) (hds : SoundDevices ds) {d e : Device} (hd : d ∈ ds)
    (he : e ∈ ds) (hdid : d.id = c.source) (heid : e.id = c.target) : d.isRouter = !e.isRouter := by
  obtain ⟨router, hrouter, host, hhost, hr, hh, ⟨hs, ht⟩ | ⟨hs, ht⟩⟩ := h
  · rw [hds.eq_of_id hd hrouter (hdid.trans hs), hds.eq_of_id he hhost (heid.trans ht), hr, hh]
    rfl
  · rw [hds.eq_of_id hd hhost (hdid.trans hs), hds.eq_of_id he hrouter (heid.trans ht), hr, hh]
    rfl

end Registry

/-! ## Segments -/

namespace Segment

/-- Two segments with the same name in the same network. -/
structure SameNetwork (s s' : Segment) : Prop where
  name : s'.name = s.name
  base : s'.base = s.base
  subnet : s'.subnet = s.subnet

theorem SameNetwork.refl (s : Segment) : SameNetwork s s := ⟨rfl, rfl, rfl⟩

/-- Where the addresses lie in one network, their order does not matter for the base of a segment. -/
theorem base_formed_perm {number : Nat} {members members' : List String}
    {candidates candidates' : List (Option String)} {connection connection' : Option Connection}
    (h : candidates.Perm candidates')
    (hconsistent : (formed number members candidates connection).consistent = true) :
    (formed number members' candidates' connection').base =
      (formed number members candidates connection).base := by
  have hvalid : ((present candidates).filter Address.isValid).Perm
      ((present candidates').filter Address.isValid) := (h.filterMap _).filter _
  cases hfirst : ((present candidates').filter Address.isValid).head? with
  | none =>
    -- without an address in one order there is none in the other
    rw [List.head?_eq_none_iff] at hfirst
    have hnone : (present candidates).filter Address.isValid = [] := List.perm_nil.1 (hfirst ▸ hvalid)
    simp only [formed, hfirst, hnone]
  | some ip =>
    have hmem : ip ∈ (present candidates).filter Address.isValid :=
      hvalid.mem_iff.2 (List.mem_of_head? hfirst)
    have hbase : Address.base ip = (formed number members candidates connection).base :=
      beq_iff_eq.1 (List.all_eq_true.1 hconsistent ip hmem)
    rw [← hbase]
    simp only [formed, hfirst, Option.map_some, Option.getD_some]

end Segment

namespace Analysis

variable {ds : List Device} {cs kept : List Connection} {c : Connection}

/-- The segment of a reversed connection is in the same network, if the addresses lie in one network. -/
theorem sameNetwork_reversed {k : Nat} (h : (linkSegment ds k c).consistent = true) :
    (linkSegment ds k c).SameNetwork (linkSegment ds k c.reversed) := by
  have hperm : [c.sourceIp, c.targetIp, staticOf ds c.source, staticOf ds c.target].Perm
      [c.targetIp, c.sourceIp, staticOf ds c.target, staticOf ds c.source] :=
    (List.Perm.swap _ _ [_, _]).trans (((List.Perm.swap _ _ []).cons _).cons _)
  have hbase : (linkSegment ds k c.reversed).base = (linkSegment ds k c).base :=
    Segment.base_formed_perm hperm h
  refine ⟨rfl, hbase, ?_⟩
  calc (linkSegment ds k c.reversed).subnet
      = Segment.subnetOf (linkSegment ds k c.reversed).base := rfl
    _ = Segment.subnetOf (linkSegment ds k c).base := by rw [hbase]
    _ = (linkSegment ds k c).subnet := rfl

/-- The connections that are left are the same, but for the one that is turned. -/
theorem foldl_retain_turn : (cs.map (turn c)).foldl retain (kept.map (turn c)) =
    (cs.foldl retain kept).map (turn c) := by
  induction cs generalizing kept with
  | nil => rfl
  | cons d cs ih =>
    have hany : (kept.map (turn c)).any (·.looksLike (turn c d)) = kept.any (·.looksLike d) := by
      rw [List.any_map]
      exact congrArg kept.any (funext fun e => looksLike_turn)
    have hstep : retain (kept.map (turn c)) (turn c d) = (retain kept d).map (turn c) := by
      unfold retain
      rw [hany]
      split
      · rfl
      · rw [List.map_append, List.map_singleton]
    rw [List.map_cons, List.foldl_cons, List.foldl_cons, hstep, ih]

theorem links_turn : links (cs.map (turn c)) = (links cs).map (turn c) :=
  @foldl_retain_turn cs [] c

/-- A device is on the same segments. -/
theorem linkNames_turn (name : String) : linkNames name (kept.map (turn c)) = linkNames name kept := by
  have hfilter : (fun p : Connection × Nat => Registry.touches name p.1) ∘ Prod.map (turn c) id =
      fun p => Registry.touches name p.1 := funext fun p => touches_turn name
  rw [linkNames, linkNames, List.zipIdx_map, List.filter_map, hfilter, List.map_map]
  rfl

end Analysis

namespace Assignment

variable {ds : List Device} {a a' : Analysis} {d e : Device} {c : Connection} {s s' : Segment}
  {x y : Resolved}

/-! ## The ends of a reversed connection -/

/-- An end of a connection is given the same address when the connection is reversed. -/
theorem endpointAddress_reversed (hs : s.SameNetwork s') (hc : c.source ≠ c.target)
    (hd : Registry.touches d.id c = true) (i : Nat) :
    endpointAddress d e c.reversed s' i = endpointAddress d e c s i := by
  have hauto : ∀ n, Resolved.auto s' n = Resolved.auto s n := by
    intro n
    rw [Resolved.auto, Resolved.auto, hs.base]
  have hrouter : routerAddress d c.reversed s' = routerAddress d c s := by
    rcases (Bool.or_eq_true _ _).mp hd with hid | hid
    · have hsource : c.source = d.id := beq_iff_eq.1 hid
      have htarget : c.target ≠ d.id := hsource ▸ hc.symm
      simp [routerAddress, Connection.reversed, Connection.peerOf, hsource, htarget, htarget.symm, hauto]
    · have htarget : c.target = d.id := beq_iff_eq.1 hid
      have hsource : c.source ≠ d.id := htarget ▸ hc
      simp [routerAddress, Connection.reversed, Connection.peerOf, hsource, hsource.symm, htarget, hauto]
  have hhost : hostAddress d e s' i = hostAddress d e s i := by
    unfold hostAddress
    simp only [hauto]
  unfold endpointAddress
  rw [hrouter, hhost]

/-- Two addresses are told apart in the same way in either order, unless both are chosen and equal. -/
theorem separate_reversed (hs : s.SameNetwork s')
    (hxy : x.ip = y.ip → x.isCustom = true ∨ y.isCustom = true) :
    (separate s' e d y x).outcome = (separate s d e x y).outcome.map Prod.swap := by
  have hnext : nextAfter s' = nextAfter s := by
    funext taken
    unfold nextAfter Resolved.auto
    rw [hs.base, hs.subnet, hs.name]
  unfold separate
  by_cases hip : x.ip = y.ip
  · have hequal : ¬ x.ip ≠ y.ip := not_not.2 hip
    have hequal' : ¬ y.ip ≠ x.ip := not_not.2 hip.symm
    rw [if_neg hequal, if_neg hequal', hnext]
    -- one of the two is given, so the other moves if any does
    cases hx : x.isCustom with
    | true =>
      cases hy : y.isCustom with
      | true => rfl
      | false =>
        simp only [Bool.not_true, Bool.not_false, Bool.false_eq_true, if_true, if_false]
        rw [Journal.outcome_bind, Journal.outcome_bind, Journal.outcome_ofExcept]
        cases nextAfter s x.ip <;> rfl
    | false =>
      have hy : y.isCustom = true := (hxy hip).resolve_left (by simp [hx])
      simp only [hy, Bool.not_true, Bool.not_false, Bool.false_eq_true, if_true, if_false]
      rw [Journal.outcome_bind, Journal.outcome_bind, Journal.outcome_ofExcept]
      cases nextAfter s y.ip <;> rfl
  · rw [if_pos (Ne.symm hip), if_pos hip]
    rfl

/-- A router and a host are never chosen the same address. -/
theorem isCustom_of_same_ip (hkind : d.isRouter = !e.isRouter) {i j : Nat}
    (hx : Placed (firstHosts d) d s i x) (hy : Placed (firstHosts e) e s j y) (hip : x.ip = y.ip) :
    x.isCustom = true ∨ y.isCustom = true := by
  by_contra hauto
  rw [not_or, Bool.not_eq_true, Bool.not_eq_true] at hauto
  obtain ⟨m, hm, hmip⟩ := hx.chosen hauto.1
  obtain ⟨n, hn, hnip⟩ := hy.chosen hauto.2
  have hmn : m = n := Address.host_inj.1 (hmip.symm.trans (hip.trans hnip))
  -- the first number of routers is none of the first numbers of hosts
  unfold firstHosts at hm hn
  cases he : e.isRouter <;> simp [hkind, he] at hm hn <;> omega

/-- Two sets of addresses that give every device the same address, and have the same gateway. -/
structure SegmentAddresses.Same (sa sa' : SegmentAddresses) : Prop where
  byDevice : ∀ id, sa'.byDevice.get? id = sa.byDevice.get? id
  gateway : sa'.gateway = sa.gateway

/-- A connection between a router and a host gives its ends the same addresses when it is reversed. -/
theorem onConnection_reversed (hds : Registry.SoundDevices ds) (hc : Registry.JoinsKnown ds c)
    (hrouter : Registry.JoinsRouter ds c) (hbase : Address.IsBase s.base) (hs : s.SameNetwork s')
    {i j : Nat} (hi : indexOf a c.source s.name = .ok i) (hj : indexOf a c.target s.name = .ok j)
    (hi' : indexOf a' c.source s'.name = .ok i) (hj' : indexOf a' c.target s'.name = .ok j) :
    ∃ sa sa', (onConnection ds a s c).outcome = .ok sa ∧
      (onConnection ds a' s' c.reversed).outcome = .ok sa' ∧ sa.Same sa' := by
  obtain ⟨hne, source, hsource, target, htarget, hsid, htid, -⟩ := hc
  have hkind : source.isRouter = !target.isRouter := hrouter.isRouter hds hsource htarget hsid htid
  have hdevice : device ds c.source = .ok source := hsid ▸ device_of_mem hds.ids_nodup hsource
  have hdevice' : device ds c.target = .ok target := htid ▸ device_of_mem hds.ids_nodup htarget
  obtain ⟨x, hx, hxplaced⟩ := @endpointAddress_placed source target s c i (hds.known source hsource)
  obtain ⟨y, hy, hyplaced⟩ := @endpointAddress_placed target source s c j (hds.known target htarget)
  have hx' : endpointAddress source target c.reversed s' i = .ok x :=
    (endpointAddress_reversed hs hne (by simp [Registry.touches, hsid]) i).trans hx
  have hy' : endpointAddress target source c.reversed s' j = .ok y :=
    (endpointAddress_reversed hs hne (by simp [Registry.touches, htid]) j).trans hy
  obtain ⟨u, v, hseparate, -⟩ := separate_placed hbase hxplaced hyplaced
  have hseparate' : (separate s' target source y x).outcome = .ok (v, u) := by
    rw [separate_reversed hs (isCustom_of_same_ip hkind hxplaced hyplaced), hseparate]
    rfl
  have hfrom : device ds c.reversed.source = .ok target := hdevice'
  have hto : device ds c.reversed.target = .ok source := hdevice
  rw [← hsid] at hi hi' hne
  rw [← htid] at hj hj' hne
  refine ⟨_, _, outcome_onConnection hdevice hdevice' hi hj hx hy hseparate,
    outcome_onConnection hfrom hto hj' hi' hy' hx' hseparate', ?_, ?_⟩
  · have hnodup : ([(source.id, u), (target.id, v)].map Prod.fst).Nodup := by
      simpa using hne
    exact OrderedMap.get?_ofList_perm (List.Perm.swap _ _ []) hnodup
  -- the gateway is the router's address, whichever end the router is
  · dsimp only
    cases htr : target.isRouter <;> simp [hkind, htr]

/-! ## The segments of an analysis with a connection reversed -/

/-- How two analyses go together, the second with a connection between a router and a host reversed. -/
structure Redirected (r : Registry) (c : Connection) (a a' : Analysis) : Prop where
  sound : r.WellFormed
  mem : c ∈ r.connections
  router : Registry.JoinsRouter r.devices c
  ofLinks : Analysis.OfLinks r.devices (Analysis.links r.connections) a
  ofTurned : Analysis.OfLinks r.devices ((Analysis.links r.connections).map (turn c)) a'

namespace Redirected

variable {r : Registry} {name : String}

/-- Every device is on the same segments. -/
theorem networks (h : Redirected r c a a') (hd : d ∈ r.devices) :
    a'.networks.get? d.id = a.networks.get? d.id := by
  rw [h.ofTurned.networks d hd, h.ofLinks.networks d hd, Analysis.linkNames_turn]

/-- Every device has the segments at the same positions. -/
theorem indexOf (h : Redirected r c a a') (hd : d ∈ r.devices) (name : String) :
    indexOf a' d.id name = indexOf a d.id name := by
  rw [Assignment.indexOf, Assignment.indexOf, h.networks hd]

/-- A segment is that of a connection that is left, and in the other analysis that of the same connection
or of its reversal stands under its name. -/
theorem exists_place (h : Redirected r c a a') (hs : a.segments.get? name = some s) :
    ∃ d k, (d, k) ∈ (Analysis.links r.connections).zipIdx 1 ∧ name = Segment.nameOf k ∧
      s = Analysis.linkSegment r.devices k d ∧
      a'.segments.get? name = some (Analysis.linkSegment r.devices k (turn c d)) := by
  rw [OrderedMap.get?_eq_some_iff, h.ofLinks.segments, mem_linkSegments] at hs
  obtain ⟨⟨d, k⟩, hdk, hentry⟩ := hs
  obtain ⟨rfl, rfl⟩ := Prod.mk.inj hentry
  refine ⟨d, k, hdk, rfl, rfl, ?_⟩
  rw [OrderedMap.get?_eq_some_iff, h.ofTurned.segments, mem_linkSegments, List.zipIdx_map]
  exact ⟨(turn c d, k), List.mem_map.2 ⟨(d, k), hdk, rfl⟩, rfl⟩

/-- A segment that is not that of the connection stays what it is, and is given the same addresses. -/
theorem segment_of_ne (h : Redirected r c a a') (hs : a.segments.get? name = some s)
    (hne : s.connection ≠ some c) :
    a'.segments.get? name = some s ∧
      (onSegment r.devices a' s).outcome = (onSegment r.devices a s).outcome := by
  obtain ⟨d, k, hdk, rfl, rfl, hs'⟩ := h.exists_place hs
  have hdc : d ≠ c := fun hdc => hne (congrArg some hdc)
  rw [turn_of_ne hdc] at hs'
  refine ⟨hs', ?_⟩
  have hmem : d ∈ r.connections := Analysis.mem_of_mem_links (List.fst_mem_of_mem_zipIdx hdk)
  obtain ⟨-, source, hsource, target, htarget, hsid, htid, -⟩ := h.sound.connections.ends d hmem
  have hdevice : device r.devices d.source = .ok source :=
    hsid ▸ device_of_mem h.sound.devices.ids_nodup hsource
  have hdevice' : device r.devices d.target = .ok target :=
    htid ▸ device_of_mem h.sound.devices.ids_nodup htarget
  exact onConnection_sameOn hmem hdevice hdevice hdevice' hdevice' (.refl _ _) (.refl _ _)
    (h.indexOf hsource _) (h.indexOf htarget _) hsid htid

/-- The segment of the connection stays in its network if its addresses lie in one, and its members are
given the same addresses. -/
theorem segment_self (h : Redirected r c a a') (hs : a.segments.get? name = some s)
    (hc : s.connection = some c) (hconsistent : s.consistent = true) :
    ∃ s' sa sa', a'.segments.get? name = some s' ∧ s.SameNetwork s' ∧ s'.connection = some c.reversed ∧
      (onSegment r.devices a s).outcome = .ok sa ∧ (onSegment r.devices a' s').outcome = .ok sa' ∧
        sa.Same sa' := by
  obtain ⟨d, k, hdk, rfl, rfl, hs'⟩ := h.exists_place hs
  obtain rfl : d = c := Option.some.inj hc
  rw [turn_self] at hs'
  have hends := h.sound.connections.ends d h.mem
  -- both ends are on the segment, at the same positions in both analyses
  have hindex : ∀ id, Registry.touches id d = true → (∃ e ∈ r.devices, e.id = id) →
      ∃ i, Assignment.indexOf a id (Segment.nameOf k) = .ok i ∧
        Assignment.indexOf a' id (Segment.nameOf k) = .ok i := by
    rintro id htouches ⟨e, he, rfl⟩
    obtain ⟨i, hi⟩ := exists_indexOf (h.ofLinks.networks e he)
      (mem_linkNames.2 ⟨(d, k), hdk, htouches, rfl⟩)
    exact ⟨i, hi, (h.indexOf he _).trans hi⟩
  obtain ⟨-, source, hsource, target, htarget, hsid, htid, -⟩ := id hends
  obtain ⟨i, hi, hi'⟩ := hindex d.source (by simp [Registry.touches]) ⟨source, hsource, hsid⟩
  obtain ⟨j, hj, hj'⟩ := hindex d.target (by simp [Registry.touches]) ⟨target, htarget, htid⟩
  have hsame := Analysis.sameNetwork_reversed hconsistent
  obtain ⟨sa, sa', hsa, hsa', hequal⟩ := onConnection_reversed h.sound.devices hends h.router
    Segment.isBase_formed hsame hi hj hi' hj'
  exact ⟨_, sa, sa', hs', hsame, rfl, hsa, hsa', hequal⟩

end Redirected

/-! ## The assignments -/

/-- An assignment with another key of the connection if it is on the segment `name`. -/
def relabelled (name key : String) (x : Assignment) : Assignment :=
  if x.network = name then { x with connectionId := some key } else x

/-- Where the assignments on all segments of a device change by `f`, so do those of the device. -/
theorem assignFrom_map {f : Assignment → Assignment} {resolved resolved' : OrderedMap SegmentAddresses}
    {id : String} {names : List String} {index : Nat} {xs : List Assignment}
    (hone : ∀ name ∈ names, ∀ index x, (assignOne a resolved id index name).outcome = .ok x →
      (assignOne a' resolved' id index name).outcome = .ok (f x))
    (hxs : (assignFrom a resolved id index names).outcome = .ok xs) :
    (assignFrom a' resolved' id index names).outcome = .ok (xs.map f) := by
  induction names generalizing index xs with
  | nil =>
    cases hxs
    rfl
  | cons name rest ih =>
    obtain ⟨x, ys, hx, hys, rfl⟩ := assignFrom_cons_eq_ok.1 hxs
    have hrest := ih (fun n hn => hone n (List.mem_cons_of_mem _ hn)) hys
    exact assignFrom_cons_eq_ok.2 ⟨f x, ys.map f, hone name List.mem_cons_self index x hx, hrest, rfl⟩

/-- On a segment that stays in its network, with the same addresses, a device is assigned what it was, but
for the key of the segment's connection. -/
theorem assignOne_sameNetwork {resolved resolved' : OrderedMap SegmentAddresses}
    {sa sa' : SegmentAddresses} {name id : String} {index : Nat} {x : Assignment}
    (hs : a.segments.get? name = some s) (hsa : resolved.get? name = some sa)
    (hs' : a'.segments.get? name = some s') (hsa' : resolved'.get? name = some sa')
    (hnetwork : s.SameNetwork s') (hsame : sa.Same sa')
    (hx : (assignOne a resolved id index name).outcome = .ok x) :
    (assignOne a' resolved' id index name).outcome = .ok { x with connectionId := s'.connectionId } := by
  obtain ⟨t, ta, q, ht, hta, hq, -⟩ := assignOne_eq_ok hx
  obtain rfl : t = s := Option.some.inj (ht.symm.trans hs)
  obtain rfl : ta = sa := Option.some.inj (hta.symm.trans hsa)
  have hq' : sa'.byDevice.get? id = some q := (hsame.byDevice id).trans hq
  obtain rfl := Except.ok.inj ((outcome_assignOne index hs hsa hq).symm.trans hx)
  rw [outcome_assignOne index hs' hsa' hq', hnetwork.subnet, hsame.gateway]

/-- The connection has one segment. -/
theorem Redirected.name_eq {r : Registry} (h : Redirected r c a a') {name name' : String}
    (hs : a.segments.get? name = some s) (hc : s.connection = some c)
    (hs' : a.segments.get? name' = some s') (hc' : s'.connection = some c) : name' = name := by
  obtain ⟨d, k, hdk, rfl, rfl, -⟩ := h.exists_place hs
  obtain ⟨d', k', hdk', rfl, rfl, -⟩ := h.exists_place hs'
  obtain rfl : d = c := Option.some.inj hc
  obtain rfl : d' = d := Option.some.inj hc'
  obtain ⟨hle, hget⟩ := List.mem_zipIdx_iff_le_and_getElem?_sub.1 hdk
  obtain ⟨hle', hget'⟩ := List.mem_zipIdx_iff_le_and_getElem?_sub.1 hdk'
  have hsub : (Analysis.links r.connections).Sublist r.connections := Analysis.foldl_retain_sublist
  have hnodup : (Analysis.links r.connections).Nodup := h.sound.connections.nodup.sublist hsub
  have hlt : k - 1 < (Analysis.links r.connections).length := (List.getElem?_eq_some_iff.1 hget).1
  have hsame : k - 1 = k' - 1 := (List.getElem?_inj hlt hnodup).1 (hget.trans hget'.symm)
  have hk : k' = k := by omega
  rw [hk]

/-- Every device is assigned what it was, but for the key of the connection. -/
theorem Redirected.assigned {r : Registry} (h : Redirected r c a a') {name : String}
    (hs : a.segments.get? name = some s) (hc : s.connection = some c) (hconsistent : s.consistent = true)
    {assigned assigned' : OrderedMap (List Assignment)}
    (hassigned : (assign r.devices a).outcome = .ok assigned)
    (hassigned' : (assign r.devices a').outcome = .ok assigned') (hd : d ∈ r.devices) :
    ∃ xs, assigned.get? d.id = some xs ∧
      assigned'.get? d.id = some (xs.map (relabelled name c.reversed.key)) := by
  have hids := h.sound.devices.ids_nodup
  obtain ⟨resolved, xs, hresolved, hxs, hget⟩ := exists_assignFrom hassigned hids hd
  obtain ⟨resolved', xs', hresolved', hxs', hget'⟩ := exists_assignFrom hassigned' hids hd
  rw [h.networks hd] at hxs'
  refine ⟨xs, hget, ?_⟩
  rw [hget']
  have hmap : (assignFrom a' (.ofList resolved') d.id 0 ((a.networks.get? d.id).getD [])).outcome =
      .ok (xs.map (relabelled name c.reversed.key)) := by
    refine assignFrom_map ?_ hxs
    intro n hn index x hx
    -- in both runs the name stands for a segment that has addresses
    obtain ⟨x', -, i, hone⟩ := Outcome.exists_of_forall₂ (assignFrom_eq_ok hxs') hn
    obtain ⟨t, sa, ht, hsa, hok⟩ := exists_settled hresolved hx
    obtain ⟨t', sa', ht', hsa', hok'⟩ := exists_settled hresolved' hone
    have hnetwork : x.network = n := by
      obtain ⟨_, _, _, -, -, -, hnetwork, -⟩ := assignOne_eq_ok hx
      exact hnetwork
    by_cases htc : t.connection = some c
    · obtain rfl : n = name := h.name_eq hs hc ht htc
      obtain rfl : t = s := Option.some.inj (ht.symm.trans hs)
      obtain ⟨u, ua, ua', hu, hsame, huc, hua, hua', hequal⟩ := h.segment_self hs hc hconsistent
      obtain rfl : t' = u := Option.some.inj (ht'.symm.trans hu)
      obtain rfl : sa = ua := Except.ok.inj (hok.symm.trans hua)
      obtain rfl : sa' = ua' := Except.ok.inj (hok'.symm.trans hua')
      have hkey : t'.connectionId = some c.reversed.key := by rw [Segment.connectionId, huc, Option.map_some]
      rw [assignOne_sameNetwork ht hsa ht' hsa' hsame hequal hx, relabelled, if_pos hnetwork, hkey]
    · have hne : n ≠ name := by
        rintro rfl
        exact htc (Option.some.inj (ht.symm.trans hs) ▸ hc)
      obtain ⟨hsegment, hsettled⟩ := h.segment_of_ne ht htc
      obtain rfl : t' = t := Option.some.inj (ht'.symm.trans hsegment)
      obtain rfl : sa' = sa := Except.ok.inj ((hok'.symm.trans hsettled).trans hok)
      rw [relabelled, hnetwork, if_neg hne, ← hx]
      exact assignOne_congr (ht'.trans ht.symm) (hsa'.trans hsa.symm) d.id index
  exact congrArg some (Except.ok.inj (hxs'.symm.trans hmap))

/-- A connection between a router and a host has no direction. Whatever a registry went through, when such a
connection of it is replaced by its reversal, with the ends and the addresses given to them in each other's
place, the lenient analyses by connections succeed before and after, and so do the assignments; and if the
connection has a segment whose addresses lie in one network, every device is assigned what it was, on the
same networks in the same order, with the same address, subnet, gateway and position, chosen or given as it
was. Only the key of the connection changes, on the segment of the connection alone. -/
theorem routerLink_reversed (history : List Change) {before after : List Connection}
    (hsplit : (Registry.after history).connections = before ++ c :: after)
    (hrouter : Registry.JoinsRouter (Registry.after history).devices c) :
    let r := Registry.after history
    ∃ a a' assigned assigned',
      (Analysis.byConnection false r.devices r.connections).outcome = .ok a ∧
      (Analysis.byConnection false r.devices (before ++ c.reversed :: after)).outcome = .ok a' ∧
      (assign r.devices a).outcome = .ok assigned ∧ (assign r.devices a').outcome = .ok assigned' ∧
      ∀ name s, a.segments.get? name = some s → s.connection = some c → s.consistent = true →
        ∀ d ∈ r.devices, ∃ xs, assigned.get? d.id = some xs ∧
          assigned'.get? d.id = some (xs.map (relabelled name c.reversed.key)) := by
  intro r
  have hr : r.WellFormed := Registry.wellFormed_after history
  have hmem : c ∈ r.connections := hsplit ▸ List.mem_append_right _ List.mem_cons_self
  -- the connection occurs once, so replacing it there is replacing it everywhere
  have hturn : r.connections.map (turn c) = before ++ c.reversed :: after := by
    rw [hsplit]
    exact map_turn (hsplit ▸ hr.connections.nodup)
  let r' : Registry := ⟨r.devices, r.connections.map (turn c)⟩
  have hr' : r'.WellFormed := ⟨hr.devices, hr.connections.turn c⟩
  obtain ⟨a, ha⟩ := Analysis.exists_byConnection r.devices r.connections
  obtain ⟨a', ha'⟩ := Analysis.exists_byConnection r'.devices r'.connections
  have hlinks := Analysis.byConnection_ofLinks hr ha
  have hlinks' := Analysis.byConnection_ofLinks hr' ha'
  have hkept : ∀ {r : Registry}, r.WellFormed → ∀ c ∈ Analysis.links r.connections,
      Registry.JoinsKnown r.devices c :=
    fun hr c hc => hr.connections.ends c (Analysis.mem_of_mem_links hc)
  obtain ⟨assigned, hassigned, -⟩ := assign_ofLinks hr.devices (hkept hr) hlinks
  obtain ⟨assigned', hassigned', -⟩ := assign_ofLinks hr'.devices (hkept hr') hlinks'
  have hredirected : Redirected r c a a' := {
    sound := hr
    mem := hmem
    router := hrouter
    ofLinks := hlinks
    ofTurned := Analysis.links_turn (c := c) ▸ hlinks' }
  refine ⟨a, a', assigned, assigned', ha, hturn ▸ ha', hassigned, hassigned', ?_⟩
  intro name s hs hc hconsistent d hd
  exact hredirected.assigned hs hc hconsistent hassigned hassigned' hd

/-- A router connected to a host that has the first address of the network, and to another host. -/
def firstTaken : List Change := [
  .addDevice { id := .text "R", type := .text "router" },
  .addDevice { id := .text "a", type := .text "vm", ip := .text "10.0.0.1" },
  .addDevice { id := .text "b", type := .text "vm" },
  .addConnection { source := "R", target := "a" },
  .addConnection { source := "b", target := "R", targetIp := .text "10.0.5.1" }]

/-- The connection of the router to the host, and the one after it. -/
def firstLink : Connection := ⟨"R", "a", none, none, none⟩
def secondLink : Connection := ⟨"b", "R", none, some "10.0.5.1", none⟩

/-- The router moves to the second address, whichever end of the connection it is. -/
theorem routerLink_reversed_firstTaken :
    let r := Registry.after firstTaken
    r.connections = [] ++ firstLink :: [secondLink] ∧ Registry.JoinsRouter r.devices firstLink ∧
    addressesIn r "R" = some [("net1", "10.0.0.2", false), ("net2", "10.0.5.1", true)] ∧
    ∃ a a' assigned assigned',
      (Analysis.byConnection false r.devices r.connections).outcome = .ok a ∧
      (Analysis.byConnection false r.devices [firstLink.reversed, secondLink]).outcome = .ok a' ∧
      (assign r.devices a).outcome = .ok assigned ∧ (assign r.devices a').outcome = .ok assigned' ∧
      ∀ d ∈ r.devices, ∃ xs, assigned.get? d.id = some xs ∧
        assigned'.get? d.id = some (xs.map (relabelled "net1" "a-R")) := by
  intro r
  have hsplit : r.connections = [] ++ firstLink :: [secondLink] := by decide +kernel
  have hrouter : Registry.JoinsRouter r.devices firstLink := by
    unfold Registry.JoinsRouter
    decide +kernel
  have haddresses : addressesIn r "R" = some [("net1", "10.0.0.2", false), ("net2", "10.0.5.1", true)] := by
    decide +kernel
  have hsegment : (Analysis.byConnection false r.devices r.connections).outcome.toOption.any (fun a =>
      (a.segments.get? "net1").any fun s => s.connection = some firstLink ∧ s.consistent = true) =
        true := by
    decide +kernel
  obtain ⟨a, a', assigned, assigned', ha, ha', hassigned, hassigned', hsame⟩ :=
    routerLink_reversed firstTaken hsplit hrouter
  refine ⟨hsplit, hrouter, haddresses, a, a', assigned, assigned', ha, ha', hassigned, hassigned', ?_⟩
  rw [ha] at hsegment
  have hfound : (a.segments.get? "net1").any
      (fun s => s.connection = some firstLink ∧ s.consistent = true) = true := hsegment
  obtain ⟨s, hs, hmatch⟩ := (Option.any_eq_true _ _).1 hfound
  obtain ⟨hc, hconsistent⟩ := of_decide_eq_true hmatch
  exact hsame "net1" s hs hc hconsistent

end Assignment

end VirtNet
