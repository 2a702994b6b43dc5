import VirtNet.Proofs.Assignment.Connection

/-!
# The assignment on an analysis by connections

Every analysis by connections can be assigned, and each address is given or chosen in the network of its
own segment (`exists_assign_ofLinks`, for registries `assign_ofLinks`). Nothing compares the addresses of
one device on different segments, so a device can have one address twice; `byConnection_repeats` says when.
-/

namespace VirtNet.Assignment

/-! ## Maps that are filled by a loop -/

/-- A loop that succeeds at each element under a key of its own fills a map with its results. -/
theorem exists_keyed_mapM {α β ε : Type} {key : α → String} {f : α → Journal ε β}
    {P : α → β → Prop} {as : List α} (hn : (as.map key).Nodup)
    (h : ∀ a ∈ as, ∃ b, (f a).outcome = .ok b ∧ P a b) :
    ∃ es : List (String × β), (as.mapM fun a => do return (key a, ← f a)).outcome = .ok es ∧
      ∀ a ∈ as, ∃ b, (OrderedMap.ofList es).get? (key a) = some b ∧ P a b := by
  have hstep : ∀ a b, (f a).outcome = .ok b →
      (do return (key a, ← f a) : Journal ε (String × β)).outcome = .ok (key a, b) := by
    intro a b hb
    rw [Journal.outcome_bind, hb]
    rfl
  rw [Journal.outcome_mapM]
  have hall : ∀ a ∈ as, ∃ e,
      (do return (key a, ← f a) : Journal ε (String × β)).outcome = .ok e := by
    intro a ha
    obtain ⟨b, hb, -⟩ := h a ha
    exact ⟨(key a, b), hstep a b hb⟩
  obtain ⟨es, hes⟩ := Outcome.exists_mapM_eq_ok hall
  -- the results stand under the keys of the elements, so no key is set twice
  have hkeys : es.map Prod.fst = as.map key := by
    refine Outcome.map_of_mapM_eq_ok hes ?_
    intro a e he
    rw [Journal.bind_eq_ok] at he
    obtain ⟨b, -, hb⟩ := he
    cases hb
    rfl
  refine ⟨es, hes, ?_⟩
  intro a ha
  obtain ⟨b, hb, hP⟩ := h a ha
  obtain ⟨e, he, hae⟩ := Outcome.mem_of_mapM_eq_ok hes ha
  rw [hstep a b hb] at hae
  cases hae
  exact ⟨b, (OrderedMap.get?_ofList (hkeys ▸ hn)).2 he, hP⟩

/-! ## The addresses of the segments -/

variable {ds : List Device} {kept : List Connection} {a : Analysis} {d : Device}
  {names : List String} {name : String} {s : Segment}

/-- A name in a list has a first position there. -/
theorem exists_findIdx? (hname : name ∈ names) : ∃ i, names.findIdx? (· == name) = some i := by
  have hsome : (names.findIdx? (· == name)).isSome := by
    rw [List.findIdx?_isSome, List.any_eq_true]
    exact ⟨name, hname, beq_self_eq_true name⟩
  exact Option.isSome_iff_exists.1 hsome

/-- A segment that a device is on has a position among the device's segments. -/
theorem exists_indexOf {id : String} (hnames : a.networks.get? id = some names)
    (hname : name ∈ names) : ∃ i, indexOf a id name = .ok i := by
  obtain ⟨i, hi⟩ := exists_findIdx? hname
  exact ⟨i, by simp only [indexOf, hnames, hi]⟩

/-- A segment is at the first position exactly when it is the device's first. -/
theorem eq_zero_iff_of_indexOf {id : String} {i : Nat} (hi : indexOf a id name = .ok i) :
    i = 0 ↔ (a.networks.get? id).bind List.head? = some name := by
  unfold indexOf at hi
  cases hnames : a.networks.get? id with
  | none =>
    rw [hnames] at hi
    cases hi
  | some names =>
    rw [hnames] at hi
    cases names with
    | nil => cases hi
    | cons head rest =>
      dsimp only at hi
      rw [List.findIdx?_cons] at hi
      cases hhead : head == name with
      | true =>
        rw [hhead] at hi
        obtain rfl : 0 = i := Except.ok.inj hi
        simpa using hhead
      | false =>
        -- a later position is not the first
        rw [hhead] at hi
        cases hlater : rest.findIdx? (· == name) with
        | none => simp [hlater] at hi
        | some j =>
          simp only [hlater, Bool.false_eq_true, if_false, Option.map_some, Except.ok.injEq] at hi
          subst hi
          simpa using hhead

/-- The first position is that of the first segment. -/
theorem head?_of_indexOf_zero {id : String} (hnames : a.networks.get? id = some names)
    (h : indexOf a id name = .ok 0) : names.head? = some name := by
  have hfirst := (eq_zero_iff_of_indexOf h).1 rfl
  rwa [hnames] at hfirst

theorem mem_linkSegments {e : String × Segment} : e ∈ Analysis.linkSegments ds kept ↔
    ∃ p ∈ kept.zipIdx 1, (Segment.nameOf p.2, Analysis.linkSegment ds p.2 p.1) = e := by
  rw [Analysis.linkSegments, List.mem_map]

theorem mem_linkNames {id : String} : name ∈ Analysis.linkNames id kept ↔
    ∃ p ∈ kept.zipIdx 1, Registry.touches id p.1 = true ∧ Segment.nameOf p.2 = name := by
  simp only [Analysis.linkNames, List.mem_map, List.mem_filter, and_assoc]

/-- The addresses of a segment have one for each device that is on it. -/
structure Settled (ds : List Device) (a : Analysis) (e : String × Segment) (sa : SegmentAddresses) :
    Prop where
  base : Address.IsBase e.2.base
  subnet : e.2.subnet = Segment.subnetOf e.2.base
  placed : ∀ d ∈ ds, ∀ names, a.networks.get? d.id = some names → e.1 ∈ names →
    ∃ i r, indexOf a d.id e.1 = .ok i ∧ sa.byDevice.get? d.id = some r ∧
      Placed (linkHosts d) d e.2 i r

/-- A segment of an analysis by connections stands for a connection that is left, and both ends have a
position for it. -/
theorem exists_link (hkept : ∀ c ∈ kept, Registry.Connects ds c) (h : Analysis.OfLinks ds kept a)
    {e : String × Segment} (he : e ∈ a.segments.entries) :
    ∃ c k, (c, k) ∈ kept.zipIdx 1 ∧ e = (Segment.nameOf k, Analysis.linkSegment ds k c) ∧
      (∃ i, indexOf a c.source (Segment.nameOf k) = .ok i) ∧
      ∃ j, indexOf a c.target (Segment.nameOf k) = .ok j := by
  rw [h.segments, mem_linkSegments] at he
  obtain ⟨⟨c, k⟩, hck, rfl⟩ := he
  have hc : Registry.Connects ds c := hkept c (List.fst_mem_of_mem_zipIdx hck)
  have hindex : ∀ id, Registry.touches id c = true → (∃ d ∈ ds, d.id = id) →
      ∃ i, indexOf a id (Segment.nameOf k) = .ok i := by
    rintro id htouches ⟨d, hd, rfl⟩
    exact exists_indexOf (h.networks d hd) (mem_linkNames.2 ⟨(c, k), hck, htouches, rfl⟩)
  exact ⟨c, k, hck, rfl, hindex c.source (by simp [Registry.touches]) hc.source,
    hindex c.target (by simp [Registry.touches]) hc.target⟩

/-- Every segment of an analysis by connections can be settled. -/
theorem exists_settled_onSegment (hds : Registry.KnownDevices ds)
    (hkept : ∀ c ∈ kept, Registry.Connects ds c) (h : Analysis.OfLinks ds kept a)
    {e : String × Segment} (he : e ∈ a.segments.entries) :
    ∃ sa, (onSegment ds a e.2).outcome = .ok sa ∧ Settled ds a e sa := by
  obtain ⟨c, k, hck, rfl, ⟨i, hi⟩, j, hj⟩ := exists_link hkept h he
  have hc : Registry.Connects ds c := hkept c (List.fst_mem_of_mem_zipIdx hck)
  have hbase : Address.IsBase (Analysis.linkSegment ds k c).base := Segment.isBase_formed
  obtain ⟨sa, hsa, _, _, _, _, _, _, hends⟩ := onConnection_ends hds hc hbase hi hj
  refine ⟨sa, hsa, hbase, rfl, ?_⟩
  intro d hd names hnames hname
  rw [h.networks d hd] at hnames
  cases hnames
  obtain ⟨⟨c', k'⟩, hck', htouches, hk'⟩ := mem_linkNames.1 hname
  -- a name stands for one number, and so for one connection
  have hk : k' = k := Segment.nameOf_inj.1 hk'
  have hsame : c' = c := by
    have h1 := List.mem_zipIdx_iff_le_and_getElem?_sub.1 hck
    have h2 := List.mem_zipIdx_iff_le_and_getElem?_sub.1 hck'
    subst hk
    exact Option.some.inj (h2.2.symm.trans h1.2)
  subst hsame
  exact hends.placed hds hd htouches hi hj

/-- Every segment of an analysis of a registry by connections can be settled. -/
theorem onSegment_settled (hds : Registry.SoundDevices ds)
    (hkept : ∀ c ∈ kept, Registry.JoinsKnown ds c) (h : Analysis.OfLinks ds kept a)
    {e : String × Segment} (he : e ∈ a.segments.entries) :
    ∃ sa, (onSegment ds a e.2).outcome = .ok sa ∧ Settled ds a e sa :=
  exists_settled_onSegment hds.knownDevices (fun c hc => (hkept c hc).connects) h he

/-! ## The addresses of a device -/

/-- An address that can be chosen for a device on a segment with the subnet `subnet`. -/
def ChosenIn (d : Device) (subnet ip : String) : Prop :=
  ∃ base, Address.IsBase base ∧ subnet = Segment.subnetOf base ∧
    ∃ h ∈ linkHosts d, ip = Address.host base (h : Nat)

/-- An assignment of a device that is on the segments `names`: the address is chosen in the subnet of
its own segment, or it is given, to a device that is no router on its first segment alone. -/
structure OnLink (d : Device) (names : List String) (x : Assignment) : Prop where
  chosen : x.isCustom = false → ChosenIn d x.subnet x.ip
  given : x.isCustom = true → d.isRouter = false → names.head? = some x.network

/-- The assignment of a device on a segment whose addresses have one for it. -/
theorem outcome_assignOne {resolved : OrderedMap SegmentAddresses} {sa : SegmentAddresses} {r : Resolved}
    {id : String} (index : Nat) (hs : a.segments.get? name = some s) (hsa : resolved.get? name = some sa)
    (hr : sa.byDevice.get? id = some r) :
    (assignOne a resolved id index name).outcome = .ok
      { deviceId := id, network := name, ip := r.ip, subnet := s.subnet, gateway := sa.gateway
        index, isCustom := r.isCustom, connectionId := s.connectionId } := by
  simp only [assignOne, hs, hsa, hr, Journal.outcome_bind, Journal.outcome_note, Outcome.ok_bind,
    Journal.outcome_pure]

/-- A device has an address on each segment that it is on. -/
theorem assignOne_onLink {resolved : OrderedMap SegmentAddresses} {sa : SegmentAddresses}
    (index : Nat) (hd : d ∈ ds) (hnames : a.networks.get? d.id = some names) (hname : name ∈ names)
    (hs : a.segments.get? name = some s) (hsa : resolved.get? name = some sa)
    (h : Settled ds a (name, s) sa) :
    ∃ x, (assignOne a resolved d.id index name).outcome = .ok x ∧ x.network = name ∧
      OnLink d names x := by
  obtain ⟨i, r, hi, hr, hplaced⟩ := h.placed d hd names hnames hname
  refine ⟨_, outcome_assignOne index hs hsa hr, rfl, ?_, ?_⟩
  · intro hauto
    obtain ⟨n, hn, hip⟩ := hplaced.chosen hauto
    exact ⟨s.base, h.base, h.subnet, n, hn, hip⟩
  · intro hgiven hrouter
    rw [hplaced.given hgiven hrouter] at hi
    exact head?_of_indexOf_zero hnames hi

/-- Going through some of its segments, a device has an address on each. -/
theorem assignFrom_forall {resolved : OrderedMap SegmentAddresses} {id : String}
    {P : Assignment → Prop}
    (h : ∀ name ∈ names, ∀ index, ∃ x,
      (assignOne a resolved id index name).outcome = .ok x ∧ x.network = name ∧ P x)
    (index : Nat) : ∃ xs, (assignFrom a resolved id index names).outcome = .ok xs ∧
      xs.map Assignment.network = names ∧ ∀ x ∈ xs, P x := by
  induction names generalizing index with
  | nil => exact ⟨[], rfl, rfl, by simp⟩
  | cons name rest ih =>
    obtain ⟨x, hx, hname, hPx⟩ := h name List.mem_cons_self index
    obtain ⟨xs, hxs, hnames, hPxs⟩ := ih (fun n hn => h n (List.mem_cons_of_mem _ hn)) (index + 1)
    refine ⟨x :: xs, ?_, by rw [List.map_cons, hname, hnames], List.forall_mem_cons.2 ⟨hPx, hPxs⟩⟩
    rw [assignFrom, Journal.outcome_bind, hx, Outcome.ok_bind, Journal.outcome_bind, hxs]
    rfl

/-- Where every segment can be filled, with addresses that satisfy `P`, and such addresses give each device an
assignment on each of its segments, every device is assigned one for each of them, in their order. -/
theorem exists_assign_of_filled (hn : (ds.map Device.id).Nodup)
    {P : String × Segment → SegmentAddresses → Prop} {Q : Device → Assignment → Prop}
    (hsegments : ∀ e ∈ a.segments.entries, ∃ sa, (onSegment ds a e.2).outcome = .ok sa ∧ P e sa)
    (hdevices : ∀ d ∈ ds, ∃ names, a.networks.get? d.id = some names ∧ ∀ name ∈ names, ∃ s,
      a.segments.get? name = some s ∧ ∀ (resolved : OrderedMap SegmentAddresses) sa index,
        resolved.get? name = some sa → P (name, s) sa → ∃ x,
          (assignOne a resolved d.id index name).outcome = .ok x ∧ x.network = name ∧ Q d x) :
    ∃ assigned, (assign ds a).outcome = .ok assigned ∧ ∀ d ∈ ds, ∃ xs,
      assigned.get? d.id = some xs ∧ a.networks.get? d.id = some (xs.map Assignment.network) ∧
        ∀ x ∈ xs, Q d x := by
  -- first every segment is filled, then every device goes through its segments
  obtain ⟨resolved, hresolved, hfilled⟩ := exists_keyed_mapM a.segments.nodup hsegments
  have hdevice : ∀ d ∈ ds, ∃ xs,
      (assignFrom a (.ofList resolved) d.id 0 ((a.networks.get? d.id).getD [])).outcome = .ok xs ∧
        a.networks.get? d.id = some (xs.map Assignment.network) ∧ ∀ x ∈ xs, Q d x := by
    intro d hd
    obtain ⟨names, hnames, hone⟩ := hdevices d hd
    have hassignOne : ∀ name ∈ names, ∀ index, ∃ x,
        (assignOne a (.ofList resolved) d.id index name).outcome = .ok x ∧ x.network = name ∧ Q d x := by
      intro name hname index
      obtain ⟨s, hs, hassignOne⟩ := hone name hname
      obtain ⟨sa, hsa, hP⟩ := hfilled (name, s) (OrderedMap.get?_eq_some_iff.1 hs)
      exact hassignOne _ sa index hsa hP
    obtain ⟨xs, hxs, hnetworks, hQ⟩ := assignFrom_forall hassignOne 0
    rw [hnames, Option.getD_some]
    exact ⟨xs, hxs, by rw [hnetworks], hQ⟩
  obtain ⟨es, hes, hassigned⟩ := exists_keyed_mapM hn hdevice
  refine ⟨.ofList es, ?_, hassigned⟩
  unfold assign
  rw [Journal.outcome_bind, hresolved, Outcome.ok_bind, Journal.outcome_bind, hes]
  rfl

/-- An analysis by connections can be assigned, and every device has an address on each of its
segments, in their order. -/
theorem exists_assign_ofLinks (hds : Registry.KnownDevices ds)
    (hkept : ∀ c ∈ kept, Registry.Connects ds c) (h : Analysis.OfLinks ds kept a) :
    ∃ assigned, (assign ds a).outcome = .ok assigned ∧ ∀ d ∈ ds, ∃ xs,
      assigned.get? d.id = some xs ∧ xs.map Assignment.network = Analysis.linkNames d.id kept ∧
        ∀ x ∈ xs, OnLink d (Analysis.linkNames d.id kept) x := by
  obtain ⟨assigned, hassigned, hdevices⟩ :=
    @exists_assign_of_filled ds a hds.ids_nodup (Settled ds a)
      (fun d x => OnLink d (Analysis.linkNames d.id kept) x)
      (fun e he => exists_settled_onSegment hds hkept h he) (by
        intro d hd
        refine ⟨_, h.networks d hd, ?_⟩
        intro name hname
        obtain ⟨p, hp, -, rfl⟩ := mem_linkNames.1 hname
        have he : (Segment.nameOf p.2, Analysis.linkSegment ds p.2 p.1) ∈ a.segments.entries := by
          rw [h.segments]
          exact mem_linkSegments.2 ⟨p, hp, rfl⟩
        have hs := OrderedMap.get?_eq_some_iff.2 he
        exact ⟨_, hs, fun _ _ index hsa hsettled =>
          assignOne_onLink index hd (h.networks d hd) hname hs hsa hsettled⟩)
  refine ⟨assigned, hassigned, fun d hd => ?_⟩
  obtain ⟨xs, hxs, hnetworks, honLink⟩ := hdevices d hd
  exact ⟨xs, hxs, Option.some.inj (hnetworks.symm.trans (h.networks d hd)), honLink⟩

/-- An analysis of a registry by connections can be assigned, and every device has an address on each of
its segments, in their order. -/
theorem assign_ofLinks (hds : Registry.SoundDevices ds)
    (hkept : ∀ c ∈ kept, Registry.JoinsKnown ds c) (h : Analysis.OfLinks ds kept a) :
    ∃ assigned, (assign ds a).outcome = .ok assigned ∧ ∀ d ∈ ds, ∃ xs,
      assigned.get? d.id = some xs ∧ xs.map Assignment.network = Analysis.linkNames d.id kept ∧
        ∀ x ∈ xs, OnLink d (Analysis.linkNames d.id kept) x :=
  exists_assign_ofLinks hds.knownDevices (fun c hc => (hkept c hc).connects) h

/-! ## One address on two segments -/

/-- How a device can come by one address on two segments: neither is given and the segments have one
subnet, one is given and could have been chosen on the other segment, or both are given to a router. -/
inductive Repeats (d : Device) (x y : Assignment) : Prop
  | sameSubnet (hx : x.isCustom = false) (hy : y.isCustom = false) (h : x.subnet = y.subnet)
  | firstGiven (hx : x.isCustom = true) (hy : y.isCustom = false) (h : ChosenIn d y.subnet x.ip)
  | secondGiven (hx : x.isCustom = false) (hy : y.isCustom = true) (h : ChosenIn d x.subnet y.ip)
  | bothGiven (hx : x.isCustom = true) (hy : y.isCustom = true) (h : d.isRouter = true)

variable {x y : Assignment} {ip : String}

/-- An address can be chosen in one subnet alone. -/
theorem ChosenIn.subnet_eq {m n : String} (hm : ChosenIn d m ip) (hn : ChosenIn d n ip) : m = n := by
  obtain ⟨b, hb, rfl, h, -, hip⟩ := hm
  obtain ⟨b', hb', rfl, h', -, hip'⟩ := hn
  have hbase : b = b' := by
    calc b = Address.base ip := by rw [hip, Address.base_host hb]
      _ = b' := by rw [hip', Address.base_host hb']
  rw [hbase]

/-- Two assignments of a device with one address on different segments. -/
theorem OnLink.repeats (hx : OnLink d names x) (hy : OnLink d names y)
    (hne : x.network ≠ y.network) (hip : x.ip = y.ip) : Repeats d x y := by
  cases hxc : x.isCustom with
  | false =>
    have hxin := hx.chosen hxc
    cases hyc : y.isCustom with
    | false =>
      have hyin := hy.chosen hyc
      rw [← hip] at hyin
      exact .sameSubnet hxc hyc (hxin.subnet_eq hyin)
    | true => exact .secondGiven hxc hyc (hip ▸ hxin)
  | true =>
    cases hyc : y.isCustom with
    | false => exact .firstGiven hxc hyc (hip ▸ hy.chosen hyc)
    | true =>
      refine .bothGiven hxc hyc ?_
      by_contra hrouter
      rw [Bool.not_eq_true] at hrouter
      -- both segments are the device's first one
      have hfirst : some x.network = some y.network :=
        (hx.given hxc hrouter).symm.trans (hy.given hyc hrouter)
      exact hne (Option.some.inj hfirst)

/-- Whatever a registry went through, its lenient analysis by connections succeeds, and any analysis by
connections can be assigned. A device has an address on each of its segments; on two of them it has the
same one only where both were chosen in one subnet, where one was given and has a host number that
could have been chosen on the other segment, or where both were given to a router. -/
theorem byConnection_repeats (history : List Change) :
    let r := Registry.after history
    (∃ a, (Analysis.byConnection false r.devices r.connections).outcome = .ok a) ∧
    ∀ strict a, (Analysis.byConnection strict r.devices r.connections).outcome = .ok a →
      ∃ assigned, (assign r.devices a).outcome = .ok assigned ∧ ∀ d ∈ r.devices, ∃ xs,
        assigned.get? d.id = some xs ∧ a.networks.get? d.id = some (xs.map Assignment.network) ∧
          ∀ x ∈ xs, ∀ y ∈ xs, x.network ≠ y.network → x.ip = y.ip → Repeats d x y := by
  intro r
  have hr : r.WellFormed := Registry.wellFormed_after history
  refine ⟨Analysis.exists_byConnection _ _, ?_⟩
  intro strict a ha
  have hlinks := Analysis.byConnection_ofLinks hr ha
  have hkept : ∀ c ∈ Analysis.links r.connections, Registry.JoinsKnown r.devices c := by
    intro c hc
    have hsub : (Analysis.links r.connections).Sublist r.connections := Analysis.foldl_retain_sublist
    exact hr.connections.ends c (hsub.subset hc)
  obtain ⟨assigned, hassigned, hdevices⟩ := assign_ofLinks hr.devices hkept hlinks
  refine ⟨assigned, hassigned, ?_⟩
  intro d hd
  obtain ⟨xs, hxs, hnames, hall⟩ := hdevices d hd
  refine ⟨xs, hxs, by rw [hlinks.networks d hd, hnames], ?_⟩
  intro x hx y hy hne hip
  exact (hall x hx).repeats (hall y hy) hne hip

/-- A router `R` connected to two hosts, with the static addresses of the router and of the second host
and the addresses given to the router at the two connections. -/
def twoHosts (routerIp hostIp firstIp secondIp : Value) : List Change := [
  .addDevice { id := .text "R", type := .text "router", ip := routerIp },
  .addDevice { id := .text "a", type := .text "vm" },
  .addDevice { id := .text "b", type := .text "vm", ip := hostIp },
  .addConnection { source := "R", target := "a", sourceIp := firstIp },
  .addConnection { source := "R", target := "b", sourceIp := secondIp }]

/-- The networks and addresses of the router, and whether they were given. -/
def routerAddresses (history : List Change) : Option (List (String × String × Bool)) := do
  let r := Registry.after history
  let a ← (Analysis.byConnection false r.devices r.connections).outcome.toOption
  let assigned ← (assign r.devices a).outcome.toOption
  let xs ← assigned.get? "R"
  return xs.map fun x => (x.network, x.ip, x.isCustom)

/-- A router has one address on both of its segments: when its static address gives both one subnet,
when it is given the first address of the other segment, and when it is given one address twice. -/
theorem routerAddresses_twoHosts :
    routerAddresses (twoHosts (.text "10.0.0.5") .null .null .null) =
      some [("net1", "10.0.0.1", false), ("net2", "10.0.0.1", false)] ∧
    routerAddresses (twoHosts .null (.text "10.0.0.7") (.text "10.0.0.1") .null) =
      some [("net1", "10.0.0.1", true), ("net2", "10.0.0.1", false)] ∧
    routerAddresses (twoHosts .null .null (.text "10.0.0.1") (.text "10.0.0.1")) =
      some [("net1", "10.0.0.1", true), ("net2", "10.0.0.1", true)] := by
  decide +kernel

end VirtNet.Assignment
