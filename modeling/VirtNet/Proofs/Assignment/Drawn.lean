import VirtNet.Proofs.Analysis.Members
import VirtNet.Proofs.Assignment.Links
import VirtNet.Proofs.Assignment.Pool

/-!
# Where assigned addresses come from

Every assignment is drawn from the addresses of the segment that it names (`assign_drawn`), and a device
has one for each segment that it is on (`assign_networks`). In an analysis of a registry a segment comes to
its addresses in one of two ways, whatever the mode (`onSegment_origin`), and by either it is filled
(`onSegment_filled`), so that what holds of the addresses of one segment holds of the assignments on it.
-/

namespace VirtNet.Assignment

variable {ds : List Device} {a : Analysis} {resolved : OrderedMap SegmentAddresses} {id name : String}
  {names : List String} {x : Assignment} {xs : List Assignment}

/-- The assignment `x` of a device is its address `r` among the addresses `sa` of the segment `s`. -/
structure Drawn (ds : List Device) (a : Analysis) (id : String) (x : Assignment) (s : Segment)
    (sa : SegmentAddresses) (r : Resolved) : Prop where
  segment : a.segments.get? x.network = some s
  addresses : (onSegment ds a s).outcome = .ok sa
  member : sa.byDevice.get? id = some r
  ip : x.ip = r.ip
  isCustom : x.isCustom = r.isCustom
  gateway : x.gateway = sa.gateway

/-- The assignment of a device on a segment is read off the addresses of that segment. -/
theorem assignOne_eq_ok {index : Nat} (h : (assignOne a resolved id index name).outcome = .ok x) :
    ∃ s sa r, a.segments.get? name = some s ∧ resolved.get? name = some sa ∧
      sa.byDevice.get? id = some r ∧ x.network = name ∧ x.ip = r.ip ∧ x.isCustom = r.isCustom ∧
        x.gateway = sa.gateway := by
  unfold assignOne at h
  cases hs : a.segments.get? name with
  | none => simp [hs] at h
  | some s =>
    cases hsa : resolved.get? name with
    | none => simp [hs, hsa] at h
    | some sa =>
      cases hr : sa.byDevice.get? id with
      | none => simp [hs, hsa, hr] at h
      | some r =>
        simp only [hs, hsa, hr, Journal.outcome_bind, Journal.outcome_note, Outcome.ok_bind,
          Journal.outcome_pure, Except.ok.injEq] at h
        subst h
        exact ⟨s, sa, r, rfl, rfl, hr, rfl, rfl, rfl, rfl⟩

/-- The assignment of a device is numbered for its position. -/
theorem assignOne_index {index : Nat} (h : (assignOne a resolved id index name).outcome = .ok x) :
    x.index = index := by
  unfold assignOne at h
  split at h
  · split at h
    · simp only [Journal.outcome_bind, Journal.outcome_note, Outcome.ok_bind, Journal.outcome_pure,
        Except.ok.injEq] at h
      rw [← h]
    · cases h
  · cases h

/-- A device is assigned something on each of its segments in turn. -/
theorem assignFrom_cons_eq_ok {index : Nat} :
    (assignFrom a resolved id index (name :: names)).outcome = .ok xs ↔
      ∃ x ys, (assignOne a resolved id index name).outcome = .ok x ∧
        (assignFrom a resolved id (index + 1) names).outcome = .ok ys ∧ xs = x :: ys := by
  simp only [assignFrom, Journal.outcome_bind, Journal.outcome_pure, Outcome.bind_eq_ok]
  constructor
  · rintro ⟨x, hx, ys, hys, hxs⟩
    exact ⟨x, ys, hx, hys, (Except.ok.inj hxs).symm⟩
  · rintro ⟨x, ys, hx, hys, rfl⟩
    exact ⟨x, hx, ys, hys, rfl⟩

/-- The assignments of a device are numbered in their order. -/
theorem assignFrom_index {index : Nat} (h : (assignFrom a resolved id index names).outcome = .ok xs)
    {i : Nat} (hx : xs[i]? = some x) : x.index = (index + i : Nat) := by
  induction names generalizing index xs i with
  | nil =>
    cases h
    cases hx
  | cons name rest ih =>
    obtain ⟨y, ys, hy, hys, rfl⟩ := assignFrom_cons_eq_ok.1 h
    cases i with
    | zero =>
      obtain rfl := Option.some.inj hx
      exact assignOne_index hy
    | succ i =>
      rw [ih hys hx, Nat.succ_add_eq_add_succ]

/-- The assignments of a device are one for each of its segments, in their order. -/
theorem assignFrom_eq_ok {index : Nat} (h : (assignFrom a resolved id index names).outcome = .ok xs) :
    List.Forall₂ (fun name x => ∃ i, (assignOne a resolved id i name).outcome = .ok x) names xs := by
  induction names generalizing index xs with
  | nil =>
    cases h
    exact .nil
  | cons name rest ih =>
    obtain ⟨x, xs', hx, hxs, rfl⟩ := assignFrom_cons_eq_ok.1 h
    exact .cons ⟨index, hx⟩ (ih hxs)

/-- An assignment of all devices goes through the segments, then through the devices. -/
theorem assign_eq_ok {assigned : OrderedMap (List Assignment)}
    (h : (assign ds a).outcome = .ok assigned) : ∃ (resolved : List (String × SegmentAddresses))
      (es : List (String × List Assignment)),
      (∀ e ∈ resolved, ∃ s, (e.1, s) ∈ a.segments.entries ∧ (onSegment ds a s).outcome = .ok e.2) ∧
      List.Forall₂ (fun d e => e.1 = d.id ∧ (assignFrom a (.ofList resolved) d.id 0
        ((a.networks.get? d.id).getD [])).outcome = .ok e.2) ds es ∧ assigned = .ofList es := by
  unfold assign at h
  rw [Journal.bind_eq_ok] at h
  obtain ⟨resolved, hresolved, h⟩ := h
  rw [Journal.bind_eq_ok] at h
  obtain ⟨es, hes, h⟩ := h
  cases h
  rw [Journal.outcome_mapM] at hresolved hes
  refine ⟨resolved, es, ?_, ?_, rfl⟩
  · intro e he
    obtain ⟨⟨n, s⟩, hs, hok⟩ := Outcome.exists_of_mem_mapM hresolved he
    rw [Journal.bind_eq_ok] at hok
    obtain ⟨sa, hsa, hpair⟩ := hok
    cases hpair
    exact ⟨s, hs, hsa⟩
  · refine (Outcome.mapM_eq_ok.1 hes).imp ?_
    intro d e hok
    rw [Journal.bind_eq_ok] at hok
    obtain ⟨xs, hxs, hpair⟩ := hok
    cases hpair
    exact ⟨rfl, hxs⟩

/-- Where an assignment succeeds on addresses that were found segment by segment, they are those of the
segment that it names. -/
theorem exists_settled {resolved : List (String × SegmentAddresses)} {index : Nat}
    (hresolved : ∀ e ∈ resolved, ∃ s, (e.1, s) ∈ a.segments.entries ∧
      (onSegment ds a s).outcome = .ok e.2)
    (hone : (assignOne a (.ofList resolved) id index name).outcome = .ok x) :
    ∃ s sa, a.segments.get? name = some s ∧ (OrderedMap.ofList resolved).get? name = some sa ∧
      (onSegment ds a s).outcome = .ok sa := by
  obtain ⟨s, sa, _, hs, hsa, -⟩ := assignOne_eq_ok hone
  -- the addresses under the name are those of the one segment under it
  obtain ⟨s', hs', hok⟩ := hresolved _ (OrderedMap.mem_of_mem_ofList (OrderedMap.get?_eq_some_iff.1 hsa))
  have hsame : some s = some s' := hs.symm.trans (OrderedMap.get?_eq_some_iff.2 hs')
  obtain rfl := Option.some.inj hsame
  exact ⟨s, sa, hs, hsa, hok⟩

variable {assigned : OrderedMap (List Assignment)}

/-- Every assignment is drawn from the addresses of the segment that it names. -/
theorem assign_drawn (h : (assign ds a).outcome = .ok assigned) {e : String × List Assignment}
    (he : e ∈ assigned.entries) (hx : x ∈ e.2) : ∃ s sa r, Drawn ds a e.1 x s sa r := by
  obtain ⟨resolved, es, hresolved, hes, rfl⟩ := assign_eq_ok h
  obtain ⟨d, -, hid, hfrom⟩ := Outcome.exists_of_forall₂ hes.flip (OrderedMap.mem_of_mem_ofList he)
  obtain ⟨name, -, i, hone⟩ := Outcome.exists_of_forall₂ (assignFrom_eq_ok hfrom).flip hx
  obtain ⟨s, sa, r, hs, hsa, hr, hnetwork, hip, hcustom, hgateway⟩ := assignOne_eq_ok hone
  obtain ⟨s', sa', hs', hsa', hok⟩ := exists_settled hresolved hone
  obtain rfl : s = s' := Option.some.inj (hs.symm.trans hs')
  obtain rfl : sa = sa' := Option.some.inj (hsa.symm.trans hsa')
  exact ⟨s, sa, r, hnetwork ▸ hs, hok, hid ▸ hr, hip, hcustom, hgateway⟩

/-- What a device is assigned is found by going through its segments. -/
theorem exists_assignFrom (h : (assign ds a).outcome = .ok assigned) (hn : (ds.map Device.id).Nodup)
    {d : Device} (hd : d ∈ ds) : ∃ (resolved : List (String × SegmentAddresses)) (xs : List Assignment),
      (∀ e ∈ resolved, ∃ s, (e.1, s) ∈ a.segments.entries ∧ (onSegment ds a s).outcome = .ok e.2) ∧
      (assignFrom a (.ofList resolved) d.id 0 ((a.networks.get? d.id).getD [])).outcome = .ok xs ∧
      assigned.get? d.id = some xs := by
  obtain ⟨resolved, es, hresolved, hes, rfl⟩ := assign_eq_ok h
  obtain ⟨e, he, hid, hfrom⟩ := Outcome.exists_of_forall₂ hes hd
  have hkeys : es.map Prod.fst = ds.map Device.id := Outcome.map_of_forall₂ hes fun _ _ hde => hde.1
  refine ⟨resolved, e.2, hresolved, hfrom, ?_⟩
  rw [OrderedMap.get?_ofList (hkeys ▸ hn), ← hid]
  exact he

/-- A device has one assignment for each of its segments, in their order. -/
theorem assign_networks (h : (assign ds a).outcome = .ok assigned) (hn : (ds.map Device.id).Nodup)
    {d : Device} (hd : d ∈ ds) (hnames : a.networks.get? d.id = some names) :
    ∃ xs, assigned.get? d.id = some xs ∧ xs.map Assignment.network = names := by
  obtain ⟨resolved, xs, -, hfrom, hget⟩ := exists_assignFrom h hn hd
  rw [hnames, Option.getD_some] at hfrom
  refine ⟨xs, hget, ?_⟩
  have hnetworks : xs.map Assignment.network = names.map fun name => name := by
    refine Outcome.map_of_forall₂ (assignFrom_eq_ok hfrom) ?_
    rintro name x ⟨i, hone⟩
    obtain ⟨_, _, _, -, -, -, hnetwork, -⟩ := assignOne_eq_ok hone
    exact hnetwork
  rw [hnetworks, List.map_id']

/-! ## The segments of an analysis -/

variable {s : Segment} {sa : SegmentAddresses}

/-- The segment of a connection of a registry is given the addresses of the two ends. -/
theorem onSegment_ends {r : Registry} (h : r.WellFormed) {mode : NetworkMode}
    (ha : Analysis.Follows r.devices (Analysis.plans mode r.devices r.connections) a)
    {c : Connection} (hc : c ∈ r.connections) {k : Nat}
    (hpk : (Analysis.linkPlan r.devices c, k) ∈
      (Analysis.plans mode r.devices r.connections).zipIdx 1)
    (hok : (onSegment r.devices a (Segment.ofPlan k (Analysis.linkPlan r.devices c))).outcome = .ok sa) :
    ∃ i j, indexOf a c.source (Segment.nameOf k) = .ok i ∧ indexOf a c.target (Segment.nameOf k) = .ok j ∧
      ∃ source target x y x' y', Ends r.devices
        (Segment.ofPlan k (Analysis.linkPlan r.devices c)) c i j source target x y x' y' sa := by
  have hends : Registry.JoinsKnown r.devices c := h.connections.ends c hc
  -- both ends are on the segment
  have hindex : ∀ id ∈ [c.source, c.target], ∃ i, indexOf a id (Segment.nameOf k) = .ok i := by
    intro id hid
    obtain ⟨d, hd, rfl⟩ := Analysis.plans_members h (List.fst_mem_of_mem_zipIdx hpk) id hid
    exact exists_indexOf (ha.networks d hd) (Analysis.mem_plannedNames.2 ⟨_, k, hpk, hid, rfl⟩)
  obtain ⟨i, hi⟩ := hindex c.source (by simp)
  obtain ⟨j, hj⟩ := hindex c.target (by simp)
  obtain ⟨sa', hsa', hfill⟩ := onConnection_ends h.devices.knownDevices hends.connects Segment.isBase_formed hi hj
  obtain rfl : sa = sa' := Except.ok.inj (hok.symm.trans hsa')
  exact ⟨i, j, hi, hj, hfill⟩

/-- How a segment comes to its addresses: it is that of a connection, whose ends were told apart, or it is
that of none, and its members were numbered. -/
inductive Origin (ds : List Device) (a : Analysis) (s : Segment) (sa : SegmentAddresses) : Prop
  | ends (c : Connection) (i j : Nat) (source target : Device) (x y x' y' : Resolved)
      (hc : s.connection = some c) (hmembers : s.members = [c.source, c.target])
      (hi : indexOf a c.source s.name = .ok i) (hj : indexOf a c.target s.name = .ok j)
      (h : Ends ds s c i j source target x y x' y' sa)
  | numbered (hnone : s.connection = none) (hnodup : s.members.Nodup)
      (hmembers : ∀ id ∈ s.members, ∃ d ∈ ds, d.id = id) (h : pooled ds a s = .ok sa)

/-- The segments of an analysis of a registry come to their addresses in one of the two ways. -/
theorem onSegment_origin {r : Registry} (h : r.WellFormed) {mode : NetworkMode}
    (ha : Analysis.Follows r.devices (Analysis.plans mode r.devices r.connections) a)
    (hs : a.segments.get? name = some s) (hok : (onSegment r.devices a s).outcome = .ok sa) :
    Origin r.devices a s sa := by
  obtain ⟨p, k, hpk, rfl, rfl⟩ := ha.exists_plan hs
  have hp := List.fst_mem_of_mem_zipIdx hpk
  cases Analysis.plans_cover h hp with
  | link c hc hlink =>
    subst hlink
    obtain ⟨i, j, hi, hj, source, target, x, y, x', y', hends⟩ := onSegment_ends h ha hc hpk hok
    exact .ends c i j source target x y x' y' rfl rfl hi hj hends
  | pool hnone _ =>
    have hconnection : (Segment.ofPlan k p).connection = none := hnone
    refine .numbered hconnection (Analysis.plans_members_nodup h hp) (Analysis.plans_members h hp) ?_
    simpa only [onSegment, hconnection, Journal.outcome_ofExcept] using hok

/-- The segments of an analysis of a registry are filled. -/
theorem onSegment_filled {r : Registry} (h : r.WellFormed) {mode : NetworkMode}
    (ha : Analysis.Follows r.devices (Analysis.plans mode r.devices r.connections) a)
    (hs : a.segments.get? name = some s) (hok : (onSegment r.devices a s).outcome = .ok sa) :
    Filled r.devices s sa := by
  cases onSegment_origin h ha hs hok with
  | ends _ _ _ _ _ _ _ _ _ hc hmembers _ _ hends => exact hends.filled hc hmembers
  | numbered _ _ _ hpooled => exact pooled_filled h.devices hpooled

/-! ## The assignments on a segment -/

/-- The assignment `x` is one of the device `id` on the segment `name`. -/
def On (assigned : OrderedMap (List Assignment)) (id name : String) (x : Assignment) : Prop :=
  ∃ xs, assigned.get? id = some xs ∧ x ∈ xs ∧ x.network = name

/-- An assignment on a segment is drawn from the addresses of that segment. -/
theorem On.drawn {s : Segment} (hassigned : (assign ds a).outcome = .ok assigned)
    (hx : On assigned id name x) (hs : a.segments.get? name = some s) :
    ∃ sa y, Drawn ds a id x s sa y := by
  obtain ⟨xs, hget, hmem, rfl⟩ := hx
  have hentry : (id, xs) ∈ assigned.entries := OrderedMap.get?_eq_some_iff.1 hget
  obtain ⟨s', sa, y, hdrawn⟩ := assign_drawn hassigned hentry hmem
  obtain rfl : s = s' := Option.some.inj (hs.symm.trans hdrawn.segment)
  exact ⟨sa, y, hdrawn⟩

/-- A device that lists a segment has an assignment on it. -/
theorem exists_on_of_mem (hassigned : (assign ds a).outcome = .ok assigned) (hn : (ds.map Device.id).Nodup)
    {d : Device} (hd : d ∈ ds) (hnames : a.networks.get? d.id = some names) (hname : name ∈ names) :
    ∃ x, On assigned d.id name x := by
  obtain ⟨xs, hxs, rfl⟩ := assign_networks hassigned hn hd hnames
  obtain ⟨x, hx, hnetwork⟩ := List.mem_map.1 hname
  exact ⟨x, xs, hxs, hx, hnetwork⟩

/-- In an analysis of a registry, every member of a segment has an assignment on it. -/
theorem exists_on {r : Registry} (h : r.WellFormed) {mode : NetworkMode}
    (ha : Analysis.Follows r.devices (Analysis.plans mode r.devices r.connections) a)
    (hassigned : (assign r.devices a).outcome = .ok assigned) {p : Segment.Plan} {k : Nat}
    (hpk : (p, k) ∈ (Analysis.plans mode r.devices r.connections).zipIdx 1) (hid : id ∈ p.members) :
    ∃ x, On assigned id (Segment.nameOf k) x := by
  obtain ⟨d, hd, rfl⟩ := Analysis.plans_members h (List.fst_mem_of_mem_zipIdx hpk) id hid
  exact exists_on_of_mem hassigned h.devices.ids_nodup hd (ha.networks d hd)
    (Analysis.mem_plannedNames.2 ⟨p, k, hpk, hid, rfl⟩)

/-! ## Runs -/

/-- The networks and addresses of a device, and whether they were given. -/
def addressesOf (assigned : OrderedMap (List Assignment)) (id : String) :
    List (String × String × Bool) :=
  ((assigned.get? id).getD []).map fun x => (x.network, x.ip, x.isCustom)

/-- The networks and gateways of a device. -/
def gatewaysOf (assigned : OrderedMap (List Assignment)) (id : String) : List (String × String) :=
  ((assigned.get? id).getD []).map fun x => (x.network, x.gateway)

/-- What is found by running an analysis, then an assignment. -/
theorem exists_assigned {P : Analysis → OrderedMap (List Assignment) → Prop}
    [∀ a assigned, Decidable (P a assigned)] (history : List Change) (mode : Value) (strict : Bool)
    (h : ((Analysis.analyze mode strict (Registry.after history).devices
      (Registry.after history).connections).outcome.toOption.any fun a =>
        decide (((assign (Registry.after history).devices a).outcome.toOption.any fun assigned =>
          P a assigned) = true)) = true) : ∃ a assigned,
      (Analysis.analyze mode strict (Registry.after history).devices
        (Registry.after history).connections).outcome = .ok a ∧
      (assign (Registry.after history).devices a).outcome = .ok assigned ∧ P a assigned := by
  obtain ⟨a, ha, hassign⟩ := Outcome.exists_of_any_toOption h
  obtain ⟨assigned, hassigned, hfound⟩ := Outcome.exists_of_any_toOption hassign
  exact ⟨a, assigned, ha, hassigned, hfound⟩

end VirtNet.Assignment
