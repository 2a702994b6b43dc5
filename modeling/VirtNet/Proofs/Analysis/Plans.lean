import Mathlib.Data.List.Perm.Subperm
import VirtNet.Proofs.Analysis.Links

/-!
# The plans that an analysis follows

Whatever the mode, the design alone decides what the segments are formed of: a list of plans (`plans`).
An analysis of a registry has one segment for each of them, numbered from 1 in their order, and each
device is on the segments whose plans have it as a member (`analyze_follows`). A plan either stands for a
connection or considers the static address of every member that is no router (`plans_cover`). In the modes
that make no segments for connections there are at most three plans (`length_plans_le`).
-/

namespace VirtNet

/-- What a segment is formed of, its number aside. -/
structure Segment.Plan where
  members : List String
  candidates : List (Option String)
  connection : Option Connection

/-- The segment that a plan and a number make. -/
def Segment.ofPlan (number : Nat) (p : Segment.Plan) : Segment :=
  formed number p.members p.candidates p.connection

namespace Analysis

open Segment (Plan)

/-- The plan for a connection. -/
def linkPlan (devices : List Device) (c : Connection) : Plan where
  members := [c.source, c.target]
  candidates := [c.sourceIp, c.targetIp, staticOf devices c.source, staticOf devices c.target]
  connection := some c

/-- The plan for all devices together. -/
def sharedPlan (devices : List Device) (connections : List Connection) : Plan where
  members := devices.map Device.id
  candidates := connections.flatMap (fun c => [c.sourceIp, c.targetIp]) ++ devices.map Device.ip
  connection := none

/-- The devices on the segment for a type. -/
def typeMembers (devices : List Device) (type : DeviceType) : List Device :=
  if type = .router then ofType devices type
  else devices.filter Device.isRouter ++ ofType devices type

/-- The plan for the devices of a type. -/
def typePlan (devices : List Device) (type : DeviceType) : Plan where
  members := (inDesignOrder devices (typeMembers devices type)).map Device.id
  candidates := (ofType devices type).map Device.ip
  connection := none

/-- The plans for a design. -/
def plans (mode : NetworkMode) (devices : List Device) (connections : List Connection) : List Plan :=
  match mode with
  | .connection => (links connections).map (linkPlan devices)
  | .shared => if devices.isEmpty then [] else [sharedPlan devices connections]
  | .deviceType => (typesOf devices).map (typePlan devices)

/-- The segments of plans, numbered from 1, under their names. -/
def planned (ps : List Plan) : List (String × Segment) :=
  (ps.zipIdx 1).map fun p => (Segment.nameOf p.2, Segment.ofPlan p.2 p.1)

/-- The names of the segments that a device is planned on. -/
def plannedNames (id : String) (ps : List Plan) : List String :=
  ((ps.zipIdx 1).filter fun p => p.1.members.contains id).map fun p => Segment.nameOf p.2

/-- An analysis that has one segment for each of the plans `ps`, in their order. -/
structure Follows (devices : List Device) (ps : List Plan) (a : Analysis) : Prop where
  segments : a.segments.entries = planned ps
  networks : ∀ d ∈ devices, a.networks.get? d.id = some (plannedNames d.id ps)

variable {devices : List Device} {ps : List Plan} {p : Plan} {a : Analysis} {id name : String}

/-! ## Segments by number -/

/-- The segment at a position has the number after it. -/
theorem getElem?_planned (k : Nat) : (planned ps)[k]? =
    ps[k]?.map fun p => (Segment.nameOf (k + 1), Segment.ofPlan (k + 1) p) := by
  rw [planned, List.getElem?_map, List.getElem?_zipIdx, Option.map_map]
  rw [Nat.add_comm 1 k]
  rfl

theorem mem_planned {e : String × Segment} : e ∈ planned ps ↔
    ∃ p k, (p, k) ∈ ps.zipIdx 1 ∧ e = (Segment.nameOf k, Segment.ofPlan k p) := by
  simp only [planned, List.mem_map, Prod.exists, eq_comm]

theorem mem_plannedNames : name ∈ plannedNames id ps ↔
    ∃ p k, (p, k) ∈ ps.zipIdx 1 ∧ id ∈ p.members ∧ name = Segment.nameOf k := by
  simp only [plannedNames, List.mem_map, List.mem_filter, List.contains_iff_mem, Prod.exists,
    and_assoc, @eq_comm _ name]

/-- No segment is listed twice among those of a device. -/
theorem nodup_plannedNames : (plannedNames id ps).Nodup := by
  have hnumbers : ((ps.zipIdx 1).map Prod.snd).Nodup := by
    rw [List.zipIdx_map_snd]
    exact List.nodup_range'
  have hsub : (((ps.zipIdx 1).filter fun p => p.1.members.contains id).map Prod.snd).Nodup :=
    hnumbers.sublist (List.filter_sublist.map Prod.snd)
  have hnames : plannedNames id ps =
      (((ps.zipIdx 1).filter fun p => p.1.members.contains id).map Prod.snd).map Segment.nameOf := by
    rw [List.map_map]
    rfl
  rw [hnames]
  exact hsub.map fun m n h => Segment.nameOf_inj.1 h

/-- The members of the plan for a connection are the devices at its ends. -/
theorem mem_linkPlan {c : Connection} :
    id ∈ (linkPlan devices c).members ↔ Registry.touches id c = true := by
  simp [Registry.touches, linkPlan, @eq_comm _ id]

/-- A segment of an analysis is formed of the plan with its number. -/
theorem Follows.exists_plan (h : Follows devices ps a) {s : Segment}
    (hs : a.segments.get? name = some s) :
    ∃ p k, (p, k) ∈ ps.zipIdx 1 ∧ name = Segment.nameOf k ∧ s = Segment.ofPlan k p := by
  have hmem := OrderedMap.get?_eq_some_iff.1 hs
  rw [h.segments] at hmem
  obtain ⟨p, k, hpk, hpair⟩ := mem_planned.1 hmem
  cases hpair
  exact ⟨p, k, hpk, rfl, rfl⟩

/-! ## One more plan -/

theorem planned_append : planned (ps ++ [p]) = planned ps ++
    [(Segment.nameOf (ps.length + 1), Segment.ofPlan (ps.length + 1) p)] := by
  simp [planned, List.zipIdx_append, Nat.add_comm]

theorem plannedNames_append : plannedNames id (ps ++ [p]) = plannedNames id ps ++
    if id ∈ p.members then [Segment.nameOf (ps.length + 1)] else [] := by
  by_cases h : id ∈ p.members <;> simp [plannedNames, List.zipIdx_append, h, Nat.add_comm]

/-- The name of a segment that is still to come is new. -/
theorem nameOf_not_mem_planned {n : Nat} (hn : ps.length < n) :
    Segment.nameOf n ∉ (planned ps).map Prod.fst := by
  intro h
  obtain ⟨e, he, hname⟩ := List.mem_map.1 h
  obtain ⟨p, k, hk, rfl⟩ := mem_planned.1 he
  have hlt : k < 1 + ps.length := (List.mem_zipIdx hk).2.1
  have hkn : k = n := Segment.nameOf_inj.1 hname
  omega

/-- Putting different devices on a segment adds its name once for each of them. -/
theorem get?_foldl_attach {ids : List String} (hn : ids.Nodup) :
    (ids.foldl (attach name) a).networks.get? id =
      (a.networks.get? id).map (· ++ if id ∈ ids then [name] else []) := by
  induction ids generalizing a with
  | nil => simp
  | cons i ids ih =>
    obtain ⟨hi, hids⟩ := List.nodup_cons.1 hn
    have hstep : (attach name a i).networks.get? id =
        if i = id then (a.networks.get? id).map (· ++ [name]) else a.networks.get? id :=
      OrderedMap.get?_modify _ _ _ _
    rw [List.foldl_cons, ih hids, hstep]
    by_cases hid : i = id
    · subst hid
      simp [hi, Function.comp_def]
    · simp [hid, Ne.symm hid]

/-- Giving one more plan its segment. -/
def give (number : Nat) (p : Plan) (a : Analysis) : Analysis :=
  p.members.foldl (attach (Segment.nameOf number)) (a.addSegment (Segment.ofPlan number p))

theorem segments_give {number : Nat} : (give number p a).segments =
    a.segments.insert (Segment.nameOf number) (Segment.ofPlan number p) :=
  List.foldlRecOn p.members (attach (Segment.nameOf number))
    (motive := fun b : Analysis => b.segments =
      a.segments.insert (Segment.nameOf number) (Segment.ofPlan number p))
    rfl fun _ hb _ _ => hb

theorem Follows.give (h : Follows devices ps a) (hp : p.members.Nodup) :
    Follows devices (ps ++ [p]) (give (ps.length + 1) p a) where
  segments := by
    have hnew : Segment.nameOf (ps.length + 1) ∉ a.segments.keys := by
      rw [OrderedMap.keys, h.segments]
      exact nameOf_not_mem_planned (Nat.lt_succ_self _)
    rw [segments_give, OrderedMap.entries_insert_of_not_mem hnew, h.segments, planned_append]
  networks := by
    intro d hd
    rw [Analysis.give, get?_foldl_attach hp, addSegment, h.networks d hd, Option.map_some,
      plannedNames_append]

/-! ## Types of devices -/

/-- The type of a device is among the types, and no other is. -/
theorem mem_typesOf {type : DeviceType} : type ∈ typesOf devices ↔ ∃ d ∈ devices, d.type = type := by
  induction devices with
  | nil => simp [typesOf]
  | cons d ds ih =>
    rw [typesOf, List.mem_cons, List.mem_filter, ih, List.exists_mem_cons_iff]
    by_cases h : d.type = type
    · simp [h]
    · simp [h, Ne.symm h]

/-- The devices of a known type. -/
theorem ofType_of_isKnown {type : DeviceType} (h : type.isKnown = true) :
    ofType devices type = devices.filter (·.type == type) := by
  cases type with
  | other word => cases h
  | _ => rfl

/-- Ordering devices loses none and adds none. -/
theorem inDesignOrder_perm (members : List Device) :
    (inDesignOrder devices members).Perm members := by
  unfold inDesignOrder
  dsimp only
  refine ((List.mergeSort_perm _ _).map Prod.snd).trans ?_
  rw [List.map_map]
  exact .of_eq (List.map_id members)

variable {type : DeviceType}

/-- The devices on the segment for a type are those of the type and the routers. -/
theorem mem_typeMembers (h : type.isKnown = true) {d : Device} :
    d ∈ typeMembers devices type ↔ d ∈ devices ∧ (d.type = type ∨ d.isRouter = true) := by
  unfold typeMembers
  rw [ofType_of_isKnown h]
  split
  · next hrouter =>
    subst hrouter
    simp [Device.isRouter]
  · simp only [List.mem_append, List.mem_filter, beq_iff_eq]
    tauto

/-- No device is on the segment for a type twice. -/
theorem nodup_typePlan (hn : (devices.map Device.id).Nodup) (h : type.isKnown = true) :
    (typePlan devices type).members.Nodup := by
  have hperm := (@inDesignOrder_perm devices (typeMembers devices type)).map Device.id
  rw [typePlan, hperm.nodup_iff]
  unfold typeMembers
  rw [ofType_of_isKnown h]
  have hsub : ∀ f : Device → Bool, ((devices.filter f).map Device.id).Nodup :=
    fun f => hn.sublist (List.filter_sublist.map Device.id)
  split
  · exact hsub _
  · next hrouter =>
    rw [List.map_append, List.nodup_append]
    refine ⟨hsub _, hsub _, ?_⟩
    -- a router and a device of another type are different, and so are their ids
    intro i hi j hj hij
    obtain ⟨d, hd, rfl⟩ := List.mem_map.1 hi
    obtain ⟨e, he, rfl⟩ := List.mem_map.1 hj
    obtain ⟨hdmem, hdrouter⟩ := List.mem_filter.1 hd
    obtain ⟨hemem, hetype⟩ := List.mem_filter.1 he
    have hsame : d = e := List.inj_on_of_nodup_map hn hdmem hemem hij
    rw [Device.isRouter, beq_iff_eq] at hdrouter
    rw [beq_iff_eq] at hetype
    exact hrouter (hetype.symm.trans (hsame ▸ hdrouter))

/-- A type gets its segment, unless the addresses lie in different networks and the analysis is
strict. -/
theorem outcome_addType {strict : Bool} {st : Nat × Analysis} :
    (addType strict devices st type).outcome =
      if !(Segment.ofPlan st.1 (typePlan devices type)).consistent && strict then
        .error (Segment.ofPlan st.1 (typePlan devices type)).mismatch
      else .ok (st.1 + 1, give st.1 (typePlan devices type) st.2) := by
  unfold addType
  simp only [Journal.outcome_bind, Journal.outcome_pure, Segment.outcome_derive]
  change (if (!(Segment.ofPlan st.1 (typePlan devices type)).consistent && strict) = true then _
    else _) >>= _ = _
  split <;> rfl

theorem addType_eq_ok {strict : Bool} {st st' : Nat × Analysis} :
    (addType strict devices st type).outcome = .ok st' ↔
      (strict = true → (Segment.ofPlan st.1 (typePlan devices type)).consistent = true) ∧
        (st.1 + 1, give st.1 (typePlan devices type) st.2) = st' := by
  rw [outcome_addType]
  cases strict <;> cases (Segment.ofPlan st.1 (typePlan devices type)).consistent <;> simp

/-! ## The analyses -/

/-- Before the first segment every device is on none. -/
theorem Follows.start (hn : (devices.map Device.id).Nodup) :
    Follows devices [] (Analysis.start devices) where
  segments := rfl
  networks := (Linked.start hn).networks

/-- An analysis by connections follows the plans for the connections that are left. -/
theorem OfLinks.follows {kept : List Connection} (h : OfLinks devices kept a) :
    Follows devices (kept.map (linkPlan devices)) a where
  segments := by
    rw [h.segments, linkSegments, planned, List.zipIdx_map, List.map_map]
    rfl
  networks := by
    intro d hd
    rw [h.networks d hd, linkNames, plannedNames, List.zipIdx_map, List.filter_map, List.map_map]
    have htouches : (fun p : Connection × Nat => Registry.touches d.id p.1) =
        (fun p : Plan × Nat => p.1.members.contains d.id) ∘ Prod.map (linkPlan devices) id := by
      funext p
      rw [Bool.eq_iff_iff, ← @mem_linkPlan devices, ← List.contains_iff_mem]
      rfl
    rw [htouches]
    rfl

/-- How far the analysis by types has come after the types `done`. -/
structure Typed (devices : List Device) (done : List DeviceType) (st : Nat × Analysis) : Prop where
  next : st.1 = done.length + 1
  follows : Follows devices (done.map (typePlan devices)) st.2

/-- One turn of the loop over the types. -/
theorem Typed.addType {strict : Bool} {done : List DeviceType} {st st' : Nat × Analysis}
    (h : Typed devices done st) (hn : (devices.map Device.id).Nodup) (htype : type.isKnown = true)
    (hok : (Analysis.addType strict devices st type).outcome = .ok st') :
    Typed devices (done ++ [type]) st' := by
  obtain ⟨-, rfl⟩ := addType_eq_ok.1 hok
  refine ⟨by simp [h.next], ?_⟩
  have hgive := h.follows.give (nodup_typePlan hn htype)
  rw [List.length_map, ← h.next] at hgive
  rw [List.map_append]
  exact hgive

/-- The whole loop. -/
theorem byDeviceType_follows {strict : Bool} (hds : Registry.SoundDevices devices)
    (hok : (byDeviceType strict devices).outcome = .ok a) :
    Follows devices ((typesOf devices).map (typePlan devices)) a := by
  unfold byDeviceType at hok
  rw [Journal.bind_eq_ok] at hok
  obtain ⟨st, hst, ha⟩ := hok
  have hknown : ∀ type ∈ typesOf devices, type.isKnown = true := by
    intro type htype
    obtain ⟨d, hd, rfl⟩ := mem_typesOf.1 htype
    exact hds.known d hd
  have hstart : Typed devices [] (1, start devices) := ⟨rfl, Follows.start hds.ids_nodup⟩
  have hrun : Typed devices (typesOf devices) st :=
    Journal.foldlM_keeps_done
      (fun _ _ type _ htype h hturn => h.addType hds.ids_nodup (hknown type htype) hturn) hstart hst
  cases ha
  exact hrun.follows

/-- The analysis with one segment, which every device is on. -/
def together (devices : List Device) (s : Segment) : Analysis :=
  ⟨.ofList [(s.name, s)], .ofList ((devices.map Device.id).map fun id => (id, [s.name]))⟩

/-- Without devices there is nothing to analyse. -/
theorem outcome_shared_of_isEmpty {strict : Bool} {connections : List Connection}
    (h : devices.isEmpty = true) : (shared strict devices connections).outcome = .ok empty := by
  rw [shared, if_pos h]
  rfl

/-- Devices are put on one segment, unless the addresses lie in different networks and the analysis is
strict. -/
theorem outcome_shared {strict : Bool} {connections : List Connection} (h : devices.isEmpty = false) :
    (shared strict devices connections).outcome =
      if !(Segment.ofPlan 1 (sharedPlan devices connections)).consistent && strict then
        .error (Segment.ofPlan 1 (sharedPlan devices connections)).mismatch
      else .ok (together devices (Segment.ofPlan 1 (sharedPlan devices connections))) := by
  rw [shared, if_neg (by rw [h]; decide)]
  simp only [Journal.outcome_bind, Segment.outcome_derive]
  change (if (!(Segment.ofPlan 1 (sharedPlan devices connections)).consistent && strict) = true then _
    else _) >>= _ = _
  split <;> rfl

/-- An analysis of all devices together follows one plan, or none if there is no device. -/
theorem shared_follows {strict : Bool} {connections : List Connection}
    (hn : (devices.map Device.id).Nodup)
    (hok : (shared strict devices connections).outcome = .ok a) :
    Follows devices (if devices.isEmpty then [] else [sharedPlan devices connections]) a := by
  cases hempty : devices.isEmpty with
  | true =>
    rw [outcome_shared_of_isEmpty hempty] at hok
    cases hok
    rw [if_pos rfl]
    rw [List.isEmpty_iff] at hempty
    subst hempty
    exact ⟨rfl, by simp⟩
  | false =>
    rw [if_neg Bool.false_ne_true]
    rw [outcome_shared hempty] at hok
    split at hok
    · cases hok
    · cases hok
      refine ⟨rfl, ?_⟩
      intro d hd
      -- every device is listed once, so a lookup finds what it is listed with
      have hkeys : (((devices.map Device.id).map fun id => (id, [Segment.nameOf 1])).map
          Prod.fst).Nodup := by
        rw [List.map_map]
        exact (List.map_id _).symm ▸ hn
      have hmem : d.id ∈ devices.map Device.id := List.mem_map_of_mem hd
      have hnames : plannedNames d.id [sharedPlan devices connections] = [Segment.nameOf 1] := by
        simp [plannedNames, sharedPlan, hmem]
      rw [hnames]
      exact (OrderedMap.get?_ofList hkeys).2 (List.mem_map.2 ⟨d.id, hmem, rfl⟩)

/-- An analysis of a registry follows the plans for its design. -/
theorem inMode_follows {r : Registry} (h : r.WellFormed) {mode : NetworkMode} {strict : Bool}
    (hok : (inMode mode strict r.devices r.connections).outcome = .ok a) :
    Follows r.devices (plans mode r.devices r.connections) a := by
  cases mode with
  | connection => exact (byConnection_ofLinks h hok).follows
  | shared => exact shared_follows h.devices.ids_nodup hok
  | deviceType => exact byDeviceType_follows h.devices hok

/-- An analysis in the mode that a setting names succeeds when the setting names a mode and the analysis
in that mode succeeds. -/
theorem analyze_eq_ok {mode : Value} {strict : Bool} {connections : List Connection} :
    (analyze mode strict devices connections).outcome = .ok a ↔
      ∃ m, NetworkMode.ofValue mode = .ok m ∧ (inMode m strict devices connections).outcome = .ok a := by
  unfold analyze
  rw [Journal.bind_eq_ok]
  rfl

/-- An analysis of a registry follows the plans for its design in the mode that the setting names. -/
theorem analyze_follows {r : Registry} (h : r.WellFormed) {mode : Value} {strict : Bool}
    (hok : (analyze mode strict r.devices r.connections).outcome = .ok a) :
    ∃ m, NetworkMode.ofValue mode = .ok m ∧ Follows r.devices (plans m r.devices r.connections) a := by
  obtain ⟨m, hmode, hm⟩ := analyze_eq_ok.1 hok
  exact ⟨m, hmode, inMode_follows h hm⟩

/-! ## What the plans consider -/

/-- A plan that stands for a connection of the registry, or one that stands for none and considers the
static address of every member that is no router. -/
inductive Covers (r : Registry) (p : Plan) : Prop
  | link (c : Connection) (hc : c ∈ r.connections) (h : p = linkPlan r.devices c)
  | pool (hnone : p.connection = none)
      (h : ∀ d ∈ r.devices, d.id ∈ p.members → d.isRouter = false → d.ip ∈ p.candidates)

/-- The connection that a plan stands for is one of the registry. -/
theorem Covers.connection_mem {r : Registry} (h : Covers r p) {c : Connection}
    (hc : p.connection = some c) : c ∈ r.connections := by
  cases h with
  | link c' hmem hp =>
    subst hp
    rw [← Option.some.inj hc]
    exact hmem
  | pool hnone _ =>
    rw [hnone] at hc
    cases hc

/-- The static address of a device that is no router is considered for the segment of its type. -/
theorem ip_mem_typePlan (hn : (devices.map Device.id).Nodup) (htype : type.isKnown = true)
    {d : Device} (hd : d ∈ devices) (hmem : d.id ∈ (typePlan devices type).members)
    (hrouter : d.isRouter = false) : d.ip ∈ (typePlan devices type).candidates := by
  obtain ⟨e, he, hid⟩ := List.mem_map.1 hmem
  obtain ⟨hemem, htypes⟩ := (mem_typeMembers htype).1 ((inDesignOrder_perm _).mem_iff.1 he)
  obtain rfl : e = d := List.inj_on_of_nodup_map hn hemem hd hid
  have hown : e ∈ ofType devices type := by
    rw [ofType_of_isKnown htype]
    simpa [hd, hrouter] using htypes
  exact List.mem_map_of_mem hown

theorem plans_cover {r : Registry} (h : r.WellFormed) {mode : NetworkMode}
    (hp : p ∈ plans mode r.devices r.connections) : Covers r p := by
  cases mode with
  | connection =>
    obtain ⟨c, hc, rfl⟩ := List.mem_map.1 hp
    exact .link c (mem_of_mem_links hc) rfl
  | shared =>
    simp only [plans] at hp
    split at hp
    · cases hp
    · rw [List.mem_singleton.1 hp]
      refine .pool rfl ?_
      intro d hd _ _
      exact List.mem_append_right _ (List.mem_map_of_mem hd)
  | deviceType =>
    obtain ⟨type, htype, rfl⟩ := List.mem_map.1 hp
    obtain ⟨e, he, rfl⟩ := mem_typesOf.1 htype
    refine .pool rfl ?_
    intro d hd hmem hrouter
    exact ip_mem_typePlan h.devices.ids_nodup (h.devices.known e he) hd hmem hrouter

/-- The members that are planned are devices of the registry. -/
theorem plans_members {r : Registry} (h : r.WellFormed) {mode : NetworkMode}
    (hp : p ∈ plans mode r.devices r.connections) : ∀ id ∈ p.members, ∃ d ∈ r.devices, d.id = id := by
  intro id hid
  cases mode with
  | connection =>
    obtain ⟨c, hc, rfl⟩ := List.mem_map.1 hp
    obtain ⟨-, s, hs, t, ht, hsid, htid, -⟩ := h.connections.ends c (mem_of_mem_links hc)
    simp only [linkPlan, List.mem_cons, List.not_mem_nil, or_false] at hid
    rcases hid with rfl | rfl
    · exact ⟨s, hs, hsid⟩
    · exact ⟨t, ht, htid⟩
  | shared =>
    simp only [plans] at hp
    split at hp
    · cases hp
    · rw [List.mem_singleton.1 hp] at hid
      exact List.mem_map.1 hid
  | deviceType =>
    obtain ⟨type, htype, rfl⟩ := List.mem_map.1 hp
    obtain ⟨e, he, rfl⟩ := mem_typesOf.1 htype
    obtain ⟨d, hd, hdid⟩ := List.mem_map.1 hid
    have hmem := (inDesignOrder_perm _).mem_iff.1 hd
    exact ⟨d, ((mem_typeMembers (h.devices.known e he)).1 hmem).1, hdid⟩

/-! ## Modes other than by connections -/

/-- No type is listed twice. -/
theorem nodup_typesOf : (typesOf devices).Nodup := by
  induction devices with
  | nil => exact List.nodup_nil
  | cons d ds ih =>
    refine List.nodup_cons.2 ⟨?_, ih.filter _⟩
    simp [List.mem_filter]

/-- There are at most three types of devices. -/
theorem length_typesOf_le (hknown : ∀ d ∈ devices, d.type.isKnown = true) :
    (typesOf devices).length ≤ 3 := by
  have hsub : typesOf devices ⊆ [.vm, .router, .switch] := by
    intro type htype
    obtain ⟨d, hd, rfl⟩ := mem_typesOf.1 htype
    have hd := hknown d hd
    cases htype : d.type with
    | other word =>
      rw [htype] at hd
      cases hd
    | _ => simp
  exact (nodup_typesOf.subperm hsub).length_le

/-- Only by connections there are more than three segments. -/
theorem length_plans_le {mode : NetworkMode} {connections : List Connection} (hmode : mode ≠ .connection)
    (hknown : ∀ d ∈ devices, d.type.isKnown = true) : (plans mode devices connections).length ≤ 3 := by
  cases mode with
  | connection => exact absurd rfl hmode
  | shared =>
    simp only [plans]
    split <;> simp
  | deviceType =>
    simp only [plans, List.length_map]
    exact length_typesOf_le hknown

/-- A setting for the mode is one of the names of the modes. -/
theorem ofValue_eq_ok {v : Value} {mode : NetworkMode} (h : NetworkMode.ofValue v = .ok mode) :
    ∃ s, v = .text s ∧ (s, mode) ∈ NetworkMode.table := by
  unfold NetworkMode.ofValue at h
  split at h
  · next s =>
    split at h
    · next m hm =>
      cases h
      obtain ⟨l, l', htable, -⟩ := List.lookup_eq_some_iff.1 hm
      refine ⟨s, rfl, ?_⟩
      rw [htable]
      simp
    · cases h
  · split at h
    · split at h <;> cases h
    · cases h

/-- The mode by connections has one name. -/
theorem ofValue_eq_connection {mode : Value} (h : NetworkMode.ofValue mode = .ok .connection) :
    mode = .text "connection" := by
  obtain ⟨s, rfl, hmem⟩ := ofValue_eq_ok h
  simpa [NetworkMode.table] using hmem

/-- Only by connections a segment stands for one. -/
theorem connection_of_mem_plans {mode : NetworkMode} {connections : List Connection}
    (hmode : mode ≠ .connection) (hp : p ∈ plans mode devices connections) : p.connection = none := by
  cases mode with
  | connection => exact absurd rfl hmode
  | shared =>
    simp only [plans] at hp
    split at hp
    · cases hp
    · rw [List.mem_singleton.1 hp]
      rfl
  | deviceType =>
    obtain ⟨type, -, rfl⟩ := List.mem_map.1 hp
    rfl

end Analysis

end VirtNet
