import VirtNet.Proofs.Analysis.Members
import VirtNet.Proofs.Analysis.Names

/-!
# Segments and devices tell the same

An analysis says twice who is on which segment: each segment lists its members, and each device its
segments. The two agree (`Coherent`), whatever the mode, and what the segments are is said for each mode by
itself (`Divides`). The analysis by types is the one that has to be put in order: it takes the routers and
the devices of a type together and sorts them by their places in the design, which leaves the design
without the other devices (`inDesignOrder_eq_filter`).
-/

namespace VirtNet

/-! ## Places in a design -/

/-- A device has the same entries as itself. -/
theorem Device.same_self (d : Device) : d.same d = true := by
  have hentries : d.interfaceIps.sameEntries d.interfaceIps = true := by
    simp only [OrderedMap.sameEntries, beq_self_eq_true, Bool.true_and, List.all_eq_true,
      decide_eq_true_eq]
    exact fun e he => OrderedMap.get?_eq_some_iff.2 he
  simp [same, hentries]

/-- Equal devices have the same id. -/
theorem Device.id_of_same {d e : Device} (h : d.same e = true) : d.id = e.id := by
  simp only [same, Bool.and_eq_true, beq_iff_eq] at h
  exact h.1.1.1.1.1.1

namespace Analysis

open Segment (Plan)

variable {devices : List Device} {ps : List Plan} {a : Analysis} {id name : String}

/-- Where ids are distinct, a device is found at its place. -/
theorem findIdx_same (hn : (devices.map Device.id).Nodup) {i : Nat} (hi : i < devices.length) :
    devices.findIdx devices[i].same = i := by
  rw [List.findIdx_eq hi]
  refine ⟨Device.same_self _, ?_⟩
  intro j hj
  rw [Bool.eq_false_iff]
  intro hsame
  -- devices at two places have two ids
  have hdiffer : devices.Pairwise fun d e => d.id ≠ e.id := List.pairwise_map.1 hn
  exact List.pairwise_iff_getElem.1 hdiffer j i (hj.trans hi) hi hj (Device.id_of_same hsame).symm

/-- The places of the devices of a design increase. -/
theorem pairwise_findIdx_same (hn : (devices.map Device.id).Nodup) :
    devices.Pairwise fun d e => devices.findIdx d.same < devices.findIdx e.same := by
  rw [List.pairwise_iff_getElem]
  intro i j hi hj hij
  rw [findIdx_same hn hi, findIdx_same hn hj]
  exact hij

/-- Devices of a design, put in its order, are the design without the others. -/
theorem inDesignOrder_eq_filter (hn : (devices.map Device.id).Nodup) {members : List Device}
    {p : Device → Bool} (h : members.Perm (devices.filter p)) :
    inDesignOrder devices members = devices.filter p := by
  let place : Device → Nat × Device := fun d => (devices.findIdx d.same, d)
  have hincreasing : ((devices.filter p).map place).Pairwise fun a b => a.1 < b.1 :=
    List.pairwise_map.2 ((pairwise_findIdx_same hn).sublist List.filter_sublist)
  have hsorted : ((members.map place).mergeSort fun a b => a.1 ≤ b.1).Pairwise
      fun a b => a.1 ≤ b.1 := by
    have hle := @List.pairwise_mergeSort _ (fun a b : Nat × Device => decide (a.1 ≤ b.1))
      (by intro a b c; simpa using Nat.le_trans) (by intro a b; simpa using Nat.le_total a.1 b.1)
      (members.map place)
    simpa using hle
  have hperm : ((members.map place).mergeSort fun a b => a.1 ≤ b.1).Perm
      ((devices.filter p).map place) := (List.mergeSort_perm _ _).trans (h.map place)
  -- two devices at one place are one device
  have hanti : ∀ x ∈ (devices.filter p).map place, ∀ y ∈ (devices.filter p).map place,
      x.1 ≤ y.1 → y.1 ≤ x.1 → x = y := by
    intro x hx y hy hxy hyx
    by_contra hne
    have hsymm : Std.Symm fun x y : Nat × Device => x.1 ≠ y.1 := ⟨fun _ _ h => h.symm⟩
    have hdiffer := (hincreasing.imp fun h => Nat.ne_of_lt h).forall hx hy hne
    exact hdiffer (Nat.le_antisymm hxy hyx)
  have hlist : ((members.map place).mergeSort fun a b => a.1 ≤ b.1) = (devices.filter p).map place :=
    hperm.eq_of_pairwise (fun x y hx hy => hanti x (hperm.mem_iff.1 hx) y hy) hsorted
      (hincreasing.imp Nat.le_of_lt)
  show (((members.map place).mergeSort fun a b => a.1 ≤ b.1).map Prod.snd) = devices.filter p
  rw [hlist, List.map_map]
  exact List.map_id _

/-- The members of the segment for a type: in the order of the design, the routers and the devices of the
type. -/
theorem members_typePlan (hn : (devices.map Device.id).Nodup) {type : DeviceType}
    (h : type.isKnown = true) : (typePlan devices type).members =
      (devices.filter fun d => d.isRouter || d.type == type).map Device.id := by
  have hmembers : (typeMembers devices type).Nodup := by
    have hplan : ((inDesignOrder devices (typeMembers devices type)).map Device.id).Nodup :=
      nodup_typePlan hn h
    exact (inDesignOrder_perm _).nodup_iff.1 (List.Nodup.of_map Device.id hplan)
  have hdevices : devices.Nodup := List.Nodup.of_map Device.id hn
  rw [typePlan, inDesignOrder_eq_filter hn]
  rw [List.perm_ext_iff_of_nodup hmembers (hdevices.filter _)]
  intro d
  simp only [mem_typeMembers h, List.mem_filter, Bool.or_eq_true, beq_iff_eq, or_comm]

/-! ## The devices of an analysis -/

@[simp]
theorem keys_attach (name : String) (a : Analysis) (id : String) :
    (attach name a id).networks.keys = a.networks.keys :=
  OrderedMap.keys_modify _ _ _

/-- Giving a plan its segment changes for no device that it is listed. -/
theorem keys_networks_give (number : Nat) (p : Plan) (a : Analysis) :
    (give number p a).networks.keys = a.networks.keys :=
  List.foldlRecOn p.members (attach (Segment.nameOf number))
    (motive := fun b : Analysis => b.networks.keys = a.networks.keys)
    rfl fun b hb id _ => (keys_attach _ b id).trans hb

/-- Before the first segment, the devices are listed in the order of the design. -/
theorem keys_networks_start (hn : (devices.map Device.id).Nodup) :
    (start devices).networks.keys = devices.map Device.id := by
  have hkeys : ((devices.map fun d => (d.id, ([] : List String))).map Prod.fst) =
      devices.map Device.id := by
    rw [List.map_map]
    rfl
  rw [OrderedMap.keys, start, OrderedMap.entries_ofList (hkeys ▸ hn), hkeys]

theorem keys_networks_byConnection {r : Registry} {strict : Bool} (h : r.WellFormed)
    (hok : (byConnection strict r.devices r.connections).outcome = .ok a) :
    a.networks.keys = r.devices.map Device.id := by
  rw [byConnection, Journal.bind_eq_ok] at hok
  obtain ⟨st, hst, ha⟩ := hok
  cases ha
  refine @Journal.foldlM_keeps _ _ _ _
    (fun st => st.analysis.networks.keys = r.devices.map Device.id) _ ?_ _ _
    (keys_networks_start h.devices.ids_nodup) hst
  intro st c st' hc hkeys hturn
  by_cases hseen : c.key ∈ st.seen ∨ c.reverseKey ∈ st.seen
  · rw [addLink_of_seen hseen] at hturn
    cases hturn
    exact hkeys
  · obtain ⟨-, rfl⟩ := (addLink_eq_ok (h.connections.ends c hc).connects hseen).1 hturn
    exact (keys_networks_give st.next (linkPlan r.devices c) st.analysis).trans hkeys

theorem keys_networks_shared {r : Registry} {strict : Bool} (h : r.WellFormed)
    (hok : (shared strict r.devices r.connections).outcome = .ok a) :
    a.networks.keys = r.devices.map Device.id := by
  rw [shared] at hok
  split at hok
  · next hempty =>
    cases hok
    rw [List.isEmpty_iff.1 hempty]
    rfl
  · rw [Journal.bind_eq_ok] at hok
    obtain ⟨s, -, ha⟩ := hok
    cases ha
    have hkeys : ((r.devices.map Device.id).map fun id => (id, [s.name])).map Prod.fst =
        r.devices.map Device.id := by
      rw [List.map_map]
      exact List.map_id _
    have hdistinct : (((r.devices.map Device.id).map fun id => (id, [s.name])).map Prod.fst).Nodup := by
      rw [hkeys]
      exact h.devices.ids_nodup
    show (OrderedMap.ofList _).entries.map Prod.fst = _
    rw [OrderedMap.entries_ofList hdistinct, hkeys]

theorem keys_networks_byDeviceType {r : Registry} {strict : Bool} (h : r.WellFormed)
    (hok : (byDeviceType strict r.devices).outcome = .ok a) : a.networks.keys = r.devices.map Device.id := by
  rw [byDeviceType, Journal.bind_eq_ok] at hok
  obtain ⟨st, hst, ha⟩ := hok
  cases ha
  refine @Journal.foldlM_keeps _ _ _ _
    (fun st => st.2.networks.keys = r.devices.map Device.id) _ ?_ _ _
    (keys_networks_start h.devices.ids_nodup) hst
  intro st type st' _ hkeys hturn
  obtain ⟨-, rfl⟩ := addType_eq_ok.1 hturn
  exact (keys_networks_give st.1 (typePlan r.devices type) st.2).trans hkeys

/-- An analysis lists the devices in the order of the design. -/
theorem keys_networks {r : Registry} (h : r.WellFormed) {mode : NetworkMode} {strict : Bool}
    (hok : (inMode mode strict r.devices r.connections).outcome = .ok a) :
    a.networks.keys = r.devices.map Device.id := by
  cases mode with
  | connection => exact keys_networks_byConnection h hok
  | shared => exact keys_networks_shared h hok
  | deviceType => exact keys_networks_byDeviceType h hok

/-! ## Names by number -/

/-- The names of planned segments, in order. -/
theorem map_fst_planned : (planned ps).map Prod.fst = (List.range' 1 ps.length).map Segment.nameOf := by
  rw [planned, List.map_map, ← List.zipIdx_map_snd 1 ps, List.map_map]
  rfl

/-- The segments of a device are listed by increasing numbers. -/
theorem plannedNames_increasing :
    ∃ numbers : List Nat, plannedNames id ps = numbers.map Segment.nameOf ∧
      numbers.Pairwise (· < ·) := by
  refine ⟨((ps.zipIdx 1).filter fun p => p.1.members.contains id).map Prod.snd, ?_, ?_⟩
  · rw [plannedNames, List.map_map]
    rfl
  · have hall : ((ps.zipIdx 1).map Prod.snd).Pairwise (· < ·) := by
      rw [List.zipIdx_map_snd]
      exact List.pairwise_lt_range'
    exact hall.sublist (List.filter_sublist.map Prod.snd)

/-- A device that every plan has as a member is on all segments. -/
theorem plannedNames_of_forall (h : ∀ p ∈ ps, id ∈ p.members) :
    plannedNames id ps = (planned ps).map Prod.fst := by
  have hall : ((ps.zipIdx 1).filter fun p => p.1.members.contains id) = ps.zipIdx 1 := by
    rw [List.filter_eq_self]
    intro p hp
    exact List.contains_iff_mem.2 (h p.1 (List.fst_mem_of_mem_zipIdx hp))
  rw [plannedNames, hall, planned, List.map_map]
  rfl

/-! ## Both ways -/

/-- The segments of an analysis and the segments of each device agree. -/
structure Coherent (devices : List Device) (a : Analysis) : Prop where
  /-- The segments are numbered from 1, in order. -/
  keys : a.segments.keys = (List.range' 1 a.segments.entries.length).map Segment.nameOf
  /-- A segment is kept under its own name. -/
  names : a.OwnNames
  /-- The devices are listed in the order of the design. -/
  listed : a.networks.keys = devices.map Device.id
  /-- A device lists exactly the segments that have it as a member. -/
  member_iff : ∀ e ∈ a.networks.entries, ∀ name,
    name ∈ e.2 ↔ ∃ s, a.segments.get? name = some s ∧ e.1 ∈ s.members
  /-- It lists them by increasing numbers. -/
  increasing : ∀ e ∈ a.networks.entries, ∃ numbers : List Nat,
    e.2 = numbers.map Segment.nameOf ∧ numbers.Pairwise (· < ·)
  /-- No segment has a member twice. -/
  members_nodup : ∀ e ∈ a.segments.entries, e.2.members.Nodup
  /-- The members of a segment are devices. -/
  members_known : ∀ e ∈ a.segments.entries, ∀ id ∈ e.2.members, id ∈ devices.map Device.id

/-- What an analysis by types makes of the types `types` of the devices. -/
structure ByType (devices : List Device) (types : List DeviceType) (a : Analysis) : Prop where
  nodup : types.Nodup
  /-- The types are those of the devices. -/
  present : ∀ type, type ∈ types ↔ ∃ d ∈ devices, d.type = type
  /-- There is one segment for each type: in the order of the design, the routers and the devices of the
  type. -/
  members : a.segments.values.map Segment.members = types.map fun type =>
    (devices.filter fun d => d.isRouter || d.type == type).map Device.id
  /-- A device that is no router is on the segment for its own type alone. -/
  hosts : ∀ d ∈ devices, d.isRouter = false → ∃ k, types[k]? = some d.type ∧
    a.networks.get? d.id = some [Segment.nameOf (k + 1)]
  /-- A router is on all segments. -/
  routers : ∀ d ∈ devices, d.isRouter = true → a.networks.get? d.id = some a.segments.keys

/-- What the segments are in each mode: by connections, the two ends of one connection each; all devices
together, if there are any; and by types, the routers with the devices of each type. -/
def Divides (mode : NetworkMode) (devices : List Device) (connections : List Connection)
    (a : Analysis) : Prop :=
  match mode with
  | .connection => ∀ e ∈ a.segments.entries, ∃ c ∈ connections, e.2.connection = some c ∧
      c.source ≠ c.target ∧ e.2.members = [c.source, c.target]
  | .shared => a.segments.values.map Segment.members =
      if devices.isEmpty then [] else [devices.map Device.id]
  | .deviceType => ∃ types, ByType devices types a

/-- The members of planned segments are those of the plans. -/
theorem Follows.map_members (h : Follows devices ps a) :
    a.segments.values.map Segment.members = ps.map Plan.members := by
  rw [OrderedMap.values, h.segments, planned, List.map_map, List.map_map]
  calc (ps.zipIdx 1).map _ = ((ps.zipIdx 1).map Prod.fst).map Plan.members := by
        rw [List.map_map]
        rfl
    _ = ps.map Plan.members := by rw [List.zipIdx_map_fst]

/-- The names of the segments are those of the plans. -/
theorem Follows.keys (h : Follows devices ps a) : a.segments.keys = (planned ps).map Prod.fst := by
  rw [OrderedMap.keys, h.segments]

variable {r : Registry} {mode : NetworkMode}

/-- An analysis that follows the plans for a design is coherent. -/
theorem Follows.coherent (hr : r.WellFormed)
    (h : Follows r.devices (plans mode r.devices r.connections) a)
    (hkeys : a.networks.keys = r.devices.map Device.id) : Coherent r.devices a := by
  -- what is listed for a device is planned for it
  have hlisted : ∀ e ∈ a.networks.entries,
      e.2 = plannedNames e.1 (plans mode r.devices r.connections) := by
    intro e he
    have hmem : e.1 ∈ r.devices.map Device.id := hkeys ▸ List.mem_map_of_mem he
    obtain ⟨d, hd, hid⟩ := List.mem_map.1 hmem
    have hget : a.networks.get? e.1 = some e.2 := OrderedMap.get?_eq_some_iff.2 he
    rw [← hid, h.networks d hd] at hget
    rw [← hid]
    exact (Option.some.inj hget).symm
  have hplan : ∀ e ∈ a.segments.entries,
      ∃ p ∈ plans mode r.devices r.connections, e.2.members = p.members := by
    intro e he
    obtain ⟨p, k, hpk, -, hs⟩ := h.exists_plan (OrderedMap.get?_eq_some_iff.2 he)
    exact ⟨p, List.fst_mem_of_mem_zipIdx hpk, by rw [hs]; rfl⟩
  refine {
    keys := ?_
    names := h.ownNames
    listed := hkeys
    member_iff := ?_
    increasing := ?_
    members_nodup := ?_
    members_known := ?_ }
  · rw [h.keys, map_fst_planned, h.segments, planned, List.length_map, List.length_zipIdx]
  · intro e he name
    rw [hlisted e he, mem_plannedNames]
    constructor
    · rintro ⟨p, k, hpk, hid, rfl⟩
      refine ⟨Segment.ofPlan k p, OrderedMap.get?_eq_some_iff.2 ?_, hid⟩
      rw [h.segments]
      exact mem_planned.2 ⟨p, k, hpk, rfl⟩
    · rintro ⟨s, hs, hid⟩
      obtain ⟨p, k, hpk, hname, rfl⟩ := h.exists_plan hs
      exact ⟨p, k, hpk, hid, hname⟩
  · intro e he
    rw [hlisted e he]
    exact plannedNames_increasing
  · intro e he
    obtain ⟨p, hp, hmembers⟩ := hplan e he
    rw [hmembers]
    exact plans_members_nodup hr hp
  · intro e he id hid
    obtain ⟨p, hp, hmembers⟩ := hplan e he
    rw [hmembers] at hid
    exact List.mem_map.2 (plans_members hr hp id hid)

/-- Unless there is a segment for each connection, the segment that a device is on is its only one, if it is
no router. -/
theorem plannedNames_eq_singleton {r : Registry} (hr : r.WellFormed) {mode : NetworkMode}
    (hmode : mode ≠ .connection) {d : Device} (hd : d ∈ r.devices) (hhost : d.isRouter = false) {name : String}
    (hmem : name ∈ plannedNames d.id (plans mode r.devices r.connections)) :
    plannedNames d.id (plans mode r.devices r.connections) = [name] := by
  refine List.perm_singleton.1 ((List.perm_ext_iff_of_nodup nodup_plannedNames
    (List.nodup_singleton _)).2 fun other => ?_)
  rw [List.mem_singleton]
  constructor
  · intro hother
    exact eq_of_mem_plannedNames hr hmode hd hhost hother hmem
  · rintro rfl
    exact hmem

/-- An analysis that follows the plans by types has a segment for each type. -/
theorem Follows.byType (hr : r.WellFormed)
    (h : Follows r.devices (plans .deviceType r.devices r.connections) a) :
    ByType r.devices (typesOf r.devices) a := by
  have hknown : ∀ type ∈ typesOf r.devices, type.isKnown = true := by
    intro type htype
    obtain ⟨d, hd, rfl⟩ := mem_typesOf.1 htype
    exact hr.devices.known d hd
  have hmembers : ∀ type ∈ typesOf r.devices, (typePlan r.devices type).members =
      (r.devices.filter fun d => d.isRouter || d.type == type).map Device.id := fun type htype =>
    members_typePlan hr.devices.ids_nodup (hknown type htype)
  -- a device is on the segment for a type if it is a router or of the type
  have hon : ∀ type ∈ typesOf r.devices, ∀ d ∈ r.devices, d.isRouter = true ∨ d.type = type →
      d.id ∈ (typePlan r.devices type).members := by
    intro type htype d hd hwhich
    rw [hmembers type htype]
    exact List.mem_map_of_mem (List.mem_filter.2 ⟨hd, by simpa using hwhich⟩)
  refine {
    nodup := nodup_typesOf
    present := fun type => mem_typesOf
    members := ?_
    hosts := ?_
    routers := ?_ }
  · rw [h.map_members, plans, List.map_map]
    exact List.map_congr_left hmembers
  · intro d hd hhost
    have htype : d.type ∈ typesOf r.devices := mem_typesOf.2 ⟨d, hd, rfl⟩
    obtain ⟨k, hk⟩ := List.getElem?_of_mem htype
    refine ⟨k, hk, ?_⟩
    have hpk : (typePlan r.devices d.type, k + 1) ∈
        (plans .deviceType r.devices r.connections).zipIdx 1 := by
      rw [List.mk_mem_zipIdx_iff_le_and_getElem?_sub, plans, Nat.add_sub_cancel, List.getElem?_map, hk]
      exact ⟨Nat.le_add_left 1 k, rfl⟩
    have hmem := (nameOf_mem_plannedNames hpk).2 (hon d.type htype d hd (.inr rfl))
    rw [h.networks d hd, plannedNames_eq_singleton hr (by decide) hd hhost hmem]
  · intro d hd hrouter
    rw [h.networks d hd, plannedNames_of_forall, ← h.keys]
    intro p hp
    obtain ⟨type, htype, rfl⟩ := List.mem_map.1 hp
    exact hon type htype d hd (.inl hrouter)

/-- The segments of an analysis that follows the plans for a design are those of its mode. -/
theorem Follows.divides (hr : r.WellFormed)
    (h : Follows r.devices (plans mode r.devices r.connections) a) :
    Divides mode r.devices r.connections a := by
  cases mode with
  | connection =>
    intro e he
    obtain ⟨p, k, hpk, -, hs⟩ := h.exists_plan (OrderedMap.get?_eq_some_iff.2 he)
    obtain ⟨c, hc, rfl⟩ := List.mem_map.1 (List.fst_mem_of_mem_zipIdx hpk)
    have hmem : c ∈ r.connections := mem_of_mem_links hc
    rw [hs]
    exact ⟨c, hmem, rfl, (hr.connections.ends c hmem).1, rfl⟩
  | shared =>
    rw [Divides, h.map_members, plans]
    split <;> rfl
  | deviceType => exact ⟨_, h.byType hr⟩

/-- Whatever a registry went through and whatever the mode, the segments of an analysis and the segments
of each device agree, and the segments are those of the mode. -/
theorem inMode_coherent (history : List Change) (mode : NetworkMode) (strict : Bool)
    (ha : (inMode mode strict (Registry.after history).devices
      (Registry.after history).connections).outcome = .ok a) :
    Coherent (Registry.after history).devices a ∧
      Divides mode (Registry.after history).devices (Registry.after history).connections a := by
  have hr : (Registry.after history).WellFormed := Registry.wellFormed_after history
  have hfollows := inMode_follows hr ha
  exact ⟨hfollows.coherent hr (keys_networks hr ha), hfollows.divides hr⟩

/-- Devices of all three types, the router after a machine. -/
def mixedOrder : List Change := [
  .addDevice { id := .text "a", type := .text "vm" },
  .addDevice { id := .text "R", type := .text "router" },
  .addDevice { id := .text "S", type := .text "switch" },
  .addDevice { id := .text "b", type := .text "vm" }]

/-- Their analysis by types: the router is on all segments, in its place. -/
theorem inMode_coherent_mixedOrder : ∃ a,
    (inMode .deviceType true (Registry.after mixedOrder).devices
      (Registry.after mixedOrder).connections).outcome = .ok a ∧
    a.segments.values.map Segment.members = [["a", "R", "b"], ["R"], ["R", "S"]] ∧
    Coherent (Registry.after mixedOrder).devices a ∧
    Divides .deviceType (Registry.after mixedOrder).devices (Registry.after mixedOrder).connections a := by
  have hr : (Registry.after mixedOrder).WellFormed := Registry.wellFormed_after mixedOrder
  obtain ⟨a, ha⟩ : ∃ a, (inMode .deviceType true (Registry.after mixedOrder).devices
      (Registry.after mixedOrder).connections).outcome = .ok a :=
    Outcome.exists_of_isSome_toOption (by decide +kernel)
  refine ⟨a, ha, ?_, inMode_coherent mixedOrder .deviceType true ha⟩
  -- the members of a segment are sorted, and the kernel does not evaluate a sort
  have hknown : ∀ type ∈ typesOf (Registry.after mixedOrder).devices, type.isKnown = true := by
    decide +kernel
  rw [(inMode_follows hr ha).map_members, plans, List.map_map]
  have hmembers := List.map_congr_left fun type htype =>
    members_typePlan hr.devices.ids_nodup (hknown type htype)
  refine hmembers.trans ?_
  decide +kernel

end Analysis

end VirtNet
