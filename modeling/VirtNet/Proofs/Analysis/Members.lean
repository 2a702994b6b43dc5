import Mathlib.Data.List.Perm.Lattice
import VirtNet.Proofs.Analysis.Plans

/-!
# How many devices are on a segment

A segment has at least one member, one that stands for a connection has two, and no segment has a member
twice (`plans_members_nodup`). So the devices that list a segment among theirs are as many as it has
members (`countP_plannedNames`).
-/

namespace VirtNet.Analysis

open Segment (Plan)

variable {r : Registry} {mode : NetworkMode} {p : Plan}

/-- No segment has a member twice. -/
theorem plans_members_nodup (h : r.WellFormed) (hp : p ∈ plans mode r.devices r.connections) :
    p.members.Nodup := by
  cases mode with
  | connection =>
    obtain ⟨c, hc, rfl⟩ := List.mem_map.1 hp
    have hne : c.source ≠ c.target := (h.connections.ends c (mem_of_mem_links hc)).1
    simpa [linkPlan] using hne
  | shared =>
    simp only [plans] at hp
    split at hp
    · cases hp
    · rw [List.mem_singleton.1 hp]
      exact h.devices.ids_nodup
  | deviceType =>
    obtain ⟨type, htype, rfl⟩ := List.mem_map.1 hp
    obtain ⟨e, he, rfl⟩ := mem_typesOf.1 htype
    exact nodup_typePlan h.devices.ids_nodup (h.devices.known e he)

/-- Every segment has a member. -/
theorem plans_members_ne_nil (h : r.WellFormed) (hp : p ∈ plans mode r.devices r.connections) :
    p.members ≠ [] := by
  cases mode with
  | connection =>
    obtain ⟨c, hc, rfl⟩ := List.mem_map.1 hp
    simp [linkPlan]
  | shared =>
    simp only [plans] at hp
    split at hp
    · cases hp
    · next hne =>
      rw [List.mem_singleton.1 hp]
      simpa [sharedPlan] using hne
  | deviceType =>
    obtain ⟨type, htype, rfl⟩ := List.mem_map.1 hp
    -- the device that the type was met at
    obtain ⟨e, he, rfl⟩ := mem_typesOf.1 htype
    have hmem : e ∈ typeMembers r.devices e.type :=
      (mem_typeMembers (h.devices.known e he)).2 ⟨he, .inl rfl⟩
    have hid : e.id ∈ (typePlan r.devices e.type).members :=
      List.mem_map_of_mem ((inDesignOrder_perm _).mem_iff.2 hmem)
    exact List.ne_nil_of_mem hid

/-- By connections, every segment has two members. -/
theorem length_members_of_connection (hp : p ∈ plans .connection r.devices r.connections) :
    p.members.length = 2 := by
  obtain ⟨c, -, rfl⟩ := List.mem_map.1 hp
  rfl

/-- A device is on the segment with a number exactly when the plan with that number has it as a
member. -/
theorem nameOf_mem_plannedNames {ps : List Plan} {k : Nat} (hpk : (p, k) ∈ ps.zipIdx 1) {id : String} :
    Segment.nameOf k ∈ plannedNames id ps ↔ id ∈ p.members := by
  rw [mem_plannedNames]
  constructor
  · rintro ⟨q, l, hql, hid, hname⟩
    obtain rfl : k = l := Segment.nameOf_inj.1 hname
    -- a number has one plan
    rw [List.mk_mem_zipIdx_iff_le_and_getElem?_sub] at hpk hql
    obtain rfl : p = q := Option.some.inj (hpk.2.symm.trans hql.2)
    exact hid
  · intro hid
    exact ⟨p, k, hpk, hid, rfl⟩

/-- The devices that list a segment among theirs are as many as it has members. -/
theorem countP_plannedNames (h : r.WellFormed) {k : Nat}
    (hpk : (p, k) ∈ (plans mode r.devices r.connections).zipIdx 1) :
    r.devices.countP (fun d => (plannedNames d.id (plans mode r.devices r.connections)).contains
      (Segment.nameOf k)) = p.members.length := by
  have hp := List.fst_mem_of_mem_zipIdx hpk
  have hmember : ∀ d ∈ r.devices,
      (plannedNames d.id (plans mode r.devices r.connections)).contains (Segment.nameOf k) = true ↔
        p.members.contains d.id = true := by
    intro d _
    rw [List.contains_iff_mem, List.contains_iff_mem, nameOf_mem_plannedNames hpk]
  -- the ids of the devices that are members are the members, in another order
  have hperm : ((r.devices.map Device.id).filter p.members.contains).Perm p.members := by
    rw [List.perm_ext_iff_of_nodup (h.devices.ids_nodup.filter _) (plans_members_nodup h hp)]
    intro id
    rw [List.mem_filter, List.contains_iff_mem, and_iff_right_iff_imp]
    intro hid
    exact List.mem_map.2 (plans_members h hp id hid)
  calc r.devices.countP _ = r.devices.countP fun d => p.members.contains d.id :=
        List.countP_congr hmember
    _ = (r.devices.map Device.id).countP p.members.contains := by rw [List.countP_map]; rfl
    _ = p.members.length := by rw [List.countP_eq_length_filter, hperm.length_eq]

/-- Only by connections a plan stands for one. -/
theorem ne_connection_of_none (hp : p ∈ plans mode r.devices r.connections) (hnone : p.connection = none) :
    mode ≠ .connection := by
  rintro rfl
  obtain ⟨c, -, rfl⟩ := List.mem_map.1 hp
  cases hnone

/-- A device that is no router is on at most one segment, unless there is one for each connection. -/
theorem eq_of_mem_plannedNames (h : r.WellFormed) (hmode : mode ≠ .connection) {d : Device}
    (hd : d ∈ r.devices) (hhost : d.isRouter = false) {m n : String}
    (hm : m ∈ plannedNames d.id (plans mode r.devices r.connections))
    (hn : n ∈ plannedNames d.id (plans mode r.devices r.connections)) : m = n := by
  obtain ⟨p, k, hpk, hpid, rfl⟩ := mem_plannedNames.1 hm
  obtain ⟨q, l, hql, hqid, rfl⟩ := mem_plannedNames.1 hn
  obtain ⟨hk, hp⟩ := List.mk_mem_zipIdx_iff_le_and_getElem?_sub.1 hpk
  obtain ⟨hl, hq⟩ := List.mk_mem_zipIdx_iff_le_and_getElem?_sub.1 hql
  cases mode with
  | connection => exact absurd rfl hmode
  | shared =>
    have hone : (plans .shared r.devices r.connections).length ≤ 1 := by
      simp only [plans]
      split <;> simp
    have hk' := (List.getElem?_eq_some_iff.1 hp).1
    have hl' := (List.getElem?_eq_some_iff.1 hq).1
    obtain rfl : k = l := by omega
    rfl
  | deviceType =>
    -- the device is among those of its own type alone
    have hown : ∀ {o : Plan} {i : Nat}, ((typesOf r.devices).map (typePlan r.devices))[i]? = some o →
        d.id ∈ o.members → (typesOf r.devices)[i]? = some d.type := by
      intro o i ho hid
      rw [List.getElem?_map, Option.map_eq_some_iff] at ho
      obtain ⟨type, htype, rfl⟩ := ho
      obtain ⟨e, he, rfl⟩ := mem_typesOf.1 (List.mem_of_getElem? htype)
      obtain ⟨d', hd', hsame⟩ := List.mem_map.1 hid
      obtain ⟨hmem, htypes⟩ := (mem_typeMembers (h.devices.known e he)).1
        ((inDesignOrder_perm _).mem_iff.1 hd')
      obtain rfl : d' = d := List.inj_on_of_nodup_map h.devices.ids_nodup hmem hd hsame
      have htyped : d'.type = e.type := by simpa [hhost] using htypes
      rw [htype, htyped]
    have hkt := hown hp hpid
    have hlt := hown hq hqid
    have hlt' := (List.getElem?_eq_some_iff.1 hkt).1
    have hkl : k - 1 = l - 1 := (List.getElem?_inj hlt' nodup_typesOf).1 (hkt.trans hlt.symm)
    obtain rfl : k = l := by omega
    rfl

end VirtNet.Analysis
