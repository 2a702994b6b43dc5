import VirtNet.Proofs.Analysis.Verdict
import VirtNet.Proofs.Assignment.Drawn

/-!
# What can go wrong with a registry

An analysis of a registry in one of the modes and an assignment after it have two faults between them
(`assign_total`): addresses of different networks on one segment, which a strict analysis refuses
(`inMode_mismatch`), and a segment without host numbers left, which only a segment without a connection
can become (`Fits.assign_eq_error`). The other errors are there for analyses that do not fit their
design. `Fits` says what the assignment looks up in an analysis, and every analysis of a registry has it
(`fits_of_follows`).
-/

namespace VirtNet

namespace Analysis

variable {devices : List Device} {connections : List Connection} {strict : Bool} {e : AnalysisError}

/-- Strict analysis met a segment whose addresses lie in different networks. -/
def Mismatch (strict : Bool) (e : AnalysisError) : Prop :=
  strict = true ∧ ∃ s : Segment, s.consistent = false ∧
    e = .subnetMismatch s.label s.subnet s.addresses

/-- An analysis in a mode fails only with a mismatch, and only if it is strict. -/
theorem inMode_mismatch {mode : NetworkMode}
    (h : (inMode mode strict devices connections).outcome = .error e) : Mismatch strict e := by
  obtain ⟨a, hlenient, hstrict, -⟩ := inMode_settled mode devices connections
  cases strict with
  | false =>
    rw [hlenient] at h
    cases h
  | true =>
    rw [hstrict, Outcome.bind_eq_error] at h
    rcases h with hverdict | ⟨-, -, hok⟩
    · obtain ⟨refused, -, hc, rfl⟩ := exists_of_verdict_eq_error hverdict
      exact ⟨rfl, refused.2, hc, rfl⟩
    · cases hok

end Analysis

namespace Assignment

/-- What the assignment relies on in an analysis: segments and devices refer to each other, and to nothing
that is not there. -/
structure Fits (ds : List Device) (a : Analysis) : Prop where
  /-- A segment is known by its name. -/
  names : ∀ e ∈ a.segments.entries, e.2.name = e.1
  base : ∀ e ∈ a.segments.entries, Address.IsBase e.2.base
  /-- Every member of a segment is a device, which has the segment among its own. -/
  members : ∀ e ∈ a.segments.entries, ∀ id ∈ e.2.members,
    (∃ d ∈ ds, d.id = id) ∧ ∃ names, a.networks.get? id = some names ∧ e.1 ∈ names
  /-- Every device has a list of segments, and is a member of each of them. -/
  networks : ∀ d ∈ ds, ∃ names, a.networks.get? d.id = some names ∧
    ∀ name ∈ names, ∃ s, a.segments.get? name = some s ∧ d.id ∈ s.members
  /-- A segment that stands for a connection has the two ends as members. -/
  ends : ∀ e ∈ a.segments.entries, ∀ c, e.2.connection = some c →
    Registry.JoinsKnown ds c ∧ e.2.members = [c.source, c.target]

variable {ds : List Device} {a : Analysis} {s : Segment} {sa : SegmentAddresses} {p p' : Pool}
  {id name : String} {entry : String × Segment} {e : AssignmentError}

/-- An analysis of a registry fits the registry. -/
theorem fits_of_follows {r : Registry} (h : r.WellFormed) {mode : NetworkMode}
    (ha : Analysis.Follows r.devices (Analysis.plans mode r.devices r.connections) a) :
    Fits r.devices a where
  names := by
    intro e he
    rw [ha.segments] at he
    obtain ⟨p, k, -, rfl⟩ := Analysis.mem_planned.1 he
    rfl
  base := by
    intro e he
    rw [ha.segments] at he
    obtain ⟨p, k, -, rfl⟩ := Analysis.mem_planned.1 he
    exact Segment.isBase_formed
  members := by
    intro e he id hid
    rw [ha.segments] at he
    obtain ⟨p, k, hpk, rfl⟩ := Analysis.mem_planned.1 he
    obtain ⟨d, hd, rfl⟩ := Analysis.plans_members h (List.fst_mem_of_mem_zipIdx hpk) id hid
    exact ⟨⟨d, hd, rfl⟩, _, ha.networks d hd, Analysis.mem_plannedNames.2 ⟨p, k, hpk, hid, rfl⟩⟩
  networks := by
    intro d hd
    refine ⟨_, ha.networks d hd, ?_⟩
    intro name hname
    obtain ⟨p, k, hpk, hid, rfl⟩ := Analysis.mem_plannedNames.1 hname
    refine ⟨Segment.ofPlan k p, ?_, hid⟩
    rw [OrderedMap.get?_eq_some_iff, ha.segments]
    exact Analysis.mem_planned.2 ⟨p, k, hpk, rfl⟩
  ends := by
    intro e he c hc
    rw [ha.segments] at he
    obtain ⟨p, k, hpk, rfl⟩ := Analysis.mem_planned.1 he
    cases Analysis.plans_cover h (List.fst_mem_of_mem_zipIdx hpk) with
    | link c' hmem hp =>
      subst hp
      obtain rfl : c' = c := Option.some.inj hc
      exact ⟨h.connections.ends c' hmem, rfl⟩
    -- a pool of devices stands for no connection
    | pool hnone _ =>
      have hsome : p.connection = some c := hc
      rw [hnone] at hsome
      cases hsome

/-- A member of a segment has a device and a position for the segment. -/
theorem Fits.member (h : Fits ds a) (he : entry ∈ a.segments.entries) (hid : id ∈ entry.2.members) :
    (∃ d, device ds id = .ok d) ∧ ∃ i, indexOf a id entry.2.name = .ok i := by
  obtain ⟨hdevice, names, hnames, hname⟩ := h.members entry he id hid
  obtain ⟨d, hd⟩ := Option.isSome_iff_exists.1 (Analysis.isSome_deviceOf?_iff.2 hdevice)
  refine ⟨⟨d, by rw [device, hd]⟩, ?_⟩
  rw [h.names entry he]
  exact exists_indexOf hnames hname

/-! ## Pooled segments -/

/-- Only when the host numbers have run out, a member with a device cannot be numbered. -/
theorem number_eq_error (hid : ∃ d, device ds id = .ok d) (h : number ds s p id = .error e) :
    e = .exhausted s.subnet s.name := by
  have hstep := @step_number ds s p id
  rw [h] at hstep
  cases hstep with
  | full d _ _ _ => rfl
  | unknown _ hnone =>
    obtain ⟨d, hd⟩ := hid
    rw [device, hnone] at hd
    cases hd

/-- Only when the host numbers have run out, a segment without a connection cannot be filled. -/
theorem pooled_eq_error (hmembers : ∀ id ∈ s.members,
      (∃ d, device ds id = .ok d) ∧ ∃ i, indexOf a id s.name = .ok i)
    (h : pooled ds a s = .error e) : e = .exhausted s.subnet s.name := by
  unfold pooled at h
  rw [Outcome.bind_eq_error] at h
  rcases h with hstatics | ⟨statics, -, h⟩
  · -- every member is found, and so is its position
    obtain ⟨id, hid, hfails⟩ := Outcome.exists_of_mapM_eq_error hstatics
    obtain ⟨⟨d, hd⟩, i, hi⟩ := hmembers id hid
    rw [static?, hd, Outcome.ok_bind, hi, Outcome.ok_bind] at hfails
    cases hfails
  · rw [Outcome.bind_eq_error] at h
    rcases h with hloop | ⟨p, -, hpure⟩
    · obtain ⟨p, id, hid, hturn⟩ := Outcome.exists_of_foldlM_eq_error hloop
      exact number_eq_error (hmembers id hid).1 hturn
    · cases hpure

/-- A member that was numbered has an address, and nobody has lost one. -/
theorem isSome_of_number (h : number ds s p id = .ok p') :
    (p'.byDevice.get? id).isSome = true ∧
      ∀ i, (p.byDevice.get? i).isSome = true → (p'.byDevice.get? i).isSome = true := by
  have hstep := @step_number ds s p id
  rw [h] at hstep
  cases hstep with
  | keep r hr => exact ⟨Option.isSome_iff_exists.2 ⟨r, hr⟩, fun i hi => hi⟩
  | give d n _ hd _ =>
    obtain ⟨-, rfl⟩ := Analysis.deviceOf?_eq_some hd
    refine ⟨by rw [Pool.give, OrderedMap.get?_insert_self, Option.isSome_some], fun i hi => ?_⟩
    rw [Pool.give, OrderedMap.get?_insert]
    split
    · rfl
    · exact hi

/-- Every member of a segment that was filled without a connection has an address. -/
theorem pooled_covers (h : pooled ds a s = .ok sa) (hid : id ∈ s.members) :
    ∃ r, sa.byDevice.get? id = some r := by
  obtain ⟨statics, p, -, hp, rfl⟩ := pooled_eq_ok.1 h
  -- along the loop, the members that were gone through have addresses
  have hrun : ∀ i ∈ s.members, (p.byDevice.get? i).isSome = true := by
    refine @Outcome.foldlM_keeps_done _ _ _ _
      (fun done p => ∀ i ∈ done, (p.byDevice.get? i).isSome = true) _ ?_ _ _ ?_ hp
    · intro done q i q' _ hdone hturn j hj
      obtain ⟨hnew, hold⟩ := isSome_of_number hturn
      rcases List.mem_append.1 hj with hj | hj
      · exact hold j (hdone j hj)
      · rw [List.mem_singleton.1 hj]
        exact hnew
    · intro i hi
      cases hi
  exact Option.isSome_iff_exists.1 (hrun id hid)

/-! ## Segments -/

/-- The two ends of the connection that a segment stands for always have addresses there. -/
theorem Fits.exists_ends (h : Fits ds a) (hds : Registry.SoundDevices ds)
    (he : entry ∈ a.segments.entries) {c : Connection} (hc : entry.2.connection = some c) :
    ∃ sa, (onSegment ds a entry.2).outcome = .ok sa ∧
      ∃ i j source target x y x' y', Ends ds entry.2 c i j source target x y x' y' sa := by
  obtain ⟨hends, hmembers⟩ := h.ends entry he c hc
  have hsource : c.source ∈ entry.2.members := by simp [hmembers]
  have htarget : c.target ∈ entry.2.members := by simp [hmembers]
  obtain ⟨-, i, hi⟩ := h.member he hsource
  obtain ⟨-, j, hj⟩ := h.member he htarget
  obtain ⟨sa, hsa, hboth⟩ := onConnection_ends hds.knownDevices hends.connects (h.base entry he) hi hj
  refine ⟨sa, ?_, i, j, hboth⟩
  unfold onSegment
  rw [hc]
  exact hsa

/-- Only a segment without a connection runs out of host numbers, and nothing else goes wrong with a
segment. -/
theorem Fits.onSegment_eq_error (h : Fits ds a) (hds : Registry.SoundDevices ds)
    (he : entry ∈ a.segments.entries) (hfails : (onSegment ds a entry.2).outcome = .error e) :
    entry.2.connection = none ∧ e = .exhausted entry.2.subnet entry.2.name := by
  cases hc : entry.2.connection with
  | some c =>
    obtain ⟨sa, hsa, -⟩ := h.exists_ends hds he hc
    rw [hsa] at hfails
    cases hfails
  | none =>
    unfold onSegment at hfails
    rw [hc, Journal.outcome_ofExcept] at hfails
    exact ⟨rfl, pooled_eq_error (fun id hid => h.member he hid) hfails⟩

/-- Every member of a segment has an address among those of the segment. -/
theorem Fits.onSegment_covers (h : Fits ds a) (hds : Registry.SoundDevices ds)
    (he : entry ∈ a.segments.entries) (hsa : (onSegment ds a entry.2).outcome = .ok sa)
    (hid : id ∈ entry.2.members) : ∃ r, sa.byDevice.get? id = some r := by
  cases hc : entry.2.connection with
  | some c =>
    obtain ⟨sa', hsa', _, _, _, _, _, _, x', y', hboth⟩ := h.exists_ends hds he hc
    obtain rfl : sa = sa' := Except.ok.inj (hsa.symm.trans hsa')
    rw [(h.ends entry he c hc).2, List.mem_pair] at hid
    rcases hid with rfl | rfl
    · exact ⟨x', (hboth.get? _ _).2 (.inl ⟨rfl, rfl⟩)⟩
    · exact ⟨y', (hboth.get? _ _).2 (.inr ⟨rfl, rfl⟩)⟩
  | none =>
    unfold onSegment at hsa
    rw [hc, Journal.outcome_ofExcept] at hsa
    exact pooled_covers hsa hid

/-! ## The whole assignment -/

/-- When every segment is filled, every device is assigned its addresses. -/
theorem Fits.exists_assign (h : Fits ds a) (hds : Registry.SoundDevices ds)
    (hfilled : ∀ entry ∈ a.segments.entries, ∃ sa, (onSegment ds a entry.2).outcome = .ok sa) :
    ∃ assigned, (assign ds a).outcome = .ok assigned := by
  have hcovering : ∀ entry ∈ a.segments.entries, ∃ sa, (onSegment ds a entry.2).outcome = .ok sa ∧
      ∀ id ∈ entry.2.members, ∃ r, sa.byDevice.get? id = some r := by
    intro entry he
    obtain ⟨sa, hsa⟩ := hfilled entry he
    exact ⟨sa, hsa, fun id hid => h.onSegment_covers hds he hsa hid⟩
  obtain ⟨assigned, hassigned, -⟩ :=
    @exists_assign_of_filled ds a hds.ids_nodup _ (fun _ _ => True) hcovering (by
      intro d hd
      obtain ⟨names, hnames, hmember⟩ := h.networks d hd
      refine ⟨names, hnames, fun name hname => ?_⟩
      obtain ⟨s, hs, hid⟩ := hmember name hname
      refine ⟨s, hs, fun resolved sa index hsa hcover => ?_⟩
      obtain ⟨r, hr⟩ := hcover d.id hid
      exact ⟨_, outcome_assignOne index hs hsa hr, rfl, trivial⟩)
  exact ⟨assigned, hassigned⟩

/-- An assignment fails only where a segment without a connection has run out of host numbers. -/
theorem Fits.assign_eq_error (h : Fits ds a) (hds : Registry.SoundDevices ds)
    (hfails : (assign ds a).outcome = .error e) : ∃ entry ∈ a.segments.entries,
      entry.2.connection = none ∧ e = .exhausted entry.2.subnet entry.2.name := by
  cases hresolved : (a.segments.entries.mapM fun (entry : String × Segment) => do
      return (entry.1, ← onSegment ds a entry.2)).outcome with
  | error e' =>
    have hsame : e' = e := by
      rw [assign, Journal.outcome_bind, hresolved] at hfails
      exact Except.error.inj hfails
    subst hsame
    rw [Journal.outcome_mapM] at hresolved
    obtain ⟨entry, he, hone⟩ := Outcome.exists_of_mapM_eq_error hresolved
    rw [Journal.bind_eq_error] at hone
    rcases hone with hsegment | ⟨sa, -, hpure⟩
    · exact ⟨entry, he, h.onSegment_eq_error hds he hsegment⟩
    · cases hpure
  | ok resolved =>
    -- every segment is filled, so nothing fails
    rw [Journal.outcome_mapM] at hresolved
    have hfilled : ∀ entry ∈ a.segments.entries, ∃ sa, (onSegment ds a entry.2).outcome = .ok sa := by
      intro entry he
      obtain ⟨e', -, hone⟩ := Outcome.mem_of_mapM_eq_ok hresolved he
      rw [Journal.bind_eq_ok] at hone
      obtain ⟨sa, hsa, -⟩ := hone
      exact ⟨sa, hsa⟩
    obtain ⟨assigned, hassigned⟩ := h.exists_assign hds hfilled
    rw [hassigned] at hfails
    cases hfails

/-- Whatever a registry went through, an analysis in one of the modes, strict or not, and an assignment
after it both succeed, but for two faults: a strict analysis refuses a segment whose addresses lie in
different networks, and in a mode other than by connections a segment may run out of host numbers. The
members of the segments are devices, and devices and segments are found under each other's names. -/
theorem assign_total (history : List Change) (strict : Bool) {mode : Value} {m : NetworkMode}
    (hmode : NetworkMode.ofValue mode = .ok m) :
    let r := Registry.after history
    (∀ a, (Analysis.analyze mode strict r.devices r.connections).outcome = .ok a → Fits r.devices a) ∧
    ((∃ a assigned, (Analysis.analyze mode strict r.devices r.connections).outcome = .ok a ∧
        (assign r.devices a).outcome = .ok assigned) ∨
      (strict = true ∧ ∃ s : Segment, s.consistent = false ∧
        (Analysis.analyze mode strict r.devices r.connections).outcome =
          .error (.subnetMismatch s.label s.subnet s.addresses)) ∨
      (m ≠ .connection ∧ ∃ a,
        (Analysis.analyze mode strict r.devices r.connections).outcome = .ok a ∧
        ∃ e ∈ a.segments.entries,
          (assign r.devices a).outcome = .error (.exhausted e.2.subnet e.2.name))) := by
  intro r
  have hr : r.WellFormed := Registry.wellFormed_after history
  have hanalyze : (Analysis.analyze mode strict r.devices r.connections).outcome =
      (Analysis.inMode m strict r.devices r.connections).outcome := by
    rw [Analysis.analyze, Journal.outcome_bind, Journal.outcome_ofExcept, hmode, Outcome.ok_bind]
  have hfits : ∀ a, (Analysis.inMode m strict r.devices r.connections).outcome = .ok a →
      Fits r.devices a := fun a ha => fits_of_follows hr (Analysis.inMode_follows hr ha)
  rw [hanalyze]
  refine ⟨hfits, ?_⟩
  cases ha : (Analysis.inMode m strict r.devices r.connections).outcome with
  | error e =>
    obtain ⟨hstrict, s, hs, rfl⟩ := Analysis.inMode_mismatch ha
    exact .inr (.inl ⟨hstrict, s, hs, rfl⟩)
  | ok a =>
    cases hassigned : (assign r.devices a).outcome with
    | ok assigned => exact .inl ⟨a, assigned, rfl, hassigned⟩
    | error e =>
      obtain ⟨entry, he, hnone, rfl⟩ := (hfits a ha).assign_eq_error hr.devices hassigned
      refine .inr (.inr ⟨?_, a, rfl, entry, he, hassigned⟩)
      -- by connections, every segment stands for one
      rintro rfl
      rw [(Analysis.inMode_follows hr ha).segments] at he
      obtain ⟨p, k, hpk, rfl⟩ := Analysis.mem_planned.1 he
      obtain ⟨c, -, rfl⟩ := List.mem_map.1 (List.fst_mem_of_mem_zipIdx hpk)
      cases hnone

/-- Two hosts whose static addresses lie in different networks. -/
def mixedHosts : List Change := [
  .addDevice { id := .text "a", type := .text "vm", ip := .text "10.0.0.1" },
  .addDevice { id := .text "b", type := .text "vm", ip := .text "10.0.1.1" }]

/-- The strict analysis of the two hosts together is refused for their segment. -/
theorem assign_total_mixedHosts : ∃ s : Segment, s.consistent = false ∧
    (Analysis.analyze (.text "shared") true (Registry.after mixedHosts).devices
      (Registry.after mixedHosts).connections).outcome =
        .error (.subnetMismatch s.label s.subnet s.addresses) := by
  have hrefused : (Analysis.analyze (.text "shared") true (Registry.after mixedHosts).devices
      (Registry.after mixedHosts).connections).outcome.toOption.isSome = false := by
    decide +kernel
  have htotal := assign_total mixedHosts true (rfl : NetworkMode.ofValue (.text "shared") = .ok .shared)
  rcases htotal.2 with ⟨a, -, ha, -⟩ | ⟨-, hs⟩ | ⟨-, a, ha, -⟩
  · rw [ha] at hrefused
    cases hrefused
  · exact hs
  · rw [ha] at hrefused
    cases hrefused

end Assignment

end VirtNet
