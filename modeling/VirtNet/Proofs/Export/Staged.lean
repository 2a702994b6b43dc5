import VirtNet.Proofs.Analysis.Members
import VirtNet.Proofs.Export.Names
import VirtNet.Proofs.Machine.Cards
import VirtNet.Proofs.Manifest.Document

/-!
# Staged exports

A design can be exported in two stages: attachments and claims first, machines later and perhaps in
another generation. The two stages together are the full export, and they succeed exactly when it does
(`exportDesign_staged`). What a machine refers to is there (`Staged`): its attachments and its claim are in
the first stage, and no attachment is there for nothing.
-/

namespace VirtNet

/-! ## The manifests of a stage -/

section Stages

variable {c : Compiled} {settings : Settings} {generation : String} {ms : List Manifest}

/-- The manifests of the first stage are the attachments and the claims, whatever the generation. -/
theorem exportManifests_claims_eq_ok :
    (exportManifests .claims c settings generation).outcome = .ok ms ↔
      ∃ attachments claims, (c.attachments settings).outcome = .ok attachments ∧
        c.claims settings = .ok claims ∧ attachments ++ claims = ms := by
  simp only [exportManifests, Journal.outcome_bind, Journal.outcome_ofExcept, Outcome.bind_eq_ok,
    Journal.outcome_pure]
  constructor
  · rintro ⟨attachments, ha, claims, hc, ⟨⟩⟩
    exact ⟨attachments, claims, ha, hc, rfl⟩
  · rintro ⟨attachments, claims, ha, hc, rfl⟩
    exact ⟨attachments, ha, claims, hc, rfl⟩

/-- The manifests of the two stages are those of the full export, the machines being in one
generation. -/
theorem exportManifests_full_eq_append {g : String} :
    (exportManifests .full c settings generation).outcome = .ok ms ↔
      ∃ base machines, (exportManifests .claims c settings g).outcome = .ok base ∧
        (exportManifests .machines c settings generation).outcome = .ok machines ∧
        base ++ machines = ms := by
  rw [exportManifests_full_eq_ok]
  constructor
  · rintro ⟨attachments, claims, machines, ha, hc, hm, rfl⟩
    exact ⟨_, machines, exportManifests_claims_eq_ok.2 ⟨attachments, claims, ha, hc, rfl⟩, hm, rfl⟩
  · rintro ⟨base, machines, hbase, hm, rfl⟩
    obtain ⟨attachments, claims, ha, hc, rfl⟩ := exportManifests_claims_eq_ok.1 hbase
    exact ⟨attachments, claims, machines, ha, hc, hm, rfl⟩

/-- A stream has a text exactly when each of its manifests has one. -/
theorem Manifest.isSome_renderStream? {header : List String} :
    (renderStream? header ms).isSome = true ↔ ∀ m ∈ ms, m.render?.isSome = true := by
  rw [← Outcome.isSome_mapM_iff]
  unfold renderStream?
  cases ms.mapM render? <;> rfl

variable {devices : List Device} {connections : List Connection}

/-- An export of the designed network succeeds when its manifests are there and each has a text. -/
theorem exists_exportDesign_iff {mode : ExportMode} (hmode : mode ≠ .basic) {g : Option String}
    {now : Moment} :
    (∃ text, (exportDesign mode devices connections settings g now).outcome = .ok text) ↔
      ∃ c ms, (Compiled.ofDesign devices connections settings).outcome = .ok c ∧
        (exportManifests mode c settings (chosenGeneration g now)).outcome = .ok ms ∧
        ∀ m ∈ ms, m.render?.isSome = true := by
  constructor
  · rintro ⟨text, h⟩
    obtain ⟨c, ms, hc, hms, hstream⟩ := (exportDesign_eq_ok hmode).1 h
    exact ⟨c, ms, hc, hms, Manifest.isSome_renderStream?.1 (Option.isSome_of_eq_some hstream)⟩
  · rintro ⟨c, ms, hc, hms, hall⟩
    obtain ⟨text, hstream⟩ := Option.isSome_iff_exists.1 (Manifest.isSome_renderStream?.2 hall)
    exact ⟨text, (exportDesign_eq_ok hmode).2 ⟨c, ms, hc, hms, hstream⟩⟩

/-- A full export succeeds exactly when both stages do. -/
theorem exists_exportDesign_full_iff {g₁ g₂ : Option String} {now₁ now₂ : Moment} :
    (∃ text, (exportDesign .full devices connections settings g₂ now₂).outcome = .ok text) ↔
      (∃ text, (exportDesign .claims devices connections settings g₁ now₁).outcome = .ok text) ∧
      ∃ text, (exportDesign .machines devices connections settings g₂ now₂).outcome = .ok text := by
  rw [exists_exportDesign_iff (by decide), exists_exportDesign_iff (by decide),
    exists_exportDesign_iff (by decide)]
  constructor
  · rintro ⟨c, ms, hc, hms, hall⟩
    obtain ⟨base, machines, hbase, hmachines, rfl⟩ := exportManifests_full_eq_append.1 hms
    exact ⟨⟨c, base, hc, hbase, fun m hm => hall m (List.mem_append_left _ hm)⟩,
      c, machines, hc, hmachines, fun m hm => hall m (List.mem_append_right _ hm)⟩
  · rintro ⟨⟨c, base, hc, hbase, hallbase⟩, c', machines, hc', hmachines, hallmachines⟩
    obtain rfl : c = c' := Except.ok.inj (hc.symm.trans hc')
    refine ⟨c, base ++ machines, hc,
      exportManifests_full_eq_append.2 ⟨base, machines, hbase, hmachines, rfl⟩, ?_⟩
    intro m hm
    exact (List.mem_append.1 hm).elim (hallbase m) (hallmachines m)

end Stages

/-- Where a design compiles, its machines can be exported if the processor count of each device can be
read, the settings for the management network can be written and there is a limit to the user data. -/
theorem exists_exportDesign_machines {r : Registry} (hr : r.WellFormed) {c : Compiled}
    {settings : Settings} {g : Option String} {now : Moment} {most : Int}
    (hc : (Compiled.ofDesign r.devices r.connections settings).outcome = .ok c)
    (hcores : ∀ d ∈ r.devices, ∃ n, Quantity.cores d.cpu d.type = .ok n)
    (hinterface : settings.managementInterface.toText?.isSome = true)
    (hgateway : settings.managementGateway.toText?.isSome = true)
    (hlimit : UserData.limit settings = .ok most) :
    ∃ text, (exportDesign .machines r.devices r.connections settings g now).outcome = .ok text := by
  have hdevices := (Compiled.ofDesign_eq_ok.1 hc).2.2.2.1
  obtain ⟨machines, hm⟩ : ∃ machines,
      (c.machines settings (chosenGeneration g now)).outcome = .ok machines := by
    rw [Compiled.machines, Journal.outcome_mapM, hdevices]
    refine Outcome.exists_mapM_eq_ok fun d hd => ?_
    obtain ⟨n, hn⟩ := hcores d hd
    exact Machine.exists_build (hr.devices.known d hd) hinterface hgateway hlimit hn
  refine (exists_exportDesign_iff (by decide)).2 ⟨c, machines, hc, hm, fun m hmem => ?_⟩
  rw [Compiled.machines, Journal.outcome_mapM] at hm
  obtain ⟨d, -, hbuild⟩ := Outcome.exists_of_mem_mapM hm hmem
  exact Manifest.isSome_render? (Machine.hasText_build hbuild)

/-! ## What the stages have to do with each other -/

/-- The attachments and claims of a first stage and the machines of a second fit together. -/
structure Staged (r : Registry) (mode : Value) (segments : List Segment) (generation : String)
    (attachments claims machines : List Manifest) : Prop where
  /-- There is one attachment for each segment. -/
  attachment_each : attachments.map Manifest.identity? =
    segments.map fun s => some ("NetworkAttachmentDefinition", s.name)
  /-- There is one claim for each device, in their order. -/
  claim_each : claims.map Manifest.identity? =
    r.devices.map fun d => some ("PersistentVolumeClaim", Naming.claimName d.id)
  /-- There is one machine for each device, in their order. -/
  machine_each : machines.map Manifest.identity? =
    r.devices.map fun d => some ("VirtualMachine", Naming.machineName d.id generation)
  /-- A machine's attachment is exactly one document of the first stage. -/
  attached : ∀ m ∈ machines, ∀ name ∈ m.attachmentNames, (attachments ++ claims).countP
    (fun k => k.identity? == some ("NetworkAttachmentDefinition", name)) = 1
  /-- Each machine has one disk that is claimed, by the claim of its device. -/
  disks : machines.map Manifest.claimNames = r.devices.map fun d => [Naming.claimName d.id]
  /-- A machine's claim is a document of the first stage. -/
  claimed : ∀ m ∈ machines, ∀ name ∈ m.claimNames, ∃ k ∈ attachments ++ claims,
    k.identity? = some ("PersistentVolumeClaim", name)
  /-- Each attachment is one of some machine's, and by connections of exactly two machines'. -/
  used : ∀ k ∈ attachments, ∃ name, k.identity? = some ("NetworkAttachmentDefinition", name) ∧
    0 < machines.countP (fun m => m.attachmentNames.contains name) ∧
    (mode = .text "connection" →
      machines.countP (fun m => m.attachmentNames.contains name) = 2)

section Fitting

variable {r : Registry} {c : Compiled} {settings : Settings} {generation : String}
  {attachments claims machines : List Manifest}

/-- The attachments that the machines of a registry refer to are the segments of its devices. -/
theorem map_attachmentNames (h : r.WellFormed) {mode : NetworkMode}
    (ha : Analysis.Follows r.devices (Analysis.plans mode r.devices r.connections) c.analysis)
    (hassigned : (Assignment.assign r.devices c.analysis).outcome = .ok c.assignments)
    (hdevices : c.devices = r.devices) (hm : (c.machines settings generation).outcome = .ok machines) :
    machines.map Manifest.attachmentNames = r.devices.map fun d =>
      Analysis.plannedNames d.id (Analysis.plans mode r.devices r.connections) := by
  rw [Compiled.machines, Journal.outcome_mapM, hdevices] at hm
  have hbuilt : machines.map Manifest.attachmentNames =
      r.devices.map fun d => (c.assignmentsOf d).map Assignment.network := by
    refine Outcome.map_of_mapM_eq_ok hm ?_
    intro d m hm
    rw [Manifest.attachmentNames, (Machine.build_lists hm).2.1, Machine.attachments_networks]
  rw [hbuilt]
  refine List.map_congr_left ?_
  intro d hd
  obtain ⟨xs, hget, hnetworks, -⟩ := Assignment.assign_numbered h ha hassigned hd
  rw [Compiled.assignmentsOf, hget, Option.getD_some, hnetworks]

/-- As many machines refer to the attachment of a segment as the segment has members. -/
theorem countP_attachmentNames (h : r.WellFormed) {mode : NetworkMode}
    (hmachines : machines.map Manifest.attachmentNames = r.devices.map fun d =>
      Analysis.plannedNames d.id (Analysis.plans mode r.devices r.connections))
    {p : Segment.Plan} {k : Nat} (hpk : (p, k) ∈ (Analysis.plans mode r.devices r.connections).zipIdx 1) :
    machines.countP (fun m => m.attachmentNames.contains (Segment.nameOf k)) = p.members.length := by
  have hcount := congrArg (List.countP fun names => names.contains (Segment.nameOf k)) hmachines
  rw [List.countP_map, List.countP_map] at hcount
  exact hcount.trans (Analysis.countP_plannedNames h hpk)

/-- Among the documents of the first stage, the attachment of a segment is there once. -/
theorem countP_attachment (hnames : (c.analysis.segments.values.map Segment.name).Nodup)
    (ha : attachments.map Manifest.identity? =
      c.analysis.segments.values.map fun s => some ("NetworkAttachmentDefinition", s.name))
    (hc : claims.map Manifest.identity? =
      r.devices.map fun d => some ("PersistentVolumeClaim", Naming.claimName d.id))
    {s : Segment} (hs : s ∈ c.analysis.segments.values) :
    (attachments ++ claims).countP
      (fun k => k.identity? == some ("NetworkAttachmentDefinition", s.name)) = 1 := by
  have hattachments : attachments.countP
      (fun k => k.identity? == some ("NetworkAttachmentDefinition", s.name)) = 1 := by
    have hcount := congrArg (List.countP fun i => i == some ("NetworkAttachmentDefinition", s.name)) ha
    rw [List.countP_map, List.countP_map] at hcount
    calc attachments.countP _ = _ := hcount
      _ = c.analysis.segments.values.countP fun t => t.name == s.name := by
        refine List.countP_congr ?_
        intro t _
        simp
      _ = (c.analysis.segments.values.map Segment.name).count s.name := by
        rw [List.count, List.countP_map]
        rfl
      _ = 1 := List.count_eq_one_of_mem hnames (List.mem_map_of_mem hs)
  have hclaims : claims.countP
      (fun k => k.identity? == some ("NetworkAttachmentDefinition", s.name)) = 0 := by
    have hcount := congrArg (List.countP fun i => i == some ("NetworkAttachmentDefinition", s.name)) hc
    rw [List.countP_map, List.countP_map] at hcount
    refine hcount.trans (List.countP_eq_zero.2 ?_)
    simp
  rw [List.countP_append, hattachments, hclaims]

/-- What a machine refers to as an attachment is a segment. -/
theorem exists_segment_of_attachmentName {mode : NetworkMode}
    (ha : Analysis.Follows r.devices (Analysis.plans mode r.devices r.connections) c.analysis)
    (hlists : machines.map Manifest.attachmentNames = r.devices.map fun d =>
      Analysis.plannedNames d.id (Analysis.plans mode r.devices r.connections))
    {m : Manifest} (hm : m ∈ machines) {name : String} (hname : name ∈ m.attachmentNames) :
    ∃ s ∈ c.analysis.segments.values, s.name = name := by
  have hlisted : m.attachmentNames ∈ machines.map Manifest.attachmentNames := List.mem_map_of_mem hm
  rw [hlists] at hlisted
  obtain ⟨d, hd, hplanned⟩ := List.mem_map.1 hlisted
  rw [← hplanned] at hname
  obtain ⟨p, k, hpk, -, rfl⟩ := Analysis.mem_plannedNames.1 hname
  refine ⟨Segment.ofPlan k p, ?_, rfl⟩
  rw [OrderedMap.values, ha.segments]
  exact List.mem_map_of_mem (Analysis.mem_planned.2 ⟨p, k, hpk, rfl⟩)

/-- What a machine refers to as a claim is one of the claims. -/
theorem exists_claim_of_claimName
    (hclaims : claims.map Manifest.identity? =
      r.devices.map fun d => some ("PersistentVolumeClaim", Naming.claimName d.id))
    (hdisks : machines.map Manifest.claimNames = r.devices.map fun d => [Naming.claimName d.id])
    {m : Manifest} (hm : m ∈ machines) {name : String} (hname : name ∈ m.claimNames) :
    ∃ k ∈ claims, k.identity? = some ("PersistentVolumeClaim", name) := by
  have hlisted : m.claimNames ∈ machines.map Manifest.claimNames := List.mem_map_of_mem hm
  rw [hdisks] at hlisted
  obtain ⟨d, hd, hclaim⟩ := List.mem_map.1 hlisted
  rw [← hclaim, List.mem_singleton] at hname
  subst hname
  have hidentity : some ("PersistentVolumeClaim", Naming.claimName d.id) ∈ claims.map Manifest.identity? := by
    rw [hclaims]
    exact List.mem_map_of_mem hd
  exact List.mem_map.1 hidentity

/-- What a compiled design of a registry gives in the two stages fits together. -/
theorem staged_of_compiled (h : r.WellFormed)
    (hcompiled : (Compiled.ofDesign r.devices r.connections settings).outcome = .ok c)
    (ha : (c.attachments settings).outcome = .ok attachments) (hc : c.claims settings = .ok claims)
    (hm : (c.machines settings generation).outcome = .ok machines) :
    Staged r settings.networkMode c.analysis.segments.values generation attachments claims machines := by
  obtain ⟨-, hanalysis, hassigned, hdevices, -⟩ := Compiled.ofDesign_eq_ok.1 hcompiled
  obtain ⟨mode, hmode, hfollows⟩ := Analysis.analyze_follows h hanalysis
  have hnames := (Analysis.analyze_ownNames h hanalysis).nodup
  have hattachments := Attachment.buildAll_identity ha
  have hclaims : claims.map Manifest.identity? =
      r.devices.map fun d => some ("PersistentVolumeClaim", Naming.claimName d.id) := by
    rw [Compiled.claims, hdevices] at hc
    exact Outcome.map_of_mapM_eq_ok hc fun d m => Claim.build_identity
  have hlists := map_attachmentNames h hfollows hassigned hdevices hm
  rw [Compiled.machines, Journal.outcome_mapM, hdevices] at hm
  have hdisks : machines.map Manifest.claimNames = r.devices.map fun d => [Naming.claimName d.id] :=
    Outcome.map_of_mapM_eq_ok hm fun d m hm => (Machine.build_lists hm).2.2
  refine {
    attachment_each := hattachments
    claim_each := hclaims
    machine_each := Outcome.map_of_mapM_eq_ok hm fun d m => Machine.build_identity
    attached := ?_
    disks := hdisks
    claimed := ?_
    used := ?_ }
  · intro m hmem name hname
    obtain ⟨s, hs, rfl⟩ := exists_segment_of_attachmentName hfollows hlists hmem hname
    exact countP_attachment hnames hattachments hclaims hs
  · intro m hmem name hname
    obtain ⟨k, hk, hkid⟩ := exists_claim_of_claimName hclaims hdisks hmem hname
    exact ⟨k, List.mem_append_right _ hk, hkid⟩
  · intro k hk
    have hidentity : k.identity? ∈ attachments.map Manifest.identity? := List.mem_map_of_mem hk
    rw [hattachments] at hidentity
    obtain ⟨s, hs, hkid⟩ := List.mem_map.1 hidentity
    rw [OrderedMap.values, hfollows.segments] at hs
    obtain ⟨e, he, rfl⟩ := List.mem_map.1 hs
    obtain ⟨p, n, hpn, rfl⟩ := Analysis.mem_planned.1 he
    have hcount := countP_attachmentNames h hlists hpn
    have hp := List.fst_mem_of_mem_zipIdx hpn
    -- every segment has members, and each of their machines is attached to it once
    refine ⟨Segment.nameOf n, hkid.symm, ?_, ?_⟩
    · rw [hcount]
      exact List.length_pos_iff.2 (Analysis.plans_members_ne_nil h hp)
    · intro hconnection
      rw [hconnection] at hmode
      obtain rfl : mode = .connection := (Except.ok.inj hmode).symm
      rw [hcount, Analysis.length_members_of_connection hp]

end Fitting

/-- Of every registry, a full export succeeds exactly when its two stages do, whatever generation the
first stage has. Its manifests are then those of the first stage followed by those of the second, and the
stages fit together. -/
theorem exportDesign_staged (history : List Change) (settings : Settings) (g₁ g₂ : Option String)
    (now₁ now₂ : Moment) :
    let r := Registry.after history
    let outcome := fun mode g now => (exportDesign mode r.devices r.connections settings g now).outcome
    ((∃ text, outcome .full g₂ now₂ = .ok text) ↔
      (∃ text, outcome .claims g₁ now₁ = .ok text) ∧ ∃ text, outcome .machines g₂ now₂ = .ok text) ∧
    ∀ whole base later, outcome .full g₂ now₂ = .ok whole → outcome .claims g₁ now₁ = .ok base →
      outcome .machines g₂ now₂ = .ok later →
      ∃ (c : Compiled) (attachments claims machines : List Manifest)
        (wholeHeader baseHeader laterHeader : List String),
        (Compiled.ofDesign r.devices r.connections settings).outcome = .ok c ∧
        (exportManifests .claims c settings (chosenGeneration g₁ now₁)).outcome =
          .ok (attachments ++ claims) ∧
        (exportManifests .machines c settings (chosenGeneration g₂ now₂)).outcome = .ok machines ∧
        (exportManifests .full c settings (chosenGeneration g₂ now₂)).outcome =
          .ok (attachments ++ claims ++ machines) ∧
        Manifest.renderStream? baseHeader (attachments ++ claims) = some base ∧
        Manifest.renderStream? laterHeader machines = some later ∧
        Manifest.renderStream? wholeHeader (attachments ++ claims ++ machines) = some whole ∧
        Staged r settings.networkMode c.analysis.segments.values (chosenGeneration g₂ now₂)
          attachments claims machines := by
  intro r outcome
  have hr : r.WellFormed := Registry.wellFormed_after history
  refine ⟨exists_exportDesign_full_iff, ?_⟩
  intro whole base later hwhole hbase hlater
  obtain ⟨c, ms, hc, hms, hwholeStream⟩ := (exportDesign_eq_ok (by decide)).1 hwhole
  obtain ⟨c', first, hc', hfirst, hbaseStream⟩ := (exportDesign_eq_ok (by decide)).1 hbase
  obtain ⟨c'', machines, hc'', hmachines, hlaterStream⟩ := (exportDesign_eq_ok (by decide)).1 hlater
  obtain rfl : c = c' := Except.ok.inj (hc.symm.trans hc')
  obtain rfl : c = c'' := Except.ok.inj (hc.symm.trans hc'')
  -- the manifests of the full export are those of the stages
  have hfull := exportManifests_full_eq_append.2 ⟨first, machines, hfirst, hmachines, rfl⟩
  obtain rfl : ms = first ++ machines := Except.ok.inj (hms.symm.trans hfull)
  obtain ⟨attachments, claims, ha, hclaims, rfl⟩ := exportManifests_claims_eq_ok.1 hfirst
  exact ⟨c, attachments, claims, machines, _, _, _, hc, hfirst, hmachines, hfull, hbaseStream,
    hlaterStream, hwholeStream, staged_of_compiled hr hc ha hclaims hmachines⟩

/-- The stages for a router with two hosts, a generation apart. -/
theorem exportDesign_staged_twoHosts :
    let r := Registry.after (Assignment.twoHosts .null .null .null .null)
    let now : Moment := ⟨⟨2024, 10, 18⟩, 14, 32, 59, 0, none⟩
    let outcome := fun mode g => (exportDesign mode r.devices r.connections {} (some g) now).outcome
    ∃ whole base later segments attachments claims machines, outcome .full "g2" = .ok whole ∧
      outcome .claims "g1" = .ok base ∧ outcome .machines "g2" = .ok later ∧
      machines.map Manifest.claimNames = [["r-pvc"], ["a-pvc"], ["b-pvc"]] ∧
      Staged r (.text "connection") segments "g2" attachments claims machines := by
  intro r now outcome
  have hr : r.WellFormed := Registry.wellFormed_after _
  have hcores : ∀ d ∈ r.devices, ∃ n, Quantity.cores d.cpu d.type = .ok n := by
    have hall : ∀ d ∈ r.devices, (Quantity.cores d.cpu d.type).toOption.isSome = true := by
      decide +kernel
    exact fun d hd => Outcome.exists_of_isSome_toOption (hall d hd)
  obtain ⟨base, hbase⟩ : ∃ base, outcome .claims "g1" = .ok base :=
    Outcome.exists_of_isSome_toOption (by decide +kernel)
  obtain ⟨c, -, hc, -⟩ := (exportDesign_eq_ok (by decide)).1 hbase
  obtain ⟨later, hlater⟩ : ∃ later, outcome .machines "g2" = .ok later :=
    exists_exportDesign_machines hr hc hcores rfl rfl rfl
  obtain ⟨hiff, hfit⟩ := exportDesign_staged (Assignment.twoHosts .null .null .null .null) {}
    (some "g1") (some "g2") now now
  obtain ⟨whole, hwhole⟩ := hiff.2 ⟨⟨base, hbase⟩, later, hlater⟩
  obtain ⟨c, attachments, claims, machines, -, -, -, -, -, -, -, -, -, -, hstaged⟩ :=
    hfit whole base later hwhole hbase hlater
  refine ⟨whole, base, later, _, attachments, claims, machines, hwhole, hbase, hlater, ?_, hstaged⟩
  rw [hstaged.disks]
  decide +kernel

end VirtNet
