import Mathlib.Data.Option.Basic
import VirtNet.Export
import VirtNet.Proofs.Analysis.Names
import VirtNet.Proofs.Manifest
import VirtNet.Proofs.Naming

/-!
# Names in a full export

The documents of one kind have names of their own exactly when no two devices share a resource name
(`exportDesign_full_names`). Attachments never clash, since an analysis names its segments apart; a
claim and a machine are named for their device, and different ids can have the same resource name.
-/

namespace VirtNet

variable {devices : List Device} {connections : List Connection} {settings : Settings}
  {generation : String} {c : Compiled}

/-! ## What a full export is made of -/

/-- A compiled design is its analysis and the addresses assigned on it. -/
theorem Compiled.ofDesign_eq_ok :
    (ofDesign devices connections settings).outcome = .ok c ↔ devices ≠ [] ∧
      (Analysis.analyze settings.networkMode settings.strictSubnets devices connections).outcome =
        .ok c.analysis ∧
      (Assignment.assign devices c.analysis).outcome = .ok c.assignments ∧
      c.devices = devices ∧ c.connections = connections := by
  unfold ofDesign
  cases devices with
  | nil =>
    constructor
    · intro h
      cases h
    · intro h
      exact absurd rfl h.1
  | cons d rest =>
    simp only [List.isEmpty_cons, Bool.false_eq_true, if_false, Journal.outcome_bind,
      Journal.outcome_note, Outcome.ok_bind, Journal.outcome_mapError, Outcome.bind_eq_ok,
      Outcome.mapError_eq_ok]
    constructor
    · rintro ⟨analysis, hanalysis, assignments, hassignments, ⟨⟩⟩
      exact ⟨by simp, hanalysis, hassignments, rfl, rfl⟩
    · rintro ⟨-, hanalysis, hassignments, hdevices, rfl⟩
      refine ⟨_, hanalysis, _, hassignments, ?_⟩
      rw [← hdevices]
      rfl

/-- The manifests of a full export are the attachments, the claims and the machines. -/
theorem exportManifests_full_eq_ok {ms : List Manifest} :
    (exportManifests .full c settings generation).outcome = .ok ms ↔
      ∃ attachments claims machines, (c.attachments settings).outcome = .ok attachments ∧
        c.claims settings = .ok claims ∧ (c.machines settings generation).outcome = .ok machines ∧
        attachments ++ claims ++ machines = ms := by
  simp only [exportManifests, Journal.outcome_bind, Journal.outcome_ofExcept, Outcome.bind_eq_ok,
    Journal.outcome_pure]
  constructor
  · rintro ⟨attachments, ha, claims, hc, machines, hm, ⟨⟩⟩
    exact ⟨attachments, claims, machines, ha, hc, hm, rfl⟩
  · rintro ⟨attachments, claims, machines, ha, hc, hm, rfl⟩
    exact ⟨attachments, ha, claims, hc, machines, hm, rfl⟩

/-- An export of the designed network is the stream of the manifests of the compiled design. -/
theorem exportDesign_eq_ok {mode : ExportMode} (hmode : mode ≠ .basic) {generation : Option String}
    {now : Moment} {text : String} :
    (exportDesign mode devices connections settings generation now).outcome = .ok text ↔
      ∃ c ms, (Compiled.ofDesign devices connections settings).outcome = .ok c ∧
        (exportManifests mode c settings (chosenGeneration generation now)).outcome = .ok ms ∧
        Manifest.renderStream? (exportHeader mode now devices.length connections.length
          c.analysis.segments.entries.length settings.networkMode.toText) ms = some text := by
  have hcompile : exportDesign mode devices connections settings generation now = (do
      let c ← Compiled.ofDesign devices connections settings
      let manifests ←
        (exportManifests mode c settings (chosenGeneration generation now)).mapError .build
      (Manifest.renderStream? (exportHeader mode now devices.length connections.length
        c.analysis.segments.entries.length settings.networkMode.toText) manifests).elim
        (throw (.build .unwritable)) pure) := by
    rw [exportDesign]
    · refine bind_congr fun c => bind_congr fun ms => ?_
      generalize Manifest.renderStream? _ ms = stream?
      cases stream? <;> rfl
    · exact hmode
  simp only [hcompile, Journal.outcome_bind, Journal.outcome_mapError, Outcome.bind_eq_ok,
    Outcome.mapError_eq_ok]
  constructor
  · rintro ⟨c, hc, ms, hms, hrender⟩
    refine ⟨c, ms, hc, hms, ?_⟩
    cases hstream : Manifest.renderStream? (exportHeader mode now devices.length connections.length
        c.analysis.segments.entries.length settings.networkMode.toText) ms with
    | none =>
      rw [hstream] at hrender
      cases hrender
    | some stream =>
      rw [hstream] at hrender
      cases hrender
      rfl
  · rintro ⟨c, ms, hc, hms, hstream⟩
    refine ⟨c, hc, ms, hms, ?_⟩
    rw [hstream]
    rfl

/-- A full export that succeeds is the stream of the manifests of the compiled design. -/
theorem exportDesign_full_eq_ok {generation : Option String} {now : Moment} {text : String}
    (h : (exportDesign .full devices connections settings generation now).outcome = .ok text) :
    ∃ c header ms, (Compiled.ofDesign devices connections settings).outcome = .ok c ∧
      (exportManifests .full c settings (chosenGeneration generation now)).outcome = .ok ms ∧
      Manifest.renderStream? header ms = some text := by
  obtain ⟨c, ms, hc, hms, hstream⟩ := (exportDesign_eq_ok (by decide)).1 h
  exact ⟨c, _, ms, hc, hms, hstream⟩

/-! ## The names of its documents -/

/-- The kinds and names of the documents of a full export, in order. -/
def fullIdentities (segments : List Segment) (devices : List Device) (generation : String) :
    List (String × String) :=
  segments.map (fun s => ("NetworkAttachmentDefinition", s.name)) ++
    devices.map (fun d => ("PersistentVolumeClaim", Naming.claimName d.id)) ++
    devices.map fun d => ("VirtualMachine", Naming.machineName d.id generation)

/-- The manifests of a full export have these kinds and names. -/
theorem exportManifests_full_identities {ms : List Manifest}
    (h : (exportManifests .full c settings generation).outcome = .ok ms) :
    ms.map Manifest.identity? =
      (fullIdentities c.analysis.segments.values c.devices generation).map some := by
  obtain ⟨attachments, claims, machines, ha, hc, hm, rfl⟩ := exportManifests_full_eq_ok.1 h
  rw [Compiled.machines, Journal.outcome_mapM] at hm
  rw [List.map_append, List.map_append, Attachment.buildAll_identity ha,
    Outcome.map_of_mapM_eq_ok hc fun d m => Claim.build_identity,
    Outcome.map_of_mapM_eq_ok hm fun d m => Machine.build_identity]
  simp only [fullIdentities, List.map_append, List.map_map, Function.comp_def]

/-- Pairing every element with the same kind neither adds nor removes a repetition. -/
theorem nodup_map_kind {α : Type} (kind : String) (name : α → String) (as : List α) :
    (as.map fun a => (kind, name a)).Nodup ↔ (as.map name).Nodup := by
  simp only [List.Nodup, List.pairwise_map, ne_eq, Prod.mk.injEq, true_and]

/-- Where segments have names of their own, the documents do exactly when the devices have resource
names of their own. -/
theorem fullIdentities_nodup_iff {segments : List Segment}
    (hsegments : (segments.map Segment.name).Nodup) :
    (fullIdentities segments devices generation).Nodup ↔
      (devices.map fun d => Naming.resourceName d.id).Nodup := by
  have hclaims : (devices.map fun d => Naming.claimName d.id).Nodup ↔
      (devices.map fun d => Naming.resourceName d.id).Nodup := by
    simp only [List.Nodup, List.pairwise_map, ne_eq, Naming.claimName_inj]
  have hmachines : (devices.map fun d => Naming.machineName d.id generation).Nodup ↔
      (devices.map fun d => Naming.resourceName d.id).Nodup := by
    simp only [List.Nodup, List.pairwise_map, ne_eq, Naming.machineName_inj]
  rw [fullIdentities, List.nodup_append, List.nodup_append, nodup_map_kind, nodup_map_kind,
    nodup_map_kind, hclaims, hmachines]
  constructor
  · intro h
    exact h.2.1
  · intro h
    refine ⟨⟨hsegments, h, ?_⟩, h, ?_⟩
    -- documents of different lists have different kinds
    · rintro a ha b hb rfl
      obtain ⟨s, -, rfl⟩ := List.mem_map.1 ha
      simp at hb
    · rintro a ha b hb rfl
      obtain ⟨d, -, rfl⟩ := List.mem_map.1 hb
      simp at ha

/-- Of every registry, the documents of a full export have a kind and a name each. No two segments
share a name, and no two documents share kind and name exactly when no two devices share a resource
name; devices whose ids have the form of a resource name never do. -/
theorem exportDesign_full_names (history : List Change) (settings : Settings)
    (generation : Option String) (now : Moment) :
    let r := Registry.after history
    ∀ text, (exportDesign .full r.devices r.connections settings generation now).outcome = .ok text →
      ∃ (header : List String) (ms : List Manifest) (a : Analysis),
        Manifest.renderStream? header ms = some text ∧
        (Analysis.analyze settings.networkMode settings.strictSubnets r.devices
          r.connections).outcome = .ok a ∧
        ms.map Manifest.identity? =
          (fullIdentities a.segments.values r.devices (chosenGeneration generation now)).map some ∧
        (a.segments.values.map Segment.name).Nodup ∧
        ((ms.map Manifest.identity?).Nodup ↔
          (r.devices.map fun d => Naming.resourceName d.id).Nodup) ∧
        ((∀ d ∈ r.devices, Naming.IsName d.id) →
          (r.devices.map fun d => Naming.resourceName d.id).Nodup) := by
  intro r text h
  have hr : r.WellFormed := Registry.wellFormed_after history
  obtain ⟨c, header, ms, hc, hms, hstream⟩ := exportDesign_full_eq_ok h
  obtain ⟨-, hanalysis, -, hdevices, -⟩ := Compiled.ofDesign_eq_ok.1 hc
  have hsegments := (Analysis.analyze_ownNames hr hanalysis).nodup
  have hids := exportManifests_full_identities hms
  rw [hdevices] at hids
  refine ⟨header, ms, c.analysis, hstream, hanalysis, hids, hsegments, ?_, ?_⟩
  · rw [hids, List.nodup_map_iff (Option.some_injective _), fullIdentities_nodup_iff hsegments]
  · intro hnames
    have hsame : r.devices.map (fun d => Naming.resourceName d.id) = r.devices.map Device.id :=
      List.map_congr_left fun d hd => Naming.resourceName_of_isName (hnames d hd)
    rw [hsame]
    exact hr.devices.ids_nodup

/-- Two devices whose ids differ in a capital letter alone. -/
def capitalized : List Change := [
  .addDevice { id := .text "a", type := .text "vm" },
  .addDevice { id := .text "A", type := .text "vm" }]

/-- The full export of the two devices. -/
def exportCapitalized : Journal ExportError String :=
  exportDesign .full (Registry.after capitalized).devices (Registry.after capitalized).connections {}
    (some "g1") ⟨⟨2024, 10, 18⟩, 14, 32, 59, 0, none⟩

theorem exportCapitalized_eq_ok : ∃ text, exportCapitalized.outcome = .ok text :=
  Outcome.exists_of_isSome_toOption (by decide +kernel)

/-- The export is the case of two devices without a name of their own. -/
theorem exportDesign_full_names_capitalized :
    ∃ text header ms, exportCapitalized.outcome = .ok text ∧
      Manifest.renderStream? header ms = some text ∧
      ¬ (ms.map Manifest.identity?).Nodup := by
  obtain ⟨text, h⟩ := exportCapitalized_eq_ok
  obtain ⟨header, ms, a, hstream, -, -, -, hiff, -⟩ :=
    exportDesign_full_names capitalized {} (some "g1") ⟨⟨2024, 10, 18⟩, 14, 32, 59, 0, none⟩ text h
  refine ⟨text, header, ms, h, hstream, ?_⟩
  rw [hiff]
  decide +kernel

/-- The two devices are told to use one disk: the claims of both have the name `a-pvc`, and the
machines of both the name `a-g1`. -/
theorem exportDesign_capitalized :
    ∃ text header ms, exportCapitalized.outcome = .ok text ∧
      Manifest.renderStream? header ms = some text ∧
      ms.map Manifest.identity? = [some ("PersistentVolumeClaim", "a-pvc"),
        some ("PersistentVolumeClaim", "a-pvc"), some ("VirtualMachine", "a-g1"),
        some ("VirtualMachine", "a-g1")] := by
  obtain ⟨text, h⟩ := exportCapitalized_eq_ok
  obtain ⟨c, header, ms, hc, hms, hstream⟩ := exportDesign_full_eq_ok h
  obtain ⟨-, hanalysis, -, hdevices, -⟩ := Compiled.ofDesign_eq_ok.1 hc
  have hnone : ((Analysis.analyze (.text "connection") false (Registry.after capitalized).devices
      (Registry.after capitalized).connections).outcome.toOption.map fun a =>
        a.segments.values) = some [] := by
    decide +kernel
  have hsegments : c.analysis.segments.values = [] := by
    rw [show Analysis.analyze _ _ _ _ = Analysis.analyze (.text "connection") false _ _ from rfl]
      at hanalysis
    rw [hanalysis] at hnone
    exact Option.some.inj hnone
  refine ⟨text, header, ms, h, hstream, ?_⟩
  rw [exportManifests_full_identities hms, hsegments, hdevices]
  decide +kernel

end VirtNet
