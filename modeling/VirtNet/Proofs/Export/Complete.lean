import VirtNet.Proofs.Assignment.Failure
import VirtNet.Proofs.Export.Staged
import VirtNet.Proofs.Manifest.Bridges

/-!
# Exports that cannot fail

A design that compiles is exported unless a number keeps it from being written (`Writable`): the attachments
of its segments and the claims and machines of its devices can always be built, and what they are built of
can be written (`exists_exportDesign_of_compiled`).
-/

namespace VirtNet

variable {settings : Settings}

/-! ## Attachments and claims -/

namespace Attachment

variable {s : Segment} {segments : List Segment} {bridge : String} {m : Manifest}

/-- The base of a segment has a third octet. -/
theorem exists_thirdOctet (h : Address.IsBase s.base) : ∃ octet, thirdOctet s = .ok octet := by
  have hthree := h.three
  unfold thirdOctet Segment.thirdOctet?
  rw [List.getElem?_eq_getElem (by omega), Option.map_some]
  exact ⟨_, rfl⟩

/-- A bridge can be named for every segment. -/
theorem exists_bridgeNamesFrom (h : ∀ s ∈ segments, Address.IsBase s.base) (used : List String)
    (names : OrderedMap String) :
    ∃ bridges, (bridgeNamesFrom used names segments).outcome = .ok bridges := by
  induction segments generalizing used names with
  | nil => exact ⟨names, rfl⟩
  | cons s rest ih =>
    rw [List.forall_mem_cons] at h
    obtain ⟨octet, hoctet⟩ := exists_thirdOctet h.1
    rw [bridgeNamesFrom, Journal.outcome_bind, outcome_bridgeName hoctet, Outcome.ok_bind]
    exact ih h.2 _ _

/-- Every segment has an attachment. -/
theorem exists_build (h : Address.IsBase s.base) :
    ∃ m, (build s bridge settings).outcome = .ok m := by
  obtain ⟨octet, hoctet⟩ := exists_thirdOctet h
  simp only [build, Journal.outcome_bind, Journal.outcome_note, Journal.outcome_ofExcept, hoctet,
    Outcome.ok_bind, Journal.outcome_pure]
  exact ⟨_, rfl⟩

theorem exists_buildAll (h : ∀ s ∈ segments, Address.IsBase s.base) :
    ∃ ms, (buildAll segments settings).outcome = .ok ms := by
  obtain ⟨bridges, hbridges⟩ := exists_bridgeNamesFrom h [] .empty
  rw [buildAll, Journal.outcome_bind, bridgeNames, hbridges, Outcome.ok_bind, Journal.outcome_mapM]
  exact Outcome.exists_mapM_eq_ok fun s hs => exists_build (h s hs)

/-- There are only texts in an attachment. -/
theorem hasText_build (h : (build s bridge settings).outcome = .ok m) : m.body.hasText = true := by
  simp only [build, Journal.outcome_bind, Journal.outcome_note, Outcome.ok_bind,
    Journal.outcome_ofExcept, Outcome.bind_eq_ok] at h
  obtain ⟨octet, -, hm⟩ := h
  cases hm
  have hlabels : (labels s octet).hasText = true := by
    unfold labels
    split <;> simp [Value.hasText_record, Value.hasText]
  simp [Value.hasText_record, Value.hasText, hlabels]

theorem hasText_of_mem_buildAll {ms : List Manifest} (h : (buildAll segments settings).outcome = .ok ms)
    (hm : m ∈ ms) : m.body.hasText = true := by
  rw [buildAll, Journal.outcome_bind, Outcome.bind_eq_ok] at h
  obtain ⟨bridges, -, h⟩ := h
  rw [Journal.outcome_mapM] at h
  obtain ⟨s, -, hbuild⟩ := Outcome.exists_of_mem_mapM h hm
  exact hasText_build hbuild

end Attachment

namespace Claim

variable {d : Device} {m : Manifest}

/-- A device of one of the three types has a claim. -/
theorem exists_build (h : d.type.isKnown = true) : ∃ m, build d settings = .ok m := by
  obtain ⟨word, hword⟩ := Option.isSome_iff_exists.1 h
  rw [build, DeviceType.word, hword]
  exact ⟨_, rfl⟩

/-- A claim can be written where the settings in it can. -/
theorem hasText_build (himage : settings.imageUrl.hasText = true)
    (hclass : settings.storageClass.hasText = true) (h : build d settings = .ok m) :
    m.body.hasText = true := by
  simp only [build, Outcome.bind_eq_ok] at h
  obtain ⟨type, -, hm⟩ := h
  cases hm
  simp [Value.hasText_record, Value.hasText, Value.texts, Value.allHaveText_eq_all, himage, hclass]

end Claim

/-! ## Full exports -/

/-- The numbers of settings and of the devices to export can be written: those in the settings that pass
through to the documents, and the processor counts. -/
structure Writable (devices : List Device) (settings : Settings) : Prop where
  image : settings.imageUrl.hasText = true
  storageClass : settings.storageClass.hasText = true
  management : settings.managementInterface.hasText = true
  gateway : settings.managementGateway.hasText = true
  cores : ∀ d ∈ devices, ∃ n, Quantity.cores d.cpu d.type = .ok n

variable {r : Registry} {c : Compiled} {g : Option String} {now : Moment}

/-- A value that can be written has a text. -/
theorem Value.isSome_toText? {v : Value} (h : v.hasText = true) : v.toText?.isSome = true := by
  rw [toText?, if_pos h]
  rfl

/-- The attachments and claims of a design that compiles can be exported. -/
theorem exists_exportDesign_claims (hr : r.WellFormed) (hwritable : Writable r.devices settings)
    (hc : (Compiled.ofDesign r.devices r.connections settings).outcome = .ok c) :
    ∃ text, (exportDesign .claims r.devices r.connections settings g now).outcome = .ok text := by
  obtain ⟨-, hanalysis, -, hdevices, -⟩ := Compiled.ofDesign_eq_ok.1 hc
  obtain ⟨mode, -, hfollows⟩ := Analysis.analyze_follows hr hanalysis
  have hfits := Assignment.fits_of_follows hr hfollows
  have hbases : ∀ s ∈ c.analysis.segments.values, Address.IsBase s.base := by
    intro s hs
    obtain ⟨e, he, rfl⟩ := List.mem_map.1 hs
    exact hfits.base e he
  obtain ⟨attachments, hattachments⟩ : ∃ ms, (c.attachments settings).outcome = .ok ms :=
    Attachment.exists_buildAll hbases
  obtain ⟨claims, hclaims⟩ : ∃ ms, c.claims settings = .ok ms := by
    rw [Compiled.claims, hdevices]
    exact Outcome.exists_mapM_eq_ok fun d hd => Claim.exists_build (hr.devices.known d hd)
  refine (exists_exportDesign_iff (by decide)).2 ⟨c, attachments ++ claims, hc,
    exportManifests_claims_eq_ok.2 ⟨attachments, claims, hattachments, hclaims, rfl⟩, ?_⟩
  intro m hm
  refine Manifest.isSome_render? ?_
  rcases List.mem_append.1 hm with hm | hm
  · exact Attachment.hasText_of_mem_buildAll hattachments hm
  · obtain ⟨d, -, hbuild⟩ := Outcome.exists_of_mem_mapM hclaims hm
    exact Claim.hasText_build hwritable.image hwritable.storageClass hbuild

/-- A design that compiles is exported where its numbers can be written. -/
theorem exists_exportDesign_of_compiled (hr : r.WellFormed) (hwritable : Writable r.devices settings)
    {most : Int} (hlimit : UserData.limit settings = .ok most)
    (hc : (Compiled.ofDesign r.devices r.connections settings).outcome = .ok c) :
    ∃ text, (exportDesign .full r.devices r.connections settings g now).outcome = .ok text := by
  have hclaims : ∃ text,
      (exportDesign .claims r.devices r.connections settings g now).outcome = .ok text :=
    exists_exportDesign_claims hr hwritable hc
  refine exists_exportDesign_full_iff.2 ⟨hclaims, exists_exportDesign_machines hr hc hwritable.cores
    (Value.isSome_toText? hwritable.management) (Value.isSome_toText? hwritable.gateway) hlimit⟩

end VirtNet
