import VirtNet.Proofs.Export.Stream
import VirtNet.Proofs.Yaml.Read.Shown

/-!
# Control sequences in exports

The headers and the documents of an export have no escape characters, so the control sequences in its text
are those in the ids that its comments name. As every device is named there, the text has one exactly when
an id has one (`exportDesign_uncontrolled_iff`).
-/

namespace VirtNet

open Text

/-- A document has no escape character: it is written as an escape. -/
theorem Yaml.escapeChar_not_mem_toYaml (v : Value) : escapeChar ∉ (toYaml v).toList := by
  intro h
  rw [toYaml, String.toList_ofList] at h
  exact absurd (Shown.writeDocument _ _ h) (by decide)

namespace Manifest

variable {header : List String} {ms : List Manifest} {m : Manifest} {text : String}

theorem escapeChar_not_mem_headerPart (h : ∀ line ∈ header, escapeChar ∉ line.toList) :
    escapeChar ∉ headerPart header := by
  rw [headerPart, String.toList_append, joinWith, String.toList_ofList, List.mem_append, not_or]
  refine ⟨fun hmem => ?_, by decide⟩
  rcases mem_join hmem with hmem | ⟨f, hf, hmem⟩
  · exact absurd hmem (by decide)
  · simp only [List.map_map, List.mem_map] at hf
    obtain ⟨line, hline, rfl⟩ := hf
    exact not_mem_headerLine (by decide) (h line hline) hmem

/-- The control sequences in the part of a manifest are those in its comment. -/
theorem uncontrolled_part : Uncontrolled m.part ↔ Uncontrolled m.comment.toList := by
  have hfeed : continuesControl '\n' = false := by decide
  have hdocument : escapeChar ∉ '\n' :: (Yaml.toYaml m.body).toList := by
    rw [List.mem_cons, not_or]
    exact ⟨by decide, Yaml.escapeChar_not_mem_toYaml m.body⟩
  have hpart : m.part = ['#', ' '] ++ (m.comment.toList ++ '\n' :: (Yaml.toYaml m.body).toList) := part_eq
  rw [hpart, uncontrolled_append_of_not_mem (by decide), uncontrolled_append (by simp [hfeed]) hdocument]

/-- The control sequences in a stream are those in the comments. -/
theorem uncontrolled_renderStream?_iff (h : renderStream? header ms = some text)
    (hheader : ∀ line ∈ header, escapeChar ∉ line.toList) :
    Uncontrolled text.toList ↔ ∀ m ∈ ms, Uncontrolled m.comment.toList := by
  have hparts := @uncontrolled_join '-' "--\n".toList (headerPart header :: ms.map part) (by decide)
    (by decide)
  rw [List.forall_mem_cons, List.forall_mem_map,
    and_iff_right (uncontrolled_of_not_mem (escapeChar_not_mem_headerPart hheader))] at hparts
  rw [renderStream?_eq_some h]
  exact hparts.trans (forall₂_congr fun m _ => uncontrolled_part)

end Manifest

variable {r : Registry} {c : Compiled} {settings : Settings} {mode : ExportMode} {now : Moment}

/-- The manifests of an export name devices, and each device has one that names it alone. -/
theorem exportManifests_names {generation : String} {ms : List Manifest} (h : r.WellFormed)
    (hdevices : c.devices = r.devices)
    (hcompiled : mode ≠ .basic →
      (Compiled.ofDesign r.devices r.connections settings).outcome = .ok c)
    (hms : (exportManifests mode c settings generation).outcome = .ok ms) :
    (∀ m ∈ ms, ∃ names, m.Names names ∧ ∀ id ∈ names, id ∈ r.devices.map Device.id) ∧
      ∀ d ∈ r.devices, ∃ m ∈ ms, m.Names [d.id] := by
  have hone : ∀ d ∈ c.devices, ∀ m : Manifest, m.Names [d.id] →
      (∃ names, m.Names names ∧ ∀ id ∈ names, id ∈ r.devices.map Device.id) ∧ m.Names [d.id] := by
    intro d hd m hm
    rw [hdevices] at hd
    exact ⟨⟨_, hm, List.forall_mem_singleton.2 (List.mem_map_of_mem hd)⟩, hm⟩
  have heach := exportManifests_forall ?_ (fun d hd m hm => hone d hd m (Claim.names_build hm))
    (fun d hd m hm => hone d hd m (Machine.names_build hm))
    (fun d hd m hm => hone d hd m (Machine.names_buildBasic hm)) hms
  · rw [← hdevices] at heach ⊢
    exact heach
  · intro as hmode ha m hm
    obtain ⟨s, bridge, hbuild, hname, hsubnet, hmembers⟩ :=
      exists_segment_of_mem_attachments h (hcompiled hmode) ha m hm
    exact ⟨s.members, Attachment.names_build hname hsubnet hbuild, hmembers⟩

/-- The text of an export has a control sequence exactly when an id of a device has one. -/
theorem exportDesign_uncontrolled_iff {generation : Option String} {text : String} (h : r.WellFormed)
    (htext : (exportDesign mode r.devices r.connections settings generation now).outcome = .ok text) :
    Uncontrolled text.toList ↔ ∀ d ∈ r.devices, Uncontrolled d.id.toList := by
  obtain ⟨c, ms, hdevices, hcompiled, hms, hstream⟩ := exportDesign_stream htext
  obtain ⟨hnames, hnamed⟩ := exportManifests_names h hdevices hcompiled hms
  have hescape : escapeChar.toNat < 32 := by decide
  rw [Manifest.uncontrolled_renderStream?_iff hstream (not_mem_exportHeader hescape ?_)]
  · constructor
    · intro hclean d hd
      obtain ⟨m, hm, hname⟩ := hnamed d hd
      exact hname.uncontrolled_iff.1 (hclean m hm) d.id (List.mem_singleton_self _)
    · intro hids m hm
      obtain ⟨names, hname, hmembers⟩ := hnames m hm
      refine hname.uncontrolled_iff.2 fun id hid => ?_
      obtain ⟨d, hd, rfl⟩ := List.mem_map.1 (hmembers id hid)
      exact hids d hd
  · rintro rfl
    obtain ⟨-, hanalysis, -⟩ := Compiled.ofDesign_eq_ok.1 (hcompiled (by decide))
    obtain ⟨m, hm, -⟩ := Analysis.analyze_follows h hanalysis
    exact (NetworkMode.printing hm).not_mem hescape

end VirtNet
