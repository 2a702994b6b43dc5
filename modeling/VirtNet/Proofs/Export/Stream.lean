import VirtNet.Proofs.Export.Staged
import VirtNet.Proofs.Manifest.Document

/-!
# Streams of documents

The text of an export comes apart again at the lines between its documents. These are its header, every
line of which is a comment, and for each manifest its comment line and its document, exactly when no id of
a device breaks its line and every document but the last ends its line (`exportDesign_parts`). Ids are
only trimmed, so a line feed inside one of them is kept, and breaks the line of each comment that names the
device.
-/

namespace VirtNet

open Text

namespace Manifest

/-- The part of a stream before its documents. -/
def headerPart (header : List String) : List Char :=
  (joinWith "\n" (header.map headerLine) ++ "\n").toList

/-- The part of a stream for a manifest: a comment line, then the document. -/
def part (m : Manifest) : List Char := (s!"# {m.comment}\n{Yaml.toYaml m.body}").toList

variable {header : List String} {ms : List Manifest} {m : Manifest}

theorem part_eq : m.part = '#' :: ' ' :: (m.comment.toList ++ '\n' :: (Yaml.toYaml m.body).toList) := by
  have htext : ∀ s : String, toString s = s := fun _ => rfl
  simp [part, htext]

/-- A stream is its parts with marks between them. -/
theorem renderStream?_eq_some {text : String} (h : renderStream? header ms = some text) :
    text.toList = join "---\n".toList (headerPart header :: ms.map part) := by
  have hpart : ∀ (m : Manifest) s, m.render? = some s → s.toList = m.part := by
    intro m s hs
    rw [render?, Yaml.toYaml?] at hs
    split at hs
    · obtain rfl := Option.some.inj hs
      rfl
    · cases hs
  unfold renderStream? at h
  cases hms : ms.mapM render? with
  | none =>
    rw [hms] at h
    cases h
  | some ss =>
    rw [hms] at h
    cases h
    rw [joinWith, String.toList_ofList, List.map_cons, Outcome.map_of_mapM_eq_some hms hpart]
    rfl

/-! ## The header -/

/-- A header line starts as a comment. -/
theorem head?_headerLine (line : String) : (headerLine line).toList.head? = some '#' := by
  obtain ⟨dropped, hdropped⟩ := List.rdropWhile_prefix isBlank (s!"# {line}").toList
  have hline : (s!"# {line}").toList = '#' :: ' ' :: line.toList := by
    rw [String.toList_append]
    rfl
  rw [headerLine, stripEnd, String.toList_ofList]
  show ((s!"# {line}").toList.rdropWhile isBlank).head? = some '#'
  cases hkept : (s!"# {line}").toList.rdropWhile isBlank with
  | nil =>
    rw [List.rdropWhile_eq_nil_iff, hline] at hkept
    exact absurd (hkept '#' List.mem_cons_self) (by decide)
  | cons c rest =>
    rw [hkept, hline] at hdropped
    rw [(List.cons.inj hdropped).1]
    rfl

/-- A header line is its text after the mark of a comment, without some blanks. -/
theorem not_mem_headerLine {c : Char} (hc : c ∉ ['#', ' ']) {line : String} (h : c ∉ line.toList) :
    c ∉ (headerLine line).toList := by
  have htext : ∀ s : String, toString s = s := fun _ => rfl
  rw [headerLine, stripEnd, String.toList_ofList]
  intro hmem
  have hline := (List.rdropWhile_prefix isBlank (s!"# {line}").toList).subset hmem
  simp only [List.mem_cons, List.not_mem_nil, or_false, not_or] at hc
  simp [htext, h, hc] at hline

/-- A header ends its line. -/
theorem endsLine_headerPart (header : List String) : EndsLine (headerPart header) := by
  rw [headerPart, String.toList_append]
  exact Yaml.endsLine_append (by decide)

/-- The lines of a header. -/
theorem lines_headerPart (hne : header ≠ []) (h : ∀ line ∈ header, '\n' ∉ line.toList) :
    lines (headerPart header) = header.map fun line => (headerLine line).toList ++ ['\n'] := by
  have hlines : ∀ l ∈ (header.map headerLine).map String.toList, '\n' ∉ l := by
    simp only [List.map_map, List.forall_mem_map]
    exact fun line hline => not_mem_headerLine (by decide) (h line hline)
  rw [headerPart, String.toList_append, joinWith, String.toList_ofList,
    show "\n".toList = ['\n'] from rfl, lines_join (by simpa using hne) hlines, List.map_map,
    List.map_map]
  rfl

/-- Every line of a header is a comment. -/
theorem head?_of_mem_lines_headerPart (hne : header ≠ []) (h : ∀ line ∈ header, '\n' ∉ line.toList) :
    ∀ l ∈ lines (headerPart header), l.head? = some '#' := by
  rw [lines_headerPart hne h, List.forall_mem_map]
  intro line _
  rw [List.head?_append, head?_headerLine]
  rfl

end Manifest

/-- The name of a mode has no control characters. -/
theorem NetworkMode.printing {v : Value} {mode : NetworkMode} (h : ofValue v = .ok mode) :
    Printing v.toText.toList := by
  obtain ⟨s, rfl, hmem⟩ := Analysis.ofValue_eq_ok h
  have hnames : ∀ e ∈ table, Printing e.1.toList := by decide
  exact hnames _ hmem

theorem NetworkMode.lineFeed_not_mem {v : Value} {mode : NetworkMode} (h : ofValue v = .ok mode) :
    '\n' ∉ v.toText.toList :=
  (printing h).not_mem (by decide)

/-- A control character in an export's header is one in the name of the mode. -/
theorem not_mem_exportHeader {c : Char} (hc : c.toNat < 32) {mode : ExportMode} {now : Moment}
    {devices connections segments : Nat} {networkMode : String}
    (h : mode = .full → c ∉ networkMode.toList) :
    ∀ line ∈ exportHeader mode now devices connections segments networkMode, c ∉ line.toList := by
  have htext : ∀ s : String, toString s = s := fun _ => rfl
  have hne : ∀ d : Char, 32 ≤ d.toNat → c ≠ d := by
    rintro d hd rfl
    omega
  have hnumber : ∀ n, c ∉ Nat.toDigits 10 n := fun n => (Printing.toDigits n).not_mem hc
  have hgenerated : Printing (generatedLine now).toList := by
    rw [generatedLine, String.toList_append, Printing.append_iff]
    refine ⟨by decide, .of_not_mem fun d hd => ?_⟩
    exact Moment.not_mem_textWith (isDigit_of_lt hd) (Printing.not_mem (by decide) hd)
      (Printing.not_mem (by decide) hd) now
  cases mode with
  | full => simp [exportHeader, htext, hgenerated.not_mem hc, hnumber, h rfl, hne]
  | claims => simp [exportHeader, htext, hgenerated.not_mem hc, hnumber, hne]
  | machines => simp [exportHeader, hgenerated.not_mem hc, hne]
  | basic => simp [exportHeader, hgenerated.not_mem hc, hne]

/-- The lines of an export's header have no line feeds in them if the name of the mode has none. -/
theorem lineFeed_not_mem_exportHeader {mode : ExportMode} {now : Moment}
    {devices connections segments : Nat} {networkMode : String}
    (h : mode = .full → '\n' ∉ networkMode.toList) :
    ∀ line ∈ exportHeader mode now devices connections segments networkMode, '\n' ∉ line.toList :=
  not_mem_exportHeader (by decide) h

/-! ## The manifests of an export -/

section Manifests

variable {r : Registry} {c : Compiled} {settings : Settings} {generation : String} {ms : List Manifest}

/-- The attachments of a compiled design are those of segments whose names and subnets have no control
characters and whose members are devices. -/
theorem exists_segment_of_mem_attachments (h : r.WellFormed)
    (hcompiled : (Compiled.ofDesign r.devices r.connections settings).outcome = .ok c)
    (hms : (c.attachments settings).outcome = .ok ms) :
    ∀ m ∈ ms, ∃ s bridge, (Attachment.build s bridge settings).outcome = .ok m ∧
      Printing s.name.toList ∧ Printing s.subnet.toList ∧
      ∀ id ∈ s.members, id ∈ r.devices.map Device.id := by
  obtain ⟨-, hanalysis, -⟩ := Compiled.ofDesign_eq_ok.1 hcompiled
  obtain ⟨mode, -, hfollows⟩ := Analysis.analyze_follows h hanalysis
  unfold Compiled.attachments Attachment.buildAll at hms
  rw [Journal.bind_eq_ok] at hms
  obtain ⟨bridges, -, hms⟩ := hms
  rw [Journal.outcome_mapM] at hms
  intro m hm
  obtain ⟨s, hs, hbuild⟩ := Outcome.exists_of_mem_mapM hms hm
  rw [OrderedMap.values, hfollows.segments] at hs
  obtain ⟨e, he, rfl⟩ := List.mem_map.1 hs
  obtain ⟨p, k, hpk, rfl⟩ := Analysis.mem_planned.1 he
  refine ⟨_, _, hbuild, ?_, ?_, ?_⟩
  · show Printing (Segment.nameOf k).toList
    have htext : ∀ s : String, toString s = s := fun _ => rfl
    simp [Segment.nameOf, htext]
  · -- there are only digits and dots in a base
    have hbase : Printing (Segment.ofPlan k p).base.toList := .of_not_mem fun d hd =>
      Segment.numeric_formed.not_mem (isDigit_of_lt hd) fun hdot => by simp [hdot] at hd
    show Printing (Segment.subnetOf (Segment.ofPlan k p).base).toList
    rw [Segment.subnetOf, String.toList_append, Printing.append_iff]
    exact ⟨hbase, by decide⟩
  · intro id hid
    obtain ⟨d, hd, rfl⟩ := Analysis.plans_members h (List.fst_mem_of_mem_zipIdx hpk) id hid
    exact List.mem_map_of_mem hd

section Each

variable {P : Manifest → Prop} {Q : Device → Manifest → Prop}

/-- What holds of all that is built for a device holds of what a loop over the devices builds. -/
theorem forall_of_mapM {ds : List Device} {f : Device → Except BuildError Manifest}
    (each : ∀ d ∈ ds, ∀ m, f d = .ok m → P m ∧ Q d m) (hms : ds.mapM f = .ok ms) :
    (∀ m ∈ ms, P m) ∧ ∀ d ∈ ds, ∃ m ∈ ms, Q d m := by
  constructor
  · intro m hm
    obtain ⟨d, hd, hf⟩ := Outcome.exists_of_mem_mapM hms hm
    exact (each d hd m hf).1
  · intro d hd
    obtain ⟨m, hm, hf⟩ := Outcome.mem_of_mapM_eq_ok hms hd
    exact ⟨m, hm, (each d hd m hf).2⟩

/-- What holds of all attachments, claims and machines holds of the manifests of an export, and each device
has one there, in every mode. -/
theorem exportManifests_forall {mode : ExportMode}
    (attachments : ∀ as, mode ≠ .basic → (c.attachments settings).outcome = .ok as → ∀ m ∈ as, P m)
    (claim : ∀ d ∈ c.devices, ∀ m, Claim.build d settings = .ok m → P m ∧ Q d m)
    (machine : ∀ d ∈ c.devices, ∀ m,
      (Machine.build d (c.assignmentsOf d) settings generation).outcome = .ok m → P m ∧ Q d m)
    (basic : ∀ d ∈ c.devices, ∀ m, Machine.buildBasic d settings = .ok m → P m ∧ Q d m)
    (hms : (exportManifests mode c settings generation).outcome = .ok ms) :
    (∀ m ∈ ms, P m) ∧ ∀ d ∈ c.devices, ∃ m ∈ ms, Q d m := by
  have hmachines : ∀ machines, (c.machines settings generation).outcome = .ok machines →
      (∀ m ∈ machines, P m) ∧ ∀ d ∈ c.devices, ∃ m ∈ machines, Q d m := by
    intro machines hm
    rw [Compiled.machines, Journal.outcome_mapM] at hm
    exact forall_of_mapM machine hm
  cases mode with
  | full =>
    obtain ⟨as, claims, machines, ha, hc, hm, rfl⟩ := exportManifests_full_eq_ok.1 hms
    have hclaims := forall_of_mapM claim hc
    refine ⟨?_, fun d hd => ?_⟩
    · rw [List.forall_mem_append, List.forall_mem_append]
      exact ⟨⟨attachments as (by decide) ha, hclaims.1⟩, (hmachines machines hm).1⟩
    · obtain ⟨m, hmem, hq⟩ := (hmachines machines hm).2 d hd
      exact ⟨m, List.mem_append_right _ hmem, hq⟩
  | claims =>
    obtain ⟨as, claims, ha, hc, rfl⟩ := exportManifests_claims_eq_ok.1 hms
    have hclaims := forall_of_mapM claim hc
    refine ⟨List.forall_mem_append.2 ⟨attachments as (by decide) ha, hclaims.1⟩, fun d hd => ?_⟩
    obtain ⟨m, hmem, hq⟩ := hclaims.2 d hd
    exact ⟨m, List.mem_append_right _ hmem, hq⟩
  | machines => exact hmachines ms hms
  | basic =>
    rw [show exportManifests .basic c settings generation =
      Journal.ofExcept (c.devices.mapM fun d => Machine.buildBasic d settings) from rfl,
      Journal.outcome_ofExcept] at hms
    exact forall_of_mapM basic hms

end Each

/-- The manifests of an export are proper, and each device has one whose comment names it. -/
theorem exportManifests_proper {mode : ExportMode} (h : r.WellFormed) (hdevices : c.devices = r.devices)
    (hcompiled : mode ≠ .basic →
      (Compiled.ofDesign r.devices r.connections settings).outcome = .ok c)
    (hms : (exportManifests mode c settings generation).outcome = .ok ms) :
    (∀ m ∈ ms, m.Proper (r.devices.map Device.id) settings.storageClass) ∧
      ∀ d ∈ r.devices, ∃ m ∈ ms, '\n' ∉ m.comment.toList → '\n' ∉ d.id.toList := by
  rw [← hdevices]
  refine exportManifests_forall ?_ (fun d hd m => Claim.build_proper (List.mem_map_of_mem hd))
    (fun d hd m => Machine.build_proper (List.mem_map_of_mem hd))
    (fun d hd m => Machine.buildBasic_proper (List.mem_map_of_mem hd)) hms
  intro as hmode ha m hm
  obtain ⟨s, bridge, hbuild, hname, hsubnet, hmembers⟩ :=
    exists_segment_of_mem_attachments h (hcompiled hmode) ha m hm
  rw [← hdevices] at hmembers
  exact Attachment.build_proper hname hsubnet hmembers hbuild

end Manifests

/-! ## The text of an export -/

/-- An export that succeeds is the stream of its manifests. A basic export has neither segments nor
addresses. -/
theorem exportDesign_stream {devices : List Device} {connections : List Connection}
    {settings : Settings} {mode : ExportMode} {generation : Option String} {now : Moment}
    {text : String}
    (h : (exportDesign mode devices connections settings generation now).outcome = .ok text) :
    ∃ c ms, c.devices = devices ∧
      (mode ≠ .basic → (Compiled.ofDesign devices connections settings).outcome = .ok c) ∧
      (exportManifests mode c settings (chosenGeneration generation now)).outcome = .ok ms ∧
      Manifest.renderStream? (exportHeader mode now devices.length connections.length
        c.analysis.segments.entries.length settings.networkMode.toText) ms = some text := by
  by_cases hmode : mode = .basic
  · subst hmode
    unfold exportDesign at h
    dsimp only at h
    split at h
    · cases h
    · simp only [Journal.outcome_bind, Journal.outcome_mapError, Journal.outcome_pure,
        Outcome.ok_bind, Outcome.bind_eq_ok, Outcome.mapError_eq_ok] at h
      obtain ⟨ms, hms, hrender⟩ := h
      split at hrender
      · next stream hstream =>
        cases hrender
        -- a basic export compiles nothing, and its manifests are those of the devices
        exact ⟨⟨devices, connections, .empty, .empty⟩, ms, rfl, fun hne => absurd rfl hne, hms, hstream⟩
      · cases hrender
  · obtain ⟨c, ms, hc, hms, hstream⟩ := (exportDesign_eq_ok hmode).1 h
    exact ⟨c, ms, (Compiled.ofDesign_eq_ok.1 hc).2.2.2.1, fun _ => hc, hms, hstream⟩

/-- The part of a proper manifest has no marks if its comment is on one line. -/
theorem Manifest.Proper.part_not_mark {ids : List String} {storageClass : Value} {m : Manifest}
    (h : m.Proper ids storageClass) (hcomment : '\n' ∉ m.comment.toList) :
    m.part ≠ [] ∧ ∀ l ∈ lines m.part, isMark l = false := by
  rw [part_eq]
  refine ⟨List.cons_ne_nil _ _, Unmarked.not_mark ?_ (by simp)⟩
  rw [Yaml.unmarked_cons_of_ne (by decide), Yaml.unmarked_cons_of_ne (by decide), unmarked_append]
  exact ⟨unmarked_of_not_mem hcomment, h.unmarked, fun _ => by simp⟩

/-- A header of comment lines has no marks. -/
theorem Manifest.headerPart_not_mark {header : List String}
    (h : ∀ l ∈ lines (headerPart header), l.head? = some '#') :
    headerPart header ≠ [] ∧ ∀ l ∈ lines (headerPart header), isMark l = false := by
  constructor
  · rw [headerPart, String.toList_append]
    exact List.append_ne_nil_of_right_ne_nil _ (by decide)
  · intro l hl
    exact isMark_of_head?_ne (by rw [h l hl]; decide)

/-- A stream of proper manifests under comments of one line each comes apart exactly when every part but
the last ends its line. -/
theorem Manifest.parts_stream_iff {ids : List String} {storageClass : Value} {header : List String}
    {ms : List Manifest} {text : String} (hstream : renderStream? header ms = some text)
    (hheader : ∀ l ∈ lines (headerPart header), l.head? = some '#')
    (hproper : ∀ m ∈ ms, m.Proper ids storageClass) (hclean : ∀ m ∈ ms, '\n' ∉ m.comment.toList) :
    parts text.toList = headerPart header :: ms.map part ↔ ∀ m ∈ ms.dropLast, EndsLine m.part := by
  have hparts : ∀ u ∈ headerPart header :: ms.map part, u ≠ [] ∧ ∀ l ∈ lines u, isMark l = false := by
    rw [List.forall_mem_cons, List.forall_mem_map]
    exact ⟨headerPart_not_mark hheader, fun m hm => (hproper m hm).part_not_mark (hclean m hm)⟩
  rw [renderStream?_eq_some hstream, parts_join_iff hparts]
  cases hms : ms with
  | nil => simp
  | cons m rest =>
    rw [List.dropLast_cons_of_ne_nil (by simp), List.forall_mem_cons, ← List.map_dropLast, List.forall_mem_map,
      and_iff_right (endsLine_headerPart header)]

/-- Of every registry, in every mode and under all settings, the text of an export has a header of
comment lines. It comes apart at its marks into the header and, for each manifest in order, the comment
line and the document, exactly when no id of a device breaks its line and the part of every manifest but
the last ends its line. All of these do unless the storage class of the claims ends in a text that is written as
a block and has a single break at its end, other than a line feed. -/
theorem exportDesign_parts (history : List Change) (mode : ExportMode) (settings : Settings)
    (generation : Option String) (now : Moment) :
    let r := Registry.after history
    ∀ text, (exportDesign mode r.devices r.connections settings generation now).outcome = .ok text →
      ∃ c ms, c.devices = r.devices ∧
        (mode ≠ .basic → (Compiled.ofDesign r.devices r.connections settings).outcome = .ok c) ∧
        (exportManifests mode c settings (chosenGeneration generation now)).outcome = .ok ms ∧
        let header := exportHeader mode now r.devices.length r.connections.length
          c.analysis.segments.entries.length settings.networkMode.toText
        Manifest.renderStream? header ms = some text ∧
        (∀ l ∈ lines (Manifest.headerPart header), l.head? = some '#') ∧
        ((parts text.toList = Manifest.headerPart header :: ms.map Manifest.part ∧
            ∀ m ∈ ms, '\n' ∉ m.comment.toList) ↔
          (∀ d ∈ r.devices, '\n' ∉ d.id.toList) ∧ ∀ m ∈ ms.dropLast, EndsLine m.part) ∧
        ((∀ s, Yaml.EndsIn s settings.storageClass → Yaml.Unfinished s →
          Yaml.keepsBreaks s.toList = true) → ∀ m ∈ ms, EndsLine m.part) := by
  intro r text h
  have hr : r.WellFormed := Registry.wellFormed_after history
  obtain ⟨c, ms, hdevices, hcompiled, hms, hstream⟩ := exportDesign_stream h
  obtain ⟨hproper, hnamed⟩ := exportManifests_proper hr hdevices hcompiled hms
  refine ⟨c, ms, hdevices, hcompiled, hms, ?_⟩
  intro header
  have hne : header ≠ [] := by
    cases mode <;> exact List.cons_ne_nil _ _
  have hheader : ∀ line ∈ header, '\n' ∉ line.toList := by
    -- the header names the network mode, and an analysis knows no mode with a line feed
    refine lineFeed_not_mem_exportHeader ?_
    rintro rfl
    obtain ⟨-, hanalysis, -⟩ := Compiled.ofDesign_eq_ok.1 (hcompiled (by decide))
    obtain ⟨m, hm, -⟩ := Analysis.analyze_follows hr hanalysis
    exact NetworkMode.lineFeed_not_mem hm
  have hcomments := Manifest.head?_of_mem_lines_headerPart hne hheader
  refine ⟨hstream, hcomments, ?_, ?_⟩
  · constructor
    · rintro ⟨hparts, hclean⟩
      refine ⟨fun d hd => ?_, (Manifest.parts_stream_iff hstream hcomments hproper hclean).1 hparts⟩
      obtain ⟨m, hm, hid⟩ := hnamed d hd
      exact hid (hclean m hm)
    · rintro ⟨hids, hlast⟩
      have hclean : ∀ m ∈ ms, '\n' ∉ m.comment.toList := fun m hm =>
        (hproper m hm).comment (by simpa using hids)
      exact ⟨(Manifest.parts_stream_iff hstream hcomments hproper hclean).2 hlast, hclean⟩
  · intro hclass m hm
    rw [Manifest.part, String.toList_append]
    exact Yaml.endsLine_append ((hproper m hm).endsLine hclass)

/-- The full export of two devices with ids on one line comes apart into its header and its documents. -/
theorem exportDesign_parts_capitalized : ∃ text header ms, exportCapitalized.outcome = .ok text ∧
    Manifest.renderStream? header ms = some text ∧
    parts text.toList = Manifest.headerPart header :: ms.map Manifest.part ∧
    ∀ m ∈ ms, '\n' ∉ m.comment.toList := by
  obtain ⟨text, h⟩ := exportCapitalized_eq_ok
  obtain ⟨c, ms, -, -, -, hstream, -, hiff, hends⟩ :=
    exportDesign_parts capitalized .full {} (some "g1") ⟨⟨2024, 10, 18⟩, 14, 32, 59, 0, none⟩ text h
  have hids : ∀ d ∈ (Registry.after capitalized).devices, '\n' ∉ d.id.toList := by decide +kernel
  -- the default storage class is a word
  have hclass : ∀ s, Yaml.EndsIn s (Value.text "nfs-client") → ¬ Yaml.Unfinished s := by
    rintro s ⟨⟩ ⟨hstyle, -⟩
    revert hstyle
    decide +kernel
  obtain ⟨hparts, hclean⟩ := hiff.2 ⟨hids, fun m hm =>
    hends (fun s hs hun => absurd hun (hclass s hs)) m (List.dropLast_subset _ hm)⟩
  exact ⟨text, _, ms, h, hstream, hparts, hclean⟩

/-- A device with a line feed in its id. -/
def twoLineId : List Change := [.addDevice { id := .text "a\nb", type := .text "vm" }]

/-- The basic export of the device: the comment over its machine is on two lines, the second of which is
the rest of the id. -/
theorem exportDesign_twoLineId :
    ∃ text header d m, (exportDesign .basic (Registry.after twoLineId).devices
        (Registry.after twoLineId).connections {} none ⟨⟨2024, 10, 18⟩, 14, 32, 59, 0, some 0⟩).outcome =
          .ok text ∧
      (Registry.after twoLineId).devices = [d] ∧ Machine.buildBasic d {} = .ok m ∧
      lines text.toList = lines (Manifest.headerPart header) ++
        ["---\n".toList, "# Basic VM: a\n".toList, "b\n".toList] ++
        lines (Yaml.toYaml m.body).toList := by
  obtain ⟨text, h⟩ : ∃ text, (exportDesign .basic (Registry.after twoLineId).devices
      (Registry.after twoLineId).connections {} none
      ⟨⟨2024, 10, 18⟩, 14, 32, 59, 0, some 0⟩).outcome = .ok text :=
    Outcome.exists_of_isSome_toOption (by decide +kernel)
  obtain ⟨c, ms, hdevices, -, hms, hstream⟩ := exportDesign_stream h
  obtain ⟨d, hd⟩ : ∃ d, (Registry.after twoLineId).devices = [d] :=
    List.length_eq_one_iff.1 (by decide +kernel)
  have hms : [d].mapM (fun d => Machine.buildBasic d {}) = .ok ms := by
    rw [← hd, ← hdevices]
    exact hms
  have hcomments : (Registry.after twoLineId).devices.map (fun d =>
      (Machine.buildBasic d {}).toOption.map Manifest.comment) = [some "Basic VM: a\nb"] := by
    decide +kernel
  rw [hd, List.map_singleton] at hcomments
  cases hm : Machine.buildBasic d {} with
  | error e =>
    rw [hm] at hcomments
    cases hcomments
  | ok m =>
    rw [hm] at hcomments
    rw [List.mapM_cons, hm] at hms
    cases hms
    have hcomment : m.comment = "Basic VM: a\nb" :=
      Option.some.inj (List.cons.inj hcomments).1
    obtain ⟨header, hstream⟩ : ∃ header, Manifest.renderStream? header [m] = some text := ⟨_, hstream⟩
    refine ⟨text, header, d, m, h, hd, hm, ?_⟩
    rw [Manifest.renderStream?_eq_some hstream]
    have hpart : m.part =
        "# Basic VM: a\n".toList ++ ("b\n".toList ++ (Yaml.toYaml m.body).toList) := by
      rw [Manifest.part_eq, hcomment]
      rfl
    calc lines (join "---\n".toList [Manifest.headerPart header, m.part])
        = lines (Manifest.headerPart header ++ ("---\n".toList ++ m.part)) := by
          rw [join, join, List.append_assoc]
      _ = lines (Manifest.headerPart header) ++ (lines "---\n".toList ++ lines m.part) := by
          rw [lines_append (Manifest.endsLine_headerPart header), lines_append (by decide)]
      _ = lines (Manifest.headerPart header) ++ (lines "---\n".toList ++ (lines "# Basic VM: a\n".toList ++
            (lines "b\n".toList ++ lines (Yaml.toYaml m.body).toList))) := by
          rw [hpart, lines_append (by decide), lines_append (by decide)]
      _ = _ := by
          rw [List.append_assoc]
          rfl

end VirtNet
