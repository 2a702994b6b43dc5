import VirtNet.Proofs.Assignment.Networks
import VirtNet.Proofs.Export.Names
import VirtNet.Proofs.Manifest.Comment
import VirtNet.Proofs.Text.Numeral
import VirtNet.Proofs.Yaml.Anchor
import VirtNet.Proofs.Yaml.Marks

/-!
# The documents of manifests

What the documents that are exported have in common (`Manifest.Proper`): each is a mapping of two words and
two mappings, the comment over it is on one line where the ids of the devices are, and its text ends its
line unless the storage class of a claim keeps it from doing so. A document of writable values has a text
(`Manifest.isSome_render?`), and a machine's always is one (`Machine.hasText_build`).
-/

namespace VirtNet

open Text

/-- A manifest whose document has the four fields of a cluster's documents, whose comment breaks its line
only where one of the ids does, and whose document ends in an unfinished text only where the storage class
does. -/
structure Manifest.Proper (ids : List String) (storageClass : Value) (m : Manifest) : Prop where
  document : ∃ apiVersion kind metadata spec, m.body = .record [("apiVersion", .text apiVersion),
    ("kind", .text kind), ("metadata", .record metadata), ("spec", .record spec)]
  comment : (∀ id ∈ ids, '\n' ∉ id.toList) → '\n' ∉ m.comment.toList
  ends : ∀ s, Yaml.EndsIn s m.body → Yaml.Unfinished s → Yaml.EndsIn s storageClass

variable {ids : List String} {settings : Settings} {generation : String} {m : Manifest}

/-- A text that ends its line is finished. -/
theorem Yaml.not_unfinished {s : String} (h : EndsLine s.toList) : ¬ Unfinished s := by
  rintro ⟨-, c, hc, -, hne⟩
  rw [EndsLine, hc] at h
  exact hne (Option.some.inj h)

/-- What a mapping ends in, its last value does. -/
theorem Yaml.EndsIn.of_record {fields : List (String × Value)} {key s : String} {v : Value}
    (hlast : fields.getLast? = some (key, v)) (h : EndsIn s (.record fields)) : EndsIn s v := by
  cases h with
  | dict hentry h =>
    rw [List.getLast?_map, hlast] at hentry
    obtain rfl := Option.some.inj hentry
    exact h

theorem Yaml.EndsIn.of_list {vs : List Value} {s : String} {v : Value}
    (hlast : vs.getLast? = some v) (h : EndsIn s (.list vs)) : EndsIn s v := by
  cases h with
  | list hitem h =>
    obtain rfl := Option.some.inj (hlast.symm.trans hitem)
    exact h

/-! ## The builders -/

theorem Attachment.build_proper {s : Segment} {bridge : String} (hname : Printing s.name.toList)
    (hsubnet : Printing s.subnet.toList) (hmembers : ∀ id ∈ s.members, id ∈ ids)
    (h : (build s bridge settings).outcome = .ok m) : m.Proper ids settings.storageClass := by
  have hnames := names_build hname hsubnet h
  simp only [build, Journal.outcome_bind, Journal.outcome_note, Outcome.ok_bind,
    Journal.outcome_ofExcept, Outcome.bind_eq_ok] at h
  obtain ⟨octet, -, hm⟩ := h
  cases hm
  refine ⟨⟨_, _, _, _, rfl⟩, ?_, ?_⟩
  · intro hids
    exact (hnames.not_mem_iff (by decide)).2 fun id hid => hids id (hmembers id hid)
  · intro t ht hun
    obtain ⟨⟩ := (ht.of_record rfl).of_record rfl
    refine absurd hun (Yaml.not_unfinished ?_)
    rw [String.toList_append]
    exact Yaml.endsLine_append (by decide)

theorem Claim.build_proper {d : Device} (hd : d.id ∈ ids) (h : build d settings = .ok m) :
    m.Proper ids settings.storageClass ∧ ('\n' ∉ m.comment.toList → '\n' ∉ d.id.toList) := by
  have hcomment := (names_build h).lineFeed_iff
  simp only [build, Outcome.bind_eq_ok] at h
  obtain ⟨type, -, hm⟩ := h
  cases hm
  refine ⟨⟨⟨_, _, _, _, rfl⟩, fun hids => hcomment.2 (hids d.id hd), ?_⟩, hcomment.1⟩
  intro t ht _
  exact (ht.of_record rfl).of_record rfl

/-- User data ends its line. -/
theorem UserData.endsLine_serialize (config : Value) : EndsLine (serialize config).toList := by
  rw [serialize, String.toList_append]
  exact Yaml.endsLine_append (by decide)

theorem UserData.render_eq_ok {d : Device} {xs : List Assignment} {text : String}
    (h : (render d xs settings).outcome = .ok text) : ∃ config, text = serialize config := by
  simp only [render, Journal.outcome_bind, Journal.outcome_ofExcept, Journal.outcome_write,
    Outcome.bind_eq_ok] at h
  obtain ⟨config, -, most, -, -, -, h⟩ := h
  split at h
  · cases h
    exact ⟨config, rfl⟩
  · simp only [Journal.outcome_bind, Journal.outcome_ofExcept, Journal.outcome_note,
      Outcome.bind_eq_ok, Outcome.ok_bind] at h
    obtain ⟨shorter, -, h⟩ := h
    split at h
    all_goals
      cases h
      exact ⟨shorter, rfl⟩

namespace Machine

variable {d : Device} {segments : List String} {userData s : String} {spec : Value}
  {metadata template : List (String × Value)}

/-- The last thing in a machine is its user data. -/
theorem endsIn_templateSpec (h : templateSpec d segments userData = .ok spec)
    (hs : Yaml.EndsIn s spec) : s = userData := by
  simp only [templateSpec, Outcome.bind_eq_ok] at h
  obtain ⟨cores, -, h⟩ := h
  cases h
  have hvolume := (hs.of_record rfl).of_list rfl
  obtain ⟨⟩ := (hvolume.of_record rfl).of_record rfl
  rfl

theorem endsIn_document (hlast : template.getLast? = some ("spec", spec))
    (hs : Yaml.EndsIn s (document metadata template)) : Yaml.EndsIn s spec :=
  ((hs.of_record rfl).of_record rfl).of_record hlast

theorem build_proper {xs : List Assignment} (hd : d.id ∈ ids)
    (h : (build d xs settings generation).outcome = .ok m) :
    m.Proper ids settings.storageClass ∧ ('\n' ∉ m.comment.toList → '\n' ∉ d.id.toList) := by
  have hcomment := (names_build h).lineFeed_iff
  simp only [build, Journal.outcome_bind, Journal.outcome_ofExcept, Outcome.bind_eq_ok] at h
  obtain ⟨userData, hrender, type, -, spec, hspec, hm⟩ := h
  cases hm
  refine ⟨⟨⟨_, _, _, _, rfl⟩, fun hids => hcomment.2 (hids d.id hd), ?_⟩, hcomment.1⟩
  intro t ht hun
  obtain rfl := endsIn_templateSpec hspec (endsIn_document rfl ht)
  obtain ⟨config, rfl⟩ := UserData.render_eq_ok hrender
  exact absurd hun (Yaml.not_unfinished (UserData.endsLine_serialize config))

theorem buildBasic_proper (hd : d.id ∈ ids) (h : buildBasic d settings = .ok m) :
    m.Proper ids settings.storageClass ∧ ('\n' ∉ m.comment.toList → '\n' ∉ d.id.toList) := by
  have hcomment := (names_buildBasic h).lineFeed_iff
  simp only [buildBasic, UserData.renderBasic, Outcome.bind_eq_ok] at h
  obtain ⟨userData, ⟨word, -, hrender⟩, type, -, spec, hspec, hm⟩ := h
  cases hrender
  cases hm
  refine ⟨⟨⟨_, _, _, _, rfl⟩, fun hids => hcomment.2 (hids d.id hd), ?_⟩, hcomment.1⟩
  intro t ht hun
  obtain rfl := endsIn_templateSpec hspec (endsIn_document rfl ht)
  exact absurd hun (Yaml.not_unfinished (UserData.endsLine_serialize _))

end Machine

/-! ## Texts -/

namespace Manifest.Proper

variable {storageClass : Value}

/-- The keys of a document's fields are written on the lines of their values. -/
theorem simpleKey?_fields : ∀ key ∈ ["apiVersion", "kind", "metadata", "spec"],
    ∃ cs, Yaml.simpleKey? (.text key) = some cs ∧ cs ≠ [] ∧ cs.head? ≠ some '-' := by
  have hkeys : ∀ key ∈ ["apiVersion", "kind", "metadata", "spec"],
      Yaml.simpleKey? (.text key) = some key.toList ∧ key.toList ≠ [] ∧ key.toList.head? ≠ some '-' := by
    decide +kernel
  exact fun key hkey => ⟨_, hkeys key hkey⟩

/-- The document of a manifest has no hyphen after a line feed and none at its start. -/
theorem unmarked (h : m.Proper ids storageClass) : Unmarked ('\n' :: (Yaml.toYaml m.body).toList) := by
  obtain ⟨apiVersion, kind, metadata, spec, hbody⟩ := h.document
  rw [Yaml.toYaml, String.toList_ofList, hbody, Yaml.writeDocument, ← List.cons_append]
  refine Yaml.unmarked_append_of_head ?_ (by split <;> decide)
  -- anchors may stand inside the fields, which remain texts and mappings
  refine Yaml.unmarked_writeEntries_root ?_
  simp only [List.forall_mem_cons, List.not_mem_nil, false_implies, implies_true, and_true]
  exact ⟨⟨.text _, simpleKey?_fields _ (by decide)⟩, ⟨.text _, simpleKey?_fields _ (by decide)⟩,
    ⟨.dict _, simpleKey?_fields _ (by decide)⟩, .dict _, simpleKey?_fields _ (by decide)⟩

/-- The document of a manifest ends its line unless the storage class ends in an unfinished text with a
single break at its end. -/
theorem endsLine (h : m.Proper ids storageClass)
    (hclass : ∀ s, Yaml.EndsIn s storageClass → Yaml.Unfinished s →
      Yaml.keepsBreaks s.toList = true) : EndsLine (Yaml.toYaml m.body).toList := by
  rw [Yaml.toYaml, String.toList_ofList]
  refine Yaml.endsLine_writeDocument fun s hs hun => ?_
  exact hclass s (h.ends s (Yaml.Anchor.endsIn_of_place hs) hun) hun

end Manifest.Proper

/-! ## Writable documents -/

/-- A processor count that can be read can be written. -/
theorem Quantity.isWritable_cores {description : Option String} {type : DeviceType} {n : Nat}
    (h : cores description type = .ok n) : Text.isWritable n = true := by
  suffices hlt : n < Text.decimalBound from decide_eq_true hlt
  unfold cores at h
  dsimp only at h
  split at h
  · cases h
  · next hlength =>
    have hvalue := Text.lt_decimalBound (Text.digitsValue_lt _) (Nat.not_lt.1 hlength)
    split at h
    · cases h
      refine Text.lt_decimalBound (show _ < Nat.pow 10 1 from ?_) (by decide)
      unfold defaultCores
      split <;> decide
    · next hn =>
      cases h
      exact Nat.lt_of_le_of_lt (Nat.le_of_eq hn.symm) hvalue

/-- A manifest has a text where its document can be written. -/
theorem Manifest.isSome_render? {m : Manifest} (h : m.body.hasText = true) : m.render?.isSome = true := by
  rw [render?, Option.isSome_map]
  exact Yaml.Anchor.isSome_toYaml? h

/-- A machine can be written: the one number in it is its processor count. -/
theorem Machine.hasText_build {d : Device} {xs : List Assignment}
    (h : (build d xs settings generation).outcome = .ok m) : m.body.hasText = true := by
  simp only [build, templateSpec, Journal.outcome_bind, Journal.outcome_ofExcept, Outcome.bind_eq_ok,
    Outcome.mapError_eq_ok] at h
  obtain ⟨userData, -, type, -, spec, ⟨cores, hcores, hspec⟩, hm⟩ := h
  cases hspec
  cases hm
  have hwritable := Quantity.isWritable_cores hcores
  simp [document, interfaces, networks, Value.hasText_record, Value.hasText, Value.allHaveText_eq_all,
    hwritable]

end VirtNet
