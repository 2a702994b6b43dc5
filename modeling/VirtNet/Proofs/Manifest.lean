import VirtNet.Manifest.Attachment
import VirtNet.Manifest.Claim
import VirtNet.Manifest.Machine
import VirtNet.Proofs.Journal

/-!
# What manifests are known by and what they refer to

The cluster knows a document by its kind and its name. For each builder, these are what the document
that it builds has under `kind` and under `name` in `metadata`. A machine refers to attachments and
claims by name; the names are those of its segments and of its device.
-/

namespace VirtNet

/-- The value under a key of a mapping. -/
def Value.field? (key : String) : Value → Option Value
  | .dict entries => Value.lookup key entries
  | _ => none

/-- The text that a value is. -/
def Value.asText? : Value → Option String
  | .text s => some s
  | _ => none

/-- The value at the end of a path of keys. -/
def Value.at? : List String → Value → Option Value
  | [], v => some v
  | key :: path, v => (v.field? key).bind (at? path)

/-- The items of a list; anything else has none. -/
def Value.items : Value → List Value
  | .list items => items
  | _ => []

/-- The texts at the end of a path in the items of a list. -/
def Value.textsAt (path : List String) (v : Value) : List String :=
  v.items.filterMap fun item => (item.at? path).bind asText?

/-- The kind and the name of a manifest. -/
def Manifest.identity? (m : Manifest) : Option (String × String) := do
  let kind ← m.body.field? "kind"
  let metadata ← m.body.field? "metadata"
  let name ← metadata.field? "name"
  return (← kind.asText?, ← name.asText?)

/-- The attachment of a segment is named as the segment. -/
theorem Attachment.build_identity {s : Segment} {bridge : String} {settings : Settings} {m : Manifest}
    (h : (build s bridge settings).outcome = .ok m) :
    m.identity? = some ("NetworkAttachmentDefinition", s.name) := by
  simp only [build, Journal.outcome_bind, Journal.outcome_note, Outcome.ok_bind,
    Journal.outcome_ofExcept, Outcome.bind_eq_ok] at h
  obtain ⟨octet, -, hm⟩ := h
  cases hm
  rfl

/-- The claim of a device. -/
theorem Claim.build_identity {d : Device} {settings : Settings} {m : Manifest}
    (h : build d settings = .ok m) :
    m.identity? = some ("PersistentVolumeClaim", Naming.claimName d.id) := by
  simp only [build, Outcome.bind_eq_ok] at h
  obtain ⟨type, -, hm⟩ := h
  cases hm
  rfl

/-- The machine of a device. -/
theorem Machine.build_identity {d : Device} {assignments : List Assignment} {settings : Settings}
    {generation : String} {m : Manifest}
    (h : (build d assignments settings generation).outcome = .ok m) :
    m.identity? = some ("VirtualMachine", Naming.machineName d.id generation) := by
  simp only [build, Journal.outcome_bind, Journal.outcome_ofExcept, Outcome.bind_eq_ok] at h
  obtain ⟨userData, -, type, -, spec, -, hm⟩ := h
  cases hm
  rfl

/-! ## The cards and disks of a machine -/

/-- The interfaces that a machine lists. -/
def Manifest.interfaces (m : Manifest) : Value :=
  (m.body.at? ["spec", "template", "spec", "domain", "devices", "interfaces"]).getD .null

/-- The networks that a machine lists. -/
def Manifest.networks (m : Manifest) : Value :=
  (m.body.at? ["spec", "template", "spec", "networks"]).getD .null

/-- The attachments that a machine refers to. -/
def Manifest.attachmentNames (m : Manifest) : List String :=
  m.networks.textsAt ["multus", "networkName"]

/-- The claims that a machine refers to. -/
def Manifest.claimNames (m : Manifest) : List String :=
  ((m.body.at? ["spec", "template", "spec", "volumes"]).getD .null).textsAt
    ["persistentVolumeClaim", "claimName"]

namespace Machine

variable {d : Device} {assignments : List Assignment} {settings : Settings} {generation : String}
  {m : Manifest}

/-- The interfaces and networks of a machine are those of its segments, and its one claim is that of the
device. -/
theorem build_lists (h : (build d assignments settings generation).outcome = .ok m) :
    m.interfaces = interfaces (assignments.map Assignment.network) ∧
      m.networks = networks (assignments.map Assignment.network) ∧
      m.claimNames = [Naming.claimName d.id] := by
  simp only [build, templateSpec, Journal.outcome_bind, Journal.outcome_ofExcept,
    Outcome.bind_eq_ok] at h
  obtain ⟨userData, -, type, -, spec, ⟨cores, -, hspec⟩, hm⟩ := h
  cases hspec
  cases hm
  exact ⟨rfl, rfl, rfl⟩

/-- No segment is named as the cluster's network. -/
theorem podNetwork_ne_nameOf (n : Nat) : podNetwork ≠ Segment.nameOf n := by
  intro h
  have hnet : Segment.nameOf n = "net" ++ n.repr := rfl
  have hhead := congrArg (fun s => s.toList.head?) h
  rw [hnet, String.toList_append] at hhead
  simp [podNetwork] at hhead

/-- The names of the interfaces. -/
theorem names_interfaces (segments : List String) :
    (interfaces segments).textsAt ["name"] = podNetwork :: segments := by
  show podNetwork :: (segments.map fun name => _).filterMap _ = podNetwork :: segments
  rw [List.filterMap_map]
  exact congrArg _ (List.filterMap_some)

/-- The names of the networks. -/
theorem names_networks (segments : List String) :
    (networks segments).textsAt ["name"] = podNetwork :: segments := by
  show podNetwork :: (segments.map fun name => _).filterMap _ = podNetwork :: segments
  rw [List.filterMap_map]
  exact congrArg _ (List.filterMap_some)

/-- Every network but that of the cluster refers to an attachment, by its own name. -/
theorem attachments_networks (segments : List String) :
    (networks segments).textsAt ["multus", "networkName"] = segments := by
  show (segments.map fun name => _).filterMap _ = segments
  rw [List.filterMap_map]
  exact List.filterMap_some

end Machine

/-- The attachments of segments are named as the segments, in order. -/
theorem Attachment.buildAll_identity {segments : List Segment} {settings : Settings}
    {ms : List Manifest} (h : (buildAll segments settings).outcome = .ok ms) :
    ms.map Manifest.identity? =
      segments.map fun s => some ("NetworkAttachmentDefinition", s.name) := by
  unfold buildAll at h
  rw [Journal.bind_eq_ok] at h
  obtain ⟨bridges, -, hms⟩ := h
  rw [Journal.outcome_mapM] at hms
  exact Outcome.map_of_mapM_eq_ok hms fun s m => build_identity

end VirtNet
