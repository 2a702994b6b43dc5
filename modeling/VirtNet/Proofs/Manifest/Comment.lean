import VirtNet.Manifest.Attachment
import VirtNet.Manifest.Claim
import VirtNet.Manifest.Machine
import VirtNet.Proofs.Journal
import VirtNet.Proofs.Text.Control
import VirtNet.Proofs.Value.Text

/-!
# Comments

The comment of a manifest names devices: their ids as they are, between texts without control characters
(`Manifest.Names`). So a line feed in a comment is one in an id (`Manifest.Names.not_mem_iff`), and a
control sequence in it is one in an id (`Manifest.Names.uncontrolled_iff`).
-/

namespace VirtNet

namespace Text

variable {as bs cs : List Char} {c : Char}

/-- A text without control characters; these come before the space, which is number 32. -/
def Printing (cs : List Char) : Prop := ∀ c ∈ cs, 32 ≤ c.toNat

instance : DecidablePred Printing := fun cs =>
  decidable_of_iff (cs.all (32 ≤ ·.toNat) = true) (by simp [Printing])

/-- A control character is no digit. -/
theorem isDigit_of_lt (h : c.toNat < 32) : c.isDigit = false := by
  refine Bool.eq_false_iff.2 fun hdigit => ?_
  simp only [Char.isDigit, Bool.and_eq_true, decide_eq_true_eq] at hdigit
  have hzero : 48 ≤ c.toNat := hdigit.1
  omega

namespace Printing

@[simp]
theorem nil : Printing [] := fun _ hc => nomatch hc

@[simp]
theorem cons_iff : Printing (c :: cs) ↔ 32 ≤ c.toNat ∧ Printing cs := List.forall_mem_cons

@[simp]
theorem append_iff : Printing (as ++ bs) ↔ Printing as ∧ Printing bs := List.forall_mem_append

theorem not_mem (h : Printing cs) (hc : c.toNat < 32) : c ∉ cs := fun hmem => Nat.not_lt.2 (h c hmem) hc

/-- A text is without control characters where it is without each. -/
theorem of_not_mem (h : ∀ c : Char, c.toNat < 32 → c ∉ cs) : Printing cs :=
  fun c hc => Nat.not_lt.1 fun hlt => h c hlt hc

@[simp]
theorem toDigits (n : Nat) : Printing (Nat.toDigits 10 n) :=
  of_not_mem fun _ hc => not_mem_toDigits (isDigit_of_lt hc) n

end Printing

end Text

open Text

/-- The word for a type of devices has no control characters. -/
theorem DeviceType.printing_word {type : DeviceType} {word : String} (h : type.word = .ok word) :
    Printing word.toUpper.toList := by
  cases type with
  | other => cases h
  | vm | router | switch =>
    cases h
    decide +kernel

namespace Manifest

/-- The comment of a manifest names devices. Around their ids it has no control characters, and what is
after them does not continue a control sequence. -/
structure Names (names : List String) (m : Manifest) : Prop where
  comment : ∃ front back, Printing front ∧ Printing back ∧
    back.head?.all (!continuesControl ·) = true ∧
    m.comment.toList = front ++ join " <-> ".toList (names.map String.toList) ++ back

namespace Names

variable {names : List String} {m : Manifest} {c : Char}

/-- A control character in a comment is one in an id. -/
theorem not_mem_iff (h : m.Names names) (hc : c.toNat < 32) :
    c ∉ m.comment.toList ↔ ∀ id ∈ names, c ∉ id.toList := by
  obtain ⟨front, back, hfront, hback, -, hcomment⟩ := h.comment
  have hbetween : Printing " <-> ".toList := (by decide)
  rw [hcomment, List.mem_append, List.mem_append, not_or, not_or, and_iff_left (hback.not_mem hc),
    and_iff_right (hfront.not_mem hc)]
  constructor
  · intro hjoin id hid hmem
    exact hjoin (mem_join_of_mem (List.mem_map_of_mem hid) hmem)
  · intro hids hmem
    rcases mem_join hmem with hmem | ⟨f, hf, hmem⟩
    · exact hbetween.not_mem hc hmem
    · obtain ⟨id, hid, rfl⟩ := List.mem_map.1 hf
      exact hids id hid hmem

/-- A comment that names one device breaks its line where the id does. -/
theorem lineFeed_iff {id : String} (h : m.Names [id]) : '\n' ∉ m.comment.toList ↔ '\n' ∉ id.toList := by
  rw [h.not_mem_iff (by decide), List.forall_mem_singleton]

/-- A control sequence in a comment is one in an id. -/
theorem uncontrolled_iff (h : m.Names names) :
    Uncontrolled m.comment.toList ↔ ∀ id ∈ names, Uncontrolled id.toList := by
  obtain ⟨front, back, hfront, hback, hends, hcomment⟩ := h.comment
  have hescape : escapeChar.toNat < 32 := by decide
  rw [hcomment, uncontrolled_append hends (hback.not_mem hescape),
    uncontrolled_append_of_not_mem (hfront.not_mem hescape)]
  have hjoin := @uncontrolled_join ' ' "<-> ".toList (names.map String.toList) (by decide) (by decide)
  rw [List.forall_mem_map] at hjoin
  exact hjoin

/-- A comment that ends with an id. -/
theorem of_last {id : String} (front : String) (hfront : Printing front.toList) (h : m.comment = front ++ id) :
    m.Names [id] :=
  ⟨front.toList, [], hfront, .nil, rfl, by simp [h, join]⟩

end Names

end Manifest

/-! ## The builders -/

variable {settings : Settings} {generation : String} {m : Manifest} {d : Device}

/-- An attachment names the members of its segment. -/
theorem Attachment.names_build {s : Segment} {bridge : String} (hname : Printing s.name.toList)
    (hsubnet : Printing s.subnet.toList) (h : (build s bridge settings).outcome = .ok m) :
    m.Names s.members := by
  have htext : ∀ s : String, toString s = s := fun _ => rfl
  simp only [build, Journal.outcome_bind, Journal.outcome_note, Outcome.ok_bind,
    Journal.outcome_ofExcept, Outcome.bind_eq_ok] at h
  obtain ⟨octet, -, hm⟩ := h
  cases hm
  refine ⟨(s!"Network {s.name}: {s.subnet} (").toList, [')'], ?_, by decide, by decide, ?_⟩
  · simp [htext, hname, hsubnet]
  · simp [htext, joinWith]

/-- A claim names its device. -/
theorem Claim.names_build (h : build d settings = .ok m) : m.Names [d.id] := by
  have htext : ∀ s : String, toString s = s := fun _ => rfl
  simp only [build, Outcome.bind_eq_ok] at h
  obtain ⟨type, htype, hm⟩ := h
  cases hm
  have hword := DeviceType.printing_word htype
  exact .of_last s!"PVC for {type.toUpper}: " (by simp [htext, hword]) rfl

namespace Machine

/-- A machine names its device. -/
theorem names_build {xs : List Assignment} (h : (build d xs settings generation).outcome = .ok m) :
    m.Names [d.id] := by
  have htext : ∀ s : String, toString s = s := fun _ => rfl
  simp only [build, Journal.outcome_bind, Journal.outcome_ofExcept, Outcome.bind_eq_ok] at h
  obtain ⟨userData, hrender, type, htype, spec, hspec, hm⟩ := h
  cases hm
  have hword := DeviceType.printing_word htype
  have hspace : continuesControl ' ' = false := by decide
  refine ⟨(s!"{type.toUpper}: ").toList,
    (s!" with Multi-Interface Configuration ({xs.length} interfaces)").toList, ?_, ?_, ?_, ?_⟩
  · simp [htext, hword]
  · simp [htext]
  · simp [htext, hspace]
  · simp [htext, join]

/-- A machine on the cluster's own network names its device. -/
theorem names_buildBasic (h : buildBasic d settings = .ok m) : m.Names [d.id] := by
  have htext : ∀ s : String, toString s = s := fun _ => rfl
  simp only [buildBasic, Outcome.bind_eq_ok] at h
  obtain ⟨userData, -, type, htype, spec, -, hm⟩ := h
  cases hm
  have hword := DeviceType.printing_word htype
  exact .of_last s!"Basic {type.toUpper}: " (by simp [htext, hword]) rfl

end Machine

end VirtNet
