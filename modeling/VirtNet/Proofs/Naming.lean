import VirtNet.Naming
import VirtNet.Proofs.Text.Trim

/-!
# Names of resources

An id that has the form of a resource name is its own resource name (`resourceName_of_isName`). The
names of a device's claim and machine tell exactly as much about the device as its resource name does.
-/

namespace VirtNet.Naming

/-- The form of a resource name: small letters, digits and hyphens, no hyphen at either end. -/
structure IsName (s : String) : Prop where
  nonempty : s.toList ≠ []
  chars : ∀ c ∈ s.toList, isNameChar c = true
  head : ∀ c, s.toList.head? = some c → (c == '-') = false
  last : ∀ c, s.toList.getLast? = some c → (c == '-') = false

/-- A text of characters to keep has no runs to replace. -/
theorem replaceRuns_of_all {keep : Char → Bool} {mark : Char} {inRun : Bool} {cs : List Char}
    (h : ∀ c ∈ cs, keep c = true) : replaceRuns keep mark inRun cs = cs := by
  induction cs generalizing inRun with
  | nil => rfl
  | cons c rest ih =>
    rw [replaceRuns, if_pos (h c List.mem_cons_self)]
    rw [ih fun d hd => h d (List.mem_cons_of_mem _ hd)]

/-- The code points of the small letters. -/
theorem isLower_bounds {c : Char} (h : c.isLower = true) : 97 ≤ c.toNat ∧ c.toNat ≤ 122 := by
  have hval : (decide (c.val ≥ 'a'.val) && decide (c.val ≤ 'z'.val)) = true := h
  rw [Bool.and_eq_true, decide_eq_true_eq, decide_eq_true_eq] at hval
  exact hval

/-- The characters of a resource name are in lower case. -/
theorem lowered_of_isNameChar {c : Char} (h : isNameChar c = true) : lowered c = [c] := by
  simp only [isNameChar, Bool.or_eq_true, beq_iff_eq] at h
  have hn : c.toNat ≤ 122 ∧ ¬ (65 ≤ c.toNat ∧ c.toNat ≤ 90) := by
    rcases h with (hletter | hdigit) | rfl
    · obtain ⟨hlow, hhigh⟩ := isLower_bounds hletter
      omega
    · simp only [Char.isDigit, Bool.and_eq_true, decide_eq_true_eq] at hdigit
      have hhigh : c.toNat ≤ 57 := hdigit.2
      omega
    · decide
  unfold lowered
  rw [if_neg (by omega), if_neg (by omega)]
  unfold Char.toLower
  rw [dif_neg]
  exact hn.2

/-- An id that has the form of a resource name is its own resource name. -/
theorem resourceName_of_isName {id : String} (h : IsName id) : resourceName id = id := by
  have hlower : id.toList.flatMap lowered = id.toList := by
    calc id.toList.flatMap lowered = id.toList.flatMap fun c => [c] :=
          List.flatMap_congr fun c hc => lowered_of_isNameChar (h.chars c hc)
      _ = id.toList := List.flatMap_singleton' _
  have htrim : Text.trimBy (· == '-') id.toList = id.toList :=
    Text.trimBy_eq_self_iff.2 ⟨h.head, h.last⟩
  unfold resourceName
  dsimp only
  rw [hlower, replaceRuns_of_all h.chars, htrim]
  cases hcs : id.toList with
  | nil => exact absurd hcs h.nonempty
  | cons c rest =>
    show String.ofList (c :: rest) = id
    rw [← hcs, String.ofList_toList]

/-- Two devices share a claim's name when they share a resource name. -/
theorem claimName_inj {id id' : String} :
    claimName id = claimName id' ↔ resourceName id = resourceName id' :=
  String.append_left_inj "-pvc"

/-- Two devices share a machine's name when they share a resource name. -/
theorem machineName_inj {id id' generation : String} :
    machineName id generation = machineName id' generation ↔ resourceName id = resourceName id' := by
  rw [machineName, machineName, String.append_left_inj, String.append_left_inj]

end VirtNet.Naming
