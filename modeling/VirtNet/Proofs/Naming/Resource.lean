import VirtNet.Proofs.Naming.Label

/-!
# Resource names

Every device has a resource name that is safe in DNS, whatever its id, and an id is its own resource name
exactly when it is safe already (`resourceName_eq_self_iff`). So the resource name of a resource name is
that name. What the replacing and the trimming take away is never a letter or a digit: they all stay, in
lower case and in their order, and `device` is the name of the ids that have none (`letters_or_device`).
-/

namespace VirtNet.Naming

/-- A name that is safe in DNS, its length aside: small letters, digits and hyphens of ASCII, at least one
of them, and no hyphen at either end. -/
structure IsDnsSafe (s : String) : Prop where
  ne_empty : s ≠ ""
  chars : ∀ c ∈ s.toList, 'a' ≤ c ∧ c ≤ 'z' ∨ '0' ≤ c ∧ c ≤ '9' ∨ c = '-'
  head : s.toList.head? ≠ some '-'
  last : s.toList.getLast? ≠ some '-'

/-- A letter or a digit of a resource name. -/
def isNameLetter (c : Char) : Bool := c.isLower || c.isDigit

/-- The letters and digits of an id, in lower case. -/
def letters (id : String) : List Char := (id.toList.flatMap lowered).filter isNameLetter

/-- The characters of a resource name, unless there are none. -/
def nameText (id : String) : List Char :=
  Text.trimBy (· == '-') (replaceRuns isNameChar '-' false (id.toList.flatMap lowered))

variable {s id : String} {c : Char}

/-! ## The form -/

theorem isNameChar_iff :
    isNameChar c = true ↔ 'a' ≤ c ∧ c ≤ 'z' ∨ '0' ≤ c ∧ c ≤ '9' ∨ c = '-' := by
  have hlower : c.isLower = true ↔ 'a' ≤ c ∧ c ≤ 'z' := by
    delta Char.isLower
    simp [Char.le_def]
  simp [isNameChar, hlower, Char.isDigit, Char.le_def, or_assoc]

/-- The form of a resource name is that of a name which is safe in DNS. -/
theorem isDnsSafe_iff : IsDnsSafe s ↔ IsName s := by
  have hend : ∀ end? : Option Char,
      (∀ c, end? = some c → (c == '-') = false) ↔ end? ≠ some '-' := by
    intro end?
    cases end? <;> simp
  constructor
  · intro h
    exact ⟨by simpa using h.ne_empty, fun c hc => isNameChar_iff.2 (h.chars c hc), (hend _).2 h.head,
      (hend _).2 h.last⟩
  · intro h
    exact ⟨by simpa using h.nonempty, fun c hc => isNameChar_iff.1 (h.chars c hc), (hend _).1 h.head,
      (hend _).1 h.last⟩

theorem isName_device : IsName "device" where
  nonempty := by decide
  chars := List.all_eq_true.1 (by decide)
  head := by
    rintro c ⟨⟩
    decide
  last := by
    rintro c ⟨⟩
    decide

/-- Without a character for it, the name is `device`. -/
theorem resourceName_of_nameText (h : nameText id = []) : resourceName id = "device" := by
  unfold nameText at h
  unfold resourceName
  dsimp only
  rw [h]

theorem toList_resourceName (h : nameText id ≠ []) : (resourceName id).toList = nameText id := by
  obtain ⟨c, rest, hcons⟩ := List.exists_cons_of_ne_nil h
  rw [hcons]
  unfold nameText at hcons
  unfold resourceName
  dsimp only
  rw [hcons, String.toList_ofList]

/-- Every resource name has the form of one: the hyphen that is written for a run is a character of names,
and the trimming takes it away at the ends. -/
theorem isName_resourceName (id : String) : IsName (resourceName id) := by
  by_cases hnil : nameText id = []
  · rw [resourceName_of_nameText hnil]
    exact isName_device
  · have hlist := toList_resourceName hnil
    have hhyphen : isNameChar '-' = true := by decide
    refine ⟨by rwa [hlist], fun c hc => ?_, fun c hc => ?_, fun c hc => ?_⟩
    · rw [hlist] at hc
      exact keep_of_mem_replaceRuns hhyphen (trimBy_sublist.subset hc)
    · rw [hlist] at hc
      exact @Text.head?_trimBy _ _ c hc
    · rw [hlist] at hc
      exact @Text.getLast?_trimBy _ _ c hc

/-- An id is its own resource name exactly when it has the form of one. -/
theorem resourceName_eq_self_iff : resourceName id = id ↔ IsName id := by
  refine ⟨fun h => ?_, resourceName_of_isName⟩
  rw [← h]
  exact isName_resourceName id

/-! ## Letters and digits -/

section Kept

variable {p keep : Char → Bool} {mark : Char} {inRun : Bool} {cs : List Char}

/-- Replacing runs keeps the characters of a class that has no mark and nothing that is replaced. -/
theorem filter_replaceRuns (hmark : p mark = false) (hkeep : ∀ c, p c = true → keep c = true) :
    (replaceRuns keep mark inRun cs).filter p = cs.filter p := by
  induction cs generalizing inRun with
  | nil => rfl
  | cons c rest ih =>
    have hmark : ¬ p mark = true := by
      rw [hmark]
      decide
    rw [replaceRuns]
    split_ifs with hc hrun
    · rw [List.filter_cons, List.filter_cons, ih]
    · -- the mark for this run is already written
      have hout : ¬ p c = true := fun hp => hc (hkeep c hp)
      rw [List.filter_cons_of_neg hout, ih]
    · -- the mark is written here, and it is not in the class either
      have hout : ¬ p c = true := fun hp => hc (hkeep c hp)
      rw [List.filter_cons_of_neg hout, List.filter_cons_of_neg hmark, ih]

/-- Dropping from the front keeps the characters of a class without any to drop. -/
theorem filter_dropWhile {q : Char → Bool} (h : ∀ c, q c = true → p c = false) :
    (cs.dropWhile q).filter p = cs.filter p := by
  have hnone : (cs.takeWhile q).filter p = [] :=
    List.filter_eq_nil_iff.2 fun c hc => by
      rw [h c (List.mem_takeWhile_imp hc)]
      decide
  calc (cs.dropWhile q).filter p
      = (cs.takeWhile q ++ cs.dropWhile q).filter p := by rw [List.filter_append, hnone, List.nil_append]
    _ = cs.filter p := by rw [List.takeWhile_append_dropWhile]

/-- Trimming keeps the characters of a class without any to drop. -/
theorem filter_trimBy {q : Char → Bool} (h : ∀ c, q c = true → p c = false) :
    (Text.trimBy q cs).filter p = cs.filter p := by
  rw [Text.trimBy, Text.trimEndBy, List.filter_reverse, filter_dropWhile h, List.filter_reverse,
    List.reverse_reverse, filter_dropWhile h]

end Kept

/-- A hyphen is neither a letter nor a digit. -/
theorem isNameLetter_of_hyphen (h : (c == '-') = true) : isNameLetter c = false := by
  rw [beq_iff_eq.1 h]
  decide

/-- Neither the replacing nor the trimming takes a letter or a digit away. -/
theorem filter_nameText (id : String) : (nameText id).filter isNameLetter = letters id := by
  have hhyphen : isNameLetter '-' = false := by decide
  rw [nameText, filter_trimBy fun c => isNameLetter_of_hyphen, letters]
  refine filter_replaceRuns hhyphen fun c hc => ?_
  rw [isNameLetter] at hc
  rw [isNameChar, hc, Bool.true_or]

/-- A resource name has the letters and digits of the id, or it is `device` because there are none. -/
theorem letters_or_device (id : String) :
    (resourceName id).toList.filter isNameLetter = letters id ∨
      letters id = [] ∧ resourceName id = "device" := by
  by_cases hnil : nameText id = []
  · refine .inr ⟨?_, resourceName_of_nameText hnil⟩
    rw [← filter_nameText, hnil]
    rfl
  · rw [toList_resourceName hnil]
    exact .inl (filter_nameText id)

/-! ## Well formed and stable -/

/-- The resource name of a device is safe in DNS, whatever the id of the device. An id is its own resource
name exactly when it is safe already, so the resource name of a resource name is the same. It has the
letters and digits of the id, or it is `device` because there are none. -/
theorem resourceName_stable (id : String) :
    IsDnsSafe (resourceName id) ∧
      (resourceName id = id ↔ IsDnsSafe id) ∧
      resourceName (resourceName id) = resourceName id ∧
      ((resourceName id).toList.filter isNameLetter = letters id ∨
        letters id = [] ∧ resourceName id = "device") := by
  have hname := isName_resourceName id
  refine ⟨isDnsSafe_iff.2 hname, ?_, resourceName_of_isName hname, letters_or_device id⟩
  rw [isDnsSafe_iff, resourceName_eq_self_iff]

/-- The Kelvin sign and the dotted capital have letters of ASCII in lower case, and runs of other
characters are written as one hyphen, next to a hyphen that stands there already. -/
example : resourceName "_\u212Aiev-\u00FC\u0130 2_" = "kiev--i-2" := by decide +kernel

end VirtNet.Naming
