import VirtNet.Proofs.Quantity

/-!
# Sizes that are read

A size is read as digits and the word of a unit, blanks aside (`Reads`). The words that count as units of
disk sizes are listed, those of memory sizes are built from letters; they are the same words
(`isDiskUnit_iff`). What is read is written with its digits as they are, and all else becomes the default
(`Normalises`). So a size is a quantity, in digits of ASCII, exactly when it is not read with a digit of
another script (`quantities_iff`).
-/

namespace VirtNet.Quantity

variable {u : Char} {digits unit tail ending : List Char} {s size : String} {type : DeviceType}
  {IsUnit : List Char → Prop}

/-! ## Units -/

/-- `unit` is one of the words for units of disk sizes. -/
def IsDiskUnit (unit : List Char) : Prop := storageUnits.any (isWord · unit) = true

/-- `unit` is the letter of a memory unit, with at most one letter after it. -/
def IsMemoryUnit : List Char → Prop
  | [] => False
  | u :: tail => isMemoryUnit u = true ∧ isMemoryTail tail = true

/-- The letter that stands for a unit; a bare number counts gigabytes. -/
def unitLetter : List Char → Char
  | [] => 'G'
  | u :: _ => u.toUpper

/-- The units of disk sizes and of memory sizes are the same words. -/
theorem isDiskUnit_iff : IsDiskUnit unit ↔ IsMemoryUnit unit := by
  -- no word has more than two letters
  rcases unit with - | ⟨u, - | ⟨c, - | ⟨d, rest⟩⟩⟩
  · simp [IsDiskUnit, IsMemoryUnit, storageUnits, isWord]
  · simp [IsDiskUnit, IsMemoryUnit, storageUnits, isWord, isMemoryUnit, isMemoryTail, or_assoc]
  · simp [IsDiskUnit, IsMemoryUnit, storageUnits, isWord, isMemoryUnit, isMemoryTail]
    grind
  · simp [IsDiskUnit, IsMemoryUnit, storageUnits, isWord, isMemoryTail]

/-- The first character of a unit is a letter, so it is no digit. -/
theorem isDigit_of_isMemoryUnit (h : isMemoryUnit u = true) : Text.isDigit u = false := by
  have hlower : (u.toLower = 'g' ∨ u.toLower = 'm') ∨ u.toLower = 't' := by
    simpa [isMemoryUnit, isLetter] using h
  refine Text.isDigit_of_isAlpha ?_
  rw [← Char.isAlpha_toLower_eq_isAlpha]
  rcases hlower with (hg | hm) | ht
  · rw [hg]; decide
  · rw [hm]; decide
  · rw [ht]; decide

/-- The letter that stands for a unit is one of three. -/
theorem unitLetter_mem (h : unit = [] ∨ IsDiskUnit unit) : unitLetter unit ∈ ['G', 'M', 'T'] := by
  cases unit with
  | nil => decide
  | cons u tail => exact toUpper_of_storageUnit (h.resolve_left (List.cons_ne_nil u tail))

/-! ## Readings -/

/-- A text is read as a size: without its blanks it is digits, with a unit after them. -/
structure Reads (IsUnit : List Char → Prop) (s : String) (digits unit : List Char) : Prop where
  text : Text.unspaced s = digits ++ unit
  ne_nil : digits ≠ []
  digits : ∀ c ∈ digits, Text.isDigit c = true
  unit : IsUnit unit

/-- A text is read as a disk size, which may be a bare number. -/
abbrev ReadsDisk (s : String) (digits unit : List Char) : Prop :=
  Reads (fun unit => unit = [] ∨ IsDiskUnit unit) s digits unit

/-- A text is read as a memory size. -/
abbrev ReadsMemory (s : String) (digits unit : List Char) : Prop := Reads IsMemoryUnit s digits unit

/-- The texts of memory sizes are those of disk sizes with a unit. -/
theorem readsMemory_iff : ReadsMemory s digits unit ↔ ReadsDisk s digits unit ∧ unit ≠ [] := by
  constructor
  · intro h
    refine ⟨⟨h.text, h.ne_nil, h.digits, .inr (isDiskUnit_iff.2 h.unit)⟩, ?_⟩
    rintro rfl
    exact h.unit
  · rintro ⟨h, hne⟩
    exact ⟨h.text, h.ne_nil, h.digits, isDiskUnit_iff.1 (h.unit.resolve_left hne)⟩

/-- A reading as a disk size takes all digits there are. -/
theorem ReadsDisk.split (h : ReadsDisk s digits unit) :
    (Text.unspaced s).takeWhile Text.isDigit = digits ∧
      (Text.unspaced s).dropWhile Text.isDigit = unit := by
  have hends : ∀ c, unit.head? = some c → Text.isDigit c = false := by
    intro c hc
    obtain ⟨tail, rfl⟩ := List.head?_eq_some_iff.1 hc
    have hunit : IsMemoryUnit (c :: tail) :=
      isDiskUnit_iff.1 (h.unit.resolve_left (List.cons_ne_nil c tail))
    exact isDigit_of_isMemoryUnit hunit.1
  rw [h.text]
  exact Text.span_append h.digits hends

/-- A text is read when a unit follows the digits in front. -/
theorem Reads.ofSplit (hne : (Text.unspaced s).takeWhile Text.isDigit ≠ [])
    (hunit : IsUnit ((Text.unspaced s).dropWhile Text.isDigit)) :
    Reads IsUnit s ((Text.unspaced s).takeWhile Text.isDigit)
      ((Text.unspaced s).dropWhile Text.isDigit) :=
  ⟨List.takeWhile_append_dropWhile.symm, hne, fun _ => List.mem_takeWhile_imp, hunit⟩

/-! ## Sizes of texts that are read, and of others -/

/-- A way to write sizes: a text that is read is written as its digits, the letter of its unit and an
ending, and every other text as a default. -/
structure Normalises (IsUnit : List Char → Prop) (ending : List Char) (default : String)
    (write : String → String) : Prop where
  of_reads {s : String} {digits unit : List Char} (h : Reads IsUnit s digits unit) :
    write s = String.ofList (digits ++ unitLetter unit :: ending)
  of_not_reads {s : String} (h : ∀ digits unit, ¬ Reads IsUnit s digits unit) : write s = default

/-- A size that is not given is an empty one. -/
theorem storage_getD (size : Option String) : storage size = storage (some (size.getD "")) := by
  cases size <;> rfl

theorem memory_getD (size : Option String) (type : DeviceType) :
    memory size type = memory (some (size.getD "")) type := by
  cases size <;> rfl

theorem normalises_storage : Normalises (fun unit => unit = [] ∨ IsDiskUnit unit) ['i'] defaultStorage
    fun s => storage (some s) where
  of_reads {s digits unit} h := by
    obtain ⟨htake, hdrop⟩ := ReadsDisk.split h
    unfold storage
    dsimp only
    rw [Option.map_some, Option.getD_some, htake, hdrop, if_neg (by simpa using h.ne_nil)]
    cases unit with
    | nil => rfl
    | cons u tail =>
      have hunit : storageUnits.any (isWord · (u :: tail)) = true :=
        h.unit.resolve_left (List.cons_ne_nil u tail)
      dsimp only
      rw [if_pos hunit]
      rfl
  of_not_reads {s} h := by
    unfold storage
    dsimp only
    rw [Option.map_some, Option.getD_some]
    split
    · rfl
    · next hne =>
      rw [List.isEmpty_iff] at hne
      split
      · next hunit => exact absurd (Reads.ofSplit hne (.inl hunit)) (h _ _)
      · next u tail hunit => exact if_neg fun hword => h _ _ (Reads.ofSplit hne (.inr hword))

theorem normalises_memory (type : DeviceType) : Normalises IsMemoryUnit [] (defaultMemory type)
    fun s => memory (some s) type where
  of_reads {s digits unit} h := by
    obtain ⟨htake, hdrop⟩ := (readsMemory_iff.1 h).1.split
    have hne : digits.isEmpty = false := by simpa using h.ne_nil
    unfold memory
    dsimp only
    rw [Option.map_some, Option.getD_some, htake, hdrop, hne]
    cases unit with
    | nil => exact h.unit.elim
    | cons u tail =>
      have hunit : (isMemoryUnit u && isMemoryTail tail) = true := by
        rw [h.unit.1, h.unit.2]
        rfl
      dsimp only
      rw [if_pos hunit]
      rfl
  of_not_reads {s} h := by
    unfold memory
    dsimp only
    rw [Option.map_some, Option.getD_some]
    split
    · next u tail hne hunit =>
      refine if_neg fun hform => ?_
      rw [Bool.and_eq_true] at hform
      have hreads := @Reads.ofSplit s IsMemoryUnit (by simpa using hne) (by rwa [hunit])
      exact h _ _ hreads
    · rfl

/-! ## Quantities -/

/-- A quantity: digits of ASCII, the letter of a unit, and an ending. -/
def IsQuantity (ending : List Char) (size : String) : Prop :=
  ∃ digits unit, digits ≠ [] ∧ (∀ c ∈ digits, c.isDigit = true) ∧ unit ∈ ['G', 'M', 'T'] ∧
    size = String.ofList (digits ++ unit :: ending)

/-- A size is a quantity exactly when all its digits are of ASCII. -/
theorem isQuantity_ofList (hne : digits ≠ []) (hu : u ∈ ['G', 'M', 'T']) :
    IsQuantity ending (String.ofList (digits ++ u :: ending)) ↔ ∀ c ∈ digits, c.isDigit = true := by
  constructor
  · rintro ⟨digits', unit, -, hascii, -, heq⟩
    have hsame : digits = digits' :=
      (List.append_inj' (String.ofList_injective heq) (by simp)).1
    rwa [hsame]
  · intro hascii
    exact ⟨digits, u, hne, hascii, hu, rfl⟩

/-- Where the default is a quantity, a text is written as a quantity exactly when it is not read with a
digit of another script. -/
theorem Normalises.isQuantity_iff {default : String} {write : String → String}
    (hwrite : Normalises IsUnit ending default write) (hdefault : IsQuantity ending default)
    (hletter : ∀ {unit}, IsUnit unit → unitLetter unit ∈ ['G', 'M', 'T']) :
    IsQuantity ending (write s) ↔
      ∀ digits unit, Reads IsUnit s digits unit → ∀ c ∈ digits, c.isDigit = true := by
  constructor
  · intro hquantity digits unit h
    rw [hwrite.of_reads h] at hquantity
    exact (isQuantity_ofList h.ne_nil (hletter h.unit)).1 hquantity
  · intro hascii
    by_cases hany : ∃ digits unit, Reads IsUnit s digits unit
    · obtain ⟨digits, unit, h⟩ := hany
      rw [hwrite.of_reads h]
      exact (isQuantity_ofList h.ne_nil (hletter h.unit)).2 (hascii digits unit h)
    · rw [hwrite.of_not_reads fun digits unit h => hany ⟨digits, unit, h⟩]
      exact hdefault

theorem isQuantity_defaultStorage : IsQuantity ['i'] defaultStorage :=
  ⟨['1', '0'], 'G', by decide, List.all_eq_true.1 (by decide), by decide, rfl⟩

theorem isQuantity_defaultMemory (type : DeviceType) : IsQuantity [] (defaultMemory type) := by
  unfold defaultMemory
  split
  · exact ⟨['2'], 'G', by decide, List.all_eq_true.1 (by decide), by decide, rfl⟩
  · exact ⟨['1'], 'G', by decide, List.all_eq_true.1 (by decide), by decide, rfl⟩

/-- A disk size and a memory size are always digits, in whatever script, and a unit. Each is a quantity,
with digits of ASCII, exactly when it is not read with a digit of another script. -/
theorem quantities_iff (disk ram : Option String) (type : DeviceType) :
    IsSize ['i'] (storage disk) ∧ IsSize [] (memory ram type) ∧
    (IsQuantity ['i'] (storage disk) ↔
      ∀ digits unit, ReadsDisk (disk.getD "") digits unit → ∀ c ∈ digits, c.isDigit = true) ∧
    (IsQuantity [] (memory ram type) ↔
      ∀ digits unit, ReadsMemory (ram.getD "") digits unit → ∀ c ∈ digits, c.isDigit = true) := by
  refine ⟨isSize_storage disk, isSize_memory ram type, ?_, ?_⟩
  · rw [storage_getD]
    exact normalises_storage.isQuantity_iff isQuantity_defaultStorage unitLetter_mem
  · rw [memory_getD]
    exact (normalises_memory type).isQuantity_iff (isQuantity_defaultMemory type)
      fun h => unitLetter_mem (.inr (isDiskUnit_iff.2 h))

/-- A size in digits of another script is read, and keeps them. -/
theorem sizes_arabicDigit :
    storage (some "\u0663G") = "\u0663Gi" ∧ ¬ IsQuantity ['i'] (storage (some "\u0663G")) ∧
      memory (some "\u0663G") .vm = "\u0663G" ∧ ¬ IsQuantity [] (memory (some "\u0663G") .vm) := by
  have hdisk : storage (some "\u0663G") = String.ofList (['\u0663'] ++ 'G' :: ['i']) := by decide +kernel
  have hram : memory (some "\u0663G") .vm = String.ofList (['\u0663'] ++ 'G' :: []) := by decide +kernel
  have hascii : ¬ ∀ c ∈ ['\u0663'], c.isDigit = true :=
    fun h => absurd (h _ List.mem_cons_self) (by decide)
  refine ⟨hdisk, ?_, hram, ?_⟩
  · rwa [hdisk, isQuantity_ofList (List.cons_ne_nil _ _) List.mem_cons_self]
  · rwa [hram, isQuantity_ofList (List.cons_ne_nil _ _) List.mem_cons_self]

end VirtNet.Quantity
