import Mathlib
import VirtNet.Proofs.Text.Numeral
import VirtNet.Quantity

/-!
# Every description has a size

Whatever is written as a disk size or a memory size, a size comes out: digits and a unit (`IsSize`). A
processor count comes out exactly when the first run of digits in its description is no longer than a
numeral may be. The count is then the number that the run is a numeral of, or the default of the type if
that is zero or there is no run (`sizes_given`).
-/

namespace VirtNet

/-! ## The first run of digits -/

namespace Text

variable {cs run : List Char}

/-- `run` is the first run of digits in a text: there are only digits in it, none before it, and none right
after it. -/
inductive FirstRun : List Char → List Char → Prop
  | intro {before run after : List Char} (before_free : ∀ c ∈ before, isDigit c = false)
      (digits : ∀ c ∈ run, isDigit c = true) (ne_nil : run ≠ [])
      (ended : ∀ c, after.head? = some c → isDigit c = false) : FirstRun (before ++ (run ++ after)) run

/-- What follows the characters before the first digit, up to the next character that is no digit. -/
def runOfDigits (cs : List Char) : List Char := (cs.dropWhile fun c => !isDigit c).takeWhile isDigit

/-- There are only digits in it. -/
theorem isDigit_of_mem_runOfDigits {c : Char} (h : c ∈ runOfDigits cs) : isDigit c = true :=
  List.mem_takeWhile_imp h

/-- It is the first run of digits, if there is one. -/
theorem firstRun_iff : FirstRun cs run ↔ run ≠ [] ∧ runOfDigits cs = run := by
  constructor
  · rintro ⟨hbefore, hdigits, hne, hended⟩
    rename_i before after
    have hdrop : (run ++ after).dropWhile (fun c => !isDigit c) = run ++ after := by
      refine dropWhile_eq_self_iff_head?.2 fun c hc => ?_
      rw [List.head?_append_of_ne_nil _ hne] at hc
      simp [hdigits c (List.mem_of_head? hc)]
    refine ⟨hne, ?_⟩
    calc runOfDigits (before ++ (run ++ after))
        = ((run ++ after).dropWhile fun c => !isDigit c).takeWhile isDigit := by
          rw [runOfDigits, List.dropWhile_append_of_pos fun c hc => by simp [hbefore c hc]]
      _ = run := by rw [hdrop, (span_append hdigits hended).1]
  · rintro ⟨hne, rfl⟩
    -- what comes before the first digit, the run from there, and what comes after it
    have hsplit : cs = cs.takeWhile (fun c => !isDigit c) ++
        (runOfDigits cs ++ (cs.dropWhile fun c => !isDigit c).dropWhile isDigit) := by
      rw [runOfDigits, List.takeWhile_append_dropWhile, List.takeWhile_append_dropWhile]
    have hrun : FirstRun (cs.takeWhile (fun c => !isDigit c) ++
        (runOfDigits cs ++ (cs.dropWhile fun c => !isDigit c).dropWhile isDigit)) (runOfDigits cs) := by
      refine .intro ?_ (fun c => isDigit_of_mem_runOfDigits) hne ?_
      · intro c hc
        simpa using List.mem_takeWhile_imp hc
      · exact dropWhile_eq_self_iff_head?.1 (List.dropWhile_idempotent isDigit _)
    rwa [← hsplit] at hrun

/-- A text has a first run of digits, or it has no digit at all and nothing is found. -/
theorem runOfDigits_eq_nil_iff : runOfDigits cs = [] ↔ ∀ run, ¬ FirstRun cs run := by
  constructor
  · intro hnil run hrun
    obtain ⟨hne, rfl⟩ := firstRun_iff.1 hrun
    exact hne hnil
  · intro h
    by_contra hne
    exact h _ (firstRun_iff.2 ⟨hne, rfl⟩)

end Text

namespace Quantity

variable {c letter : Char} {cs : List Char} {size description : Option String} {type : DeviceType}

/-! ## Disk and memory sizes -/

/-- A size that is written by digits, the letter of a unit, and an ending. -/
def IsSize (ending : List Char) (size : String) : Prop :=
  ∃ digits unit, digits ≠ [] ∧ (∀ c ∈ digits, Text.isDigit c = true) ∧ unit ∈ ['G', 'M', 'T'] ∧
    size = String.ofList (digits ++ unit :: ending)

/-- The capital of the letter of a unit, in whichever case it is written. -/
theorem toUpper_of_isLetter (h : isLetter letter c = true) (hletter : letter ∈ ['g', 'm', 't']) :
    c.toUpper ∈ ['G', 'M', 'T'] := by
  have hcapital : (letter == 'i') = false ∧ letter.toUpper ∈ ['G', 'M', 'T'] := by
    simp only [List.mem_cons, List.not_mem_nil, or_false] at hletter
    rcases hletter with rfl | rfl | rfl
    all_goals decide
  obtain ⟨hne, hunit⟩ := hcapital
  rw [isLetter, hne, Bool.false_and, Bool.or_false, beq_iff_eq] at h
  rwa [← h, Char.toUpper_toLower_eq_toUpper] at hunit

/-- The first letter of a unit of disk sizes is that of a unit. -/
theorem toUpper_of_storageUnit (h : storageUnits.any (isWord · (c :: cs)) = true) :
    c.toUpper ∈ ['G', 'M', 'T'] := by
  obtain ⟨word, hword, hsame⟩ := List.any_eq_true.1 h
  have hfirst : storageUnits.all (fun word =>
      ['g', 'm', 't'].any fun letter => word.toList.head? == some letter) = true := by decide
  obtain ⟨letter, hletter, hhead⟩ := List.any_eq_true.1 (List.all_eq_true.1 hfirst word hword)
  rw [beq_iff_eq] at hhead
  obtain ⟨rest, hrest⟩ := List.head?_eq_some_iff.1 hhead
  rw [isWord, hrest, List.zip_cons_cons, List.all_cons, Bool.and_eq_true, Bool.and_eq_true] at hsame
  exact toUpper_of_isLetter hsame.2.1 hletter

theorem isSize_defaultStorage : IsSize ['i'] defaultStorage :=
  ⟨['1', '0'], 'G', by decide, List.all_eq_true.1 (by decide), by decide, rfl⟩

/-- Every disk size is digits, a unit and the mark of binary sizes. -/
theorem isSize_storage (size : Option String) : IsSize ['i'] (storage size) := by
  unfold storage
  dsimp only
  split
  · exact isSize_defaultStorage
  · next hne =>
    have hdigits : ∀ c ∈ ((size.map Text.unspaced).getD []).takeWhile Text.isDigit,
        Text.isDigit c = true := fun c hc => List.mem_takeWhile_imp hc
    rw [List.isEmpty_iff] at hne
    split
    · exact ⟨_, 'G', hne, hdigits, by decide, rfl⟩
    · next u rest hunit =>
      split
      · next hany =>
        rw [hunit] at hany
        exact ⟨_, u.toUpper, hne, hdigits, toUpper_of_storageUnit hany, rfl⟩
      · exact isSize_defaultStorage

theorem isSize_defaultMemory (type : DeviceType) : IsSize [] (defaultMemory type) := by
  unfold defaultMemory
  split
  · exact ⟨['2'], 'G', by decide, List.all_eq_true.1 (by decide), by decide, rfl⟩
  · exact ⟨['1'], 'G', by decide, List.all_eq_true.1 (by decide), by decide, rfl⟩

/-- Every memory size is digits and a unit. -/
theorem isSize_memory (size : Option String) (type : DeviceType) : IsSize [] (memory size type) := by
  unfold memory
  dsimp only
  split
  · next u tail hne hunit =>
    split
    · next hform =>
      rw [Bool.and_eq_true, isMemoryUnit, Bool.or_eq_true, Bool.or_eq_true] at hform
      refine ⟨_, u.toUpper, by simpa using hne, fun c hc => List.mem_takeWhile_imp hc, ?_, rfl⟩
      obtain (hg | hm) | ht := hform.1
      · exact toUpper_of_isLetter hg (by decide)
      · exact toUpper_of_isLetter hm (by decide)
      · exact toUpper_of_isLetter ht (by decide)
    · exact isSize_defaultMemory type
  · exact isSize_defaultMemory type

/-! ## Processor counts -/

theorem one_le_defaultCores (type : DeviceType) : 1 ≤ defaultCores type := by
  unfold defaultCores
  split <;> decide

/-- The processor count by the first run of digits in the description. -/
theorem cores_eq (description : Option String) (type : DeviceType) :
    cores description type =
      if Text.maxDecimalDigits < (Text.runOfDigits (description.getD "").toList).length then
        .error .numeralTooLong
      else
        match Text.digitsValue (Text.runOfDigits (description.getD "").toList) with
        | 0 => .ok (defaultCores type)
        | n + 1 => .ok (n + 1) := rfl

/-- A processor count comes out exactly when no run of digits that is the first one is too long for a
numeral. -/
theorem exists_cores_iff : (∃ n, cores description type = .ok n) ↔
    ∀ run, Text.FirstRun (description.getD "").toList run → run.length ≤ Text.maxDecimalDigits := by
  rw [cores_eq]
  constructor
  · rintro ⟨n, hn⟩ run hrun
    obtain ⟨-, rfl⟩ := Text.firstRun_iff.1 hrun
    by_contra hlong
    rw [if_pos (Nat.lt_of_not_le hlong)] at hn
    cases hn
  · intro h
    have hshort : ¬ Text.maxDecimalDigits <
        (Text.runOfDigits (description.getD "").toList).length := by
      by_cases hnil : Text.runOfDigits (description.getD "").toList = []
      · rw [hnil]
        decide
      · exact Nat.not_lt.2 (h _ (Text.firstRun_iff.2 ⟨hnil, rfl⟩))
    rw [if_neg hshort]
    split
    · exact ⟨_, rfl⟩
    · exact ⟨_, rfl⟩

/-- `n` is the processor count that a description asks for: the number that its first run of digits is a
numeral of, or the default of the type if that number is zero or there are no digits. -/
def AsksFor (description : String) (type : DeviceType) (n : Nat) : Prop :=
  (∃ run, Text.FirstRun description.toList run ∧ Text.int? run = some (n : Int) ∧ n ≠ 0) ∨
    (∀ run, Text.FirstRun description.toList run → Text.int? run = some 0) ∧ n = defaultCores type

/-- The processor count that comes out is the one that is asked for. -/
theorem asksFor_of_cores {n : Nat} (h : cores description type = .ok n) :
    AsksFor (description.getD "") type n := by
  rw [cores_eq] at h
  split at h
  · cases h
  · next hshort =>
    by_cases hnil : Text.runOfDigits (description.getD "").toList = []
    · rw [hnil] at h
      refine .inr ⟨fun run hrun => absurd hrun (Text.runOfDigits_eq_nil_iff.1 hnil run), ?_⟩
      exact (Except.ok.inj h).symm
    · have hnumber := Text.int?_of_isDigit (fun c => Text.isDigit_of_mem_runOfDigits) hnil
      rw [if_neg hshort] at hnumber
      split at h
      · next hzero =>
        rw [hzero] at hnumber
        refine .inr ⟨?_, (Except.ok.inj h).symm⟩
        intro run hrun
        obtain ⟨-, rfl⟩ := Text.firstRun_iff.1 hrun
        exact hnumber
      · next m hm =>
        obtain rfl := Except.ok.inj h
        rw [hm] at hnumber
        exact .inl ⟨_, Text.firstRun_iff.2 ⟨hnil, rfl⟩, hnumber, Nat.succ_ne_zero m⟩

/-- A processor count that is asked for is at least one. -/
theorem AsksFor.one_le {description : String} {n : Nat} (h : AsksFor description type n) : 1 ≤ n := by
  rcases h with ⟨run, -, -, hne⟩ | ⟨-, rfl⟩
  · exact Nat.one_le_iff_ne_zero.2 hne
  · exact one_le_defaultCores type

/-- Whatever is written as the sizes of a machine, or left out, and whatever its type is:

* the disk size and the memory size are sizes;
* there is a processor count exactly when the first run of digits in its description, if there is one, is no
  longer than a numeral may be;
* it is at least one: the number that this run is a numeral of, or, if that is zero or there is no run, the
  default of the type. -/
theorem sizes_given (disk ram description : Option String) (type : DeviceType) :
    IsSize ['i'] (storage disk) ∧ IsSize [] (memory ram type) ∧
    ((∃ n, cores description type = .ok n) ↔
      ∀ run, Text.FirstRun (description.getD "").toList run → run.length ≤ Text.maxDecimalDigits) ∧
    ∀ n, cores description type = .ok n → 1 ≤ n ∧ AsksFor (description.getD "") type n := by
  refine ⟨isSize_storage disk, isSize_memory ram type, exists_cores_iff, ?_⟩
  intro n hn
  have hasks := asksFor_of_cores hn
  exact ⟨hasks.one_le, hasks⟩

/-- There is no processor count for zeros that are too many for a numeral, though their number is zero. -/
theorem cores_tooManyZeros :
    ¬ ∃ n, cores (some (String.ofList (List.replicate 4301 '0'))) .vm = .ok n := by
  intro h
  have hrun : Text.FirstRun (List.replicate 4301 '0') (List.replicate 4301 '0') := by
    have hzeros : ∀ c ∈ List.replicate 4301 '0', Text.isDigit c = true := by
      intro c hc
      rw [List.eq_of_mem_replicate hc]
      decide
    have hne : List.replicate 4301 '0' ≠ [] := List.ne_nil_of_length_eq_add_one List.length_replicate
    have hwhole := @Text.FirstRun.intro [] _ [] (List.forall_mem_nil _) hzeros hne (by simp)
    rwa [List.nil_append, List.append_nil] at hwhole
  have hbound := exists_cores_iff.1 h (List.replicate 4301 '0')
    (by rwa [Option.getD_some, String.toList_ofList])
  rw [List.length_replicate] at hbound
  exact absurd hbound (by decide)

end Quantity

end VirtNet
