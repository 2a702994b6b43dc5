import VirtNet.Proofs.Quantity.Reading

/-!
# Disk sizes and memory sizes

The two ways to write sizes agree. Both depend on a text only up to its blanks and the case of its letters
(`Normalises.eq_of_folded`), and leave a text that has the form of a size as it is (`Normalises.eq_self`).
What is read as a memory size is what is read as a disk size with a unit, and the disk size is then the
memory size with the mark of binary sizes after it (`sizes_agree`).
-/

namespace VirtNet.Quantity

/-- A text written with blanks put in anywhere, and with letters in the other case. -/
inductive Respelled : List Char → List Char → Prop
  | nil : Respelled [] []
  | blank {c : Char} {cs ds : List Char} (blank : Text.isBlank c = true) (rest : Respelled cs ds) :
    Respelled cs (c :: ds)
  | letter {c d : Char} {cs ds : List Char} (same : c.toLower = d.toLower) (rest : Respelled cs ds) :
    Respelled (c :: cs) (d :: ds)

/-- A text without its blanks, in small letters. -/
def folded (s : String) : List Char := (Text.unspaced s).map Char.toLower

variable {c d letter : Char} {cs ds digits unit ending : List Char} {s t size default : String}
  {IsUnit : List Char → Prop} {write : String → String} {type : DeviceType}

/-! ## Letter case -/

/-- Only letters have two cases. -/
theorem eq_or_isAlpha_of_toLower_eq (h : c.toLower = d.toLower) :
    c = d ∨ c.isAlpha = true ∧ d.isAlpha = true := by
  have hboth : c.isAlpha = d.isAlpha := by
    rw [← Char.isAlpha_toLower_eq_isAlpha, h, Char.isAlpha_toLower_eq_isAlpha]
  cases hd : d.isAlpha with
  | true => exact .inr ⟨hboth.trans hd, rfl⟩
  | false =>
    have hlower : ∀ {e : Char}, e.isAlpha = false → e.toLower = e := by
      intro e he
      rw [Char.isAlpha, Bool.or_eq_false_iff] at he
      exact Char.toLower_eq_of_not_isUpper (Bool.eq_false_iff.1 he.1)
    rw [hlower (hboth.trans hd), hlower hd] at h
    exact .inl h

/-- A letter is not blank, in either case. -/
theorem isBlank_eq_of_toLower_eq (h : c.toLower = d.toLower) : Text.isBlank c = Text.isBlank d := by
  rcases eq_or_isAlpha_of_toLower_eq h with rfl | ⟨hc, hd⟩
  · rfl
  · rw [Text.isBlank_of_isAlpha hc, Text.isBlank_of_isAlpha hd]

/-- A digit has no other case. -/
theorem eq_of_isDigit (h : c.toLower = d.toLower) (hd : Text.isDigit d = true) : c = d := by
  rcases eq_or_isAlpha_of_toLower_eq h with rfl | ⟨-, halpha⟩
  · rfl
  · rw [Text.isDigit_of_isAlpha halpha] at hd
    cases hd

theorem eq_of_map_eq (h : cs.map Char.toLower = ds.map Char.toLower)
    (hds : ∀ c ∈ ds, Text.isDigit c = true) : cs = ds := by
  induction ds generalizing cs with
  | nil => exact List.map_eq_nil_iff.1 h
  | cons d ds ih =>
    obtain ⟨c, cs, rfl, hc, hcs⟩ := List.map_eq_cons_iff.1 h
    rw [List.forall_mem_cons] at hds
    rw [eq_of_isDigit hc hds.1, ih hcs hds.2]

/-- Which letter it is does not depend on the case. -/
theorem isLetter_eq_of_toLower_eq (h : c.toLower = d.toLower) :
    isLetter letter c = isLetter letter d := by
  rcases eq_or_isAlpha_of_toLower_eq h with rfl | ⟨hc, hd⟩
  · rfl
  · have hascii : ∀ {e : Char}, e.isAlpha = true → (e.toNat == 0x130 || e.toNat == 0x131) = false := by
      intro e he
      have hbounds := Text.isAlpha_bounds he
      simp only [Bool.or_eq_false_iff, beq_eq_false_iff_ne]
      omega
    rw [isLetter, isLetter, h, hascii hc, hascii hd]

/-- Whether it is a unit does not depend on the case. -/
theorem isMemoryUnit_of_map_eq (hunit : IsMemoryUnit cs)
    (h : ds.map Char.toLower = cs.map Char.toLower) : IsMemoryUnit ds := by
  rcases cs with - | ⟨u, tail⟩
  · exact hunit.elim
  obtain ⟨v, tail', rfl, hv, htail⟩ := List.map_eq_cons_iff.1 h
  obtain ⟨hu, hform⟩ := hunit
  refine ⟨?_, ?_⟩
  · simpa only [isMemoryUnit, isLetter_eq_of_toLower_eq hv] using hu
  · rcases tail with - | ⟨c, - | ⟨d, rest⟩⟩
    · rw [List.map_eq_nil_iff.1 htail]
      rfl
    · obtain ⟨c', tail', rfl, hc, hrest⟩ := List.map_eq_cons_iff.1 htail
      rw [List.map_eq_nil_iff.1 hrest]
      simpa only [isMemoryTail, isLetter_eq_of_toLower_eq hc] using hform
    · cases hform

theorem isDiskUnit_of_map_eq (hunit : cs = [] ∨ IsDiskUnit cs)
    (h : ds.map Char.toLower = cs.map Char.toLower) : ds = [] ∨ IsDiskUnit ds := by
  rcases hunit with rfl | hunit
  · exact .inl (List.map_eq_nil_iff.1 h)
  · exact .inr (isDiskUnit_iff.2 (isMemoryUnit_of_map_eq (isDiskUnit_iff.1 hunit) h))

theorem unitLetter_of_map_eq (h : ds.map Char.toLower = cs.map Char.toLower) :
    unitLetter ds = unitLetter cs := by
  rcases cs with - | ⟨u, tail⟩
  · rw [List.map_eq_nil_iff.1 h]
  · obtain ⟨v, tail', rfl, hv, -⟩ := List.map_eq_cons_iff.1 h
    rw [unitLetter, unitLetter, ← Char.toUpper_toLower_eq_toUpper, hv, Char.toUpper_toLower_eq_toUpper]

/-! ## Texts that differ in blanks and letter case -/

theorem Respelled.map_toLower_filter {cs ds : List Char} (h : Respelled cs ds) :
    (ds.filter fun c => !Text.isBlank c).map Char.toLower =
      (cs.filter fun c => !Text.isBlank c).map Char.toLower := by
  induction h with
  | nil => rfl
  | blank hblank _ ih => rw [List.filter_cons_of_neg (by simp [hblank]), ih]
  | @letter c d cs ds hsame _ ih =>
    have hblank := isBlank_eq_of_toLower_eq hsame
    cases hd : Text.isBlank d with
    | true =>
      rw [List.filter_cons_of_neg (by simp [hd]), List.filter_cons_of_neg (by simp [hblank, hd]), ih]
    | false =>
      rw [List.filter_cons_of_pos (by simp [hd]), List.filter_cons_of_pos (by simp [hblank, hd]),
        List.map_cons, List.map_cons, ih, hsame]

/-- Blanks that are put in and letters in the other case do not count in the folded text. -/
theorem folded_of_respelled (h : Respelled s.toList t.toList) : folded t = folded s :=
  h.map_toLower_filter

/-- Texts that fold alike are read alike. -/
theorem Reads.ofFolded (h : Reads IsUnit s digits unit) (hfolded : folded t = folded s)
    (hunit : ∀ {cs ds}, IsUnit cs → ds.map Char.toLower = cs.map Char.toLower → IsUnit ds) :
    ∃ unit', Reads IsUnit t digits unit' ∧ unitLetter unit' = unitLetter unit := by
  rw [folded, folded, h.text, List.map_append] at hfolded
  obtain ⟨digits', unit', htext, hdigits, hrest⟩ := List.map_eq_append_iff.1 hfolded
  obtain rfl : digits' = digits := eq_of_map_eq hdigits h.digits
  exact ⟨unit', ⟨htext, h.ne_nil, h.digits, hunit h.unit hrest⟩, unitLetter_of_map_eq hrest⟩

/-- Texts that fold alike are written alike. -/
theorem Normalises.eq_of_folded (hwrite : Normalises IsUnit ending default write)
    (hunit : ∀ {cs ds}, IsUnit cs → ds.map Char.toLower = cs.map Char.toLower → IsUnit ds)
    (h : folded t = folded s) : write t = write s := by
  by_cases hany : ∃ digits unit, Reads IsUnit s digits unit
  · obtain ⟨digits, unit, hreads⟩ := hany
    obtain ⟨unit', hreads', hletter⟩ := hreads.ofFolded h hunit
    rw [hwrite.of_reads hreads, hwrite.of_reads hreads', hletter]
  · have hnot : ∀ digits unit, ¬ Reads IsUnit s digits unit :=
      fun digits unit hreads => hany ⟨digits, unit, hreads⟩
    have hnot' : ∀ digits unit, ¬ Reads IsUnit t digits unit := by
      intro digits unit hreads
      obtain ⟨unit', hreads', -⟩ := hreads.ofFolded h.symm hunit
      exact hnot digits unit' hreads'
    rw [hwrite.of_not_reads hnot, hwrite.of_not_reads hnot']

/-! ## Texts that are sizes already -/

/-- A text that has the form of a size is written as it is. -/
theorem Normalises.eq_self (hwrite : Normalises IsUnit ending default write)
    (hending : ∀ u ∈ ['G', 'M', 'T'], IsUnit (u :: ending))
    (hblank : ∀ c ∈ ending, Text.isBlank c = false) (h : IsSize ending size) : write size = size := by
  obtain ⟨digits, u, hne, hdigits, hu, rfl⟩ := h
  have hcapital : u.toUpper = u ∧ Text.isBlank u = false := by
    simp only [List.mem_cons, List.not_mem_nil, or_false] at hu
    rcases hu with rfl | rfl | rfl <;> decide
  obtain ⟨hupper, hublank⟩ := hcapital
  have hall : ∀ c ∈ digits ++ u :: ending, (!Text.isBlank c) = true := by
    intro c hc
    rw [Bool.not_eq_true']
    rcases List.mem_append.1 hc with hc | hc
    · exact Text.isBlank_of_isDigit (hdigits c hc)
    · rcases List.mem_cons.1 hc with rfl | hc
      · exact hublank
      · exact hblank c hc
  have htext : Text.unspaced (String.ofList (digits ++ u :: ending)) = digits ++ u :: ending := by
    rw [Text.unspaced, String.toList_ofList, List.filter_eq_self.2 hall]
  rw [hwrite.of_reads ⟨htext, hne, hdigits, hending u hu⟩, unitLetter, hupper]

theorem storage_of_isSize (h : IsSize ['i'] size) : storage (some size) = size := by
  have hblank : ∀ c ∈ ['i'], Text.isBlank c = false := List.forall_mem_singleton.2 (by decide)
  refine normalises_storage.eq_self (fun u hu => .inr (isDiskUnit_iff.2 ?_)) hblank h
  simp only [List.mem_cons, List.not_mem_nil, or_false] at hu
  rcases hu with rfl | rfl | rfl <;> exact ⟨by decide, by decide⟩

theorem memory_of_isSize (h : IsSize [] size) (type : DeviceType) : memory (some size) type = size := by
  refine (normalises_memory type).eq_self (fun u hu => ?_) (List.forall_mem_nil _) h
  simp only [List.mem_cons, List.not_mem_nil, or_false] at hu
  rcases hu with rfl | rfl | rfl <;> exact ⟨by decide, by decide⟩

/-! ## Both sizes of a text -/

/-- Whatever the text, and for every type of device:

* a size that was written is written as it is, and a text with blanks put in anywhere, and letters in the
  other case, is written as the text without them;
* a text is read as a memory size exactly when it is read as a disk size with a unit, as the same digits and
  the same unit; the memory size is then these digits with the letter of the unit, and the disk size is the
  memory size followed by `i`;
* if it is read as a bare number, the disk size is that number with `Gi`, and the memory size is the default
  of the type;
* if it is not read at all, both are defaults. -/
theorem sizes_agree (s : String) (type : DeviceType) :
    (storage (some (storage (some s))) = storage (some s) ∧
      memory (some (memory (some s) type)) type = memory (some s) type) ∧
    (∀ t : String, Respelled s.toList t.toList →
      storage (some t) = storage (some s) ∧ memory (some t) type = memory (some s) type) ∧
    (∀ digits unit, (ReadsMemory s digits unit ↔ ReadsDisk s digits unit ∧ unit ≠ []) ∧
      (ReadsMemory s digits unit →
        memory (some s) type = String.ofList (digits ++ [unitLetter unit]) ∧
        storage (some s) = memory (some s) type ++ "i")) ∧
    (∀ digits, ReadsDisk s digits [] →
      storage (some s) = String.ofList digits ++ "Gi" ∧ memory (some s) type = defaultMemory type) ∧
    ((∀ digits unit, ¬ ReadsDisk s digits unit) →
      storage (some s) = defaultStorage ∧ memory (some s) type = defaultMemory type) := by
  refine ⟨⟨storage_of_isSize (isSize_storage _), memory_of_isSize (isSize_memory _ _) type⟩, ?_, ?_, ?_, ?_⟩
  · intro t h
    have hfolded := folded_of_respelled h
    exact ⟨normalises_storage.eq_of_folded isDiskUnit_of_map_eq hfolded,
      (normalises_memory type).eq_of_folded isMemoryUnit_of_map_eq hfolded⟩
  · intro digits unit
    refine ⟨readsMemory_iff, fun h => ?_⟩
    have hmemory := (normalises_memory type).of_reads h
    refine ⟨hmemory, ?_⟩
    rw [normalises_storage.of_reads (readsMemory_iff.1 h).1, hmemory, ← String.toList_inj]
    simp
  · intro digits h
    have hnot : ∀ digits' unit, ¬ ReadsMemory s digits' unit := by
      intro digits' unit hmemory
      obtain ⟨hdisk, hne⟩ := readsMemory_iff.1 hmemory
      exact hne (hdisk.split.2.symm.trans h.split.2)
    refine ⟨?_, (normalises_memory type).of_not_reads hnot⟩
    rw [normalises_storage.of_reads h, ← String.toList_inj]
    simp [unitLetter]
  · intro h
    exact ⟨normalises_storage.of_not_reads h,
      (normalises_memory type).of_not_reads fun digits unit hmemory =>
        h digits unit (readsMemory_iff.1 hmemory).1⟩

/-- A size with a unit, with blanks and capitals put in, and a bare number. -/
theorem sizes_agree_gigabytes :
    (Respelled "20gb".toList " 20 GB".toList ∧ storage (some " 20 GB") = "20Gi" ∧
      memory (some " 20 GB") .router = "20G") ∧
    storage (some "20") = "20Gi" ∧ memory (some "20") .router = "1G" := by
  have hrespelled : Respelled "20gb".toList " 20 GB".toList :=
    .blank (by decide) <| .letter rfl <| .letter rfl <| .blank (by decide) <|
      .letter (by decide) <| .letter (by decide) .nil
  have hdigits : ∀ c ∈ ['2', '0'], Text.isDigit c = true := fun c hc =>
    Text.isDigit_of_ascii (List.all_eq_true.1 (by decide) c hc)
  have hunit : ReadsMemory "20gb" ['2', '0'] ['g', 'b'] :=
    ⟨by decide +kernel, by decide, hdigits, by decide, by decide⟩
  have hbare : ReadsDisk "20" ['2', '0'] [] := ⟨by decide +kernel, by decide, hdigits, .inl rfl⟩
  obtain ⟨-, hsame, hread, -, -⟩ := sizes_agree "20gb" .router
  obtain ⟨-, -, -, hnumber, -⟩ := sizes_agree "20" .router
  obtain ⟨hmemory, hstorage⟩ := (hread _ _).2 hunit
  obtain ⟨hdisk, hram⟩ := hsame " 20 GB" hrespelled
  refine ⟨⟨hrespelled, ?_, ?_⟩, hnumber _ hbare⟩
  · rw [hdisk, hstorage, hmemory]
    rfl
  · rw [hram, hmemory]
    rfl

end VirtNet.Quantity
