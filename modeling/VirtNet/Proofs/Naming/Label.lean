import Mathlib.Data.List.DropRight
import VirtNet.Proofs.Naming

/-!
# Label values

A label value is trimmed first and cut to length afterwards, so the cut can leave a mark at its end.
That is the only way in which it fails: `labelValue_legal_iff` says that a label value has the form of
one, and is its own label value, exactly when the cut does not fall behind a mark. A text with no more
characters than a label value is not cut (`cutsClean_of_length_le`), and the label value of a label
value always has the form.
-/

namespace VirtNet.Naming

/-- The start of a label value: at most 63 letters, digits and marks, a letter or a digit in front. The
empty text is one. -/
structure IsLabelStart (s : String) : Prop where
  length : s.toList.length ≤ 63
  chars : ∀ c ∈ s.toList, c.isAlphanum = true ∨ c ∈ ['.', '_', '-']
  head : ∀ c, s.toList.head? = some c → c.isAlphanum = true

/-- The form of a label value: a letter or a digit at the other end as well. -/
structure IsLabel (s : String) : Prop extends IsLabelStart s where
  last : ∀ c, s.toList.getLast? = some c → c.isAlphanum = true

/-- The characters of a label value before the cut. -/
def labelText (s : String) : List Char :=
  Text.trimBy isLabelMark (replaceRuns isLabelChar '-' false s.toList)

/-- The cut does not leave a mark at the end: the 63rd character, if the text is that long, is none. -/
def CutsClean (s : String) : Prop := ∀ c, (labelText s)[62]? = some c → c ∉ ['.', '_', '-']

variable {s : String} {c : Char}

/-! ## Characters -/

theorem isLabelMark_iff : isLabelMark c = true ↔ c ∈ ['.', '_', '-'] := by
  simp [isLabelMark, or_assoc]

theorem isLabelMark_eq_false_iff : isLabelMark c = false ↔ c ∉ ['.', '_', '-'] := by
  rw [← isLabelMark_iff, Bool.not_eq_true]

theorem isLabelChar_iff : isLabelChar c = true ↔ c.isAlphanum = true ∨ c ∈ ['.', '_', '-'] := by
  rw [isLabelChar, Bool.or_eq_true, isLabelMark_iff]

/-- The marks are neither letters nor digits. -/
theorem isLabelMark_of_isAlphanum (h : c.isAlphanum = true) : isLabelMark c = false := by
  refine Bool.eq_false_iff.2 fun hmark => ?_
  simp only [isLabelMark, Bool.or_eq_true, beq_iff_eq] at hmark
  rcases hmark with (rfl | rfl) | rfl <;> exact absurd h (by decide)

/-- A character of a label value that is no mark is a letter or a digit. -/
theorem isAlphanum_of_isLabelChar (h : isLabelChar c = true) (hmark : isLabelMark c = false) :
    c.isAlphanum = true := by
  rwa [isLabelChar, hmark, Bool.or_false] at h

/-! ## Replacing and trimming -/

section Replacing

variable {keep p : Char → Bool} {mark : Char} {inRun : Bool} {cs : List Char}

/-- Where the mark is itself a character to keep, replacing runs leaves only characters to keep. -/
theorem keep_of_mem_replaceRuns (hmark : keep mark = true)
    (h : c ∈ replaceRuns keep mark inRun cs) : keep c = true := by
  induction cs generalizing inRun with
  | nil => exact absurd h List.not_mem_nil
  | cons d rest ih =>
    rw [replaceRuns] at h
    split_ifs at h with hd hrun
    · rcases List.mem_cons.1 h with rfl | hrest
      · exact hd
      · exact ih hrest
    · exact ih h
    · rcases List.mem_cons.1 h with rfl | hrest
      · exact hmark
      · exact ih hrest

/-- Replacing runs writes no more characters than it reads. -/
theorem length_replaceRuns_le : (replaceRuns keep mark inRun cs).length ≤ cs.length := by
  induction cs generalizing inRun with
  | nil => exact le_rfl
  | cons d rest ih =>
    rw [replaceRuns]
    split_ifs
    · exact Nat.succ_le_succ ih
    · exact ih.trans (Nat.le_succ _)
    · exact Nat.succ_le_succ ih

/-- Trimming only drops characters. -/
theorem trimBy_sublist : (Text.trimBy p cs).Sublist cs :=
  (List.rdropWhile_prefix p _).sublist.trans (List.dropWhile_sublist p)

end Replacing

/-! ## The text before the cut -/

theorem isLabelChar_of_mem_labelText (h : c ∈ labelText s) : isLabelChar c = true := by
  have hhyphen : isLabelChar '-' = true := by decide
  exact keep_of_mem_replaceRuns hhyphen (trimBy_sublist.subset h)

theorem length_labelText_le (s : String) : (labelText s).length ≤ s.toList.length :=
  trimBy_sublist.length_le.trans length_replaceRuns_le

/-- A text of the characters of a label value is only trimmed. -/
theorem labelText_of_chars (h : ∀ c ∈ s.toList, isLabelChar c = true) :
    labelText s = Text.trimBy isLabelMark s.toList := by
  rw [labelText, replaceRuns_of_all h]

/-- A text with room for all its characters is not cut: if it has a 63rd character, that is its last
one, and the text is trimmed. -/
theorem cutsClean_of_length_le (h : s.toList.length ≤ 63) : CutsClean s := by
  intro c hc
  have hlong : 62 < (labelText s).length := (List.getElem?_eq_some_iff.1 hc).1
  have hshort : (labelText s).length ≤ 63 := (length_labelText_le s).trans h
  have hlast : (labelText s).getLast? = some c := by
    rw [List.getLast?_eq_getElem?, show (labelText s).length - 1 = 62 by omega, hc]
  exact isLabelMark_eq_false_iff.1 (Text.getLast?_trimBy hlast)

/-! ## The cut -/

theorem toList_labelValue (s : String) : (labelValue s).toList = (labelText s).take 63 :=
  String.toList_ofList

theorem isLabelChar_of_mem_labelValue (h : c ∈ (labelValue s).toList) : isLabelChar c = true := by
  rw [toList_labelValue] at h
  exact isLabelChar_of_mem_labelText (List.mem_of_mem_take h)

/-- Whatever the cut does to the end of a label value, the rest has the form. -/
theorem isLabelStart_labelValue (s : String) : IsLabelStart (labelValue s) where
  length := by
    rw [toList_labelValue]
    exact List.length_take_le _ _
  chars _ hc := isLabelChar_iff.1 (isLabelChar_of_mem_labelValue hc)
  head c hc := by
    refine isAlphanum_of_isLabelChar (isLabelChar_of_mem_labelValue (List.mem_of_head? hc)) ?_
    rw [toList_labelValue, List.head?_take, if_neg (by decide)] at hc
    exact Text.head?_trimBy hc

/-- A label value ends in the 63rd character of the text, or else where the text ends. -/
theorem getLast?_labelValue (s : String) :
    (labelValue s).toList.getLast? = ((labelText s)[62]?).or (labelText s).getLast? := by
  rw [toList_labelValue, List.getLast?_take, if_neg (by decide)]

/-- A label value has the form of one exactly when the cut does not leave a mark at the end. -/
theorem isLabel_labelValue_iff : IsLabel (labelValue s) ↔ CutsClean s := by
  constructor
  · intro h c hc
    have hlast : (labelValue s).toList.getLast? = some c := by
      rw [getLast?_labelValue, hc, Option.some_or]
    exact isLabelMark_eq_false_iff.1 (isLabelMark_of_isAlphanum (h.last c hlast))
  · intro hclean
    refine ⟨isLabelStart_labelValue s, fun c hc => ?_⟩
    refine isAlphanum_of_isLabelChar (isLabelChar_of_mem_labelValue (List.mem_of_getLast? hc)) ?_
    rw [getLast?_labelValue] at hc
    -- the end is the 63rd character, or that of the whole text, which was trimmed
    cases hcut : (labelText s)[62]? with
    | some d =>
      rw [hcut, Option.some_or, Option.some.injEq] at hc
      exact hc ▸ isLabelMark_eq_false_iff.2 (hclean d hcut)
    | none =>
      rw [hcut, Option.none_or] at hc
      exact Text.getLast?_trimBy hc

/-- The label value of a text of at most 63 characters has the form of one. -/
theorem isLabel_labelValue_of_length_le (h : s.toList.length ≤ 63) : IsLabel (labelValue s) :=
  isLabel_labelValue_iff.2 (cutsClean_of_length_le h)

/-! ## Label values of label values -/

/-- A text is its own label value exactly when it has the form of one. -/
theorem labelValue_eq_self_iff : labelValue s = s ↔ IsLabel s := by
  constructor
  · intro h
    have hlength : s.toList.length ≤ 63 := h ▸ (isLabelStart_labelValue s).length
    exact h ▸ isLabel_labelValue_of_length_le hlength
  · intro h
    -- no character is replaced, none is trimmed and none is cut off
    have hchars : ∀ c ∈ s.toList, isLabelChar c = true := fun c hc => isLabelChar_iff.2 (h.chars c hc)
    have htrim : Text.trimBy isLabelMark s.toList = s.toList :=
      Text.trimBy_eq_self_iff.2
        ⟨fun c hc => isLabelMark_of_isAlphanum (h.head c hc),
          fun c hc => isLabelMark_of_isAlphanum (h.last c hc)⟩
    apply String.toList_injective
    rw [toList_labelValue, labelText_of_chars hchars, htrim, List.take_of_length_le h.length]

/-- A label value always has the form of one but for its end. It has the form, and is its own label
value, exactly when the cut does not leave a mark at the end; its own label value always has it. -/
theorem labelValue_legal_iff (s : String) :
    IsLabelStart (labelValue s) ∧
      (IsLabel (labelValue s) ↔ CutsClean s) ∧
      (labelValue (labelValue s) = labelValue s ↔ CutsClean s) ∧
      IsLabel (labelValue (labelValue s)) := by
  refine ⟨isLabelStart_labelValue s, isLabel_labelValue_iff, ?_, ?_⟩
  · rw [labelValue_eq_self_iff, isLabel_labelValue_iff]
  · exact isLabel_labelValue_of_length_le (isLabelStart_labelValue s).length

/-- A text with its only hyphen at the 63rd character: the cut leaves the hyphen at the end, and the
label value of the result is another. -/
theorem labelValue_hyphenAtCut :
    let s := String.ofList (List.replicate 62 'a' ++ ['-', 'b'])
    (labelValue s).toList.getLast? = some '-' ∧ ¬ IsLabel (labelValue s) ∧
      labelValue (labelValue s) = String.ofList (List.replicate 62 'a') ∧
      labelValue (labelValue s) ≠ labelValue s := by
  have hvalue : labelValue (String.ofList (List.replicate 62 'a' ++ ['-', 'b'])) =
      String.ofList (List.replicate 62 'a' ++ ['-']) := by decide +kernel
  have hagain : labelValue (String.ofList (List.replicate 62 'a' ++ ['-'])) =
      String.ofList (List.replicate 62 'a') := by decide +kernel
  dsimp only
  rw [hvalue, hagain]
  have hlast : (String.ofList (List.replicate 62 'a' ++ ['-'])).toList.getLast? = some '-' := by
    decide +kernel
  refine ⟨hlast, fun h => absurd (h.last '-' hlast) (by decide), rfl, by decide +kernel⟩

end VirtNet.Naming
