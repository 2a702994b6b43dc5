import VirtNet.Proofs.Address
import VirtNet.Value.Text

/-!
# Characters of written values

Numerals, dates and times are made of digits and a few marks, so no other character is in them: they are
written on one line, and none of them looks like a path.
-/

namespace VirtNet

/-! ## Numerals -/

namespace Text

/-- A digit of a numeral in base 16 is one of sixteen. -/
theorem mem_hex {width n : Nat} {c : Char} (h : c ∈ hex width n) : ∃ d, d < 16 ∧ c = hexDigit d := by
  induction width generalizing n with
  | zero => cases h
  | succ width ih =>
    rw [hex, List.mem_append, List.mem_singleton] at h
    rcases h with h | h
    · exact ih h
    · exact ⟨_, Nat.mod_lt _ (by decide), h⟩

theorem length_hex (width n : Nat) : (hex width n).length = width := by
  induction width generalizing n with
  | zero => rfl
  | succ width ih => simp [hex, ih]

/-- There are only digits in a numeral in base ten. -/
theorem not_mem_toDigits {c : Char} (hc : c.isDigit = false) (n : Nat) : c ∉ Nat.toDigits 10 n := by
  intro h
  rw [Address.isDigit_of_mem_toDigits h] at hc
  cases hc

end Text

open Text

theorem not_mem_padded {c : Char} (hc : c.isDigit = false) (width n : Nat) :
    c ∉ (padded width n).toList := by
  have hzero : c ≠ '0' := by
    rintro rfl
    cases hc
  simp [padded, not_mem_toDigits hc, hzero]

theorem Value.not_mem_int {c : Char} (hc : c.isDigit = false) (hsign : c ≠ '-') (n : Int) :
    c ∉ (toString n).toList := by
  cases n with
  | ofNat n => simpa [toString, Int.repr] using not_mem_toDigits hc n
  | negSucc n => simpa [toString, Int.repr, hsign] using not_mem_toDigits hc (n + 1)

/-! ## Floating-point numbers -/

/-- The digits of a decimal for a number are below ten. -/
theorem Decimal.lt_of_mem_ofNat {n d : Nat} {exponent : Int} (h : d ∈ (ofNat n exponent).digits) :
    d < 10 := by
  rw [ofNat, dropZeros, List.mem_reverse] at h
  have hd : d ∈ digitsOf n := List.mem_reverse.1 ((List.dropWhile_suffix _).subset h)
  rw [digitsOf, List.mem_map] at hd
  obtain ⟨c, hc, rfl⟩ := hd
  have hdigit := Address.isDigit_of_mem_toDigits hc
  simp only [Char.isDigit, Bool.and_eq_true, decide_eq_true_eq] at hdigit
  have hle : c.toNat ≤ 57 := hdigit.2
  omega

namespace Binary64

theorem lt_of_mem_firstGrid {low value high den fuel digits d : Nat} {closed : Bool} {point : Int}
    (h : d ∈ (firstGrid low value high den closed point fuel digits).digits) : d < 10 := by
  induction fuel generalizing digits with
  | zero => exact Decimal.lt_of_mem_ofNat h
  | succ fuel ih =>
    rw [firstGrid] at h
    split at h
    · exact Decimal.lt_of_mem_ofNat h
    · exact ih h

/-- A digit is written as one. -/
theorem isDigit_of_mem_digitChars {ds : List Nat} {c : Char} (hds : ∀ d ∈ ds, d < 10)
    (h : c ∈ digitChars ds) : c.isDigit = true := by
  obtain ⟨d, hd, rfl⟩ := List.mem_map.1 h
  have hdigits : ∀ d < 10, (Char.ofNat (48 + d)).isDigit = true := by decide
  exact hdigits d (hds d hd)

section Marks

variable {c : Char} (hc : c.isDigit = false) (hmark : c ∉ ['.', '+', '-', 'e', 'n', 'a', 'i', 'f'])

include hc hmark

theorem not_mem_decimalChars {x : Decimal} (hx : ∀ d ∈ x.digits, d < 10) : c ∉ decimalChars x := by
  have hzero : c ≠ '0' := by
    rintro rfl
    cases hc
  simp only [List.mem_cons, List.not_mem_nil, or_false, not_or] at hmark
  obtain ⟨hpoint, hplus, hminus, hletter, -⟩ := hmark
  have hdigits : c ∉ digitChars x.digits := by
    intro h
    rw [isDigit_of_mem_digitChars hx h] at hc
    cases hc
  have htake : ∀ n, c ∉ (digitChars x.digits).take n := fun n h => hdigits (List.mem_of_mem_take h)
  have hdrop : ∀ n, c ∉ (digitChars x.digits).drop n := fun n h => hdigits (List.mem_of_mem_drop h)
  have hexponent : c ∉ exponentChars (x.point - 1) := by
    unfold exponentChars
    dsimp only
    rw [List.mem_cons, not_or]
    constructor
    · split
      · exact hminus
      · exact hplus
    · split <;> simp [not_mem_toDigits hc, hzero]
  unfold decimalChars
  dsimp only
  split
  · split
    · simp [hdigits, hzero, hpoint]
    · have hpart : c ∉ (if ((digitChars x.digits).drop x.point.toNat).isEmpty then ['0']
          else (digitChars x.digits).drop x.point.toNat) := by
        split
        · simp [hzero]
        · exact hdrop _
      simp only [List.mem_append, List.mem_cons, List.mem_replicate, not_or]
      exact ⟨⟨htake _, by simp [hzero]⟩, hpoint, hpart⟩
  · have hpart : c ∉ (if ((digitChars x.digits).drop 1).isEmpty then []
        else '.' :: (digitChars x.digits).drop 1) := by
      split
      · exact List.not_mem_nil
      · simpa [hpoint] using hdrop 1
    simp only [List.mem_append, List.mem_cons, not_or]
    exact ⟨⟨htake _, hpart⟩, hletter, hexponent⟩

/-- There are only digits, a few marks and a few letters in a number. -/
theorem not_mem_toText (x : Binary64) : c ∉ x.toText.toList := by
  have hzero : c ≠ '0' := by
    rintro rfl
    cases hc
  have hmarks : c ≠ '.' ∧ c ≠ '-' := ⟨fun h => hmark (by simp [h]), fun h => hmark (by simp [h])⟩
  have hwords : c ∉ "nan".toList ∧ c ∉ "inf".toList := by
    simp only [List.mem_cons, List.not_mem_nil, or_false, not_or] at hmark
    obtain ⟨-, -, -, -, hn, ha, hi, hf⟩ := hmark
    simp [hn, ha, hi, hf]
  unfold toText
  split
  · exact hwords.1
  · split
    · simpa [hmarks.2] using hwords.2
    · exact hwords.2
  · next s m e _ =>
    have hmagnitude : c ∉ (if m = 0 then ['0', '.', '0'] else decimalChars (shortest m e)) := by
      split
      · simp [hzero, hmarks.1]
      · exact not_mem_decimalChars hc hmark fun d hd => lt_of_mem_firstGrid hd
    dsimp only
    rw [String.toList_ofList]
    split
    · simpa [hmarks.2] using hmagnitude
    · exact hmagnitude

end Marks

end Binary64

/-! ## Dates and times -/

theorem Date.not_mem_toText {c : Char} (hc : c.isDigit = false) (hmark : c ≠ '-') (d : Date) :
    c ∉ d.toText.toList := by
  have htext : ∀ s : String, toString s = s := fun _ => rfl
  simp [toText, htext, not_mem_padded hc, hmark]

theorem Moment.not_mem_textWith {c : Char} (hc : c.isDigit = false) (hmark : c ∉ ['-', ':', '.', '+'])
    {separator : String} (h : c ∉ separator.toList) (m : Moment) :
    c ∉ (m.textWith separator).toList := by
  have htext : ∀ s : String, toString s = s := fun _ => rfl
  simp only [List.mem_cons, List.not_mem_nil, or_false, not_or] at hmark
  obtain ⟨hminus, hcolon, hpoint, hplus⟩ := hmark
  have hfraction : c ∉ (if m.microsecond = 0 then "" else "." ++ padded 6 m.microsecond).toList := by
    split <;> simp [not_mem_padded hc, hpoint]
  have hoffset : c ∉ (m.offset.elim "" offsetText).toList := by
    cases m.offset with
    | none => simp
    | some o =>
      have hsign : c ∉ (if o < 0 then "-" else "+").toList := by
        split <;> simp [hminus, hplus]
      simp [offsetText, htext, not_mem_padded hc, hsign, hcolon]
  simp [textWith, htext, not_mem_padded hc, Date.not_mem_toText hc hminus, h, hfraction, hoffset, hcolon]

end VirtNet
