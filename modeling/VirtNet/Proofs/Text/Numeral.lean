import VirtNet.Proofs.Address.Network
import VirtNet.Text.Numeral

/-!
# Numerals read back

Digits of any script are read as the number that they are a numeral of, as long as there are no more of them
than a numeral may have (`int?_of_isDigit`). The numeral of a number has no leading zero (`head?_toDigits`)
and is read as that number under the same condition (`int?_toDigits_of_lt`). A number that was read from so
few digits can be written (`digitsValue_lt`, `lt_decimalBound`).
-/

namespace VirtNet.Text

variable {cs : List Char} {n : Nat}

/-- Only the numeral of zero starts with a zero. -/
theorem head?_toDigits (h : 0 < n) : (Nat.toDigits 10 n).head? ≠ some '0' := by
  induction n using Nat.strong_induction_on with
  | h n ih =>
    by_cases hlt : n < 10
    · rw [Nat.toDigits_of_lt_base hlt, List.head?_cons]
      have hdigits : ∀ d < 10, 0 < d → some (Nat.digitChar d) ≠ some '0' := by decide
      exact hdigits n hlt h
    · rw [Nat.toDigits_of_base_le (by decide) (by omega),
        List.head?_append_of_ne_nil _ Nat.toDigits_ne_nil]
      exact ih (n / 10) (by omega) (by omega)

/-! ## Digits of any script -/

/-- An ASCII digit is a decimal digit. -/
theorem isDigit_of_ascii {c : Char} (h : c.isDigit = true) : isDigit c = true := by
  rw [isDigit, Address.decimalDigit?_of_isDigit h]
  rfl

/-- A decimal digit is not blank. -/
theorem isBlank_of_isDigit {c : Char} (h : isDigit c = true) : isBlank c = false := by
  obtain ⟨d, hd⟩ := Option.isSome_iff_exists.1 h
  obtain ⟨z, hz, -⟩ := Option.map_eq_some_iff.1 hd
  have hrange := List.find?_some hz
  -- no blank is among the ten characters from a zero on
  have hzeros : ∀ z ∈ digitZeros, ∀ n ∈ [0x85, 0xA0, 0x1680, 0x2028, 0x2029, 0x202F, 0x205F, 0x3000],
      32 < z ∧ (n < z ∨ z + 10 ≤ n) ∧ (0x200A < z ∨ z + 10 ≤ 0x2000) := by decide
  have hclear := hzeros z (List.mem_of_find?_eq_some hz)
  simp only [List.forall_mem_cons, List.not_mem_nil, false_implies, implies_true, and_true] at hclear
  simp only [Bool.and_eq_true, decide_eq_true_eq] at hrange
  simp only [isBlank, Bool.or_eq_false_iff, Bool.and_eq_false_iff, decide_eq_false_iff_not,
    beq_eq_false_iff_ne]
  omega

/-- The code points of the letters of ASCII. -/
theorem isAlpha_bounds {c : Char} (h : c.isAlpha = true) :
    65 ≤ c.toNat ∧ c.toNat ≤ 90 ∨ 97 ≤ c.toNat ∧ c.toNat ≤ 122 := by
  delta Char.isAlpha Char.isUpper Char.isLower at h
  simpa [UInt32.le_iff_toNat_le] using h

/-- A letter is not blank. -/
theorem isBlank_of_isAlpha {c : Char} (h : c.isAlpha = true) : isBlank c = false := by
  have hbounds := isAlpha_bounds h
  simp only [isBlank, Bool.or_eq_false_iff, Bool.and_eq_false_iff, decide_eq_false_iff_not,
    beq_eq_false_iff_ne]
  omega

/-- A letter is no digit. -/
theorem isDigit_of_isAlpha {c : Char} (h : c.isAlpha = true) : isDigit c = false := by
  have hbounds := isAlpha_bounds h
  refine Bool.eq_false_iff.2 fun hdigit => ?_
  obtain ⟨d, hd⟩ := Option.isSome_iff_exists.1 hdigit
  obtain ⟨z, hz, -⟩ := Option.map_eq_some_iff.1 hd
  have hrange := List.find?_some hz
  -- no letter is among the ten characters from a zero on
  have hzeros : ∀ z ∈ digitZeros, z + 10 ≤ 65 ∨ 122 < z := by decide
  have hclear := hzeros z (List.mem_of_find?_eq_some hz)
  simp only [Bool.and_eq_true, decide_eq_true_eq] at hrange
  omega

/-- A decimal digit is a digit in base ten. -/
theorem digitIn?_of_isDigit {c : Char} (h : isDigit c = true) :
    digitIn? 10 c = some ((decimalDigit? c).getD 0) := by
  obtain ⟨d, hd⟩ := Option.isSome_iff_exists.1 h
  have hlt := decimalDigit?_lt hd
  simp [digitIn?, hd, hlt]

/-- The digits after a digit, without low lines. -/
theorem digitsAfter?_of_isDigit (h : ∀ c ∈ cs, isDigit c = true) :
    digitsAfter? 10 cs = some (cs.map fun c => (decimalDigit? c).getD 0) := by
  induction cs with
  | nil => rfl
  | cons c rest ih =>
    rw [List.forall_mem_cons] at h
    rw [digitsAfter?, digitIn?_of_isDigit h.1, ih h.2]
    · rfl
    · rintro d tail rfl
      exact absurd h.1 (by decide)

/-- Digits are the digits of a numeral. -/
theorem digits?_of_isDigit (h : ∀ c ∈ cs, isDigit c = true) (hne : cs ≠ []) :
    digits? 10 cs = some (cs.map fun c => (decimalDigit? c).getD 0) := by
  obtain ⟨c, rest, rfl⟩ := List.exists_cons_of_ne_nil hne
  rw [List.forall_mem_cons] at h
  rw [digits?, digitIn?_of_isDigit h.1, digitsAfter?_of_isDigit h.2]
  rfl

/-- A decimal numeral has no mark of its base. -/
theorem dropBaseMark_ten (cs : List Char) : dropBaseMark 10 cs = cs := by
  have hmark : baseMark 10 = [] := rfl
  unfold dropBaseMark
  split
  · rw [hmark]
    rfl
  · rfl

/-- Digits are a numeral of their value, unless there are too many of them. -/
theorem natIn?_of_isDigit (h : ∀ c ∈ cs, isDigit c = true) (hne : cs ≠ []) :
    natIn? 10 cs = if maxDecimalDigits < cs.length then none else some (digitsValue cs) := by
  have hvalue : ofDigits 10 (cs.map fun c => (decimalDigit? c).getD 0) = digitsValue cs := by
    rw [ofDigits, List.foldl_map]
    rfl
  rw [natIn?, dropBaseMark_ten, digits?_of_isDigit h hne]
  simp [hvalue]

/-- Digits are read as the whole number that they are a numeral of. -/
theorem int?_of_isDigit (h : ∀ c ∈ cs, isDigit c = true) (hne : cs ≠ []) :
    int? cs = if maxDecimalDigits < cs.length then none else some (digitsValue cs : Int) := by
  have hblank : ∀ c ∈ cs, isNumberBlank c = false := fun c hc => by
    rw [isNumberBlank, isBlank_of_isDigit (h c hc)]
    rfl
  have htrim : trimBy isNumberBlank cs = cs :=
    trimBy_eq_self_iff.2 ⟨fun c hc => hblank c (List.mem_of_head? hc),
      fun c hc => hblank c (List.mem_of_getLast? hc)⟩
  rw [int?, intIn?, htrim]
  split
  · next rest =>
    have hsign := h '-' List.mem_cons_self
    exact absurd hsign (by decide)
  · next rest =>
    have hsign := h '+' List.mem_cons_self
    exact absurd hsign (by decide)
  · rw [natIn?_of_isDigit h hne]
    split <;> rfl

/-! ## Numerals of numbers -/

/-- A number below a power of ten has no more digits than the power. -/
theorem length_toDigits_le {k : Nat} (hk : 0 < k) (h : n < Nat.pow 10 k) :
    (Nat.toDigits 10 n).length ≤ k :=
  (Nat.length_toDigits_le_iff (by decide) hk).2 h

/-- The value of digits of ASCII. -/
theorem digitsValue_eq_ofDigitChars (h : ∀ c ∈ cs, c.isDigit = true) :
    digitsValue cs = Nat.ofDigitChars 10 cs 0 := by
  refine List.foldl_ext _ _ _ fun m c hc => ?_
  rw [Address.decimalDigit?_of_isDigit (h c hc)]
  rfl

/-- The value of the numeral of a number is the number. -/
theorem digitsValue_toDigits (n : Nat) : digitsValue (Nat.toDigits 10 n) = n := by
  rw [digitsValue_eq_ofDigitChars fun c => Address.isDigit_of_mem_toDigits, Nat.ofDigitChars_ten_toDigits]

/-- A digit is no sign. -/
theorem ne_of_isDigit {c d : Char} (h : c.isDigit = true) (hd : d.isDigit = false) : c ≠ d := by
  rintro rfl
  rw [hd] at h
  cases h

/-- The numeral of a number is read as that whole number. -/
theorem int?_toDigits_of_lt (h : n < decimalBound) : int? (Nat.toDigits 10 n) = some (n : Int) := by
  have hdigits : ∀ c ∈ Nat.toDigits 10 n, isDigit c = true := fun c hc =>
    isDigit_of_ascii (Address.isDigit_of_mem_toDigits hc)
  have hlength : ¬ maxDecimalDigits < (Nat.toDigits 10 n).length := by
    -- the bound is not to be computed
    delta decimalBound at h
    exact Nat.not_lt.2 (length_toDigits_le (by decide) h)
  rw [int?_of_isDigit hdigits Nat.toDigits_ne_nil, if_neg hlength, digitsValue_toDigits]

/-! ## Numbers that can be written -/

/-- Digits that are read after a number put it so many places further left, and fill these places. -/
theorem foldl_digits_lt (cs : List Char) (n : Nat) :
    cs.foldl (fun n c => 10 * n + (decimalDigit? c).getD 0) n < (n + 1) * Nat.pow 10 cs.length := by
  induction cs generalizing n with
  | nil => exact Nat.lt_of_lt_of_eq (Nat.lt_succ_self n) (Nat.mul_one _).symm
  | cons c rest ih =>
    have hdigit : (decimalDigit? c).getD 0 < 10 := by
      cases h : decimalDigit? c with
      | none => decide
      | some d => exact decimalDigit?_lt h
    have hpower : Nat.pow 10 (c :: rest).length = 10 * Nat.pow 10 rest.length :=
      (Nat.pow_succ 10 rest.length).trans (Nat.mul_comm _ _)
    rw [List.foldl_cons, hpower, ← Nat.mul_assoc]
    calc rest.foldl (fun n c => 10 * n + (decimalDigit? c).getD 0) (10 * n + (decimalDigit? c).getD 0)
        < (10 * n + (decimalDigit? c).getD 0 + 1) * Nat.pow 10 rest.length := ih _
      _ ≤ (n + 1) * 10 * Nat.pow 10 rest.length := Nat.mul_le_mul_right _ (by omega)

/-- A number of so many digits is below that power of ten. -/
theorem digitsValue_lt (cs : List Char) : digitsValue cs < Nat.pow 10 cs.length :=
  Nat.lt_of_lt_of_eq (foldl_digits_lt cs 0) (Nat.one_mul _)

/-- A number of no more digits than a numeral may have can be written. -/
theorem lt_decimalBound {k : Nat} (h : n < Nat.pow 10 k) (hk : k ≤ maxDecimalDigits) :
    n < decimalBound := by
  have hpower : ∀ m, k ≤ m → Nat.pow 10 k ≤ Nat.pow 10 m := fun m hm =>
    Nat.pow_le_pow_right (by decide) hm
  -- the bound is not to be computed
  delta decimalBound
  exact Nat.lt_of_lt_of_le h (hpower _ hk)

end VirtNet.Text
