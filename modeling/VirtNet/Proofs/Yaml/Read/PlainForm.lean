import VirtNet.Proofs.Text.Numeral
import VirtNet.Proofs.Yaml.Read.Scalar
import VirtNet.Yaml.Node.Scalar

/-!
# Words and numbers without quotes

Null, the truth values and whole numbers are written without quotes, and their forms are taken for what
they are: the reader finds the tag of the form (`Resolves.tag`) and under it the value
(`Resolves.value`).
-/

namespace VirtNet.Yaml

open Text

variable {cs : List Char}

/-- The plain form of a value is taken for the value. -/
structure Resolves (v : Value) (t : Tag) : Prop where
  plain : (Traits.of (plainForm v)).allowsPlain = true
  nonempty : plainForm v ≠ []
  tag : Tag.ofPlain (plainForm v) = t
  value : ∀ place, Scalar.value place t (plainForm v) = .ok v

theorem resolves_null : Resolves .null .null :=
  ⟨by decide, by decide, by decide, fun _ => rfl⟩

theorem resolves_bool (b : Bool) : Resolves (.bool b) .bool := by
  cases b <;> exact ⟨by decide, by decide, by decide, fun _ => by rfl⟩

/-! ## Whole numbers -/

theorem hasInnerIndicator_eq_false (h : ∀ c ∈ cs, c ≠ ':' ∧ c ≠ '#') :
    Traits.hasInnerIndicator cs = false := by
  induction cs using Traits.hasInnerIndicator.induct with
  | case1 a b rest ih =>
    have hb := h b (by simp)
    rw [Traits.hasInnerIndicator, ih fun c hc => h c (List.mem_cons_of_mem _ hc)]
    simp [hb]
  | case2 cs hshort =>
    rw [Traits.hasInnerIndicator]
    exact hshort

theorem anyNeighbours_eq_false {p : Char → Char → Bool} (h : ∀ a ∈ cs, ∀ b ∈ cs, p a b = false) :
    Traits.anyNeighbours p cs = false := by
  induction cs using Traits.anyNeighbours.induct with
  | case1 a b rest ih =>
    rw [Traits.anyNeighbours, h a (by simp) b (by simp), Bool.false_or]
    exact ih fun c hc d hd => h c (List.mem_cons_of_mem _ hc) d (List.mem_cons_of_mem _ hd)
  | case2 cs hshort =>
    rw [Traits.anyNeighbours]
    exact hshort

/-- A text of plain characters, of which the first is no indicator, can be written without quotes. -/
theorem allowsPlain_of_forall (h : ∀ c ∈ cs, isGap c = false ∧ Traits.isShown c = true ∧ c ≠ ':' ∧ c ≠ '#')
    (hstart : Traits.startsAsIndicator cs = false) (hmark : Traits.startsAsDocumentMark cs = false) :
    (Traits.of cs).allowsPlain = true := by
  have hgap : ∀ c ∈ cs, c ≠ ' ' ∧ isBreak c = false := by
    intro c hc
    have hgap := (h c hc).1
    rw [isGap, isSpace, isLineEnd] at hgap
    simp only [Bool.or_eq_false_iff, beq_eq_false_iff_ne] at hgap
    exact ⟨hgap.1.1.1, hgap.2.2⟩
  have hinner : Traits.hasInnerIndicator cs = false :=
    hasInnerIndicator_eq_false fun c hc => (h c hc).2.2
  have hbreakSpace : Traits.anyNeighbours (fun a b => isBreak a && b == ' ') cs = false :=
    anyNeighbours_eq_false fun a ha _ _ => by simp [(hgap a ha).2]
  have hspaceBreak : Traits.anyNeighbours (fun a b => a == ' ' && isBreak b) cs = false :=
    anyNeighbours_eq_false fun _ _ b hb => by simp [(hgap b hb).2]
  have hends : ∀ o : Option Char, (∀ c, o = some c → c ∈ cs) →
      (o.any fun c => c == ' ' || isBreak c) = false := by
    rintro (_ | c) ho
    · rfl
    · simpa using hgap c (ho c rfl)
  simp only [Traits.allowsPlain, Traits.of, hstart, hmark, hinner, hbreakSpace, hspaceBreak,
    hends _ fun c hc => List.mem_of_head? hc, hends _ fun c hc => List.mem_of_getLast? hc,
    Bool.or_false, Bool.not_eq_true', Bool.or_eq_false_iff, List.any_eq_false, true_and]
  exact ⟨fun c hc => by simp [(hgap c hc).2], fun c hc => by simp [(h c hc).2.1]⟩

/-- A digit is a plain character. -/
theorem plain_of_isDigit {c : Char} (h : c.isDigit = true) :
    isGap c = false ∧ Traits.isShown c = true ∧ c ≠ ':' ∧ c ≠ '#' := by
  have hrange := h
  simp only [Char.isDigit, Bool.and_eq_true, decide_eq_true_eq] at hrange
  have hlow : 48 ≤ c.toNat := hrange.1
  have hhigh : c.toNat ≤ 57 := hrange.2
  refine ⟨?_, ?_, ne_of_isDigit h rfl, ne_of_isDigit h rfl⟩
  · have hne : ∀ d : Char, d.isDigit = false → (c == d) = false := fun d hd =>
      beq_eq_false_iff_ne.2 (ne_of_isDigit h hd)
    simp only [isGap, isSpace, isLineEnd, isBreak, Bool.or_eq_false_iff, hne ' ' rfl, hne '\t' rfl, hne '\r' rfl,
      hne '\n' rfl, beq_eq_false_iff_ne, true_and]
    omega
  · simp only [Traits.isShown, Bool.or_eq_true, Bool.and_eq_true, decide_eq_true_eq]
    omega

/-- A whole number without its sign: its digits, of which the first is a zero only for zero. -/
structure Numeral (ds : List Char) (n : Nat) : Prop where
  digits : ∀ c ∈ ds, c.isDigit = true
  head : ds = ['0'] ∨ ∃ c rest, ds = c :: rest ∧ c ≠ '0'
  read : Text.int? ds = some (n : Int)

theorem numeral_toDigits {n : Nat} (h : n < decimalBound) : Numeral (Nat.toDigits 10 n) n where
  digits _ hc := Address.isDigit_of_mem_toDigits hc
  head := by
    rcases Nat.eq_zero_or_pos n with rfl | hpos
    · exact .inl rfl
    · obtain ⟨c, rest, hds⟩ := List.exists_cons_of_ne_nil (show Nat.toDigits 10 n ≠ [] from Nat.toDigits_ne_nil)
      refine .inr ⟨c, rest, hds, fun hc => ?_⟩
      have hhead := head?_toDigits hpos
      rw [hds, hc] at hhead
      exact hhead rfl
  read := int?_toDigits_of_lt h

namespace Numeral

variable {ds : List Char} {n : Nat}

theorem cons (h : Numeral ds n) : ∃ c rest, ds = c :: rest ∧ c.isDigit = true ∧ ∀ d ∈ rest, d.isDigit = true := by
  rcases h.head with rfl | ⟨c, rest, rfl, -⟩
  · exact ⟨'0', [], rfl, rfl, fun _ hd => nomatch hd⟩
  · have hdigits := h.digits
    rw [List.forall_mem_cons] at hdigits
    exact ⟨c, rest, rfl, hdigits⟩

/-- Digits are a whole number in base ten. -/
theorem unsignedInt (h : Numeral ds n) : Scalar.unsignedInt ds = .ok (n : Int) := by
  have hcolon : ':' ∉ ds := fun hmem => absurd (h.digits _ hmem) (by decide)
  have hread := h.read
  have hten : Scalar.number (((fields ':' ds).mapM Text.int?).map fun xs => xs.foldl (fun n d => 60 * n + d) 0) =
      .ok (n : Int) := by
    rw [fields_of_not_mem hcolon]
    simp [hread, Scalar.number]
  rcases h.head with rfl | ⟨c, rest, rfl, hc⟩
  · obtain rfl : n = 0 := by
      have hzero : Text.int? ['0'] = some 0 := by decide +kernel
      rw [hzero] at hread
      simpa using hread.symm
    rfl
  · rw [Scalar.unsignedInt]
    · exact hten
    all_goals simp [hc]

/-- A number with its sign. -/
def signed (negative : Bool) (ds : List Char) : List Char := if negative then '-' :: ds else ds

/-- Low lines do not count, and there are none. -/
theorem filter_signed (h : Numeral ds n) (negative : Bool) :
    (signed negative ds).filter (· ≠ '_') = signed negative ds := by
  have hdigits : ds.filter (· ≠ '_') = ds :=
    List.filter_eq_self.2 fun c hc => by simpa using ne_of_isDigit (h.digits c hc) rfl
  cases negative with
  | false => exact hdigits
  | true => exact congrArg (List.cons '-') hdigits

/-- A number with its sign is read as the number. -/
theorem int_signed (h : Numeral ds n) (negative : Bool) :
    Scalar.int (signed negative ds) = .ok (if negative then -(n : Int) else n) := by
  have hmagnitude : Scalar.magnitude (signed negative ds) = .ok (negative, ds) := by
    rw [Scalar.magnitude, h.filter_signed]
    obtain ⟨c, rest, rfl, hc, -⟩ := h.cons
    cases negative with
    | true => rfl
    | false =>
      rw [signed, if_neg (by decide)]
      split
      · next heq => cases heq
      · next heq =>
        rw [(List.cons.inj heq).1] at hc
        cases hc
      · next heq =>
        rw [(List.cons.inj heq).1] at hc
        cases hc
      · rfl
  rw [Scalar.int, hmagnitude]
  simp only [bind, Except.bind, h.unsignedInt]
  rfl

theorem unsigned_signed (h : Numeral ds n) (negative : Bool) : Tag.unsigned (signed negative ds) = ds := by
  cases negative with
  | true => rfl
  | false =>
    obtain ⟨c, rest, rfl, hc, -⟩ := h.cons
    rw [signed, if_neg (by decide), Tag.unsigned]
    · intro tail heq
      rw [(List.cons.inj heq).1] at hc
      cases hc
    · intro tail heq
      rw [(List.cons.inj heq).1] at hc
      cases hc

/-- After its first digit there is nothing but digits. -/
theorem dropWhile_rest {c : Char} {rest : List Char} (h : Numeral (c :: rest) n) :
    rest.dropWhile Tag.isDigitOrLine = [] := by
  rw [List.dropWhile_eq_nil_iff]
  intro d hd
  rw [Tag.isDigitOrLine, h.digits d (List.mem_cons_of_mem _ hd)]
  rfl

/-- A number with its sign is a whole number. -/
theorem isInt_signed (h : Numeral ds n) (negative : Bool) : Tag.isInt (signed negative ds) = true := by
  rw [Tag.isInt, h.unsigned_signed]
  rcases h.head with rfl | ⟨c, rest, rfl, hc⟩
  · rfl
  · have hdigit := h.digits c List.mem_cons_self
    split
    · rfl
    · next heq => exact absurd (List.cons.inj heq).1 hc
    · next heq => exact absurd (List.cons.inj heq).1 hc
    · next heq => exact absurd (List.cons.inj heq).1 hc
    · next heq =>
      obtain ⟨rfl, rfl⟩ := List.cons.inj heq
      rw [hdigit, h.dropWhile_rest]
      rfl
    · next heq => cases heq

/-- A number with its sign has no point. -/
theorem isFloat_signed (h : Numeral ds n) (negative : Bool) : Tag.isFloat (signed negative ds) = false := by
  obtain ⟨c, rest, rfl, hc, -⟩ := h.cons
  have hpoint : c ≠ '.' := ne_of_isDigit hc rfl
  have hunsigned := h.unsigned_signed negative
  unfold Tag.isFloat
  dsimp only
  split
  · next heq =>
    cases negative with
    | true => cases heq
    | false => exact absurd (List.cons.inj heq).1 hpoint
  · rw [hunsigned]
    split
    · next heq => exact absurd (List.cons.inj heq).1 hpoint
    · next heq =>
      obtain ⟨rfl, rfl⟩ := List.cons.inj heq
      rw [h.dropWhile_rest]
      simp [Tag.isSexagesimalTail]
    · next heq => cases heq

/-- The words for truth values start with letters. -/
theorem isBool_signed (h : Numeral ds n) (negative : Bool) : Tag.isBool (signed negative ds) = false := by
  obtain ⟨c, rest, rfl, hc, -⟩ := h.cons
  have hne : ∀ d : Char, d.isDigit = false → c ≠ d := fun d hd => ne_of_isDigit hc hd
  cases negative with
  | true => simp [Tag.isBool, Tag.boolWords, Tag.isCased, signed]
  | false =>
    simp [Tag.isBool, Tag.boolWords, Tag.isCased, signed, hne]

/-- A number with its sign has the tag of whole numbers. -/
theorem ofPlain_signed (h : Numeral ds n) (negative : Bool) : Tag.ofPlain (signed negative ds) = .int := by
  have hfeed : '\n' ∉ signed negative ds := by
    have hds : '\n' ∉ ds := fun hmem => absurd (h.digits _ hmem) (by decide)
    cases negative with
    | false => exact hds
    | true => simpa [signed] using hds
  have hdrop : Tag.dropLastLineFeed (signed negative ds) = signed negative ds :=
    if_neg fun hlast => hfeed (List.mem_of_getLast? hlast)
  have hne : signed negative ds ≠ ['\n'] := by
    intro heq
    rw [heq] at hfeed
    exact hfeed List.mem_cons_self
  rw [Tag.ofPlain, if_neg hne, hdrop, Tag.ofWord, h.isBool_signed, h.isFloat_signed, h.isInt_signed]
  rfl

/-- A number with its sign can be written without quotes. -/
theorem allowsPlain_signed (h : Numeral ds n) (negative : Bool) :
    (Traits.of (signed negative ds)).allowsPlain = true := by
  have hplain : ∀ c ∈ ds, isGap c = false ∧ Traits.isShown c = true ∧ c ≠ ':' ∧ c ≠ '#' := fun c hc =>
    plain_of_isDigit (h.digits c hc)
  obtain ⟨c, rest, rfl, hc, -⟩ := h.cons
  have hne : ∀ d : Char, d.isDigit = false → c ≠ d := fun d hd => ne_of_isDigit hc hd
  cases negative with
  | true =>
    refine allowsPlain_of_forall (List.forall_mem_cons.2 ⟨by decide, hplain⟩) ?_ ?_
    · have hhyphen : '-' ∉ Traits.startIndicators := by decide
      simp [signed, Traits.startsAsIndicator, startsWithGap, (hplain c List.mem_cons_self).1, hhyphen]
    · simp [signed, Traits.startsAsDocumentMark, List.isPrefixOf, (hne '-' rfl).symm]
  | false =>
    refine allowsPlain_of_forall hplain ?_ ?_
    · have hstart : Traits.startIndicators.all (fun d => !d.isDigit) = true := by decide
      have hnot : c ∉ Traits.startIndicators := fun hmem => by
        simpa [hc] using List.all_eq_true.1 hstart c hmem
      simp [signed, Traits.startsAsIndicator, hnot, hne]
    · simp [signed, Traits.startsAsDocumentMark, List.isPrefixOf, (hne '-' rfl).symm, (hne '.' rfl).symm]

end Numeral

/-- A whole number that can be written is taken for itself. -/
theorem resolves_int {n : Int} (h : isWritable n = true) : Resolves (.int n) .int := by
  have hbound : n.natAbs < decimalBound := by simpa [isWritable] using h
  have hnumeral := numeral_toDigits hbound
  have hform : plainForm (.int n) = Numeral.signed (decide (n < 0)) (Nat.toDigits 10 n.natAbs) := by
    cases n with
    | ofNat n => simp [plainForm, toString, Int.repr, Numeral.signed]
    | negSucc n => simp [plainForm, toString, Int.repr, Numeral.signed]
  have hvalue : (if decide (n < 0) = true then -(n.natAbs : Int) else n.natAbs) = n := by
    simp only [decide_eq_true_eq]
    split <;> omega
  refine ⟨?_, ?_, ?_, fun place => ?_⟩
  · rw [hform]
    exact hnumeral.allowsPlain_signed _
  · rw [hform]
    obtain ⟨c, rest, hds, -⟩ := hnumeral.cons
    rw [hds, Numeral.signed]
    split <;> exact List.cons_ne_nil _ _
  · rw [hform]
    exact hnumeral.ofPlain_signed _
  · rw [hform, Scalar.value, hnumeral.int_signed, hvalue]
    rfl

end VirtNet.Yaml
