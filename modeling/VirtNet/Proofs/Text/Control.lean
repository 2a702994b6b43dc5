import VirtNet.Proofs.Text.Split
import VirtNet.Text.Control

/-!
# Texts without control sequences

Dropping the control sequences leaves a text as it is exactly when none begins in it
(`withoutControls_eq_self_iff`). A control sequence does not go on over a character that cannot stand in
one, so texts with such a character between them have one only where one of them has
(`uncontrolled_append_cons`, `uncontrolled_join`).
-/

namespace VirtNet.Text

variable {as bs cs : List Char} {c : Char}

/-- A text in which no control sequence begins. -/
def Uncontrolled : List Char → Prop
  | [] => True
  | c :: rest => controlLength (c :: rest) = 0 ∧ Uncontrolled rest

/-- Whether a character may stand in a control sequence after the escape character. -/
def continuesControl (c : Char) : Bool := c == '[' || isParameter c || c.isAlpha

/-- Dropping makes no text longer. -/
theorem length_withoutControlsAfter_le (skip : Nat) (cs : List Char) :
    (withoutControlsAfter skip cs).length ≤ cs.length := by
  induction cs generalizing skip with
  | nil => cases skip <;> exact Nat.le_refl _
  | cons c rest ih =>
    cases skip with
    | succ skip => exact Nat.le_succ_of_le (ih skip)
    | zero =>
      rw [withoutControlsAfter]
      split
      · exact Nat.succ_le_succ (ih 0)
      · exact Nat.le_succ_of_le (ih _)

/-- A text stays as it is exactly when no control sequence begins in it. -/
theorem withoutControls_eq_self_iff : withoutControls cs = cs ↔ Uncontrolled cs := by
  unfold withoutControls
  induction cs with
  | nil => exact iff_of_true rfl trivial
  | cons c rest ih =>
    rw [withoutControlsAfter, Uncontrolled, ← ih]
    split
    · next hzero => simp [hzero]
    · next more hmore =>
      -- what is shorter than the rest is not the whole
      refine iff_of_false (fun h => ?_) (fun h => ?_)
      · have hle := length_withoutControlsAfter_le more rest
        rw [h, List.length_cons] at hle
        omega
      · rw [hmore] at h
        cases h.1

/-- Without an escape character no control sequence begins. -/
theorem uncontrolled_of_not_mem (h : escapeChar ∉ cs) : Uncontrolled cs :=
  withoutControls_eq_self_iff.1 (withoutControls_eq_self h)

/-- In front of a text, one without an escape character changes nothing. -/
theorem uncontrolled_append_of_not_mem (h : escapeChar ∉ as) :
    Uncontrolled (as ++ bs) ↔ Uncontrolled bs := by
  induction as with
  | nil => rfl
  | cons a as ih =>
    rw [List.mem_cons, not_or] at h
    rw [List.cons_append, Uncontrolled, ih h.2, and_iff_right (controlLength_eq_zero (Ne.symm h.1) _)]

/-- A control sequence does not go on over a character that cannot stand in one. -/
theorem controlLength_append_cons (hc : continuesControl c = false) (a : Char) :
    controlLength (a :: as ++ c :: bs) = controlLength (a :: as) := by
  simp only [continuesControl, Bool.or_eq_false_iff, beq_eq_false_iff_ne] at hc
  obtain ⟨⟨hbracket, hparameter⟩, hletter⟩ := hc
  rcases as with - | ⟨b, rest⟩
  · simp [controlLength, hbracket]
  by_cases hb : b = '['
  · subst hb
    simp only [controlLength, List.cons_append, List.dropWhile_append, List.takeWhile_append]
    cases hdrop : rest.dropWhile isParameter with
    | nil => simp [hparameter, hletter]
    | cons letter more =>
      have htake : (rest.takeWhile isParameter).length ≠ rest.length := by
        have hlength := congrArg List.length (List.takeWhile_append_dropWhile (p := isParameter) (l := rest))
        rw [hdrop, List.length_append, List.length_cons] at hlength
        omega
      simp [htake]
  · simp [controlLength, hb]

/-- Two texts with such a character between them have a control sequence where one of them has. -/
theorem uncontrolled_append_cons (hc : continuesControl c = false) :
    Uncontrolled (as ++ c :: bs) ↔ Uncontrolled as ∧ Uncontrolled (c :: bs) := by
  induction as with
  | nil => exact (and_iff_right trivial).symm
  | cons a as ih =>
    rw [List.cons_append, Uncontrolled, Uncontrolled, ih, ← List.cons_append,
      controlLength_append_cons hc, and_assoc]

/-- The same of a text before another that is empty or begins with such a character and has no escape
character. -/
theorem uncontrolled_append (hbs : bs.head?.all (!continuesControl ·) = true) (h : escapeChar ∉ bs) :
    Uncontrolled (as ++ bs) ↔ Uncontrolled as := by
  cases bs with
  | nil => rw [List.append_nil]
  | cons b bs =>
    have hb : continuesControl b = false := by simpa using hbs
    rw [uncontrolled_append_cons hb, and_iff_left (uncontrolled_of_not_mem h)]

/-- Texts that are joined have a control sequence where one of them has. -/
theorem uncontrolled_join {between : List Char} {fs : List (List Char)}
    (hc : continuesControl c = false) (h : escapeChar ∉ c :: between) :
    Uncontrolled (join (c :: between) fs) ↔ ∀ f ∈ fs, Uncontrolled f := by
  induction fs with
  | nil => exact iff_of_true trivial (List.forall_mem_nil _)
  | cons f fs ih =>
    cases fs with
    | nil => rw [join, List.forall_mem_singleton]
    | cons g gs =>
      rw [join, List.append_assoc, List.cons_append, uncontrolled_append_cons hc, ← List.cons_append,
        uncontrolled_append_of_not_mem h, ih, List.forall_mem_cons (l := g :: gs)]

end VirtNet.Text
