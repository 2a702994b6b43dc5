/-!
# Control sequences

A control sequence tells a terminal to change colours or to move: an escape character, a bracket,
parameters and one letter. `withoutControls` drops all of them. `withoutControls_eq_self` says that a
text without an escape character stays as it is.
-/

namespace VirtNet.Text

/-- The character that begins a control sequence. -/
def escapeChar : Char := '\x1b'

/-- Whether `c` may stand among the parameters of a control sequence. -/
def isParameter (c : Char) : Bool := c.isDigit || c == ';' || c == '?'

/-- The length of the control sequence that a text begins with, zero if it begins with none. -/
def controlLength (cs : List Char) : Nat :=
  match cs with
  | c :: '[' :: rest =>
    let parameters := rest.takeWhile isParameter
    match rest.dropWhile isParameter with
    | letter :: _ => if c = escapeChar ∧ letter.isAlpha then parameters.length + 3 else 0
    | [] => 0
  | _ => 0

/-- A text without `skip` characters at its front and without the control sequences after them. -/
def withoutControlsAfter : (skip : Nat) → List Char → List Char
  | _, [] => []
  | skip + 1, _ :: rest => withoutControlsAfter skip rest
  | 0, c :: rest =>
    match controlLength (c :: rest) with
    | 0 => c :: withoutControlsAfter 0 rest
    | more + 1 => withoutControlsAfter more rest

/-- A text without its control sequences. -/
def withoutControls (cs : List Char) : List Char := withoutControlsAfter 0 cs

/-- What does not begin with the escape character does not begin with a control sequence. -/
theorem controlLength_eq_zero {c : Char} (h : c ≠ escapeChar) (rest : List Char) :
    controlLength (c :: rest) = 0 := by
  unfold controlLength
  split
  · next heq =>
    obtain ⟨rfl, rfl⟩ := List.cons.inj heq
    split <;> simp [h]
  · rfl

/-- A text without an escape character stays as it is. -/
theorem withoutControls_eq_self {cs : List Char} (h : escapeChar ∉ cs) : withoutControls cs = cs := by
  unfold withoutControls
  induction cs with
  | nil => rfl
  | cons c rest ih =>
    have hc : c ≠ escapeChar := fun e => h (e ▸ List.mem_cons_self)
    have hr : escapeChar ∉ rest := fun m => h (List.mem_cons_of_mem c m)
    simp only [withoutControlsAfter, controlLength_eq_zero hc, ih hr]

end VirtNet.Text
