/-!
# Cutting and joining text

`fields` cuts a text at every separator, so that there is always one field more than separators;
`join` puts separators back. `join_fields` says that the two undo each other.
-/

namespace VirtNet.Text

/-- The parts of a text between separators. -/
def fields (separator : Char) : List Char → List (List Char)
  | [] => [[]]
  | c :: rest =>
    if c = separator then [] :: fields separator rest
    else
      match fields separator rest with
      | [] => [[c]]
      | f :: fs => (c :: f) :: fs

/-- The parts with a separator between each two. -/
def join (separator : List Char) : List (List Char) → List Char
  | [] => []
  | [f] => f
  | f :: g :: fs => f ++ separator ++ join separator (g :: fs)

/-- Texts with a separator between each two. -/
def joinWith (separator : String) (ss : List String) : String :=
  String.ofList (join separator.toList (ss.map String.toList))

/-- There is always a field. -/
theorem fields_ne_nil (separator : Char) (cs : List Char) : fields separator cs ≠ [] := by
  cases cs with
  | nil => simp [fields]
  | cons c rest =>
    simp only [fields]
    split
    · simp
    · split <;> simp

/-- Joining the fields gives the text back. -/
theorem join_fields (separator : Char) (cs : List Char) :
    join [separator] (fields separator cs) = cs := by
  induction cs with
  | nil => rfl
  | cons c rest ih =>
    simp only [fields]
    cases hf : fields separator rest with
    | nil => exact absurd hf (fields_ne_nil separator rest)
    | cons f fs =>
      rw [hf] at ih
      split
      · next h => subst h; simp [join, ih]
      · cases fs <;> simp_all [join]

end VirtNet.Text
