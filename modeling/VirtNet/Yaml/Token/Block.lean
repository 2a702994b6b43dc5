import VirtNet.Yaml.Break

/-!
# Block scalars

A block scalar is a header line and indented lines below it. In the literal style every line break
stands for itself; in the folded style the lines of a paragraph are joined by spaces. The header says
what becomes of the line breaks at the end.
-/

namespace VirtNet.Yaml.Block

/-- What becomes of the line breaks at the end of a scalar. -/
inductive Chomping
  /-- All are dropped. -/
  | strip
  /-- The first is kept. -/
  | clip
  /-- All are kept. -/
  | keep
deriving DecidableEq, Repr

/-- What a header says. -/
structure Header where
  chomping : Chomping
  /-- How much further the lines are indented than what the scalar belongs to. -/
  increment : Option Nat
deriving DecidableEq, Repr

/-- The sign for the line breaks at the end. -/
def chomping? (c : Char) : Option Chomping :=
  if c == '+' then some .keep else if c == '-' then some .strip else none

/-- The digit for the indentation; zero is none. -/
def increment? (c : Char) : Option Nat := if '1' ≤ c && c ≤ '9' then some (c.toNat - '0'.toNat) else none

/-- The indicators of a header, in either order, and the rest. -/
def indicators : List Char → Header × List Char
  | [] => (⟨.clip, none⟩, [])
  | c :: rest =>
    match chomping? c, increment? c with
    | some k, _ =>
      match rest with
      | d :: rest' =>
        match increment? d with
        | some n => (⟨k, some n⟩, rest')
        | none => (⟨k, none⟩, rest)
      | [] => (⟨k, none⟩, [])
    | none, some n =>
      match rest with
      | d :: rest' =>
        match chomping? d with
        | some k => (⟨k, some n⟩, rest')
        | none => (⟨.clip, some n⟩, rest)
      | [] => (⟨.clip, some n⟩, [])
    | none, none => (⟨.clip, none⟩, c :: rest)

/-- Drops spaces, a comment and the line break after them; there must be nothing else. -/
def dropLineEnd? (cs : List Char) : Option (List Char) :=
  let next := cs.dropWhile (· == ' ')
  let next := if startsWith '#' next then next.dropWhile (!isLineEnd ·) else next
  match next with
  | [] => some []
  | next => (lineBreak? next).map Prod.snd

/-- The header of a scalar and the lines below it. After the indicators there is a space or the end of
the line. -/
def header? (cs : List Char) : Option (Header × List Char) :=
  let (h, rest) := indicators cs
  if startsWith ' ' rest || startsWithLineEnd rest then (dropLineEnd? rest).map (h, ·) else none

/-- The empty lines before a line, and the indentation passed before it. -/
structure Lead where
  breaks : List Char
  column : Nat
  rest : List Char
deriving DecidableEq, Repr

/-- Passes empty lines and at most `indent` spaces of the line after them. -/
def lead (indent : Nat) : (column : Nat) → List Char → Lead
  | _, '\r' :: '\n' :: rest =>
    let l := lead indent 0 rest
    { l with breaks := '\n' :: l.breaks }
  | column, c :: rest =>
    if c == ' ' && column < indent then lead indent (column + 1) rest
    else if isLineEnd c then
      let l := lead indent 0 rest
      { l with breaks := lineEndMeaning c :: l.breaks }
    else ⟨[], column, c :: rest⟩
  | column, [] => ⟨[], column, []⟩

/-- The widest indentation among empty lines and the line after them. -/
def widest : (column most : Nat) → List Char → Nat
  | _, most, '\r' :: '\n' :: rest => widest 0 most rest
  | column, most, c :: rest =>
    if c == ' ' then widest (column + 1) (max most (column + 1)) rest
    else if isLineEnd c then widest 0 most rest
    else most
  | _, most, [] => most

/-- What stands between two lines: `breaks` are the empty lines between them. In the folded style a
line feed between two lines that do not start with a space is a space or, with empty lines, nothing. -/
def separator (folded : Bool) (first : Char) (spaced : Bool) (breaks : List Char) : List Char :=
  if folded && first == '\n' && !spaced then if breaks.isEmpty then [' '] else [] else [first]

/-- Whether a text starts with a space or a tab. -/
def startsWithSpace : List Char → Bool
  | [] => false
  | c :: _ => isSpace c

/-- A block scalar that has been read. -/
structure Reading where
  text : List Char
  /-- The line break after the last line. -/
  lastBreak : List Char
  /-- The breaks of the empty lines after it. -/
  trailing : List Char
  rest : List Char
deriving DecidableEq, Repr

/-- The lines with the given indentation. `fuel` bounds them. -/
def lines (folded : Bool) (indent : Nat) : (fuel : Nat) → Lead → Reading
  | 0, l => ⟨[], [], l.breaks, l.rest⟩
  | fuel + 1, l =>
    if l.column = indent ∧ l.rest ≠ [] then
      let line := l.rest.takeWhile (!isLineEnd ·)
      let afterLine := l.rest.dropWhile (!isLineEnd ·)
      match lineBreak? afterLine with
      | none => ⟨l.breaks ++ line, [], [], []⟩
      | some (b, rest) =>
        let next := lead indent 0 rest
        if next.column = indent ∧ next.rest ≠ [] then
          let spaced := startsWithSpace line || startsWithSpace next.rest
          let r := lines folded indent fuel next
          { r with text := l.breaks ++ line ++ separator folded b spaced next.breaks ++ r.text }
        else ⟨l.breaks ++ line, [b], next.breaks, next.rest⟩
    else ⟨[], [], l.breaks, l.rest⟩

/-- The text of a scalar and the rest. `floor` is the least indentation of its lines. -/
def read? (folded : Bool) (floor : Nat) (cs : List Char) : Option (List Char × List Char) := do
  let (h, rest) ← header? cs
  let indent :=
    match h.increment with
    | some n => floor + n - 1
    | none => max floor (widest 0 0 rest)
  let r := lines folded indent (rest.length + 1) (lead indent 0 rest)
  match h.chomping with
  | .strip => some (r.text, r.rest)
  | .clip => some (r.text ++ r.lastBreak, r.rest)
  | .keep => some (r.text ++ r.lastBreak ++ r.trailing, r.rest)

end VirtNet.Yaml.Block
