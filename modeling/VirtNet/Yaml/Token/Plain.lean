import VirtNet.Yaml.Break

/-!
# Plain scalars

A scalar without quotes runs on until an indicator that it cannot hold. It may go over several lines:
the spaces at the line ends are dropped and the lines are folded.
-/

namespace VirtNet.Yaml.Plain

/-- The indicators that end a word inside brackets or braces. -/
def stops : List Char := [',', '?', '[', ']', '\x7b', '\x7d']

/-- The indicators that a colon may stand before inside brackets or braces. -/
def closers : List Char := [',', '[', ']', '\x7b', '\x7d']

/-- Whether a colon with this text after it ends a word. -/
def endsKey (inFlow : Bool) : List Char → Bool
  | [] => true
  | c :: _ => isGap c || (inFlow && closers.contains c)

/-- Whether a word ends before a character with the given text after it. -/
def endsWord (inFlow : Bool) (c : Char) (rest : List Char) : Bool :=
  isGap c || (c == ':' && endsKey inFlow rest) || (inFlow && stops.contains c)

/-- The word at the front of a text, and the rest. -/
def word (inFlow : Bool) : List Char → List Char × List Char
  | [] => ([], [])
  | c :: rest =>
    if endsWord inFlow c rest then ([], c :: rest)
    else
      let w := word inFlow rest
      (c :: w.1, w.2)

/-- The space between two lines of a scalar. -/
structure LineGap where
  /-- The breaks of the empty lines. -/
  breaks : List Char
  /-- The column where the next line starts. -/
  column : Nat
  /-- Whether a border of the document comes instead of a next line. -/
  border : Bool
  /-- What follows. -/
  rest : List Char
deriving DecidableEq, Repr

/-- The space from a given column of a line up to the next line that is not empty. -/
def lineGap : (column : Nat) → List Char → LineGap
  | column, cs =>
    if column = 0 ∧ atBorder cs then ⟨[], 0, true, cs⟩
    else
      match cs with
      | ' ' :: rest => lineGap (column + 1) rest
      | '\r' :: '\n' :: rest =>
        let g := lineGap 0 rest
        { g with breaks := '\n' :: g.breaks }
      | c :: rest =>
        if isLineEnd c then
          let g := lineGap 0 rest
          { g with breaks := lineEndMeaning c :: g.breaks }
        else ⟨[], column, false, c :: rest⟩
      | [] => ⟨[], column, false, []⟩

/-- A plain scalar that has been read. -/
structure Reading where
  text : List Char
  /-- Whether there is a line break between the scalar and the rest. -/
  crossed : Bool
  rest : List Char
deriving DecidableEq, Repr

/-- Whether a scalar goes on with this text. -/
def goesOn (inFlow : Bool) (cs : List Char) : Bool := !startsWith '#' cs && !(word inFlow cs).1.isEmpty

/-- The plain scalar at the front of a text. Outside brackets and braces its further lines start at
column `floor` or later. `fuel` bounds the words. -/
def read (inFlow : Bool) (floor : Nat) : (fuel : Nat) → List Char → Reading
  | 0, cs => ⟨[], false, cs⟩
  | fuel + 1, cs =>
    let (w, afterWord) := word inFlow cs
    let spaces := afterWord.takeWhile (· == ' ')
    let next := afterWord.dropWhile (· == ' ')
    match lineBreak? next with
    | some (b, afterBreak) =>
      let g := lineGap 0 afterBreak
      if !g.border && (inFlow || floor ≤ g.column) && goesOn inFlow g.rest then
        let r := read inFlow floor fuel g.rest
        { r with text := w ++ foldLines b g.breaks ++ r.text }
      else ⟨w, true, g.rest⟩
    | none =>
      if !spaces.isEmpty && goesOn inFlow next then
        let r := read inFlow floor fuel next
        { r with text := w ++ spaces ++ r.text }
      else ⟨w, false, next⟩

end VirtNet.Yaml.Plain
