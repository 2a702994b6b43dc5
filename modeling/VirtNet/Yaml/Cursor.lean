import VirtNet.Yaml.Break

/-!
# Positions in a text

A cursor is the part of a text that is still to be read, with the place where it starts.
-/

namespace VirtNet.Yaml

/-- A place in a text. -/
structure Cursor where
  /-- What is still to be read. -/
  rest : List Char
  /-- How many characters have been read. -/
  index : Nat := 0
  /-- How many lines have been read. -/
  line : Nat := 0
  /-- How many characters of the line have been read, byte order marks aside. -/
  column : Nat := 0
deriving DecidableEq, Repr

namespace Cursor

/-- The mark that may stand at the start of a text. -/
def byteOrderMark : Char := '\ufeff'

/-- The place after the next character. -/
def next (c : Cursor) : Cursor :=
  match c.rest with
  | [] => c
  | x :: rest =>
    if isBreak x || (x == '\r' && !startsWith '\n' rest) then ⟨rest, c.index + 1, c.line + 1, 0⟩
    else if x == byteOrderMark then ⟨rest, c.index + 1, c.line, c.column⟩
    else ⟨rest, c.index + 1, c.line, c.column + 1⟩

/-- The place after some characters. -/
def skip : (count : Nat) → Cursor → Cursor
  | 0, c => c
  | count + 1, c => skip count c.next

/-- The place where a given end of the text starts. -/
def moveTo (c : Cursor) (rest : List Char) : Cursor := c.skip (c.rest.length - rest.length)

/-- The start of a text, a byte order mark passed. -/
def start (text : List Char) : Cursor :=
  if startsWith byteOrderMark text then (⟨text, 0, 0, 0⟩ : Cursor).next else ⟨text, 0, 0, 0⟩

end Cursor

end VirtNet.Yaml
