import VirtNet.Yaml.Fault

/-!
# Tokens

The units that a text divides into. Indentation shows as the starts and the ends of blocks, and a text
that turns out to be a key is preceded by a `key` token.
-/

namespace VirtNet.Yaml

/-- An instruction to the reader of a document. -/
inductive Directive
  /-- The version of the language; only the first number counts. -/
  | version (major : Nat)
  /-- A handle and what it stands for at the front of a tag. -/
  | handle (handle start : List Char)
  /-- Any other instruction. -/
  | reserved
deriving DecidableEq, Repr

/-- A unit of a text. -/
inductive Token
  | directive (d : Directive)
  | documentStart
  | documentEnd
  /-- A list in block style begins. -/
  | blockList
  /-- A mapping in block style begins. -/
  | blockDict
  /-- A collection in block style ends. -/
  | blockEnd
  /-- An opening bracket. -/
  | openList
  /-- A closing bracket. -/
  | closeList
  /-- An opening brace. -/
  | openDict
  /-- A closing brace. -/
  | closeDict
  /-- A comma between the entries of a collection in flow style. -/
  | comma
  /-- The hyphen before an item of a list in block style. -/
  | item
  /-- A key follows. -/
  | key
  /-- The value of a key follows. -/
  | value
  | alias (name : List Char)
  | anchor (name : List Char)
  /-- A tag: its handle, if it has one, and the rest of it. -/
  | tag (handle : Option (List Char)) (suffix : List Char)
  /-- A scalar; whether it stands without quotes or indicators. -/
  | scalar (plain : Bool) (text : List Char)
  /-- The text ends. -/
  | finish
  /-- The text cannot be divided further. -/
  | broken (fault : Fault)
deriving DecidableEq, Repr

end VirtNet.Yaml
