import VirtNet.Text.Base64
import VirtNet.Value.Text
import VirtNet.Yaml.Anchor
import VirtNet.Yaml.Scalar

/-!
# Writing documents

Writes a value in block form: mappings and lists by indentation, a list under a key at the key's own
indentation, empty collections as `[]` and `{}`. Keys keep their order. A value that occurs again is
written as an alias. Every line that is begun is ended, so the text of a document always ends a line.
-/

namespace VirtNet.Yaml

/-- A floating-point number as a scalar that reads as one. -/
def floatText (x : Binary64) : List Char :=
  match x.meaning with
  | .nan => ".nan".toList
  | .infinite s => if s then "-.inf".toList else ".inf".toList
  | .finite .. =>
    let cs := x.toText.toList
    if cs.contains '.' then cs
    else cs.takeWhile (· != 'e') ++ '.' :: '0' :: cs.dropWhile (· != 'e')

/-- The name of an anchor. -/
def anchorName (anchor : Nat) : List Char := ("id" ++ padded 3 anchor).toList

/-- The plain form of a scalar that is not a text. -/
def plainForm : Value → List Char
  | .null => "null".toList
  | .bool b => if b then "true".toList else "false".toList
  | .int n => (toString n).toList
  | .float x => floatText x
  | .date d => d.toText.toList
  | .moment m => m.toText.toList
  | _ => []

/-- Writes a scalar or an empty collection from a column on, up to the end of its line. -/
def writeLeaf (indent column : Nat) : Value → List Char
  | .text s =>
    let cs := s.toList
    if style cs = .literal then writeLiteral indent cs
    else writeInline indent column (style cs) cs ++ ['\n']
  | .bytes [] => "!!binary \"\"\n".toList
  | .bytes bs => "!!binary ".toList ++ writeLiteral indent (Text.Base64.encode bs)
  | .list _ => ['[', ']', '\n']
  | .dict _ => ['\x7b', '\x7d', '\n']
  | .set _ => "!!set ".toList ++ ['\x7b', '\x7d', '\n']
  | .again anchor => '*' :: anchorName anchor ++ ['\n']
  | v => writePlain indent column false (plainForm v) ++ ['\n']

/-- The most characters of a key on the line of its value, its tag counted. -/
def maxKeyLength : Nat := 127

/-- The text of a key that fits on the line of its value: not empty, without line breaks, and short. -/
def simpleKey? (key : Value) : Option (List Char) :=
  let fits (tag : Nat) (cs : List Char) : Bool := tag + cs.length ≤ maxKeyLength
  match key with
  | .text s =>
    let cs := s.toList
    if cs.isEmpty || cs.any isBreak || !fits "!!str".length cs then none
    else some (writeInline 0 0 (style cs) cs)
  | .null => some (plainForm key)
  | .bool _ => some (plainForm key)
  | .int _ => if fits "!!int".length (plainForm key) then some (plainForm key) else none
  | .float _ => some (plainForm key)
  | .date _ => some (plainForm key)
  | .moment _ => some (plainForm key)
  | .numbered anchor v => (simpleKey? v).map fun cs => '&' :: anchorName anchor ++ ' ' :: cs
  | .again anchor => some ('*' :: anchorName anchor)
  | _ => none

/-- An indentation. -/
def spaces (n : Nat) : List Char := List.replicate n ' '

/-- The indentation of a line, unless it is the first and so begun already. -/
def indentation (first : Bool) (n : Nat) : List Char := if first then [] else spaces n

mutual

/-- Writes a value after a `-`, `?` or `:` that stands at column `n`. `inList` says whether it is a `-`. -/
def writeAfterMark (inList : Bool) (n : Nat) : Value → List Char
  | .list vs =>
    ' ' :: if vs.isEmpty then writeLeaf (n + 2) (n + 2) (.list []) else writeItems (n + 2) true vs
  | .pair a b =>
    ' ' :: '-' :: writeAfterMark true (n + 2) a ++
      spaces (n + 2) ++ '-' :: writeAfterMark true (n + 2) b
  | .dict es =>
    ' ' :: if es.isEmpty then writeLeaf (n + 2) (n + 2) (.dict []) else writeEntries (n + 2) true es
  | .set ms =>
    if ms.isEmpty then ' ' :: writeLeaf (n + 2) (n + 2) (.set [])
    else " !!set\n".toList ++ writeMembers (n + 2) false ms
  | .numbered anchor v =>
    let name := anchorName anchor
    ' ' :: '&' :: name ++ writeBelow (if inList then n + 2 else n) n (n + name.length + 4) v
  | v => ' ' :: writeLeaf (n + 2) (n + 2) v

/-- Writes a value after a key, or after an anchor, on a line that starts at column `n`. The items of a
list stand at `listColumn`, a value on the same line at `column`. -/
def writeBelow (listColumn n column : Nat) : Value → List Char
  | .list vs =>
    if vs.isEmpty then ' ' :: writeLeaf (n + 2) column (.list [])
    else '\n' :: writeItems listColumn false vs
  | .pair a b =>
    '\n' :: spaces listColumn ++ '-' :: writeAfterMark true listColumn a ++
      spaces listColumn ++ '-' :: writeAfterMark true listColumn b
  | .dict es =>
    if es.isEmpty then ' ' :: writeLeaf (n + 2) column (.dict [])
    else '\n' :: writeEntries (n + 2) false es
  | .set ms =>
    if ms.isEmpty then ' ' :: writeLeaf (n + 2) column (.set [])
    else " !!set\n".toList ++ writeMembers (n + 2) false ms
  | .numbered anchor v =>
    let name := anchorName anchor
    ' ' :: '&' :: name ++ writeBelow listColumn n (column + name.length + 2) v
  | v => ' ' :: writeLeaf (n + 2) column v

/-- Writes the items of a list at column `n`. -/
def writeItems (n : Nat) (first : Bool) : List Value → List Char
  | [] => []
  | v :: vs => indentation first n ++ '-' :: writeAfterMark true n v ++ writeItems n false vs

/-- Writes the entries of a mapping at column `n`. A key that does not fit on the line of its value is
marked by `?`, and its value by `:` on a line of its own. -/
def writeEntries (n : Nat) (first : Bool) : List (Value × Value) → List Char
  | [] => []
  | (key, v) :: es =>
    indentation first n ++
      (match simpleKey? key with
        | some cs => cs ++ ':' :: writeBelow n n (n + cs.length + 2) v
        | none =>
          '?' :: writeAfterMark false n key ++ spaces n ++ ':' :: writeAfterMark false n v) ++
      writeEntries n false es

/-- Writes the members of a set at column `n`, as keys without a value. -/
def writeMembers (n : Nat) (first : Bool) : List Value → List Char
  | [] => []
  | m :: ms =>
    indentation first n ++
      (match simpleKey? m with
        | some cs => cs ++ ": null\n".toList
        | none => '?' :: writeAfterMark false n m ++ spaces n ++ ": null\n".toList) ++
      writeMembers n false ms

end

/-- Writes a document's value. -/
def writeRoot : Value → List Char
  | .list (v :: vs) => writeItems 0 true (v :: vs)
  | .pair a b => writeItems 0 true [a, b]
  | .dict (e :: es) => writeEntries 0 true (e :: es)
  | .set (m :: ms) => "!!set\n".toList ++ writeMembers 0 true (m :: ms)
  | .numbered anchor v =>
    let name := anchorName anchor
    '&' :: name ++ writeBelow 0 0 (name.length + 2) v
  | v => writeLeaf 2 0 v

mutual

/-- Whether the text of a value ends in a block whose last breaks all count. -/
def endsOpen : Value → Bool
  | .text s => style s.toList == .literal && keepsBreaks s.toList
  | .list vs => lastEndsOpen vs
  | .pair _ b => endsOpen b
  | .dict es => lastValueEndsOpen es
  | .numbered _ v => endsOpen v
  | _ => false

/-- Whether the last of some values ends open. -/
def lastEndsOpen : List Value → Bool
  | [] => false
  | [v] => endsOpen v
  | _ :: v :: vs => lastEndsOpen (v :: vs)

/-- Whether the value of the last entry ends open. -/
def lastValueEndsOpen : List (Value × Value) → Bool
  | [] => false
  | [(_, v)] => endsOpen v
  | _ :: e :: es => lastValueEndsOpen (e :: es)

end

/-- Whether a document is a single plain scalar. -/
def isPlainScalar : Value → Bool
  | .text s => style s.toList == .plain
  | .null | .bool _ | .int _ | .float _ | .date _ | .moment _ => true
  | .numbered _ v => isPlainScalar v
  | _ => false

/-- The text of a document whose repeated values are anchored. One that a further line could continue
ends with a mark of its own. -/
def writeDocument (v : Value) : List Char :=
  writeRoot v ++ if endsOpen v || isPlainScalar v then "...\n".toList else []

/-- The text of a document. -/
def toYaml (v : Value) : String := String.ofList (writeDocument (Anchor.anchored v))

/-- The text of a document, if every whole number in it can be written. -/
def toYaml? (v : Value) : Option String :=
  if (Anchor.anchored v).hasText then some (toYaml v) else none

end VirtNet.Yaml
