import VirtNet.Text.Quoted
import VirtNet.Value.Text

/-!
# Values as JSON text

Indented JSON with two spaces a level and every character outside printable ASCII escaped. Dates,
byte strings and sets have no JSON form, nor has a value that occurs in itself. Of several faults the
first in the text counts.
-/

namespace VirtNet.Json

/-- Why a value has no JSON text. -/
inductive Fault
  /-- A part of it has no JSON form. -/
  | noForm
  /-- A whole number in it is too long to be written. -/
  | numberTooLong
  /-- A part of it occurs in itself. -/
  | circular
deriving DecidableEq, Repr

/-- A code unit of 16 bits as an escape. -/
def unitEscape (n : Nat) : List Char := '\\' :: 'u' :: Text.hex 4 n

/-- The characters with an escape letter of their own. -/
def escapeLetters : List (Char × Char) :=
  [('"', '"'), ('\\', '\\'), ('\n', 'n'), ('\r', 'r'), ('\t', 't'), ('\x08', 'b'), ('\x0c', 'f')]

/-- A character between quotes. One beyond 16 bits is written as two code units. -/
def charText (c : Char) : List Char :=
  match escapeLetters.lookup c with
  | some letter => ['\\', letter]
  | none =>
    let n := c.toNat
    if 0x20 ≤ n ∧ n ≤ 0x7E then [c]
    else if n < 0x10000 then unitEscape n
    else
      unitEscape (0xD800 + (n - 0x10000) / 0x400) ++ unitEscape (0xDC00 + (n - 0x10000) % 0x400)

/-- A text between quotes. -/
def quote (s : String) : String := "\"" ++ String.ofList (s.toList.flatMap charText) ++ "\""

/-- A floating-point number. -/
def floatText (x : Binary64) : String :=
  match x.meaning with
  | .nan => "NaN"
  | .infinite s => if s then "-Infinity" else "Infinity"
  | .finite .. => x.toText

/-- A whole number. -/
def intText (n : Int) : Except Fault String :=
  if Text.isWritable n then .ok (toString n) else .error .numberTooLong

/-- A key, which must be a scalar with a JSON form. -/
def key (v : Value) : Except Fault String :=
  match v with
  | .text s => .ok s
  | .null => .ok "null"
  | .bool b => .ok (if b then "true" else "false")
  | .int n => intText n
  | .float x => .ok (floatText x)
  | _ => .error .noForm

/-- A line feed and an indentation of `depth` levels. -/
def newLine (depth : Nat) : String := String.ofList ('\n' :: List.replicate (2 * depth) ' ')

/-- What stands before an item or an entry: a comma unless it is the first, and a new line. -/
def lead (first : Bool) (depth : Nat) : String := (if first then "" else ",") ++ newLine depth

mutual

/-- A value at a depth of nesting, within the values with the given numbers. -/
def textIn (around : List Nat) (depth : Nat) : Value → Except Fault String
  | .null => .ok "null"
  | .bool b => .ok (if b then "true" else "false")
  | .int n => intText n
  | .float x => .ok (floatText x)
  | .text s => .ok (quote s)
  | .list vs =>
    if vs.isEmpty then .ok "[]"
    else do return "[" ++ (← items around (depth + 1) true vs) ++ newLine depth ++ "]"
  | .pair a b => do
    let first ← textIn around (depth + 1) a
    let second ← textIn around (depth + 1) b
    return "[" ++ lead true (depth + 1) ++ first ++ lead false (depth + 1) ++ second ++
      newLine depth ++ "]"
  | .dict es =>
    if es.isEmpty then .ok "\x7b\x7d"
    else do return "\x7b" ++ (← entries around (depth + 1) true es) ++ newLine depth ++ "\x7d"
  | .numbered n v => if around.contains n then .error .circular else textIn (n :: around) depth v
  | .again _ => .error .circular
  | .bytes _ | .date _ | .moment _ | .set _ => .error .noForm

/-- The items of a list, each on a line of its own. -/
def items (around : List Nat) (depth : Nat) (first : Bool) : List Value → Except Fault String
  | [] => .ok ""
  | v :: vs => do
    let item ← textIn around depth v
    return lead first depth ++ item ++ (← items around depth false vs)

/-- The entries of a mapping, each on a line of its own. -/
def entries (around : List Nat) (depth : Nat) (first : Bool) :
    List (Value × Value) → Except Fault String
  | [] => .ok ""
  | (k, v) :: es => do
    let name ← key k
    let value ← textIn around depth v
    return lead first depth ++ quote name ++ ": " ++ value ++ (← entries around depth false es)

end

/-- The JSON text of a value. -/
def ofValue (v : Value) : Except Fault String := textIn [] 0 v

end VirtNet.Json
