import VirtNet.Binary64.Text
import VirtNet.Text.Blank

/-!
# Bandwidth labels

A label such as `100Mbps` or `2.5 Gbps`: a decimal number, at most one blank, and a unit whose letter
case counts.
-/

namespace VirtNet.Bandwidth

/-- The units with their size in megabits per second. -/
def units : List (String × Binary64) :=
  [("bps", .ofRatio false 1 1000000), ("Kbps", .ofRatio false 1 1000), ("Mbps", .ofInt 1),
    ("Gbps", .ofInt 1000), ("Tbps", .ofInt 1000000)]

/-- Why a label is refused. -/
inductive LabelError
  /-- It is no number followed by a word. -/
  | badFormat (label : String)
  /-- The word is no unit. -/
  | unknownUnit (unit : String)
deriving DecidableEq, Repr

/-- The report of a refused label. -/
def LabelError.message : LabelError → String
  | badFormat label => s!"Invalid speed format: {label}"
  | unknownUnit unit => s!"Unsupported unit: {unit}"

/-- Whether `c` is a letter of a unit. -/
def isUnitLetter (c : Char) : Bool := c.isAlpha

/-- The fraction at the front of a text, point included. A point without digits after it is none. -/
def spanFraction : List Char → List Char × List Char
  | '.' :: rest =>
    let digits := rest.takeWhile Text.isDigit
    if digits.isEmpty then ([], '.' :: rest) else ('.' :: digits, rest.dropWhile Text.isDigit)
  | cs => ([], cs)

/-- The number and the unit of a label without blanks around it. -/
def split? (cs : List Char) : Option (List Char × List Char) :=
  let whole := cs.takeWhile Text.isDigit
  if whole.isEmpty then none
  else
    let (fraction, rest) := spanFraction (cs.dropWhile Text.isDigit)
    let unit :=
      match rest with
      | c :: rest' => if Text.isBlank c then rest' else rest
      | [] => []
    if !unit.isEmpty && unit.all isUnitLetter then some (whole ++ fraction, unit) else none

/-- The bandwidth of a label, in megabits per second. -/
def megabits (label : String) : Except LabelError Binary64 :=
  match split? (Text.trimBy Text.isBlank label.toList) with
  | none => .error (.badFormat label)
  | some (number, unit) =>
    match units.find? fun (name, _) => name.toList = unit with
    | none => .error (.unknownUnit (String.ofList unit))
    | some (_, factor) => .ok (((Binary64.unsigned? false number).getD default).mul factor)

end VirtNet.Bandwidth
