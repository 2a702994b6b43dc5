import VirtNet.Binary64.Text
import VirtNet.Text.Numeral
import VirtNet.Text.Quoted
import VirtNet.Value.Basic

/-!
# Values as text

`literal` shows a value so that its kind can be seen: texts in quotes, lists in brackets, mappings and
sets in braces. A collection that occurs in itself shows three points there. `toText` is the same except
that a text, a date or a time standing alone is shown plainly. A value has a text when no whole number in
it is too long to be written; `toText?` gives nothing otherwise.
-/

namespace VirtNet.Value

/-- A truth value in words. -/
def boolText (b : Bool) : String := if b then "True" else "False"

/-- The numbers of the values around, each with what stands for it inside. -/
abbrev Around := List (Nat × String)

/-- What stands for a value inside itself. -/
def ellipsis : Value → String
  | pair .. => "(...)"
  | set _ => "set(...)"
  | dict _ => "\x7b...\x7d"
  | _ => "[...]"

mutual

/-- A value shown with its kind, within others. -/
def literalIn (around : Around) : Value → String
  | null => "None"
  | bool b => boolText b
  | int n => toString n
  | float x => x.toText
  | text s => String.ofList (Text.quoted s.toList)
  | bytes bs => String.ofList (Text.quotedBytes bs)
  | date d => d.literal
  | moment m => m.literal
  | list items => "[" ++ literals around "" items ++ "]"
  | pair a b => "(" ++ literalIn around a ++ ", " ++ literalIn around b ++ ")"
  | set [] => "set()"
  | set (m :: ms) => "\x7b" ++ literals around "" (m :: ms) ++ "\x7d"
  | dict entries => "\x7b" ++ entryLiterals around "" entries ++ "\x7d"
  | numbered n v =>
    match around.lookup n with
    | some dots => dots
    | none => literalIn ((n, v.ellipsis) :: around) v
  | again n => (around.lookup n).getD "..."

/-- Values with commas between them, the first after `separator`. -/
def literals (around : Around) (separator : String) : List Value → String
  | [] => ""
  | v :: rest => separator ++ literalIn around v ++ literals around ", " rest

/-- Entries with commas between them, the first after `separator`. -/
def entryLiterals (around : Around) (separator : String) : List (Value × Value) → String
  | [] => ""
  | (k, v) :: rest =>
    separator ++ literalIn around k ++ ": " ++ literalIn around v ++ entryLiterals around ", " rest

end

/-- A value shown with its kind. -/
def literal (v : Value) : String := literalIn [] v

/-- A value as text. -/
def toText (v : Value) : String :=
  match v.bare with
  | text s => s
  | date d => d.toText
  | moment m => m.toText
  | _ => v.literal

mutual

/-- Whether every whole number in a value can be written. -/
def hasText : Value → Bool
  | int n => Text.isWritable n
  | list items => allHaveText items
  | pair a b => hasText a && hasText b
  | set members => allHaveText members
  | dict entries => entriesHaveText entries
  | numbered _ v => hasText v
  | _ => true

/-- Whether every whole number in some values can be written. -/
def allHaveText : List Value → Bool
  | [] => true
  | v :: rest => hasText v && allHaveText rest

/-- Whether every whole number in some entries can be written. -/
def entriesHaveText : List (Value × Value) → Bool
  | [] => true
  | (k, v) :: rest => hasText k && hasText v && entriesHaveText rest

end

/-- A value as text, if it has one. -/
def toText? (v : Value) : Option String := if v.hasText then some v.toText else none

end VirtNet.Value
