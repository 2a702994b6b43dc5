import VirtNet.Binary64.Basic
import VirtNet.Value.Moment

/-!
# Document values

The values a structured document can hold: scalars, lists, couples, sets, and mappings that keep the
order of their entries. A value that occurs at several places, or in itself, has a number there, so that
its occurrences are known to be one value; `opened` unfolds one that occurs in itself. Equality of keys
follows the numbers meant (`1`, `1.0` and `true` are one key); `insert` keeps a key's first position and
its last value.
-/

namespace VirtNet

/-- A value of a structured document. -/
inductive Value
  /-- The absent value. -/
  | null
  /-- A truth value. -/
  | bool (b : Bool)
  /-- A whole number of any size. -/
  | int (n : Int)
  /-- A binary floating-point number. -/
  | float (x : Binary64)
  /-- A text. -/
  | text (s : String)
  /-- A byte string. -/
  | bytes (bs : List UInt8)
  /-- A calendar date. -/
  | date (d : Date)
  /-- A date with a time of day. -/
  | moment (m : Moment)
  /-- A list. -/
  | list (items : List Value)
  /-- Two values that belong together. -/
  | pair (first second : Value)
  /-- A set, its members in the order in which they came. -/
  | set (members : List Value)
  /-- A mapping, its entries in the order in which the keys came. -/
  | dict (entries : List (Value × Value))
  /-- A value with its number: all occurrences of the number are this value. -/
  | numbered (number : Nat) (v : Value)
  /-- The value around that has this number. -/
  | again (number : Nat)
deriving Repr, Inhabited

namespace Value

/-- A mapping with text keys. -/
def record (fields : List (String × Value)) : Value :=
  .dict (fields.map fun (k, v) => (.text k, v))

/-- A list of texts. -/
def texts (ss : List String) : Value := .list (ss.map .text)

/-! ## Numbered values -/

/-- A value without its number. -/
def bare : Value → Value
  | numbered _ v => v.bare
  | v => v

mutual

/-- Puts a value where a number refers to it. -/
def replace (number : Nat) (w : Value) : Value → Value
  | numbered m v => numbered m (if m = number then v else replace number w v)
  | again m => if m = number then w else again m
  | list items => list (replaceAll number w items)
  | pair a b => pair (replace number w a) (replace number w b)
  | set members => set (replaceAll number w members)
  | dict entries => dict (replaceEntries number w entries)
  | v => v

/-- Puts a value where a number refers to it in some values. -/
def replaceAll (number : Nat) (w : Value) : List Value → List Value
  | [] => []
  | v :: rest => replace number w v :: replaceAll number w rest

/-- Puts a value where a number refers to it in some entries. -/
def replaceEntries (number : Nat) (w : Value) : List (Value × Value) → List (Value × Value)
  | [] => []
  | (k, v) :: rest => (replace number w k, replace number w v) :: replaceEntries number w rest

end

/-- A value without its number. Where the value occurs in itself, the whole value stands. -/
def opened : Value → Value
  | numbered n v => replace n (numbered n v) v
  | v => v

/-! ## Properties -/

/-- Whether a value counts as true: everything but null, false, zero and what is empty. -/
def truthy : Value → Bool
  | null => false
  | bool b => b
  | int n => n != 0
  | float x => !x.isZero
  | text s => !s.isEmpty
  | bytes bs => !bs.isEmpty
  | date _ | moment _ | pair .. | again _ => true
  | list items => !items.isEmpty
  | set members => !members.isEmpty
  | dict entries => !entries.isEmpty
  | numbered _ v => v.truthy

/-- Whether a value can be a key or a member of a set: collections cannot. -/
def isKey (v : Value) : Bool :=
  match v.bare with
  | list _ | pair .. | set _ | dict _ | again _ => false
  | _ => true

/-- The whole part of a number, a truth value counting as one. -/
def wholePart? (v : Value) : Option Int :=
  match v with
  | bool b => some (if b then 1 else 0)
  | int n => some n
  | float x => x.truncate?
  | _ => none

/-- Whether two keys are the same. -/
def sameKey (v w : Value) : Bool :=
  match v.bare, w.bare with
  | null, null => true
  | bool a, bool b => a == b
  | int a, int b => a == b
  | float a, float b => a.same b
  | bool a, int b | int b, bool a => (if a then 1 else 0) == b
  | float a, int b | int b, float a => a.isInt b
  | bool a, float b | float b, bool a => b.isInt (if a then 1 else 0)
  | text a, text b => a == b
  | bytes a, bytes b => a == b
  | date a, date b => a == b
  | moment a, moment b => a.same b
  | _, _ => false

/-! ## Entries -/

/-- Sets the value of a key. A new key goes to the end, a known one keeps its place. -/
def insert (key value : Value) : List (Value × Value) → List (Value × Value)
  | [] => [(key, value)]
  | (k, v) :: rest => if k.sameKey key then (k, value) :: rest else (k, v) :: insert key value rest

/-- The entries that arise from inserting some one after the other. -/
def inserted (entries : List (Value × Value)) : List (Value × Value) :=
  entries.foldl (fun es e => insert e.1 e.2 es) []

/-- The value under a text key. -/
def lookup (key : String) : List (Value × Value) → Option Value
  | [] => none
  | (k, v) :: rest => if k.sameKey (.text key) then some v else lookup key rest

/-- The value under a text key, a missing one and null being alike. -/
def lookupSome (key : String) (entries : List (Value × Value)) : Option Value :=
  match lookup key entries with
  | some null | none => none
  | some v => some v

end Value

end VirtNet
