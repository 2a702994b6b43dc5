import VirtNet.Binary64.Text
import VirtNet.Text.Base64
import VirtNet.Text.Numeral
import VirtNet.Text.Split
import VirtNet.Value.Basic
import VirtNet.Yaml.Fault
import VirtNet.Yaml.Tag

/-!
# The values of scalars

What a text stands for under each tag. A number may hold low lines, which do not count, and may have
parts in base 60 with colons between them.
-/

namespace VirtNet.Yaml.Scalar

/-- The truth value that a word stands for, in any letter case. -/
def bool (text : List Char) : Except Fault Bool :=
  match Tag.boolWords.lookup (String.ofList (text.map Char.toLower)) with
  | some b => .ok b
  | none => .error .notABool

/-- A number without the low lines: whether it is negative, and what follows its sign. -/
def magnitude (text : List Char) : Except Fault (Bool × List Char) :=
  match text.filter (· ≠ '_') with
  | [] => .error .numberMissing
  | '-' :: rest => .ok (true, rest)
  | '+' :: rest => .ok (false, rest)
  | cs => .ok (false, cs)

/-- What may be a number is one. -/
def number {α : Type} : Option α → Except Fault α
  | some x => .ok x
  | none => .error .notANumber

/-- A whole number after its sign: in base 2 after `0b`, in base 16 after `0x`, in base 8 after `0`,
otherwise in base 10 or 60. -/
def unsignedInt (cs : List Char) : Except Fault Int :=
  match cs with
  | [] => .error .numberMissing
  | ['0'] => .ok 0
  | '0' :: 'b' :: rest => number (Text.intIn? 2 rest)
  | '0' :: 'x' :: rest => number (Text.intIn? 16 rest)
  | '0' :: _ => number (Text.intIn? 8 cs)
  | cs => number (((Text.fields ':' cs).mapM Text.int?).map fun ds => ds.foldl (fun n d => 60 * n + d) 0)

/-- The whole number that a text stands for. -/
def int (text : List Char) : Except Fault Int := do
  let (negative, cs) ← magnitude text
  let n ← unsignedInt cs
  return if negative then -n else n

/-- Adds parts in base 60, from the last one, to a sum. The unit of each part must be a number. -/
def sexagesimal (sum : Binary64) (unit : Int) : List Binary64 → Except Fault Binary64
  | [] => .ok sum
  | x :: rest =>
    let u := Binary64.ofInt unit
    if u = .infinity false then .error .tooManyParts
    else sexagesimal (sum.add (x.mul u)) (60 * unit) rest

/-- The magnitude of a number with a point, or in base 60. -/
def unsignedFloat (cs : List Char) : Except Fault Binary64 := do
  if cs.contains ':' then
    let parts ← number ((Text.fields ':' cs).mapM Binary64.ofText?)
    sexagesimal (.zero false) 1 parts.reverse
  else number (Binary64.ofText? cs)

/-- The number that a text at a given place stands for. A number that is none keeps the place, unless
it is written by its own word. -/
def float (place : Nat) (text : List Char) : Except Fault Binary64 := do
  let (negative, cs) ← magnitude (text.map Char.toLower)
  if cs = ".inf".toList then return .infinity negative
  if cs = ".nan".toList then return .nan
  let x ← unsignedFloat cs
  return if x.isNaN then .nanFrom (place + 1) else if negative then x.neg else x

/-- Digits as a number; no digits are zero. -/
def digits (cs : List Char) : Nat := Text.digitsValue cs

/-- The digits of a fraction of a second as microseconds. -/
def microseconds (cs : List Char) : Nat :=
  let ds := cs.take 6
  digits (ds ++ List.replicate (6 - ds.length) '0')

/-- The offset from UTC in seconds. -/
def offset (zone : Option (Bool × List Char × List Char)) : Int :=
  match zone with
  | none => 0
  | some (west, hours, minutes) =>
    let seconds : Int := 3600 * digits hours + 60 * digits minutes
    if west then -seconds else seconds

/-- The date, or the date and time, that a text stands for. -/
def timestamp (text : List Char) : Except Fault Value :=
  match Tag.stamp? (Tag.dropLastLineFeed text) with
  | none => .error .notATime
  | some s =>
    let date : Date := ⟨digits s.year, digits s.month, digits s.day⟩
    match s.time with
    | none => if date.inCalendar then .ok (.date date) else .error .notInCalendar
    | some (hour, minute, second, fraction) =>
      let moment : Moment :=
        ⟨date, digits hour, digits minute, digits second, microseconds fraction, s.zone.map offset⟩
      if moment.inCalendar then .ok (.moment moment) else .error .notInCalendar

/-- The bytes that a text in base 64 stands for. -/
def bytes (text : List Char) : Except Fault (List UInt8) :=
  if text.all (·.toNat < 128) then
    match Text.Base64.decode? text with
    | some bs => .ok bs
    | none => .error .malformed
  else .error .malformed

/-- The value of a text under a tag, at a given place. A tag for collections or outside the schema has
none. -/
def value (place : Nat) (tag : Tag) (text : List Char) : Except Fault Value :=
  match tag with
  | .null => .ok .null
  | .bool => (bool text).map .bool
  | .int => (int text).map .int
  | .float => (float place text).map .float
  | .timestamp => timestamp text
  | .text => .ok (.text (String.ofList text))
  | .binary => (bytes text).map .bytes
  | .merge | .value | .indicator | .list | .dict | .set | .orderedEntries | .entries | .other _ =>
    .error .malformed

end VirtNet.Yaml.Scalar
