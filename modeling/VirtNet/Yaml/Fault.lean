/-!
# Faults of a text

Why a text gives no value. A text is made of characters, and half of a surrogate pair is none: what a
text with an escape of one has for a value is left open (`Fault.isHalfPair`).
-/

namespace VirtNet.Yaml

/-- Why a text gives no value. -/
inductive Fault
  /-- The text breaks a rule of the language. -/
  | malformed
  /-- An escape names a code point that no character has. -/
  | noCharacter (codePoint : Nat)
  /-- A number in a directive has too many digits. -/
  | directiveTooLong
  /-- A word tagged as a truth value is none. -/
  | notABool
  /-- A text tagged as a number is none. -/
  | notANumber
  /-- A text tagged as a number is empty. -/
  | numberMissing
  /-- A number in base 60 has more parts than its unit has room for. -/
  | tooManyParts
  /-- A text tagged as a time is none. -/
  | notATime
  /-- A mapping is tagged as a time. -/
  | timeIsMapping
  /-- A mapping that is tagged as a scalar has itself as its default value. -/
  | endlessDefault
  /-- A time is not in the calendar. -/
  | notInCalendar
deriving DecidableEq, Repr

namespace Fault

/-- The fault of a code point after the last one. -/
@[match_pattern] abbrev codePointTooLarge (codePoint : Nat) : Fault := noCharacter codePoint

/-- Whether a fault is an escape of half of a surrogate pair. -/
def isHalfPair : Fault → Bool
  | noCharacter n => 0xD800 ≤ n && n ≤ 0xDFFF
  | _ => false

end Fault

end VirtNet.Yaml
