import VirtNet.Text.Digit
import VirtNet.Yaml.Break
import VirtNet.Yaml.Fault

/-!
# Scalars in quotes

In single quotes a quote is written twice and everything else stands for itself. In double quotes a
backslash starts an escape. Both may go over several lines, which are folded as they are in plain
scalars, except after an escaped line break.
-/

namespace VirtNet.Yaml.Quoted

/-- What has been passed since the last character of a scalar. -/
inductive Between
  /-- Nothing. -/
  | nothing
  /-- Spaces and tabs. -/
  | spaces (cs : List Char)
  /-- A line break, unless it was escaped, and the breaks of empty lines after it. -/
  | lines (first : Option Char) (others : List Char) (atStart : Bool)
deriving DecidableEq, Repr

namespace Between

/-- The text that stands for what has been passed. -/
def text : Between → List Char
  | nothing => []
  | spaces cs => cs
  | lines none others _ => others
  | lines (some b) others _ => foldLines b others

/-- A further space or tab. Those next to a line break do not count. -/
def addSpace (c : Char) : Between → Between
  | nothing => spaces [c]
  | spaces cs => spaces (cs ++ [c])
  | lines first others _ => lines first others false

/-- A further line break. -/
def addBreak (b : Char) : Between → Between
  | lines first others _ => lines first (others ++ [b]) true
  | _ => lines (some b) [] true

/-- Whether a line starts here. -/
def isLineStart : Between → Bool
  | lines _ _ atStart => atStart
  | _ => false

end Between

/-- Puts characters in front of a text that has been read. -/
def push (cs : List Char) : Except Fault (List Char × List Char) → Except Fault (List Char × List Char)
  | .ok (text, rest) => .ok (cs ++ text, rest)
  | .error e => .error e

/-- The text up to the closing single quote, and the rest. -/
def single : (passed : Between) → List Char → Except Fault (List Char × List Char)
  | passed, cs =>
    if passed.isLineStart && atBorder cs then .error .malformed
    else
      match cs with
      | [] => .error .malformed
      | '\'' :: '\'' :: rest => push (passed.text ++ ['\'']) (single .nothing rest)
      | '\'' :: rest => .ok (passed.text, rest)
      | '\r' :: '\n' :: rest => single (passed.addBreak '\n') rest
      | c :: rest =>
        if isSpace c then single (passed.addSpace c) rest
        else if isLineEnd c then single (passed.addBreak (lineEndMeaning c)) rest
        else push (passed.text ++ [c]) (single .nothing rest)

/-- The escapes of one character. -/
def shortEscapes : List (Char × Char) :=
  [('0', '\x00'), ('a', '\x07'), ('b', '\x08'), ('t', '\t'), ('\t', '\t'), ('n', '\n'), ('v', '\x0b'),
    ('f', '\x0c'), ('r', '\r'), ('e', '\x1b'), (' ', ' '), ('"', '"'), ('\\', '\\'), ('/', '/'),
    ('N', '\u0085'), ('_', '\u00a0'), ('L', '\u2028'), ('P', '\u2029')]

/-- The number of digits after the letter of an escape by code point. -/
def escapeLength? (c : Char) : Option Nat := [('x', 2), ('u', 4), ('U', 8)].lookup c

/-- The value of a digit of base 16. -/
def hexDigit? (c : Char) : Option Nat :=
  if '0' ≤ c && c ≤ '9' then some (c.toNat - '0'.toNat)
  else if 'a' ≤ c && c ≤ 'f' then some (c.toNat - 'a'.toNat + 10)
  else if 'A' ≤ c && c ≤ 'F' then some (c.toNat - 'A'.toNat + 10)
  else none

/-- The value of exactly `count` digits of base 16 at the front of a text. -/
def hexValue? : (count value : Nat) → List Char → Option Nat
  | 0, value, _ => some value
  | count + 1, value, c :: rest => (hexDigit? c).bind fun d => hexValue? count (16 * value + d) rest
  | _ + 1, _, [] => none

/-- The character with a code point. Half of a surrogate pair is none, even if an escape of the other half
follows: the two are not joined. -/
def character (n : Nat) : Except Fault Char :=
  if n.isValidChar then .ok (Char.ofNat n) else .error (.noCharacter n)

/-- The character of an escape after its backslash, and how many characters the escape has from there. -/
def escape : List Char → Except Fault (Char × Nat)
  | [] => .error .malformed
  | c :: rest =>
    match shortEscapes.lookup c, escapeLength? c with
    | some e, _ => .ok (e, 1)
    | none, some count =>
      match hexValue? count 0 rest with
      | none => .error .malformed
      | some n => (character n).map (·, count + 1)
    | none, none => .error .malformed

/-- The text up to the closing double quote, and the rest. `skip` counts the characters of an escape
that are still to be passed. -/
def double : (skip : Nat) → (passed : Between) → List Char → Except Fault (List Char × List Char)
  | skip + 1, passed, _ :: rest => double skip passed rest
  | _, passed, cs =>
    if passed.isLineStart && atBorder cs then .error .malformed
    else
      match cs with
      | [] => .error .malformed
      | '"' :: rest => .ok (passed.text, rest)
      | '\\' :: '\r' :: '\n' :: rest => push passed.text (double 0 (.lines none [] true) rest)
      | '\\' :: c :: rest =>
        if isLineEnd c then push passed.text (double 0 (.lines none [] true) rest)
        else
          match escape (c :: rest) with
          | .error e => .error e
          | .ok (e, length) => push (passed.text ++ [e]) (double (length - 1) .nothing rest)
      | '\r' :: '\n' :: rest => double 0 (passed.addBreak '\n') rest
      | c :: rest =>
        if isSpace c then double 0 (passed.addSpace c) rest
        else if isLineEnd c then double 0 (passed.addBreak (lineEndMeaning c)) rest
        else push (passed.text ++ [c]) (double 0 .nothing rest)

end VirtNet.Yaml.Quoted
