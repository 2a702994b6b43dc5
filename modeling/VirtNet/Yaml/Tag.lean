/-!
# Tags of scalars

A tag says which kind of value a node stands for. `Tag.ofPlain` gives the tag of a scalar written
without quotes: the word or number forms of the schema, and text for everything else.
-/

namespace VirtNet.Yaml

/-- The kind of value that a node stands for. -/
inductive Tag
  | null
  | bool
  | int
  | float
  | timestamp
  /-- The key `<<`, which merges other mappings into its own. -/
  | merge
  /-- The key `=`, which gives the default value of a mapping. -/
  | value
  /-- A lone indicator of the language itself. -/
  | indicator
  | text
  | binary
  | list
  | dict
  | set
  /-- A list of single entries with distinct keys. -/
  | orderedEntries
  /-- A list of single entries. -/
  | entries
  /-- A tag outside the schema. -/
  | other (name : List Char)
deriving DecidableEq, Repr

namespace Tag

/-- What the names of the schema's tags start with. -/
def schemaStart : List Char := "tag:yaml.org,2002:".toList

/-- The names of the schema's tags, after `schemaStart`. -/
def schemaNames : List (List Char × Tag) :=
  [("null".toList, null), ("bool".toList, bool), ("int".toList, int), ("float".toList, float),
    ("timestamp".toList, timestamp), ("merge".toList, merge), ("value".toList, value),
    ("yaml".toList, indicator), ("str".toList, text), ("binary".toList, binary),
    ("seq".toList, list), ("map".toList, dict), ("set".toList, set),
    ("omap".toList, orderedEntries), ("pairs".toList, entries)]

/-- The tag with a full name. -/
def ofName (name : List Char) : Tag :=
  if schemaStart.isPrefixOf name then
    (schemaNames.lookup (name.drop schemaStart.length)).getD (other name)
  else other name

/-- A text without a line feed at its end. -/
def dropLastLineFeed (cs : List Char) : List Char :=
  if cs.getLast? = some '\n' then cs.dropLast else cs

/-- Drops a sign. -/
def unsigned : List Char → List Char
  | '+' :: rest => rest
  | '-' :: rest => rest
  | cs => cs

/-- Whether a text is not empty and consists of characters that `p` accepts. -/
def isRun (p : Char → Bool) (cs : List Char) : Bool := !cs.isEmpty && cs.all p

/-- A digit or a low line. -/
def isDigitOrLine (c : Char) : Bool := c.isDigit || c == '_'

/-- A digit of base 16. -/
def isHexDigit (c : Char) : Bool :=
  c.isDigit || ('a' ≤ c && c ≤ 'f') || ('A' ≤ c && c ≤ 'F')

/-- Parts of base 60: a colon and one or two digits below 60, at least once, then a text that `stop`
accepts. `fuel` bounds the parts. -/
def isSexagesimalTail (stop : List Char → Bool) : (fuel : Nat) → List Char → Bool
  | 0, _ => false
  | fuel + 1, ':' :: rest =>
    match rest with
    | a :: b :: rest' =>
      if a.isDigit && b.isDigit then
        decide (a ≤ '5') && (stop rest' || isSexagesimalTail stop fuel rest')
      else a.isDigit && (stop (b :: rest') || isSexagesimalTail stop fuel (b :: rest'))
    | [a] => a.isDigit && stop []
    | [] => false
  | _, _ => false

/-- Whether a text is a whole number: decimal, octal after `0`, after `0b` or `0x`, or in base 60. -/
def isInt (cs : List Char) : Bool :=
  match unsigned cs with
  | ['0'] => true
  | '0' :: 'b' :: rest => isRun (fun c => c == '0' || c == '1' || c == '_') rest
  | '0' :: 'x' :: rest => isRun (fun c => isHexDigit c || c == '_') rest
  | '0' :: rest => isRun (fun c => ('0' ≤ c && c ≤ '7') || c == '_') rest
  | c :: rest =>
    c.isDigit &&
      match rest.dropWhile isDigitOrLine with
      | [] => true
      | tail => isSexagesimalTail List.isEmpty tail.length tail
  | [] => false

/-- Whether a text is an exponent with its sign, or nothing. -/
def isExponent : List Char → Bool
  | [] => true
  | e :: sign :: ds => (e == 'e' || e == 'E') && (sign == '+' || sign == '-') && isRun Char.isDigit ds
  | _ => false

/-- Whether a text is a number with a point. -/
def isFloat (cs : List Char) : Bool :=
  let afterPoint (rest : List Char) : Bool := isExponent (rest.dropWhile isDigitOrLine)
  let isFraction : List Char → Bool
    | '.' :: rest => rest.all isDigitOrLine
    | _ => false
  let named (words : List String) (rest : List Char) : Bool := words.any fun w => w.toList == rest
  match cs with
  | '.' :: c :: rest =>
    if c.isDigit then afterPoint rest
    else named ["nan", "NaN", "NAN", "inf", "Inf", "INF"] (c :: rest)
  | cs =>
    match unsigned cs with
    | '.' :: rest => named ["inf", "Inf", "INF"] rest
    | c :: rest =>
      c.isDigit &&
        match rest.dropWhile isDigitOrLine with
        | '.' :: tail => afterPoint tail
        | tail => isSexagesimalTail isFraction tail.length tail
    | [] => false

/-- One or two digits at the front of a text, and the rest. -/
def oneOrTwoDigits? : List Char → Option (List Char × List Char)
  | a :: b :: rest =>
    if a.isDigit && b.isDigit then some ([a, b], rest)
    else if a.isDigit then some ([a], b :: rest)
    else none
  | [a] => if a.isDigit then some ([a], []) else none
  | [] => none

/-- Exactly `n` digits at the front of a text, and the rest. -/
def digitsExactly? (n : Nat) (cs : List Char) : Option (List Char × List Char) :=
  if (cs.take n).length = n ∧ (cs.take n).all Char.isDigit then some (cs.take n, cs.drop n) else none

/-- Drops a given character from the front of a text. -/
def expect? (c : Char) : List Char → Option (List Char)
  | d :: rest => if d = c then some rest else none
  | [] => none

/-- The parts of a written date and time. -/
structure Stamp where
  year : List Char
  month : List Char
  day : List Char
  /-- Hour, minute, second, and the digits of the fraction. -/
  time : Option (List Char × List Char × List Char × List Char)
  /-- What stands for the offset from UTC: nothing, `Z`, or a sign with hours and minutes. -/
  zone : Option (Option (Bool × List Char × List Char))
deriving DecidableEq, Repr

/-- Drops spaces and tabs. -/
def dropSpaces (cs : List Char) : List Char := cs.dropWhile fun c => c == ' ' || c == '\t'

/-- The offset from UTC at the end of a date and time. -/
def zone? (cs : List Char) : Option (Option (Option (Bool × List Char × List Char))) :=
  match cs, dropSpaces cs with
  | [], _ => some none
  | _, ['Z'] => some (some none)
  | _, sign :: rest =>
    if sign == '+' || sign == '-' then do
      let (hours, rest) ← oneOrTwoDigits? rest
      match rest with
      | [] => some (some (some (sign == '-', hours, [])))
      | rest => do
        let (minutes, rest) ← digitsExactly? 2 (← expect? ':' rest)
        if rest.isEmpty then some (some (some (sign == '-', hours, minutes))) else none
    else none
  | _, [] => none

/-- The time of day and the offset after a date. -/
def timeOfDay? (date : Stamp) (cs : List Char) : Option Stamp := do
  let rest ←
    match cs with
    | 'T' :: rest => some rest
    | 't' :: rest => some rest
    | c :: rest => if c == ' ' || c == '\t' then some (dropSpaces rest) else none
    | [] => none
  let (hour, rest) ← oneOrTwoDigits? rest
  let (minute, rest) ← digitsExactly? 2 (← expect? ':' rest)
  let (second, rest) ← digitsExactly? 2 (← expect? ':' rest)
  let (fraction, rest) :=
    match rest with
    | '.' :: rest => (rest.takeWhile Char.isDigit, rest.dropWhile Char.isDigit)
    | rest => ([], rest)
  let zone ← zone? rest
  return { date with time := some (hour, minute, second, fraction), zone }

/-- The parts of a date, or of a date and time. Month and day may have one digit. -/
def stamp? (cs : List Char) : Option Stamp := do
  let (year, rest) ← digitsExactly? 4 cs
  let (month, rest) ← oneOrTwoDigits? (← expect? '-' rest)
  let (day, rest) ← oneOrTwoDigits? (← expect? '-' rest)
  let date : Stamp := ⟨year, month, day, none, none⟩
  if rest.isEmpty then return date else timeOfDay? date rest

/-- Whether a text is a date or a time without being marked as one. A date alone has two digits for
its month and its day. -/
def isTimestamp (cs : List Char) : Bool :=
  match stamp? cs with
  | none => false
  | some s => s.time.isSome || (s.month.length == 2 && s.day.length == 2)

/-- The words for the two truth values. -/
def boolWords : List (String × Bool) :=
  [("yes", true), ("no", false), ("true", true), ("false", false), ("on", true), ("off", false)]

/-- Whether a text is a word in lower case, in upper case, or with a capital. -/
def isCased (word : String) (cs : List Char) : Bool :=
  let lower := word.toList
  cs == lower || cs == lower.map Char.toUpper ||
    match lower with
    | c :: rest => cs == c.toUpper :: rest
    | [] => false

/-- Whether a text is a word for a truth value. -/
def isBool (cs : List Char) : Bool := boolWords.any fun w => isCased w.1 cs

/-- Whether a text stands for the absent value. -/
def isNull (cs : List Char) : Bool := cs.isEmpty || cs == ['~'] || isCased "null" cs

/-- The tag of a word or a number, and of any other text. -/
def ofWord (cs : List Char) : Tag :=
  if isBool cs then bool
  else if isFloat cs then float
  else if isInt cs then int
  else if cs == ['<', '<'] then merge
  else if isNull cs then null
  else if isTimestamp cs then timestamp
  else if cs == ['='] then value
  else if cs == ['!'] || cs == ['&'] || cs == ['*'] then indicator
  else text

/-- The tag of a scalar without quotes. A line feed after a word or a number does not count; a line feed
alone is a text. -/
def ofPlain (cs : List Char) : Tag :=
  if cs = ['\n'] then text else ofWord (dropLastLineFeed cs)

end Tag

end VirtNet.Yaml
