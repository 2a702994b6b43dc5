/-!
# Line breaks and separators

The characters that end a line, the characters that separate words and indicators, and the end of the
text, which counts as both. Between the lines of a folded scalar a single line break is a space.
-/

namespace VirtNet.Yaml

/-- The characters that break a line when written: line feed, next line, and the two separators. -/
def isBreak (c : Char) : Bool := c == '\n' || c.toNat == 0x85 || c.toNat == 0x2028 || c.toNat == 0x2029

/-- The characters that break a line when read: those above and the carriage return. -/
def isLineEnd (c : Char) : Bool := c == '\r' || isBreak c

/-- What a line end means: a separator stands for itself, everything else for a line feed. -/
def lineEndMeaning (c : Char) : Char := if c.toNat == 0x2028 || c.toNat == 0x2029 then c else '\n'

/-- Space and tab. -/
def isSpace (c : Char) : Bool := c == ' ' || c == '\t'

/-- Space, tab and line ends, and the null that stands for the end of a text. -/
def isGap (c : Char) : Bool := isSpace c || c.toNat == 0 || isLineEnd c

/-- Whether a text is at its end or goes on with a gap. -/
def startsWithGap : List Char → Bool
  | [] => true
  | c :: _ => isGap c

/-- Whether a text is at its end or goes on with a line end. -/
def startsWithLineEnd : List Char → Bool
  | [] => true
  | c :: _ => isLineEnd c

/-- Whether a text goes on with a given character. -/
def startsWith (c : Char) : List Char → Bool
  | [] => false
  | d :: _ => d == c

/-- The line break at the front of a text, and what follows it. A carriage return and a line feed are
one break. -/
def lineBreak? : List Char → Option (Char × List Char)
  | '\r' :: '\n' :: rest => some ('\n', rest)
  | c :: rest => if isLineEnd c then some (lineEndMeaning c, rest) else none
  | [] => none

/-- Whether a line starts with three hyphens and a gap, which begin a document. -/
def startsDocument : List Char → Bool
  | '-' :: '-' :: '-' :: rest => startsWithGap rest
  | _ => false

/-- Whether a line starts with three points and a gap, which end a document. -/
def endsDocument : List Char → Bool
  | '.' :: '.' :: '.' :: rest => startsWithGap rest
  | _ => false

/-- Whether a line is the border of a document. -/
def atBorder (cs : List Char) : Bool := startsDocument cs || endsDocument cs

/-- What stands for a line break and the empty lines after it: a line feed alone is a space. -/
def foldLines (first : Char) (others : List Char) : List Char :=
  if first ≠ '\n' then first :: others
  else if others.isEmpty then [' ']
  else others

end VirtNet.Yaml
