import VirtNet.Text.Quoted
import VirtNet.Yaml.Break
import VirtNet.Yaml.Tag

/-!
# Writing scalars

A text can be written plainly, in single quotes, in double quotes, or as a literal block. `Traits`
collects what decides which forms can hold it; `style` makes the choice. Plain and quoted text is
folded at a single space once a line is longer than `lineWidth`.
-/

namespace VirtNet.Yaml

/-- Lines longer than this are folded where the form allows it. -/
def lineWidth : Nat := 4096

/-- What a text contains that decides how it can be written. -/
structure Traits where
  /-- It cannot be told from an indicator of the block context. -/
  indicator : Bool
  /-- It has a line break. -/
  multiline : Bool
  /-- It has a character that only an escape can show. -/
  special : Bool
  /-- It starts with a space or a line break. -/
  leading : Bool
  /-- It ends with a space or a line break. -/
  trailing : Bool
  /-- It ends with a space. -/
  trailingSpace : Bool
  /-- A space follows a line break. -/
  breakSpace : Bool
  /-- A line break follows a space. -/
  spaceBreak : Bool
deriving DecidableEq, Repr

namespace Traits

/-- The characters that cannot start a plain text. -/
def startIndicators : List Char := "#,[]\x7b\x7d&*!|>'\"%@`".toList

/-- Whether a character can be written as itself: printable ASCII, line breaks, and everything beyond
the controls except the byte order mark and the code points that stand for no character. -/
def isShown (c : Char) : Bool :=
  let n := c.toNat
  c == '\n' || (0x20 ≤ n && n ≤ 0x7E) || n == 0x85 || (0xA0 ≤ n && n ≤ 0xD7FF) ||
    (0xE000 ≤ n && n ≤ 0xFFFD && n != 0xFEFF) || (0x10000 ≤ n && n < 0x10FFFF)

/-- Whether the first character of a text reads as an indicator. -/
def startsAsIndicator : List Char → Bool
  | [] => false
  | c :: rest =>
    startIndicators.contains c ||
      ((c == '?' || c == ':' || c == '-') && startsWithGap rest)

/-- Whether a later character reads as an indicator: a colon before a gap, or a number sign after one. -/
def hasInnerIndicator : List Char → Bool
  | a :: b :: rest =>
    (b == ':' && startsWithGap rest) || (b == '#' && isGap a) || hasInnerIndicator (b :: rest)
  | _ => false

/-- Whether two neighbours satisfy `p`. -/
def anyNeighbours (p : Char → Char → Bool) : List Char → Bool
  | a :: b :: rest => p a b || anyNeighbours p (b :: rest)
  | _ => false

/-- Whether a text starts like the mark of a document's start or end. -/
def startsAsDocumentMark (cs : List Char) : Bool :=
  ['-', '-', '-'].isPrefixOf cs || ['.', '.', '.'].isPrefixOf cs

/-- The traits of a text. -/
def of (cs : List Char) : Traits where
  indicator := startsAsDocumentMark cs || startsAsIndicator cs || hasInnerIndicator cs
  multiline := cs.any isBreak
  special := cs.any fun c => !isShown c
  leading := cs.head?.any fun c => c == ' ' || isBreak c
  trailing := cs.getLast?.any fun c => c == ' ' || isBreak c
  trailingSpace := cs.getLast? == some ' '
  breakSpace := anyNeighbours (fun a b => isBreak a && b == ' ') cs
  spaceBreak := anyNeighbours (fun a b => a == ' ' && isBreak b) cs

/-- Whether the text can be written without quotes. -/
def allowsPlain (t : Traits) : Bool :=
  !(t.indicator || t.multiline || t.special || t.leading || t.trailing || t.breakSpace || t.spaceBreak)

/-- Whether the text can be written in single quotes. -/
def allowsSingle (t : Traits) : Bool := !(t.special || t.breakSpace || t.spaceBreak)

/-- Whether the text can be written as a literal block. -/
def allowsLiteral (t : Traits) : Bool := !(t.special || t.trailingSpace || t.spaceBreak)

end Traits

/-- A way to write a text. -/
inductive Style
  | plain
  | single
  | double
  | literal
deriving DecidableEq, Repr

/-- The way a text is written. With a line feed in it a literal block is preferred to double quotes;
otherwise plain is preferred to single quotes, and they to double quotes. A plain text must not read
as a number or a word of the schema. -/
def style (cs : List Char) : Style :=
  let t := Traits.of cs
  if cs.contains '\n' then if t.allowsLiteral then .literal else .double
  else if cs.isEmpty then .single
  else if t.allowsPlain && Tag.ofPlain cs == .text then .plain
  else if t.allowsSingle then .single
  else .double

/-- A line feed and an indentation. -/
def newLine (indent : Nat) : List Char := '\n' :: List.replicate indent ' '

/-- Whether a text goes on with something else than a space. -/
def startsWithoutSpace : List Char → Bool
  | [] => true
  | c :: _ => c != ' '

/-- Writes a plain text from a column on. A single space past the width becomes a line break;
`afterSpace` says whether the text follows a space. -/
def writePlain (indent : Nat) : (column : Nat) → (afterSpace : Bool) → List Char → List Char
  | _, _, [] => []
  | column, afterSpace, c :: rest =>
    if c == ' ' && !afterSpace && startsWithoutSpace rest && lineWidth < column then
      newLine indent ++ writePlain indent indent true rest
    else c :: writePlain indent (column + 1) (c == ' ') rest

/-- Writes the inside of single quotes from a column on. Quotes are doubled; a break is kept and
followed by the indentation once the run of breaks ends; a single space past the width becomes a line
break, unless it is the first or the last character. `before` is the character before the text. -/
def writeSingle (indent : Nat) : (column : Nat) → (before : Option Char) → List Char → List Char
  | _, before, [] => if before.any isBreak then List.replicate indent ' ' else []
  | column, before, c :: rest =>
    if isBreak c then
      let extra := if c == '\n' && !before.any isBreak then ['\n'] else []
      extra ++ c :: writeSingle indent 0 (some c) rest
    else
      let lead := if before.any isBreak then List.replicate indent ' ' else []
      let column := if before.any isBreak then indent else column
      if c == '\'' then lead ++ '\'' :: '\'' :: writeSingle indent (column + 2) (some c) rest
      else if c == ' ' && before.any (· != ' ') && !rest.isEmpty && startsWithoutSpace rest &&
          lineWidth < column then
        lead ++ newLine indent ++ writeSingle indent indent (some c) rest
      else lead ++ c :: writeSingle indent (column + 1) (some c) rest

/-- The letters that escape single characters in double quotes. -/
def escapeLetters : List (Nat × Char) :=
  [(0x00, '0'), (0x07, 'a'), (0x08, 'b'), (0x09, 't'), (0x0A, 'n'), (0x0B, 'v'), (0x0C, 'f'),
    (0x0D, 'r'), (0x1B, 'e'), (0x22, '"'), (0x5C, '\\'), (0x85, 'N'), (0xA0, '_'), (0x2028, 'L'),
    (0x2029, 'P')]

/-- Whether a character is written as an escape in double quotes. -/
def needsEscape (c : Char) : Bool :=
  let n := c.toNat
  c == '"' || c == '\\' || n == 0x85 || n == 0x2028 || n == 0x2029 || n == 0xFEFF ||
    !((0x20 ≤ n && n ≤ 0x7E) || (0xA0 ≤ n && n ≤ 0xD7FF) || (0xE000 ≤ n && n ≤ 0xFFFD))

/-- The escape of a character: its letter, or its number in base 16 with capital digits. -/
def escape (c : Char) : List Char :=
  let digits (width : Nat) : List Char := (Text.hex width c.toNat).map Char.toUpper
  match escapeLetters.lookup c.toNat with
  | some letter => ['\\', letter]
  | none =>
    if c.toNat ≤ 0xFF then '\\' :: 'x' :: digits 2
    else if c.toNat ≤ 0xFFFF then '\\' :: 'u' :: digits 4
    else '\\' :: 'U' :: digits 8

/-- Writes the inside of double quotes from a column on. Past the width, the line breaks before a space
or beside an escape, unless that is the first or the last character; a backslash before the break joins
the lines again, and another one keeps a space at the start of a line. `afterEscape` says whether the
text follows an escape on its line. -/
def writeDouble (indent : Nat) :
    (column : Nat) → (first afterEscape : Bool) → List Char → List Char
  | _, _, _, [] => []
  | column, first, afterEscape, c :: rest =>
    let inner := !first && !rest.isEmpty
    if needsEscape c then
      let e := escape c
      if inner && lineWidth + 1 < column + e.length then
        if startsWithoutSpace rest then
          e ++ '\\' :: newLine indent ++ writeDouble indent indent false false rest
        else e ++ '\\' :: newLine indent ++ '\\' :: writeDouble indent (indent + 1) false false rest
      else e ++ writeDouble indent (column + e.length) false true rest
    else if inner && (c == ' ' || afterEscape) && lineWidth < column then
      let lead := if c == ' ' then ['\\'] else []
      '\\' :: newLine indent ++ lead ++
        c :: writeDouble indent (indent + lead.length + 1) false false rest
    else c :: writeDouble indent (column + 1) false false rest

/-- The marks after the `|` of a literal block: the indentation if the text starts with a space or a
break, and how the breaks at the end count. -/
def literalHints (cs : List Char) : List Char :=
  let lead := if cs.head?.any fun c => c == ' ' || isBreak c then ['2'] else []
  let tail :=
    match cs.reverse with
    | [] => []
    | [c] => if isBreak c then ['+'] else ['-']
    | c :: d :: _ => if !isBreak c then ['-'] else if isBreak d then ['+'] else []
  lead ++ tail

/-- Whether the breaks at the end of a literal block all count. -/
def keepsBreaks (cs : List Char) : Bool := (literalHints cs).contains '+'

/-- Writes the lines of a literal block. Every line that is not empty is indented; `atStart` says
whether the text stands at the start of a line. -/
def writeLines (indent : Nat) : (atStart : Bool) → List Char → List Char
  | atStart, [] => if atStart then [] else ['\n']
  | atStart, c :: rest =>
    if isBreak c then c :: writeLines indent true rest
    else if atStart then List.replicate indent ' ' ++ c :: writeLines indent false rest
    else c :: writeLines indent false rest

/-- Writes a literal block, the last line included. -/
def writeLiteral (indent : Nat) (cs : List Char) : List Char :=
  '|' :: literalHints cs ++ '\n' :: writeLines indent true cs

/-- Writes a text in a style other than the literal one, from a column on. -/
def writeInline (indent column : Nat) (s : Style) (cs : List Char) : List Char :=
  match s with
  | .plain => writePlain indent column false cs
  | .single => '\'' :: writeSingle indent (column + 1) none cs ++ ['\'']
  | .double | .literal => '"' :: writeDouble indent (column + 1) true false cs ++ ['"']

end VirtNet.Yaml
