import VirtNet.Text.Numeral
import VirtNet.Yaml.Token
import VirtNet.Yaml.Token.Quoted

/-!
# Names, tags and directives

What follows an ampersand, an asterisk, an exclamation mark or, at the start of a line, a percent sign.
Each reader gives the token and the rest of the text.
-/

namespace VirtNet.Yaml.Property

/-- The characters of a name. -/
def isNameChar (c : Char) : Bool := c.isAlphanum || c == '-' || c == '_'

/-- The characters that may follow a name directly. -/
def afterName : List Char := ['?', ':', ',', ']', '\x7d', '%', '@', '\x60']

/-- The name of an anchor or of an alias. -/
def name? (cs : List Char) : Option (List Char × List Char) :=
  let name := cs.takeWhile isNameChar
  let rest := cs.dropWhile isNameChar
  if !name.isEmpty && (startsWithGap rest || rest.head?.any afterName.contains) then some (name, rest)
  else none

/-- The characters of a tag, besides letters and digits, that need no escape. -/
def tagMarks : List Char := "-;/?:@&=+$,_.!~*'()[]".toList

/-- Bytes written as percent signs with two digits each, and the rest. -/
def escapedBytes : List Char → Option (List UInt8 × List Char)
  | '%' :: a :: b :: rest => do
    let x ← Quoted.hexDigit? a
    let y ← Quoted.hexDigit? b
    let (bs, rest) ← escapedBytes rest
    some (UInt8.ofNat (16 * x + y) :: bs, rest)
  | '%' :: _ => none
  | cs => some ([], cs)

/-- The text that bytes encode. -/
def decoded? (bs : List UInt8) : Option (List Char) :=
  (String.fromUTF8? (ByteArray.mk bs.toArray)).map String.toList

/-- The characters of a tag, escapes decoded. `fuel` bounds its parts. -/
def tagChars : (fuel : Nat) → List Char → Option (List Char × List Char)
  | 0, _ => none
  | fuel + 1, cs =>
    match cs with
    | '%' :: _ => do
      let (bs, rest) ← escapedBytes cs
      let part ← decoded? bs
      let (more, rest) ← tagChars fuel rest
      some (part ++ more, rest)
    | c :: rest =>
      if c.isAlphanum || tagMarks.contains c then do
        let (more, rest) ← tagChars fuel rest
        some (c :: more, rest)
      else some ([], cs)
    | [] => some ([], [])

/-- Whether a text starts with a character of a tag. -/
def startsTag : List Char → Bool
  | [] => false
  | c :: _ => c.isAlphanum || tagMarks.contains c || c == '%'

/-- A part of a tag that is not empty. -/
def tagPart? (cs : List Char) : Option (List Char × List Char) :=
  if startsTag cs then tagChars (cs.length + 1) cs else none

/-- A handle: a name between exclamation marks, or one exclamation mark before a space. -/
def handle? : List Char → Option (List Char × List Char)
  | '!' :: rest =>
    if startsWith ' ' rest then some (['!'], rest)
    else
      match rest.dropWhile isNameChar with
      | '!' :: rest' => some ('!' :: (rest.takeWhile isNameChar ++ ['!']), rest')
      | _ => none
  | _ => none

/-- Whether a space, a line end or the end of the text is next. -/
def endsHere (cs : List Char) : Bool := startsWith ' ' cs || startsWithLineEnd cs

/-- Whether there is a second exclamation mark before the next space or line end. -/
def hasHandle (rest : List Char) : Bool :=
  (rest.takeWhile fun c => c != ' ' && !isLineEnd c).contains '!'

/-- A tag after its exclamation mark: in angle brackets, alone, or with a handle. -/
def tag? (rest : List Char) : Option (Token × List Char) := do
  let (t, rest) ←
    match rest with
    | '<' :: rest => do
      let (suffix, rest) ← tagPart? rest
      match rest with
      | '>' :: rest => some (Token.tag none suffix, rest)
      | _ => none
    | rest =>
      if startsWithGap rest then some (Token.tag none ['!'], rest)
      else do
        let (handle, rest) ← if hasHandle rest then handle? ('!' :: rest) else some (['!'], rest)
        let (suffix, rest) ← tagPart? rest
        some (Token.tag (some handle) suffix, rest)
  if endsHere rest then some (t, rest) else none

/-- What may be there must be. -/
def required {α : Type} : Option α → Except Fault α
  | some x => .ok x
  | none => .error .malformed

/-- A number in base ten. -/
def number (cs : List Char) : Except Fault (Nat × List Char) :=
  let digits := cs.takeWhile Char.isDigit
  if digits.isEmpty then .error .malformed
  else if Text.maxDecimalDigits < digits.length then .error .directiveTooLong
  else .ok (Text.digitsValue digits, cs.dropWhile Char.isDigit)

/-- Drops spaces. -/
def dropBlanks (cs : List Char) : List Char := cs.dropWhile (· == ' ')

/-- The version of the language: two numbers with a point between them. -/
def version (cs : List Char) : Except Fault (Directive × List Char) := do
  let (major, rest) ← number (dropBlanks cs)
  match rest with
  | '.' :: rest => do
    let (_, rest) ← number rest
    if endsHere rest then return (.version major, rest) else throw .malformed
  | _ => throw .malformed

/-- A handle and what it stands for. -/
def handleMeaning? (cs : List Char) : Option (Directive × List Char) := do
  let (handle, rest) ← handle? (dropBlanks cs)
  if startsWith ' ' rest then
    let (start, rest) ← tagPart? (dropBlanks rest)
    if endsHere rest then some (.handle handle start, rest) else none
  else none

/-- Drops spaces and a comment up to the end of the line; there must be nothing else. -/
def restOfLine? (cs : List Char) : Option (List Char) :=
  let next := dropBlanks cs
  let next := if startsWith '#' next then next.dropWhile (!isLineEnd ·) else next
  if startsWithLineEnd next then some next else none

/-- A directive after its percent sign, up to the end of its line. -/
def directive (cs : List Char) : Except Fault (Token × List Char) := do
  let name := cs.takeWhile isNameChar
  let rest := cs.dropWhile isNameChar
  if name.isEmpty || !endsHere rest then throw .malformed
  let (d, rest) ←
    if name = "YAML".toList then version rest
    else if name = "TAG".toList then required (handleMeaning? rest)
    else pure (.reserved, rest.dropWhile (!isLineEnd ·))
  return (.directive d, ← required (restOfLine? rest))

end VirtNet.Yaml.Property
