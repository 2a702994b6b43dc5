import VirtNet.Yaml.Cursor
import VirtNet.Yaml.Token.Block
import VirtNet.Yaml.Token.Plain
import VirtNet.Yaml.Token.Property

/-!
# Dividing a text into tokens

The lexer keeps the columns of the open blocks and, for every level of brackets, the place where a key
may have started. A colon after such a place makes it a key: its `key` token, and in block style the
start of a mapping, are inserted there. A key without an indicator stands on one line and has at most
1024 characters. Where the text cannot be divided further the tokens end in `broken`, placed where a
reader that takes token by token meets the fault.
-/

namespace VirtNet.Yaml

/-- A place where a key may have started. -/
structure PossibleKey where
  /-- How many tokens come before it. -/
  place : Nat
  /-- Whether the block it stands in leaves no other choice. -/
  required : Bool
  index : Nat
  line : Nat
  column : Nat
deriving DecidableEq, Repr

/-- The state between two tokens. -/
structure Lexer where
  cursor : Cursor
  /-- The tokens so far, the latest first. -/
  tokens : List Token := []
  /-- How many tokens there are so far. -/
  count : Nat := 0
  /-- The columns of the open blocks, the innermost first. -/
  indents : List Nat := []
  /-- Where a key may have started within the innermost brackets. -/
  possible : Option PossibleKey := none
  /-- The same for the levels around, one entry for each open bracket. -/
  outer : List (Option PossibleKey) := []
  /-- Whether a key may start here. -/
  keyAllowed : Bool := true
deriving DecidableEq, Repr

namespace Lexer

/-- The most characters of a key without an indicator. -/
def keyLimit : Nat := 1024

/-- Whether the place is inside brackets or braces. -/
def inFlow (l : Lexer) : Bool := !l.outer.isEmpty

/-- The least column of a further line of a scalar. -/
def floor (l : Lexer) : Nat :=
  match l.indents with
  | [] => 0
  | i :: _ => i + 1

/-- Adds a token. -/
def emit (t : Token) (l : Lexer) : Lexer := { l with tokens := t :: l.tokens, count := l.count + 1 }

/-- Passes some characters. -/
def skip (n : Nat) (l : Lexer) : Lexer := { l with cursor := l.cursor.skip n }

/-- Goes on where a given end of the text starts. -/
def moveTo (rest : List Char) (l : Lexer) : Lexer := { l with cursor := l.cursor.moveTo rest }

/-- Says whether a key may start here. -/
def allowKey (allowed : Bool) (l : Lexer) : Lexer := { l with keyAllowed := allowed }

/-! ## Possible keys -/

/-- Gives up the possible key of the innermost level; a required one cannot be given up. -/
def dropKey (l : Lexer) : Except Fault Lexer :=
  if l.possible.any (·.required) then .error .malformed else .ok { l with possible := none }

/-- Notes that a key may start here, if one may. -/
def saveKey (l : Lexer) : Except Fault Lexer :=
  if l.keyAllowed then do
    let l ← l.dropKey
    let c := l.cursor
    let required := !l.inFlow && l.indents.head? == some c.column
    return { l with possible := some ⟨l.count, required, c.index, c.line, c.column⟩ }
  else .ok l

/-- Gives up a possible key that is on an earlier line or too far back. -/
def fresh (c : Cursor) (k : Option PossibleKey) : Except Fault (Option PossibleKey) :=
  match k with
  | none => .ok none
  | some k =>
    if k.line ≠ c.line ∨ keyLimit < c.index - k.index then
      if k.required then .error .malformed else .ok none
    else .ok (some k)

/-- Gives up the possible keys that can no longer be keys. -/
def dropStale (l : Lexer) : Except Fault Lexer := do
  let possible ← fresh l.cursor l.possible
  let outer ← l.outer.mapM (fresh l.cursor)
  return { l with possible, outer }

/-! ## Blocks -/

/-- Ends the open blocks up to the first whose column stays. -/
def closeBlocks (stays : Nat → Bool) (l : Lexer) : Lexer :=
  if l.inFlow then l
  else
    let closed := (l.indents.takeWhile (!stays ·)).length
    { l with
      indents := l.indents.dropWhile (!stays ·)
      tokens := List.replicate closed .blockEnd ++ l.tokens
      count := l.count + closed }

/-- Whether a column is further right than those of the open blocks. -/
def isDeeper (l : Lexer) (column : Nat) : Bool := l.indents.head?.all (· < column)

/-- Starts a block here, unless one with this column is open. -/
def openBlock (t : Token) (l : Lexer) : Lexer :=
  if l.isDeeper l.cursor.column then { l.emit t with indents := l.cursor.column :: l.indents } else l

/-- A block indicator, which stands only where a key may start: starts the block if need be. -/
def blockIndicator (start : Token) (l : Lexer) : Except Fault Lexer :=
  if l.inFlow then .ok l
  else if l.keyAllowed then .ok (l.openBlock start)
  else .error .malformed

/-! ## Gaps -/

/-- Passes spaces, comments and line breaks; says whether there was a line break. -/
def passGap : (comment crossed : Bool) → List Char → Bool × List Char
  | _, _, '\r' :: '\n' :: rest => passGap false true rest
  | comment, crossed, c :: rest =>
    if isLineEnd c then passGap false true rest
    else if comment || c == '#' then passGap true crossed rest
    else if c == ' ' then passGap false crossed rest
    else (crossed, c :: rest)
  | _, crossed, [] => (crossed, [])

/-- Goes on to the next token. -/
def toNext (l : Lexer) : Except Fault Lexer := do
  let (crossed, rest) := passGap false false l.cursor.rest
  let l := l.moveTo rest
  let l ← (if crossed && !l.inFlow then l.allowKey true else l).dropStale
  return l.closeBlocks (· ≤ l.cursor.column)

/-! ## Tokens -/

/-- The end of the text. -/
def finish (l : Lexer) : Except Fault Lexer := do
  let l ← (l.closeBlocks fun _ => false).dropKey
  return l.emit .finish

/-- The start or the end of a document. -/
def border (t : Token) (l : Lexer) : Except Fault Lexer := do
  let l ← (l.closeBlocks fun _ => false).dropKey
  return ((l.emit t).skip 3).allowKey false

/-- A directive. -/
def directive (l : Lexer) (rest : List Char) : Except Fault Lexer := do
  let l ← (l.closeBlocks fun _ => false).dropKey
  let (t, rest) ← Property.directive rest
  return ((l.emit t).moveTo rest).allowKey false

/-- An opening bracket or brace. -/
def opening (t : Token) (l : Lexer) : Except Fault Lexer := do
  let l ← l.saveKey
  let l := { l with possible := none, outer := l.possible :: l.outer }
  return ((l.emit t).skip 1).allowKey true

/-- A closing bracket or brace. -/
def closing (t : Token) (l : Lexer) : Except Fault Lexer := do
  let l ← l.dropKey
  match l.outer with
  | [] => throw .malformed
  | possible :: outer => return (({ l with possible, outer }.emit t).skip 1).allowKey false

/-- A comma. -/
def comma (l : Lexer) : Except Fault Lexer := do
  let l ← l.dropKey
  return ((l.emit .comma).skip 1).allowKey true

/-- The indicator of an item. -/
def item (l : Lexer) : Except Fault Lexer := do
  let l ← (← l.blockIndicator .blockList).dropKey
  return ((l.emit .item).skip 1).allowKey true

/-- The indicator of a key. -/
def key (l : Lexer) : Except Fault Lexer := do
  let l ← (← l.blockIndicator .blockDict).dropKey
  return ((l.emit .key).skip 1).allowKey !l.inFlow

/-- Makes a possible key a key. -/
def confirm (k : PossibleKey) (l : Lexer) : Lexer :=
  let back := l.count - k.place
  let insert (ts : List Token) : List Token := l.tokens.take back ++ ts ++ l.tokens.drop back
  if !l.inFlow && l.isDeeper k.column then
    { l with tokens := insert [.key, .blockDict], count := l.count + 2, indents := k.column :: l.indents }
  else { l with tokens := insert [.key], count := l.count + 1 }

/-- The indicator of a value. -/
def value (l : Lexer) : Except Fault Lexer :=
  match l.possible with
  | some k =>
    let l := { l.confirm k with possible := none }
    .ok (((l.emit .value).skip 1).allowKey false)
  | none => do
    let l ← l.blockIndicator .blockDict
    return ((l.emit .value).skip 1).allowKey !l.inFlow

/-- A token that a key may start with, given with what follows it. -/
def simple (l : Lexer) (token? : Option (Token × List Char)) : Except Fault Lexer := do
  let l ← l.saveKey
  match token? with
  | some (t, rest) => return ((l.emit t).moveTo rest).allowKey false
  | none => throw .malformed

/-- A scalar in quotes. -/
def quoted (l : Lexer) (read : Except Fault (List Char × List Char)) : Except Fault Lexer := do
  let l ← l.saveKey
  let (text, rest) ← read
  return ((l.emit (.scalar false text)).moveTo rest).allowKey false

/-- A plain scalar. -/
def plain (l : Lexer) : Except Fault Lexer := do
  let l ← l.saveKey
  let cs := l.cursor.rest
  let r := Plain.read l.inFlow l.floor cs.length cs
  return ((l.emit (.scalar true r.text)).moveTo r.rest).allowKey r.crossed

/-- A block scalar. -/
def blockScalar (l : Lexer) (folded : Bool) (rest : List Char) : Except Fault Lexer := do
  let l ← l.dropKey
  match Block.read? folded (max 1 l.floor) rest with
  | some (text, rest) => return ((l.emit (.scalar false text)).moveTo rest).allowKey true
  | none => throw .malformed

/-- The characters that a plain scalar cannot start with, unless they are the first three and a
character that is no gap follows. -/
def indicators : List Char := "-?:,[]\x7b\x7d#&*!|>'\"%@\x60".toList

/-- Whether a plain scalar starts with a character and the rest. -/
def startsPlain (inFlow : Bool) (c : Char) (rest : List Char) : Bool :=
  (!isGap c && !indicators.contains c) ||
    (!startsWithGap rest && (c == '-' || (!inFlow && (c == '?' || c == ':'))))

/-- The token that starts with a character and the rest. -/
def token (l : Lexer) (c : Char) (rest : List Char) : Except Fault Lexer :=
  let atLineStart := l.cursor.column == 0
  let gapNext := startsWithGap rest
  if atLineStart && c == '%' then l.directive rest
  else if atLineStart && startsDocument (c :: rest) then l.border .documentStart
  else if atLineStart && endsDocument (c :: rest) then l.border .documentEnd
  else if c == '[' then l.opening .openList
  else if c == '\x7b' then l.opening .openDict
  else if c == ']' then l.closing .closeList
  else if c == '\x7d' then l.closing .closeDict
  else if c == ',' then l.comma
  else if c == '-' && gapNext then l.item
  else if c == '?' && (l.inFlow || gapNext) then l.key
  else if c == ':' && (l.inFlow || gapNext) then l.value
  else if c == '*' then l.simple ((Property.name? rest).map fun (n, r) => (.alias n, r))
  else if c == '&' then l.simple ((Property.name? rest).map fun (n, r) => (.anchor n, r))
  else if c == '!' then l.simple (Property.tag? rest)
  else if c == '|' && !l.inFlow then l.blockScalar false rest
  else if c == '>' && !l.inFlow then l.blockScalar true rest
  else if c == '\'' then l.quoted (Quoted.single .nothing rest)
  else if c == '"' then l.quoted (Quoted.double 0 .nothing rest)
  else if startsPlain l.inFlow c rest then l.plain
  else .error .malformed

/-- The place of the first token that waits for more of the text: the first that may still turn out to
be a key, or the next one to come. -/
def waiting (l : Lexer) : Nat :=
  match l.dropStale with
  | .error _ => l.count
  | .ok l => (l.possible :: l.outer).foldl (fun n k => k.elim n fun k => min n k.place) l.count

/-- The tokens where the text cannot be divided further. The fault shows as soon as the first token that
waits for more is looked at. -/
def broken (l : Lexer) (e : Fault) : List Token :=
  (Token.broken e :: l.tokens.drop (l.count - l.waiting)).reverse

/-- The tokens from here on, after those so far. `fuel` bounds them. -/
def run : (fuel : Nat) → Lexer → List Token
  | 0, l => l.broken .malformed
  | fuel + 1, before =>
    match before.toNext with
    | .error e => before.broken e
    | .ok l =>
      match l.cursor.rest with
      | [] =>
        match l.finish with
        | .error e => before.broken e
        | .ok l => l.tokens.reverse
      | c :: rest =>
        match l.token c rest with
        | .error e => before.broken e
        | .ok l => run fuel l

end Lexer

/-- The characters that a text may have. -/
def isPermitted (c : Char) : Bool :=
  let n := c.toNat
  c == '\t' || c == '\n' || c == '\r' || (0x20 ≤ n && n ≤ 0x7E) || n == 0x85 ||
    (0xA0 ≤ n && n ≤ 0xD7FF) || (0xE000 ≤ n && n ≤ 0xFFFD) || 0x10000 ≤ n

/-- How many characters of a text are looked at together. -/
def sectionLength : Nat := 4096

/-- How many characters are read before the section of a given one; the first two are one. -/
def sectionStart (index : Nat) : Nat :=
  if index < 2 * sectionLength then 0 else index / sectionLength * sectionLength

/-- The tokens of a text in which all characters may occur. The last one is `finish` or `broken`. -/
def Token.ofPermitted (text : List Char) : List Token :=
  Lexer.run (text.length + 1) { cursor := .start text }

/-- The tokens of a text. The sections before the one with a character that may not occur are read
first, so that another fault in them comes first. -/
def Token.ofText (text : List Char) : List Token :=
  match text.findIdx? (!isPermitted ·) with
  | none => ofPermitted text
  | some index =>
    let tokens := ofPermitted (text.take (sectionStart index))
    match tokens.getLast? with
    | some (.broken _) => tokens
    | _ => [.broken .malformed]

end VirtNet.Yaml
