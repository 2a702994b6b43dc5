import VirtNet.Binary64.Shortest
import VirtNet.Text.Blank
import VirtNet.Text.Digit

/-!
# Binary64 numbers as text

Written, a number is its shortest decimal, positional while the decimal point is near the digits and
with an exponent otherwise. Read, a numeral is rounded once.
-/

namespace VirtNet.Binary64

/-- The digits as characters. -/
def digitChars (ds : List Nat) : List Char := ds.map fun d => Char.ofNat (48 + d)

/-- An exponent of at least two digits with its sign. -/
def exponentChars (e : Int) : List Char :=
  let ds := Nat.toDigits 10 e.natAbs
  (if e < 0 then '-' else '+') :: (if ds.length < 2 then '0' :: ds else ds)

/-- A decimal in positional form from `0.0001` up to sixteen digits before the point, with an
exponent outside. A positional form always shows a digit after the point. -/
def decimalChars (x : Decimal) : List Char :=
  let ds := digitChars x.digits
  if -4 < x.point ∧ x.point ≤ 16 then
    if x.point ≤ 0 then '0' :: '.' :: List.replicate (-x.point).toNat '0' ++ ds
    else
      let whole := ds.take x.point.toNat
      let part := ds.drop x.point.toNat
      whole ++ List.replicate (x.point.toNat - whole.length) '0' ++
        '.' :: (if part.isEmpty then ['0'] else part)
  else
    let part := ds.drop 1
    ds.take 1 ++ (if part.isEmpty then [] else '.' :: part) ++ 'e' :: exponentChars (x.point - 1)

/-- A number as text. -/
def toText (x : Binary64) : String :=
  match x.meaning with
  | .nan => "nan"
  | .infinite s => if s then "-inf" else "inf"
  | .finite s m e =>
    let magnitude := if m = 0 then ['0', '.', '0'] else decimalChars (shortest m e)
    String.ofList (if s then '-' :: magnitude else magnitude)

/-- Digits with single low lines between them, and what follows. -/
def spanDigits : List Char → List Nat × List Char
  | [] => ([], [])
  | c :: rest =>
    match Text.decimalDigit? c with
    | some d =>
      match rest with
      | '_' :: c' :: rest' =>
        if Text.isDigit c' then
          let (ds, rest) := spanDigits (c' :: rest')
          (d :: ds, rest)
        else ([d], rest)
      | rest =>
        let (ds, rest) := spanDigits rest
        (d :: ds, rest)
    | none => ([], c :: rest)

/-- The exponent at the end of a numeral, or zero when there is none. -/
def exponent? : List Char → Option Int
  | [] => some 0
  | c :: rest =>
    if c = 'e' ∨ c = 'E' then
      let (negative, rest) :=
        match rest with
        | '-' :: rest => (true, rest)
        | '+' :: rest => (false, rest)
        | rest => (false, rest)
      match spanDigits rest with
      | ([], _) => none
      | (ds, []) =>
        let n : Nat := ds.foldl (fun n d => 10 * n + d) 0
        some (if negative then -(n : Int) else n)
      | _ => none
    else none

/-- An unsigned numeral: digits around an optional point, then an optional exponent. -/
def unsigned? (negative : Bool) (cs : List Char) : Option Binary64 :=
  let (whole, rest) := spanDigits cs
  let (part, rest) :=
    match rest with
    | '.' :: rest => spanDigits rest
    | rest => ([], rest)
  let ds := whole ++ part
  if ds.isEmpty then none
  else do
    let e ← exponent? rest
    return ofDecimal negative (ds.foldl (fun n d => 10 * n + d) 0) ds.length (e - part.length)

/-- The words for infinity. -/
def infinityWords : List (List Char) := ["inf".toList, "infinity".toList]

/-- The magnitude of a signed numeral, or a word for infinity or for no number. -/
def magnitude? (negative : Bool) (cs : List Char) : Option Binary64 :=
  let word := cs.map Char.toLower
  if infinityWords.contains word then some (infinity negative)
  else if word = "nan".toList then some nan
  else unsigned? negative cs

/-- The number nearest to a numeral, blanks around it aside. -/
def ofText? (cs : List Char) : Option Binary64 :=
  match Text.trimBy Text.isNumberBlank cs with
  | '-' :: rest => magnitude? true rest
  | '+' :: rest => magnitude? false rest
  | rest => magnitude? false rest

/-- A number's bits as sixteen digits of base 16. -/
def hexBits (x : Binary64) : String :=
  let ds := Nat.toDigits 16 x.bits.toNat
  String.ofList (List.replicate (16 - ds.length) '0' ++ ds)

end VirtNet.Binary64
