import VirtNet.Text.Blank
import VirtNet.Text.Digit

/-!
# Whole numbers written as text

A numeral is a sign, then digits of the base, with single low lines between digits. Blanks around it,
separators aside, are ignored, and the decimal digits of any script count. A decimal numeral has at most
`maxDecimalDigits` digits, read or written; the bases 2, 8 and 16 have no such bound and may carry their
`0b`, `0o` or `0x` mark.
-/

namespace VirtNet.Text

/-- The most digits a decimal numeral may have. -/
def maxDecimalDigits : Nat := 4300

/-- The least number with too many digits for a decimal numeral. -/
def decimalBound : Nat := Nat.pow 10 maxDecimalDigits

/-- Whether a whole number can be written in base ten. -/
def isWritable (n : Int) : Bool := n.natAbs < decimalBound

/-- The value of the digit `c` in base `base`, if it is one. -/
def digitIn? (base : Nat) (c : Char) : Option Nat :=
  let value :=
    match decimalDigit? c with
    | some d => some d
    | none =>
      if 'a' ≤ c ∧ c ≤ 'z' then some (c.toNat - 87)
      else if 'A' ≤ c ∧ c ≤ 'Z' then some (c.toNat - 55)
      else none
  value.filter (· < base)

/-- The digits that follow a digit, each after at most one low line. -/
def digitsAfter? (base : Nat) : List Char → Option (List Nat)
  | [] => some []
  | '_' :: c :: rest => do return (← digitIn? base c) :: (← digitsAfter? base rest)
  | c :: rest => do return (← digitIn? base c) :: (← digitsAfter? base rest)

/-- The digits of an unsigned numeral; there is at least one. -/
def digits? (base : Nat) : List Char → Option (List Nat)
  | [] => none
  | c :: rest => do return (← digitIn? base c) :: (← digitsAfter? base rest)

/-- The number with the given digits, the most significant first. -/
def ofDigits (base : Nat) (ds : List Nat) : Nat := ds.foldl (fun n d => base * n + d) 0

/-- The letters that mark a numeral's base after a leading zero. -/
def baseMark (base : Nat) : List Char :=
  if base = 2 then ['b', 'B'] else if base = 8 then ['o', 'O'] else if base = 16 then ['x', 'X']
  else []

/-- Drops the mark of the base, and one low line after it. -/
def dropBaseMark (base : Nat) : List Char → List Char
  | '0' :: m :: rest =>
    if (baseMark base).contains m then
      match rest with
      | '_' :: rest => rest
      | rest => rest
    else '0' :: m :: rest
  | cs => cs

/-- The number an unsigned numeral stands for. -/
def natIn? (base : Nat) (cs : List Char) : Option Nat := do
  let ds ← digits? base (dropBaseMark base cs)
  if base = 10 && maxDecimalDigits < ds.length then none else return ofDigits base ds

/-- The number a signed numeral stands for, blanks around it aside. -/
def intIn? (base : Nat) (cs : List Char) : Option Int :=
  match trimBy isNumberBlank cs with
  | '-' :: rest => (natIn? base rest).map fun n => -(n : Int)
  | '+' :: rest => (natIn? base rest).map Int.ofNat
  | rest => (natIn? base rest).map Int.ofNat

/-- The number a signed decimal numeral stands for. -/
def int? (cs : List Char) : Option Int := intIn? 10 cs

end VirtNet.Text
