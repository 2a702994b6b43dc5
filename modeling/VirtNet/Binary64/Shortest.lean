import VirtNet.Binary64.Basic

/-!
# The shortest decimal that reads back

Every finite positive number is the nearest one to an interval of reals around it. `shortest` finds a
decimal in that interval with as few digits as possible and, among those, the nearest to the number: on
the decimal grid of one digit, then two, and so on, only the two neighbours of the number can be it.
-/

namespace VirtNet

/-- The decimal `0.d₁d₂… * 10 ^ point`. -/
structure Decimal where
  /-- The digits, the most significant first; neither the first nor the last is zero. -/
  digits : List Nat
  /-- How many digits stand before the decimal point. -/
  point : Int
deriving DecidableEq, Repr

namespace Decimal

/-- The digits of a number in base ten, without leading zeros. -/
def digitsOf (n : Nat) : List Nat := (Nat.toDigits 10 n).map fun c => c.toNat - 48

/-- Drops trailing zeros. -/
def dropZeros (ds : List Nat) : List Nat := (ds.reverse.dropWhile (· == 0)).reverse

/-- The decimal `n * 10 ^ exponent`, for a positive `n`. -/
def ofNat (n : Nat) (exponent : Int) : Decimal :=
  let ds := digitsOf n
  ⟨dropZeros ds, exponent + ds.length⟩

end Decimal

namespace Binary64

/-- The point of the decimal for a positive ratio `num / den` whose binary logarithm rounded down is
`log`: the number of its digits before the decimal point. -/
def decimalPoint (log : Int) (num den : Nat) : Int :=
  let guess := log * 30103 / 100000
  let below (p : Int) : Bool :=
    let (n, d) := scale 10 (-p) num den
    n < d
  if below guess then guess else if below (guess + 1) then guess + 1 else guess + 2

/-- The multiple of `10 ^ exponent` next to `value` that lies between `low` and `high`, all three given
as numerators over `den`. The ends count when `closed`; of two hits the nearer wins, and of two
equally near the even one. -/
def gridPoint (low value high den : Nat) (closed : Bool) (exponent : Int) : Option Nat :=
  let scaled (n : Nat) : Nat × Nat := scale 10 (-exponent) n den
  let (n, d) := scaled value
  let inside (c : Nat) : Bool :=
    let (l, ld) := scaled low
    let (h, hd) := scaled high
    if closed then l ≤ c * ld && c * hd ≤ h else l < c * ld && c * hd < h
  let c := n / d
  match inside c, inside (c + 1) with
  | true, false => some c
  | false, true => some (c + 1)
  | true, true => some (roundHalfEven n d)
  | false, false => none

/-- The first grid with a hit, from `digits` digits on; `fuel` bounds the digits to try. -/
def firstGrid (low value high den : Nat) (closed : Bool) (point : Int) :
    (fuel digits : Nat) → Decimal
  | 0, digits =>
    let (n, d) := scale 10 (digits - point) value den
    Decimal.ofNat (n / d) (point - digits)
  | fuel + 1, digits =>
    match gridPoint low value high den closed (point - digits) with
    | some c => Decimal.ofNat c (point - digits)
    | none => firstGrid low value high den closed point fuel (digits + 1)

/-- The shortest decimal that reads back as `significand * 2 ^ exponent`, the significand being
positive. Seventeen digits always suffice. -/
def shortest (significand : Nat) (exponent : Int) : Decimal :=
  let lowGap := if significand = Nat.pow 2 52 ∧ -1074 < exponent then 1 else 2
  let (low, den) := scale 2 (exponent - 2) (4 * significand - lowGap) 1
  let (value, _) := scale 2 (exponent - 2) (4 * significand) 1
  let (high, _) := scale 2 (exponent - 2) (4 * significand + 2) 1
  let point := decimalPoint (significand.log2 + exponent) value den
  firstGrid low value high den (significand % 2 == 0) point 17 1

end Binary64

end VirtNet
