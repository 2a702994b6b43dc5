/-!
# Binary64 numbers

A 64-bit binary floating-point number held as its bits, so that two numbers are equal exactly when
their bits are. Rounding, addition and multiplication go through exact ratios of natural numbers:
every result is the nearest representable number, ties to the even significand.
-/

namespace VirtNet

/-- A binary floating-point number with 53 bits of precision. -/
structure Binary64 where
  /-- Sign, biased exponent and fraction, from the highest bit down. -/
  bits : UInt64
deriving DecidableEq, Repr, Inhabited

namespace Binary64

/-- What a number's bits stand for. -/
inductive Meaning
  /-- No number. -/
  | nan
  /-- An infinity. -/
  | infinite (negative : Bool)
  /-- The number `significand * 2 ^ exponent` with a sign. -/
  | finite (negative : Bool) (significand : Nat) (exponent : Int)
deriving DecidableEq, Repr

/-- Reads the fields of a number. -/
def meaning (x : Binary64) : Meaning :=
  let word := x.bits.toNat
  let negative := decide (Nat.pow 2 63 ≤ word)
  let biased : Nat := word / Nat.pow 2 52 % Nat.pow 2 11
  let fraction : Nat := word % Nat.pow 2 52
  if biased = 2047 then
    if fraction = 0 then .infinite negative else .nan
  else if biased = 0 then .finite negative fraction (-1074)
  else .finite negative (Nat.pow 2 52 + fraction) ((biased : Int) - 1075)

/-- The number with the given sign and magnitude bits. -/
def ofMagnitude (negative : Bool) (magnitude : Nat) : Binary64 :=
  ⟨UInt64.ofNat (magnitude + if negative then Nat.pow 2 63 else 0)⟩

/-- The bits of infinity's magnitude; larger ones are no numbers. -/
def infinityMagnitude : Nat := 2047 * Nat.pow 2 52

/-- An infinity. -/
def infinity (negative : Bool) : Binary64 := ofMagnitude negative infinityMagnitude

/-- A number that is none. It can carry the place where it came from. -/
def nanFrom (place : Nat) : Binary64 :=
  ofMagnitude false (infinityMagnitude + Nat.pow 2 51 + place % Nat.pow 2 51)

/-- The number that is none. -/
def nan : Binary64 := nanFrom 0

/-- Zero, with a sign. -/
def zero (negative : Bool) : Binary64 := ofMagnitude negative 0

/-- The whole number nearest to a ratio, a tie going to the even one. -/
def roundHalfEven (num den : Nat) : Nat :=
  let q := num / den
  let r := num % den
  if 2 * r < den then q
  else if den < 2 * r then q + 1
  else if q % 2 = 0 then q else q + 1

/-- A ratio times a power of a base, as a ratio. -/
def scale (base : Nat) (exponent : Int) (num den : Nat) : Nat × Nat :=
  if 0 ≤ exponent then (num * Nat.pow base exponent.toNat, den)
  else (num, den * Nat.pow base (-exponent).toNat)

/-- The number nearest to `num / den`. A magnitude beyond the largest finite number is infinite. -/
def ofRatio (negative : Bool) (num den : Nat) : Binary64 :=
  if num = 0 then zero negative
  else
    let top : Int := (num.log2 : Int) - den.log2
    let (n, d) := scale 2 (-top) num den
    let exponent := max (-1074) (if d ≤ n then top - 52 else top - 53)
    let (n, d) := scale 2 (-exponent) num den
    let magnitude := (exponent + 1074).toNat * Nat.pow 2 52 + roundHalfEven n d
    ofMagnitude negative (min magnitude infinityMagnitude)

/-- The number nearest to a whole number. -/
def ofInt (n : Int) : Binary64 := ofRatio (n < 0) n.natAbs 1

/-- The number nearest to `digits * 10 ^ exponent`. Exponents far outside the range are not computed:
with `length` the number of digits, a value of at least `10 ^ 310` is infinite and one below
`10 ^ (-330)` is zero. -/
def ofDecimal (negative : Bool) (digits : Nat) (length : Nat) (exponent : Int) : Binary64 :=
  if digits = 0 then zero negative
  else if 310 + (length : Int) < exponent then infinity negative
  else if exponent + length < -330 then zero negative
  else
    let (n, d) := scale 10 exponent digits 1
    ofRatio negative n d

/-- A finite number as a sign and a ratio. -/
def ratio (significand : Nat) (exponent : Int) : Nat × Nat := scale 2 exponent significand 1

/-- Whether a number is zero, of either sign. -/
def isZero (x : Binary64) : Bool := x == zero false || x == zero true

/-- Whether a number is none. -/
def isNaN (x : Binary64) : Bool := x.meaning == .nan

/-- The opposite number. -/
def neg (x : Binary64) : Binary64 := ⟨x.bits ^^^ 0x8000000000000000⟩

/-- The product, rounded once. -/
def mul (x y : Binary64) : Binary64 :=
  match x.meaning, y.meaning with
  | .nan, _ | _, .nan => nan
  | .infinite s, .infinite t => infinity (s != t)
  | .infinite s, .finite t m _ | .finite t m _, .infinite s =>
    if m = 0 then nan else infinity (s != t)
  | .finite s m e, .finite t n f =>
    let (num, den) := ratio (m * n) (e + f)
    ofRatio (s != t) num den

/-- The sum, rounded once. A sum that is exactly zero is positive unless both terms are negative. -/
def add (x y : Binary64) : Binary64 :=
  match x.meaning, y.meaning with
  | .nan, _ | _, .nan => nan
  | .infinite s, .infinite t => if s = t then infinity s else nan
  | .infinite s, .finite .. | .finite .., .infinite s => infinity s
  | .finite s m e, .finite t n f =>
    let low := min e f
    let a : Int := (if s then -1 else 1) * (m * Nat.pow 2 (e - low).toNat : Nat)
    let b : Int := (if t then -1 else 1) * (n * Nat.pow 2 (f - low).toNat : Nat)
    let sum := a + b
    let (num, den) := ratio sum.natAbs low
    ofRatio (if sum = 0 then s && t else sum < 0) num den

/-- The whole part, towards zero, of a finite number. -/
def truncate? (x : Binary64) : Option Int :=
  match x.meaning with
  | .finite s m e =>
    let (num, den) := ratio m e
    some (if s then -((num / den : Nat) : Int) else ((num / den : Nat) : Int))
  | _ => none

/-- Whether a number is exactly a given whole number. -/
def isInt (x : Binary64) (n : Int) : Bool :=
  match x.meaning with
  | .finite s m e =>
    let (num, den) := ratio m e
    num == n.natAbs * den && (num == 0 || s == decide (n < 0))
  | _ => false

/-- Whether two numbers are the same. The two zeros are; of numbers that are none, those that came from
the same place. -/
def same (x y : Binary64) : Bool := x == y || (x.isZero && y.isZero)

end Binary64

end VirtNet
