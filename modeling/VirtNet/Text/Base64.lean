/-!
# Bytes in base 64

Three bytes are written as four letters, in lines of 76. Reading passes over everything outside the
alphabet and ends at the padding.
-/

namespace VirtNet.Text.Base64

/-- The letters for the numbers below 64. -/
def alphabet : List Char :=
  "ABCDEFGHIJKLMNOPQRSTUVWXYZabcdefghijklmnopqrstuvwxyz0123456789+/".toList

/-- The letter for a number below 64. -/
def letter (n : Nat) : Char := alphabet.getD n '='

/-- The number that a letter stands for. -/
def letterValue? (c : Char) : Option Nat := alphabet.findIdx? (· == c)

/-- The letters for some bytes, padded to groups of four. -/
def groups : List UInt8 → List Char
  | [] => []
  | [a] => [letter (a.toNat / 4), letter (a.toNat % 4 * 16), '=', '=']
  | [a, b] =>
    [letter (a.toNat / 4), letter (a.toNat % 4 * 16 + b.toNat / 16), letter (b.toNat % 16 * 4), '=']
  | a :: b :: c :: rest =>
    letter (a.toNat / 4) :: letter (a.toNat % 4 * 16 + b.toNat / 16) ::
      letter (b.toNat % 16 * 4 + c.toNat / 64) :: letter (c.toNat % 64) :: groups rest

/-- Breaks a text into lines of `width` characters, each with its line feed; `room` is what the current
line still takes. -/
def lines (width : Nat) : (room : Nat) → List Char → List Char
  | room, [] => if room = width then [] else ['\n']
  | 0, c :: rest => '\n' :: c :: lines width (width - 1) rest
  | room + 1, c :: rest => c :: lines width room rest

/-- Bytes in lines of base 64. -/
def encode (bs : List UInt8) : List Char := lines 76 76 (groups bs)

/-- How far reading has come. -/
structure Reading where
  /-- How many letters of the current group are read. -/
  position : Nat
  /-- The bits that are not yet part of a byte. -/
  left : Nat
  /-- The padding marks in a row. -/
  pads : Nat
  /-- The bytes, the last first. -/
  bytes : List UInt8

/-- Reads the letters of a text. Two letters or more and enough padding end it; without padding the
last group must be complete. -/
def decodeFrom (r : Reading) : List Char → Option (List UInt8)
  | [] => if r.position = 0 then some r.bytes.reverse else none
  | c :: rest =>
    if c = '=' then
      if 2 ≤ r.position ∧ 4 ≤ r.position + r.pads + 1 then some r.bytes.reverse
      else decodeFrom { r with pads := if 2 ≤ r.position then r.pads + 1 else r.pads } rest
    else
      match letterValue? c with
      | none => decodeFrom r rest
      | some v =>
        let byte (n : Nat) : List UInt8 := UInt8.ofNat n :: r.bytes
        match r.position with
        | 0 => decodeFrom ⟨1, v, 0, r.bytes⟩ rest
        | 1 => decodeFrom ⟨2, v % 16, 0, byte (r.left * 4 + v / 16)⟩ rest
        | 2 => decodeFrom ⟨3, v % 4, 0, byte (r.left * 16 + v / 4)⟩ rest
        | _ => decodeFrom ⟨0, 0, 0, byte (r.left * 64 + v)⟩ rest

/-- The bytes of a text in base 64. -/
def decode? (cs : List Char) : Option (List UInt8) := decodeFrom ⟨0, 0, 0, []⟩ cs

end VirtNet.Text.Base64
