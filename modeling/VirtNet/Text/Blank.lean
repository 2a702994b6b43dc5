/-!
# Blank characters and trimming

Which characters count as blank, and the ways text loses them: at both ends, at the end only, or
everywhere.
-/

namespace VirtNet.Text

/-- The blank characters: tab to carriage return, the four ASCII separators, the space, the next-line
control, and every Unicode space or line separator. The zero-width space and the byte order mark are
not among them. -/
def isBlank (c : Char) : Bool :=
  let n := c.toNat
  (9 ≤ n && n ≤ 13) || (28 ≤ n && n ≤ 32) || n == 0x85 || n == 0xA0 || n == 0x1680 ||
    (0x2000 ≤ n && n ≤ 0x200A) || n == 0x2028 || n == 0x2029 || n == 0x202F || n == 0x205F ||
    n == 0x3000

/-- The four ASCII separators, which end files, groups, records and units. -/
def isSeparator (c : Char) : Bool := 28 ≤ c.toNat && c.toNat ≤ 31

/-- The blank characters that may stand around a number: all but the separators. -/
def isNumberBlank (c : Char) : Bool := isBlank c && !isSeparator c

/-- Drops the characters that `p` accepts from the end. -/
def trimEndBy (p : Char → Bool) (cs : List Char) : List Char :=
  (cs.reverse.dropWhile p).reverse

/-- Drops the characters that `p` accepts from both ends. -/
def trimBy (p : Char → Bool) (cs : List Char) : List Char :=
  trimEndBy p (cs.dropWhile p)

/-- A text without its leading and trailing blanks. -/
def strip (s : String) : String := String.ofList (trimBy isBlank s.toList)

/-- A text without its trailing blanks. -/
def stripEnd (s : String) : String := String.ofList (trimEndBy isBlank s.toList)

/-- A text without any blank. -/
def unspaced (s : String) : List Char := s.toList.filter fun c => !isBlank c

end VirtNet.Text
