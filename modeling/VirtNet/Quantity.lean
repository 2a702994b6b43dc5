import VirtNet.Device
import VirtNet.Text.Blank
import VirtNet.Text.Numeral
import VirtNet.Value.Text

/-!
# Sizes of machines

Disk sizes, memory sizes and processor counts as a design writes them, brought to the form that a
cluster accepts. A size that cannot be read falls back to a default, so a size never stops an export.
The one exception is a processor count with more than `maxDecimalDigits` digits.
-/

namespace VirtNet

/-- A value as the text of an amount; whatever counts as false is no amount. -/
def Value.amount? (v : Value) : Option String := if v.truthy then some v.toText else none

namespace Quantity

/-- Whether `c` is the letter `letter`, written in lower case, in either case. The dotted and the
dotless `i` of Turkish count as an `i`. -/
def isLetter (letter c : Char) : Bool :=
  c.toLower == letter || (letter == 'i' && (c.toNat == 0x130 || c.toNat == 0x131))

/-- Whether a text is the given word of lower case letters, in either case. -/
def isWord (word : String) (cs : List Char) : Bool :=
  word.toList.length == cs.length && (word.toList.zip cs).all fun (letter, c) => isLetter letter c

/-- The disk size where none is given or the given one cannot be read. -/
def defaultStorage : String := "10Gi"

/-- The units of a disk size. -/
def storageUnits : List String := ["gi", "mi", "ti", "g", "gb", "m", "mb", "t", "tb"]

/-- A disk size as a binary quantity: the digits as they are, then the unit's first letter and `i`. A
bare number counts gigabytes. -/
def storage (size : Option String) : String :=
  let cs := (size.map Text.unspaced).getD []
  let digits := cs.takeWhile Text.isDigit
  let unit := cs.dropWhile Text.isDigit
  if digits.isEmpty then defaultStorage
  else
    match unit with
    | [] => String.ofList (digits ++ ['G', 'i'])
    | u :: _ =>
      if storageUnits.any (isWord · unit) then String.ofList (digits ++ [u.toUpper, 'i'])
      else defaultStorage

/-- The memory size of a type of device. -/
def defaultMemory (type : DeviceType) : String := if type = .vm then "2G" else "1G"

/-- Whether a letter counts giga-, mega- or terabytes. -/
def isMemoryUnit (c : Char) : Bool := isLetter 'g' c || isLetter 'm' c || isLetter 't' c

/-- Whether what follows a memory unit adds nothing to it. -/
def isMemoryTail : List Char → Bool
  | [] => true
  | [c] => isLetter 'i' c || isLetter 'b' c
  | _ => false

/-- A memory size in plain form: the digits as they are, then the unit's letter. -/
def memory (size : Option String) (type : DeviceType) : String :=
  let cs := (size.map Text.unspaced).getD []
  let digits := cs.takeWhile Text.isDigit
  match digits.isEmpty, cs.dropWhile Text.isDigit with
  | false, u :: tail =>
    if isMemoryUnit u && isMemoryTail tail then String.ofList (digits ++ [u.toUpper])
    else defaultMemory type
  | _, _ => defaultMemory type

/-- The processor count of a type of device. -/
def defaultCores (type : DeviceType) : Nat := if type = .router then 2 else 1

/-- Why a processor count cannot be given. -/
inductive CoresError
  /-- The first number of the description has too many digits. -/
  | numeralTooLong
deriving DecidableEq, Repr

/-- The first number in a description of the processor, if it is there and not zero. -/
def cores (description : Option String) (type : DeviceType) : Except CoresError Nat :=
  let cs := ((description.getD "").toList.dropWhile fun c => !Text.isDigit c).takeWhile Text.isDigit
  if Text.maxDecimalDigits < cs.length then .error .numeralTooLong
  else
    match Text.digitsValue cs with
    | 0 => .ok (defaultCores type)
    | n + 1 => .ok (n + 1)

end Quantity

end VirtNet
