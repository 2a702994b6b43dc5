import VirtNet.Device
import VirtNet.Text.Blank

/-!
# Names of resources

The names and label values that devices and segments get in the cluster. Both keep a small alphabet,
write one hyphen for each run of other characters, and trim the ends.
-/

namespace VirtNet.Naming

/-- Writes `mark` for each run of characters that `keep` refuses; `inRun` says whether the run before
the text is already written. -/
def replaceRuns (keep : Char → Bool) (mark : Char) (inRun : Bool) : List Char → List Char
  | [] => []
  | c :: rest =>
    if keep c then c :: replaceRuns keep mark false rest
    else if inRun then replaceRuns keep mark true rest
    else mark :: replaceRuns keep mark true rest

/-- The lower case of a character, as far as a resource name can tell: outside ASCII only the capital
`I` with a dot and the Kelvin sign have a lower case with an ASCII letter in it. -/
def lowered (c : Char) : List Char :=
  if c.toNat = 0x130 then ['i', Char.ofNat 0x307]
  else if c.toNat = 0x212A then ['k']
  else [c.toLower]

/-- The characters of a resource name. -/
def isNameChar (c : Char) : Bool := c.isLower || c.isDigit || c == '-'

/-- The name of a device's resources: the id in lower case, each run of characters outside `a` to `z`,
`0` to `9` and the hyphen written as one hyphen, and no hyphen at the ends. -/
def resourceName (id : String) : String :=
  let cs := replaceRuns isNameChar '-' false (id.toList.flatMap lowered)
  match Text.trimBy (· == '-') cs with
  | [] => "device"
  | name => String.ofList name

/-- The name of a device's storage claim. -/
def claimName (id : String) : String := resourceName id ++ "-pvc"

/-- The name of a device's machine in one generation of a deployment. -/
def machineName (id generation : String) : String := resourceName id ++ "-" ++ generation

/-- The characters of a label value that may not stand at its ends. -/
def isLabelMark (c : Char) : Bool := c == '.' || c == '_' || c == '-'

/-- The characters of a label value. -/
def isLabelChar (c : Char) : Bool := c.isAlphanum || isLabelMark c

/-- The most characters of a label value. -/
def maxLabelLength : Nat := 63

/-- A text as a label value: each run of characters outside letters, digits, `.`, `_` and `-` written
as one hyphen, then no mark at the ends, then cut to length. -/
def labelValue (s : String) : String :=
  let cs := replaceRuns isLabelChar '-' false s.toList
  String.ofList ((Text.trimBy isLabelMark cs).take maxLabelLength)

end VirtNet.Naming
