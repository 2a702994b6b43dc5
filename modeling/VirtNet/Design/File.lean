import VirtNet.Design.Basic
import VirtNet.Files.Tree
import VirtNet.Yaml.Reader

/-!
# Design files

A design is found by the path of its file, or by its name among the files of a directory of designs.
-/

namespace VirtNet.Design

/-- The directory of designs that is taken when none is given. -/
def usualDirectory : Path := .ofText "designs"

/-- The suffixes of design files, in the order in which they are tried. -/
def suffixes : List String := [".yaml", ".yml"]

/-- Why a design cannot be loaded. -/
inductive LoadError
  /-- There is no file for the design. -/
  | notFound (design : String)
  /-- The file does not follow the rules of its language. -/
  | malformed (path : Path)
  /-- The file holds something that has no value. -/
  | valueless (fault : Yaml.Fault)
  /-- The file cannot be opened. -/
  | unreadable (error : FileError)
  /-- The file holds no design. -/
  | notADesign (error : DesignError)
deriving DecidableEq, Repr

/-- The report of a design that cannot be loaded. A file without a value, or one that cannot be opened,
has none. -/
def LoadError.message? : LoadError → Option String
  | notFound design => some s!"Design '{design}' not found"
  | malformed path => some s!"Invalid YAML in {path.toText}"
  | valueless _ | unreadable _ => none
  | notADesign error => error.message?

/-- Whether a name in a directory is that of a design's file. -/
def isDesign (files : FileTree) (directory : Path) (name : String) : Except FileError Bool := do
  return (← files.lookForFile (directory.join ⟨"", [name]⟩)) && suffixes.contains (Path.suffix name)

/-- The names of the designs in a directory, sorted. A directory that is not there has none. -/
def discover (files : FileTree) (directory : Path) : Except FileError (List String) := do
  if ← files.lookForAny directory then
    let names ← (← files.list directory).filterM (isDesign files directory)
    return (names.map Path.stem).mergeSort fun a b => a ≤ b
  else return []

/-- The paths at which a design is looked for, in order: as it is given, then by its name. -/
def candidates (design : String) (directory : Path) : List Path :=
  .ofText design :: suffixes.map fun s => directory.join (.ofText (design ++ s))

/-- The path of a design's file. -/
def find (files : FileTree) (design : String) (directory : Path) : Except LoadError Path := do
  match ← ((candidates design directory).findM? files.lookForFile).mapError .unreadable with
  | some p => return p
  | none => throw (.notFound design)

/-- The value in a design's file. -/
def document (files : FileTree) (path : Path) : Except LoadError Value := do
  let text ← (files.read path).mapError .unreadable
  match Yaml.read text with
  | .ok v => .ok v
  | .error .malformed => .error (.malformed path)
  | .error fault => .error (.valueless fault)

/-- The registry of a design in a file. A file that is empty, or counts as false, is an empty design. -/
def load (files : FileTree) (design : String) (directory : Path) : Journal LoadError Registry := do
  let path ← Journal.ofExcept (find files design directory)
  let data ← Journal.ofExcept (document files path)
  (read (if data.truthy then data else .dict [])).mapError .notADesign

end VirtNet.Design
