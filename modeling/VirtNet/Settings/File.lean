import VirtNet.Files.Tree
import VirtNet.Settings.Document
import VirtNet.Yaml.Reader

/-!
# Settings files

The settings file is the one that is asked for, or the one that the environment names, or a usual one.
Only the usual one may be missing.
-/

namespace VirtNet

/-- Why settings cannot be loaded. -/
inductive SettingsLoadError
  /-- There is no such file. -/
  | notFound (path : Path)
  /-- The file does not follow the rules of its language. -/
  | malformed (path : Path)
  /-- The file holds something that has no value. -/
  | valueless (fault : Yaml.Fault)
  /-- The file cannot be opened. -/
  | unreadable (error : FileError)
  /-- The file holds no settings. -/
  | notSettings (error : SettingsError)

/-- The report of settings that cannot be loaded. A file without a value, or one that cannot be opened,
has none. -/
def SettingsLoadError.message? : SettingsLoadError → Option String
  | notFound path => some s!"Config file not found at {path.toText}"
  | malformed path => some s!"Invalid YAML in {path.toText}"
  | valueless _ | unreadable _ => none
  | notSettings error => error.message?

namespace Settings

/-- The usual settings file. -/
def usualPath : Path := .ofText "designer.yaml"

/-- The variable of the environment that names a settings file. -/
def pathVariable : String := "INFRA_DESIGNER_CONFIG"

/-- The settings in a file. -/
def ofFile (files : FileTree) (secrets : Secrets) (path : Path) : Except SettingsLoadError Settings := do
  let text ← (files.read path).mapError .unreadable
  match Yaml.read text with
  | .ok v => (ofDocument secrets v).mapError .notSettings
  | .error .malformed => .error (.malformed path)
  | .error fault => .error (.valueless fault)

/-- The settings of a run. `asked` is the file that is asked for, `named` the one that the environment
names. -/
def load (files : FileTree) (secrets : Secrets) (asked named : Option Path) :
    Except SettingsLoadError Settings := do
  let path := (asked.or named).getD usualPath
  if ← (files.lookForAny path).mapError .unreadable then ofFile files secrets path
  else if (asked.or named).isSome then throw (.notFound path)
  else return {}

end Settings

end VirtNet
