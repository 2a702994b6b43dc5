import VirtNet.Command.Request
import VirtNet.Design.File
import VirtNet.Json.Text
import VirtNet.Report
import VirtNet.Settings.File
import VirtNet.Text.Control

/-!
# Runs

A run reads files, answers on standard output, and may write one file. A failure that the user can mend
is reported on standard error and ends the run with status 1; a request that cannot be understood ends
it with status 2. What is shown, unlike what is written to a file, has no control sequences.
-/

namespace VirtNet

/-- Where a run takes place. -/
structure Environment where
  files : FileTree
  /-- The settings file that the environment names. -/
  settingsPath : Option Path
  secrets : Secrets
  now : Moment

/-- What a run leaves behind. -/
structure RunResult where
  status : Nat := 0
  output : String := ""
  errorOutput : String := ""
  /-- A file that is to be written. -/
  written : Option (Location × String) := none

/-- Why a run fails. -/
inductive RunError
  | settings (error : SettingsLoadError)
  | design (error : Design.LoadError)
  | compilation (error : ExportError)
  /-- A directory cannot be listed, or a file cannot be written. -/
  | file (error : FileError)
  /-- A path among the arguments is impossible. -/
  | impossiblePath
  /-- A report has no JSON text. -/
  | reportUnwritable (fault : Json.Fault)

/-- The report of a failed export. -/
def ExportError.message? : ExportError → Option String
  | noDevices => some noDevicesText
  | analysis e => e.message?
  | assignment (.exhausted subnet name) => some (exhaustedText subnet name)
  | assignment _ | build _ => none

/-- The report of a failed run, where it is one that the user can mend. -/
def RunError.message? : RunError → Option String
  | settings e => e.message?
  | design e => e.message?
  | compilation e => e.message?
  | file _ | impossiblePath | reportUnwritable _ => none

namespace Run

/-- The version of the program. -/
def versionText : String := "infra-designer, version 0.1.0\n"

/-- How the program is used. -/
def helpText : String :=
  "Usage: infra-designer [--config FILE] [-v] COMMAND\n\n" ++
  "Compile virtual network designs into KubeVirt manifests.\n\n" ++
  "Commands:\n" ++
  "  export DESIGN [--mode full|pvcs|vms|basic] [-o FILE] [--network-mode MODE] [--generation TEXT]\n" ++
  "  topology DESIGN [--network-mode MODE]\n" ++
  "  validate DESIGN\n" ++
  "  list [DIRECTORY]\n"

/-- The settings of a run. A network mode that is asked for replaces the one of the file. -/
def settings (env : Environment) (config : Option Path) (networkMode : Option String) :
    Journal RunError Settings := do
  let s ← (Journal.ofExcept (Settings.load env.files env.secrets config env.settingsPath)).mapError
    .settings
  return match networkMode with
    | some mode => { s with networkMode := .text mode }
    | none => s

/-- The design of a run. -/
def design (env : Environment) (name : String) : Journal RunError Registry :=
  (Design.load env.files name Design.usualDirectory).mapError .design

/-- Where the text of an export goes. -/
def deliver (env : Environment) (mode : String) (devices : Nat) (stream : String) :
    Option Path → Except RunError RunResult
  | none => .ok { output := stream }
  | some path => do
    let location ← (env.files.target path).mapError .file
    return {
      errorOutput := s!"Wrote {mode} export for {devices} devices to {path.toText}\n"
      written := some (location, stream) }

/-- Exports a design. -/
def exportRun (env : Environment) (config : Option Path) (name : String) (mode : String × ExportMode)
    (output : Option Path) (networkMode generation : Option String) : Journal RunError RunResult := do
  let s ← settings env config networkMode
  let r ← design env name
  let stream ← (exportDesign mode.2 r.devices r.connections s generation env.now).mapError .compilation
  Journal.ofExcept (deliver env mode.1 r.devices.length stream output)

/-- Prints the report of a design. -/
def topologyRun (env : Environment) (config : Option Path) (name : String)
    (networkMode : Option String) : Journal RunError RunResult := do
  let s ← settings env config networkMode
  let r ← design env name
  let report ← (Report.describe r.devices r.connections s).mapError .compilation
  let text ← (Journal.ofExcept (Json.ofValue (.record [("topology", report)]))).mapError
    .reportUnwritable
  return { output := text ++ "\n" }

/-- The names of the segments that mix networks. -/
def mixedSegments (c : Compiled) : List String :=
  (c.analysis.segments.values.filter (!·.consistent)).map Segment.name

/-- Says how large a design is, and which of its segments mix networks. -/
def validateRun (env : Environment) (config : Option Path) (name : String) :
    Journal RunError RunResult := do
  let s ← settings env config none
  let r ← design env name
  let c ← (Report.compiled r.devices r.connections s).mapError .compilation
  let _ ← (Journal.ofExcept (Report.ofCompiled c s.networkMode)).mapError
    fun e => RunError.compilation (.build e)
  let (devices, connections) := (r.devices.length, r.connections.length)
  let segments := c.analysis.segments.entries.length
  let mixed := Text.joinWith ", " (mixedSegments c)
  return {
    output :=
      s!"{name}: {devices} devices, {connections} connections, {segments} network segments\n"
    errorOutput :=
      if (mixedSegments c).isEmpty then "" else s!"Warning: mixed subnets in {mixed}\n" }

/-- Lists the designs of a directory. -/
def listRun (env : Environment) (directory : Option Path) : Except RunError RunResult := do
  let path := directory.getD Design.usualDirectory
  let names ← (Design.discover env.files path).mapError .file
  if names.isEmpty then return { output := s!"No designs found in {path.toText}/\n" }
  else
    let lines := names.map fun n => s!"  - {n}\n"
    return { output := "Discovered designs:\n" ++ String.join lines }

/-- Does what is asked for. -/
def perform (env : Environment) (r : Request) : Journal RunError RunResult :=
  match r.action with
  | .manifests name mode output networkMode generation =>
    exportRun env r.config name mode output networkMode generation
  | .topology name networkMode => topologyRun env r.config name networkMode
  | .validate name => validateRun env r.config name
  | .list directory => Journal.ofExcept (listRun env directory)
  | .version => return { output := versionText }
  | .help => return { output := helpText }

/-- A run that reports the failures that the user can mend. -/
def reported (x : Journal RunError RunResult) : Journal RunError RunResult :=
  match x.outcome with
  | .ok _ => x
  | .error e =>
    match e.message? with
    | some message => ⟨x.notes, .ok { status := 1, errorOutput := s!"Error: {message}\n" }⟩
    | none => x

/-- A text as it is shown. -/
def shown (s : String) : String := String.ofList (Text.withoutControls s.toList)

/-- A result as it is shown. -/
def shownResult (r : RunResult) : RunResult :=
  { r with output := shown r.output, errorOutput := shown r.errorOutput }

end Run

/-- A run with the given arguments. -/
def run (env : Environment) (args : List String) : Journal RunError RunResult :=
  match Request.ofArguments env.files args with
  | .error .misused => return { status := 2 }
  | .error .impossiblePath => throw .impossiblePath
  | .ok request => return Run.shownResult (← Run.reported (Run.perform env request))

end VirtNet
