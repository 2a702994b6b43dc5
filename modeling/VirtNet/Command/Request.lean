import VirtNet.Command.Arguments
import VirtNet.Export
import VirtNet.Files.Tree

/-!
# Requests

What the arguments of a run ask for. Arguments that ask for nothing sensible give no request; that a
directory stands where a file is expected, or the reverse, is among the reasons. Of several faulty options
the one that is given first counts.
-/

namespace VirtNet

/-- What a run is to do. -/
inductive Action
  /-- Write the manifests of a design. -/
  | manifests (design : String) (mode : String × ExportMode) (output : Option Path)
      (networkMode generation : Option String)
  /-- Print the report of a design. -/
  | topology (design : String) (networkMode : Option String)
  /-- Say whether a design can be exported. -/
  | validate (design : String)
  /-- List the designs of a directory. -/
  | list (directory : Option Path)
  /-- Say which version this is. -/
  | version
  /-- Say how the program is used. -/
  | help

/-- What a run is asked to do, and with which settings file. -/
structure Request where
  config : Option Path
  action : Action

/-- Why arguments give no request. -/
inductive RequestError
  /-- They ask for nothing sensible. -/
  | misused
  /-- A path in them has a character that no path can have. -/
  | impossiblePath
deriving DecidableEq, Repr

namespace Request

/-- The option that asks for help, of every command. -/
def helpForm : OptionForm := { name := "--help", takesValue := false }

/-- The options before the name of a command. -/
def generalForms : List OptionForm :=
  [{ name := "--config" }, { name := "--verbose", letter := some 'v', takesValue := false },
    { name := "--version", takesValue := false }, helpForm]

/-- The option for the way to divide a design. -/
def networkModeForm : OptionForm := { name := "--network-mode" }

/-- The options of an export. -/
def exportForms : List OptionForm :=
  [{ name := "--mode" }, { name := "--output", letter := some 'o' }, networkModeForm,
    { name := "--generation" }, helpForm]

/-- Whether a written path leads to a directory. -/
def namesDirectory (files : FileTree) (s : String) : Bool :=
  s ≠ "" && files.hasDirectory (.ofText s)

/-- Whether a written path leads to a file; one that ends with a slash does not. -/
def namesFile (files : FileTree) (s : String) : Bool :=
  match (Text.fields '/' s.toList).getLast? with
  | some last => !last.isEmpty && last ≠ ['.'] && files.hasFile (.ofText s)
  | none => false

/-- The character that no path can have. -/
def pathEnd : Char := '\x00'

/-- A path that is given with an option or as an operand, unless it leads to what is refused. -/
def path (refused : Bool) (s : String) : Except RequestError Path :=
  if s.toList.contains pathEnd then .error .impossiblePath
  else if refused then .error .misused
  else .ok (.ofText s)

/-- The path of a file that is given with an option. A directory is refused. -/
def filePath (files : FileTree) : Option String → Except RequestError (Option Path)
  | none => .ok none
  | some s => (path (namesDirectory files s) s).map some

/-- A value that arguments must have. -/
def required {α : Type} (x : Option α) : Except RequestError α :=
  match x with
  | some a => .ok a
  | none => .error .misused

/-- A value that is given with an option and must be one of a list. -/
def choice (names : List String) : Option String → Except RequestError (Option String)
  | none => .ok none
  | some s => if names.contains s then .ok (some s) else .error .misused

/-- The only operand. -/
def single : List String → Except RequestError String
  | [s] => .ok s
  | _ => .error .misused

/-- The mode of an export, with its name. -/
def exportMode (a : Arguments) : Except RequestError (String × ExportMode) := do
  let name := (a.value? "--mode").getD "full"
  return (name, ← required (ExportMode.table.lookup name))

/-- The file that an export is written to. -/
def output (files : FileTree) (a : Arguments) : Except RequestError (Option Path) :=
  filePath files (a.value? "--output")

/-- The network mode that is asked for. -/
def networkMode (a : Arguments) : Except RequestError (Option String) :=
  choice NetworkMode.names (a.value? networkModeForm.name)

/-- Checks the options of an export, in the order in which they are given. -/
def checkExport (files : FileTree) (a : Arguments) : Except RequestError Unit :=
  a.options.forM fun (name, _) => do
    if name = "--mode" then discard (exportMode a)
    else if name = "--output" then discard (output files a)
    else if name = networkModeForm.name then discard (networkMode a)

/-- The request for an export. -/
def toExport (files : FileTree) (a : Arguments) : Except RequestError Action := do
  checkExport files a
  return .manifests (← single a.operands) (← exportMode a) (← output files a) (← networkMode a)
    (a.value? "--generation")

/-- The request for a report. -/
def toReport (a : Arguments) : Except RequestError Action := do
  let mode ← networkMode a
  return .topology (← single a.operands) mode

/-- The request for a list. -/
def toList (files : FileTree) (a : Arguments) : Except RequestError Action :=
  match a.operands with
  | [] => .ok (.list none)
  | s :: more => do
    let directory ← path (namesFile files s) s
    if more.isEmpty then return .list (some directory) else throw .misused

/-- The action that the name of a command and the arguments after it ask for. Help, where it is asked for,
comes before anything else. -/
def ofCommand (files : FileTree) (command : String) (args : List String) :
    Except RequestError Action :=
  let parsed (forms : List OptionForm) (f : Arguments → Except RequestError Action) :
      Except RequestError Action := do
    let a ← required (Arguments.parse? forms true args)
    if a.has helpForm.name then return .help else f a
  if command = "export" then parsed exportForms (toExport files)
  else if command = "topology" then parsed [networkModeForm, helpForm] toReport
  else if command = "validate" then
    parsed [helpForm] fun a => return .validate (← single a.operands)
  else if command = "list" then parsed [helpForm] (toList files)
  else .error .misused

/-- The first of the options that end a run at once. -/
def ending? (a : Arguments) : Option Action :=
  let actions : List (String × Action) := [("--version", .version), (helpForm.name, .help)]
  a.options.findSome? fun o => actions.lookup o.1

/-- The request of a run. -/
def ofArguments (files : FileTree) (args : List String) : Except RequestError Request := do
  let a ← required (Arguments.parse? generalForms false args)
  match ending? a with
  | some action => return ⟨none, action⟩
  | none =>
    let config ← filePath files (a.value? "--config")
    match a.operands with
    | [] => throw .misused
    | command :: rest => return ⟨config, ← ofCommand files command rest⟩

end Request

end VirtNet
