import VirtNet.Command.Run

/-!
# Mentioned paths

The paths that the arguments of a run may lead to, for a caller that has to look at the disk before the
run. There may be more of them than the run looks at.
-/

namespace VirtNet.Mentioned

/-- The texts in an argument that may be a path or the name of a design: the argument itself, what
follows an equals sign, and what follows a short option. -/
def inArgument (arg : String) : List String :=
  [arg, ((Arguments.splitValue arg.toList).2).getD arg, String.ofList (arg.toList.drop 2)]

/-- The paths that a run may look at. -/
def paths (args : List String) (settingsPath : Option Path) : List Path :=
  let named := (args.flatMap inArgument).flatMap fun s => Design.candidates s Design.usualDirectory
  Design.usualDirectory :: Settings.usualPath :: settingsPath.toList ++ named

/-- The location that a path leads to if no link is on the way. -/
def location (home : Location) (p : Path) : Location :=
  p.names.foldl (fun l name => if name = ".." then l.dropLast else l ++ [name])
    (if p.root = "" then home else [])

/-- A location and the directories on the way to it. -/
def wayTo (l : Location) : List Location := (List.range l.length).map fun n => l.take (n + 1)

end VirtNet.Mentioned
