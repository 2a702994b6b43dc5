import Std.Time.Format
import VirtNet.Command.Mentioned

/-!
# The program

Looks at the files that the arguments mention, runs, and writes what the run answers.
-/

namespace VirtNet.Main

/-- A location as a path from the root. -/
def fullPath (l : Location) : String := "/" ++ Text.joinWith "/" l

/-- The file or the directory at a location. -/
def look (l : Location) : IO (List (Location × Option String)) := do
  let path := (← IO.currentDir) / fullPath l
  if ← path.isDir then return [(l, none)]
  else if ← path.pathExists then return [(l, some (← IO.FS.readFile path))]
  else return []

/-- What is in the directory at a location, without the texts of the files. -/
def lookInside (l : Location) : IO (List (Location × Option String)) := do
  let path := (← IO.currentDir) / fullPath l
  if ← path.isDir then
    let children ← path.readDir
    children.toList.mapM fun c => do
      return (l ++ [c.fileName], if ← c.path.isDir then none else some "")
  else return []

/-- The files that the arguments mention. -/
def files (args : List String) (settingsPath : Option Path) : IO FileTree := do
  let home := (Path.ofText (← IO.currentDir).toString).names
  let ends := (Mentioned.paths args settingsPath).map (Mentioned.location home)
  let found ← (ends.flatMap Mentioned.wayTo).eraseDups.mapM look
  let inside ← ends.eraseDups.mapM lookInside
  return { entries := found.flatten ++ inside.flatten, home }

/-- The current time. -/
def now : IO Moment := do
  return .ofSeconds (← Std.Time.Timestamp.now).toSecondsSinceUnixEpoch.val.toNat

end VirtNet.Main

open VirtNet in
/-- Runs the program. A failure that is no report of the program ends it with status 1. -/
def main (args : List String) : IO UInt32 := do
  let settingsPath := (← IO.getEnv Settings.pathVariable).map Path.ofText
  let env : Environment :=
    { files := ← Main.files args settingsPath, settingsPath, secrets := none, now := ← Main.now }
  match (run env args).outcome with
  | .error _ =>
    IO.eprintln "The input cannot be processed."
    return 1
  | .ok r =>
    if let some (l, text) := r.written then
      IO.FS.writeFile ((← IO.currentDir) / Main.fullPath l) text
    IO.print r.output
    IO.eprint r.errorOutput
    return r.status.toUInt32
