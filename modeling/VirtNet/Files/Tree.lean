import VirtNet.Files.Path

/-!
# File trees

The files under a directory, by the names on the way to each, and the directories that the ways pass
through. A path leads to a file, to a directory, or nowhere.
-/

namespace VirtNet

/-- The way to a file or a directory from the root of a tree. -/
abbrev Location := List String

/-- A tree of files. -/
structure FileTree where
  /-- The texts of the files, and the directories that are listed for themselves. -/
  entries : List (Location × Option String)
  /-- The directory in which paths without a root start. -/
  home : Location

/-- Why a file cannot be opened. -/
inductive FileError
  /-- There is no such file. -/
  | missing
  /-- The path leads through a file. -/
  | throughFile
  /-- The path leads to a directory. -/
  | isDirectory
  /-- The path, or a name in it, is longer than any can be. -/
  | tooLong
deriving DecidableEq, Repr

namespace FileTree

/-- The most bytes of a name. -/
def maxNameSize : Nat := 255

/-- The most bytes of a path. -/
def maxPathSize : Nat := 4095

/-- The text of the file at a location. -/
def text? (t : FileTree) (l : Location) : Option String :=
  (t.entries.find? fun e => e.1 = l ∧ e.2.isSome).bind Prod.snd

/-- Whether a way passes through a location, or ends there in a directory that is listed. -/
def passes (l : Location) (e : Location × Option String) : Bool :=
  l.isPrefixOf e.1 && (l.length < e.1.length || e.2.isNone)

/-- Whether there is a directory at a location. -/
def isDirectory (t : FileTree) (l : Location) : Bool :=
  l.isEmpty || l.isPrefixOf t.home || t.entries.any (passes l)

/-- The names in a directory, each once. -/
def namesIn (t : FileTree) (l : Location) : List String :=
  (t.entries.filterMap fun e => if l.isPrefixOf e.1 then e.1[l.length]? else none).eraseDups

/-- Follows names from a location. Every name but the last must lead to a directory; two points lead
to the directory around. -/
def follow (t : FileTree) (l : Location) : List String → Except FileError Location
  | [] => .ok l
  | name :: rest =>
    if !t.isDirectory l then .error (if (t.text? l).isSome then .throughFile else .missing)
    else if maxNameSize < name.utf8ByteSize then .error .tooLong
    else follow t (if name = ".." then l.dropLast else l ++ [name]) rest

/-- The location that a path leads to, whether or not there is anything. -/
def locate (t : FileTree) (p : Path) : Except FileError Location :=
  if maxPathSize < p.toText.utf8ByteSize then .error .tooLong
  else t.follow (if p.root = "" then t.home else []) p.names

/-- Whether a path leads to a directory. -/
def hasDirectory (t : FileTree) (p : Path) : Bool :=
  match t.locate p with
  | .ok l => t.isDirectory l
  | .error _ => false

/-- Whether a path leads to a file. -/
def hasFile (t : FileTree) (p : Path) : Bool :=
  match t.locate p with
  | .ok l => (t.text? l).isSome
  | .error _ => false

/-- Whether there is something at a path, which must not be too long. -/
def look (t : FileTree) (p : Path) (there : Bool) : Except FileError Bool :=
  match t.locate p with
  | .error .tooLong => .error .tooLong
  | _ => .ok there

/-- Whether a path, which must not be too long, leads to a file. -/
def lookForFile (t : FileTree) (p : Path) : Except FileError Bool := t.look p (t.hasFile p)

/-- Whether a path, which must not be too long, leads anywhere. -/
def lookForAny (t : FileTree) (p : Path) : Except FileError Bool :=
  t.look p (t.hasFile p || t.hasDirectory p)

/-- Line ends as they are read: a carriage return, with or without a line feed, is a line feed. -/
def plainLines : List Char → List Char
  | '\r' :: '\n' :: rest => '\n' :: plainLines rest
  | '\r' :: rest => '\n' :: plainLines rest
  | c :: rest => c :: plainLines rest
  | [] => []

/-- The text of the file that a path leads to. -/
def read (t : FileTree) (p : Path) : Except FileError String := do
  let l ← t.locate p
  match t.text? l with
  | some s => .ok (String.ofList (plainLines s.toList))
  | none => .error (if t.isDirectory l then .isDirectory else .missing)

/-- The names in the directory that a path leads to. -/
def list (t : FileTree) (p : Path) : Except FileError (List String) := do
  let l ← t.locate p
  if t.isDirectory l then return t.namesIn l
  else throw (if (t.text? l).isSome then .throughFile else .missing)

/-- The location of a file to be written. Its directory must be there already. -/
def target (t : FileTree) (p : Path) : Except FileError Location := do
  let l ← t.locate p
  if t.isDirectory l then throw .isDirectory else return l

/-- The path from the home directory to a location in it. -/
def fromHome (t : FileTree) (l : Location) : String :=
  Text.joinWith "/" (if t.home.isPrefixOf l then l.drop t.home.length else l)

end FileTree

end VirtNet
