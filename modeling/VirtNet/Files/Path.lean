import VirtNet.Text.Split

/-!
# Paths

A path is a list of names, with one or two slashes in front if it starts at the root. Empty names and
single points are dropped when a path is read, so that equal paths have one form.
-/

namespace VirtNet

/-- A path to a file or a directory. -/
structure Path where
  /-- The slashes in front. -/
  root : String
  /-- The names on the way. -/
  names : List String
deriving DecidableEq, Repr

namespace Path

/-- The slashes in front of a written path: two count only if there is no third. -/
def rootOf (cs : List Char) : String :=
  match cs with
  | '/' :: '/' :: '/' :: _ => "/"
  | '/' :: '/' :: _ => "//"
  | '/' :: _ => "/"
  | _ => ""

/-- A path as it is written. -/
def ofText (s : String) : Path :=
  let names := (Text.fields '/' s.toList).map String.ofList
  ⟨rootOf s.toList, names.filter fun n => n ≠ "" ∧ n ≠ "."⟩

/-- The usual form of a path. The path without names is a point. -/
def toText (p : Path) : String :=
  if p.root = "" ∧ p.names = [] then "." else p.root ++ Text.joinWith "/" p.names

/-- A path from the place where another leads. A path from the root stays what it is. -/
def join (p q : Path) : Path := if q.root = "" then ⟨p.root, p.names ++ q.names⟩ else q

/-- The place of the last point of a name, if there is something on both sides of it. -/
def splitPoint? (name : List Char) : Option Nat :=
  let after := (name.reverse.takeWhile (· ≠ '.')).length
  let before := name.length - after - 1
  if 0 < before ∧ 0 < after ∧ after < name.length then some before else none

/-- The end of a name from its last point on; a point that starts or ends the name does not count. -/
def suffix (name : String) : String :=
  match splitPoint? name.toList with
  | some n => String.ofList (name.toList.drop n)
  | none => ""

/-- A name without its suffix. -/
def stem (name : String) : String :=
  match splitPoint? name.toList with
  | some n => String.ofList (name.toList.take n)
  | none => name

end Path

end VirtNet
