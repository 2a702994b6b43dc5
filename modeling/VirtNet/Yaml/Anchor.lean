import VirtNet.Value.Basic

/-!
# Anchors of a written document

A value that occurs more than once in a document is written once, with an anchor, and as an alias
wherever it occurs again. `anchored` brings a value into that form: what remains numbered there is
anchored, by numbers from one on, and every further occurrence is left at its number.
-/

namespace VirtNet.Yaml.Anchor

/-- The numbers that a walk through a value has met. -/
structure Met where
  /-- Every number. -/
  once : List Nat := []
  /-- The numbers that were met again, in the order in which that happened first. -/
  again : List Nat := []

/-- Meets a number again. -/
def Met.repeated (m : Met) (n : Nat) : Met :=
  if m.again.contains n then m else { m with again := m.again ++ [n] }

mutual

/-- Walks through a value in the order in which it is written, each numbered value once. -/
def walk (m : Met) : Value → Met
  | .numbered n v => if m.once.contains n then m.repeated n else walk { m with once := n :: m.once } v
  | .again n => m.repeated n
  | .list items => walkAll m items
  | .pair a b => walk (walk m a) b
  | .set members => walkAll m members
  | .dict entries => walkEntries m entries
  | _ => m

/-- Walks through some values. -/
def walkAll (m : Met) : List Value → Met
  | [] => m
  | v :: rest => walkAll (walk m v) rest

/-- Walks through some entries. -/
def walkEntries (m : Met) : List (Value × Value) → Met
  | [] => m
  | (k, v) :: rest => walkEntries (walk (walk m k) v) rest

end

/-- The anchor of a number, if it has one. -/
def anchor? (again : List Nat) (n : Nat) : Option Nat := (again.idxOf? n).map (· + 1)

mutual

/-- Leaves every further occurrence of a value at its anchor. `written` are the numbers before; the
second part of the result are the numbers after. -/
def place (again written : List Nat) : Value → Value × List Nat
  | .numbered n v =>
    match written.contains n, anchor? again n with
    | true, some a => (.again a, written)
    | true, none => (v, written)
    | false, some a =>
      let (v, written) := place again (n :: written) v
      (.numbered a v, written)
    | false, none => place again (n :: written) v
  | .again n => (.again ((anchor? again n).getD 0), written)
  | .list items =>
    let (items, written) := placeAll again written items
    (.list items, written)
  | .pair a b =>
    let (a, written) := place again written a
    let (b, written) := place again written b
    (.pair a b, written)
  | .set members =>
    let (members, written) := placeAll again written members
    (.set members, written)
  | .dict entries =>
    let (entries, written) := placeEntries again written entries
    (.dict entries, written)
  | v => (v, written)

/-- The same for some values. -/
def placeAll (again written : List Nat) : List Value → List Value × List Nat
  | [] => ([], written)
  | v :: rest =>
    let (v, written) := place again written v
    let (rest, written) := placeAll again written rest
    (v :: rest, written)

/-- The same for some entries. -/
def placeEntries (again written : List Nat) :
    List (Value × Value) → List (Value × Value) × List Nat
  | [] => ([], written)
  | (k, v) :: rest =>
    let (k, written) := place again written k
    let (v, written) := place again written v
    let (rest, written) := placeEntries again written rest
    ((k, v) :: rest, written)

end

/-- A value with what occurs more than once in it anchored. -/
def anchored (v : Value) : Value := (place (walk {} v).again [] v).1

end VirtNet.Yaml.Anchor
