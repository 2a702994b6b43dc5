import VirtNet.Yaml.Graph.Shape

/-!
# The value of a graph

Unfolds the shapes of a graph into a value. In a document in which a collection, a date or a time occurs
at several places, all of them carry their numbers; in any other document none does. A collection inside
itself is left at its number.
-/

namespace VirtNet.Yaml

namespace Shape

/-- The numbers of the parts of a shape. -/
def parts : Shape → List Nat
  | leaf _ => []
  | list items | set items => items
  | pair a b => [a, b]
  | dict entries => entries.flatMap fun e => [e.1, e.2]

/-- Whether it can be told if two occurrences are the same value. -/
def hasIdentity : Shape → Bool
  | leaf (.date _) | leaf (.moment _) => true
  | leaf _ => false
  | _ => true

end Shape

namespace Shapes

/-- A shape by number. -/
def shape? (ss : Shapes) (n : Nat) : Option Shape := (ss[n]?).join

/-- How often each number occurs as a part; the root occurs once more. -/
def occurrences (ss : Shapes) : Array Nat :=
  ss.foldl (fun counts s => (s.elim [] Shape.parts).foldl (fun counts n => counts.modify n (· + 1)) counts)
    ((Array.replicate ss.size 0).modify 0 (· + 1))

/-- Whether a value that has an identity occurs more than once. -/
def areShared (ss : Shapes) : Bool :=
  (ss.zip ss.occurrences).any fun (s, count) => 1 < count && s.any Shape.hasIdentity

/-- A value that has been unfolded. -/
structure Unfolded where
  value : Value
  /-- The least depth at which a value stands that it refers to, its own depth if there is none. -/
  least : Nat

/-- The values that refer to nothing around them, by number. -/
abbrev Closed := Array (Option Value)

/-- Unfolds a shape from its parts. -/
def assemble : Shape → (List Value) → Value
  | .leaf v, _ => v
  | .list _, vs => .list vs
  | .pair .., vs => .pair (vs.headD .null) (vs.getLastD .null)
  | .set _, vs => .set ((Value.inserted (vs.map fun v => (v, .null))).map Prod.fst)
  | .dict _, vs => .dict (Value.inserted (couples vs))
where
  /-- Neighbours as keys with their values. -/
  couples : List Value → List (Value × Value)
    | k :: v :: rest => (k, v) :: couples rest
    | _ => []

/-- Unfolds the shape with a number, given the numbers of the collections around it, the innermost first.
What refers to nothing around it is unfolded once. `fuel` bounds the depth. -/
def unfold (ss : Shapes) (shared : Bool) :
    (fuel : Nat) → (around : List Nat) → Nat → StateM Closed Unfolded
  | 0, _, n => return ⟨.again n, 0⟩
  | fuel + 1, around, n => do
    let depth := around.length
    match (← get)[n]?.join, around.idxOf? n, ss.shape? n with
    | some v, _, _ => return ⟨v, depth⟩
    | none, some inward, _ => return ⟨.again n, depth - 1 - inward⟩
    | none, none, none => return ⟨.null, depth⟩
    | none, none, some s =>
      let parts ← s.parts.mapM (unfold ss shared fuel (n :: around))
      let v := assemble s (parts.map Unfolded.value)
      let v := if shared && s.hasIdentity then .numbered n v else v
      let least := parts.foldl (fun least p => min least p.least) depth
      if least = depth then modify fun closed => closed.modify n fun _ => some v
      return ⟨v, least⟩

/-- The value of the shape with the number zero. -/
def rootValue (ss : Shapes) : Value :=
  (unfold ss ss.areShared (ss.size + 1) [] 0 (Array.replicate ss.size none)).1.value

end Shapes

/-- The value of a document's graph. -/
def Graph.value (g : Graph) : Except Fault Value := (Shape.ofGraph g).map Shapes.rootValue

end VirtNet.Yaml
