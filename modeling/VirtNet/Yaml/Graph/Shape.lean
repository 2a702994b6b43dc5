import VirtNet.Yaml.Graph
import VirtNet.Yaml.Node.Scalar

/-!
# What the vertices of a graph stand for

`Shape.ofGraph` says of every vertex that the root leads to what it stands for. Scalars are read as soon
as they are met. Collections are met first and filled later, in the order in which they were met, so that
a collection can hold itself, and so that of several faults the one nearer to the root comes first. A
mapping is merged into when it is filled.
-/

namespace VirtNet.Yaml

/-- What a vertex stands for; the parts of a collection are given by their numbers. -/
inductive Shape
  /-- A value without parts. -/
  | leaf (v : Value)
  | list (items : List Nat)
  | pair (first second : Nat)
  | set (members : List Nat)
  | dict (entries : List (Nat × Nat))

/-- Shapes by number. Those of couples have no vertex and come after the vertices. -/
abbrev Shapes := Array (Option Shape)

/-- Shapes that are being made. -/
structure Making where
  graph : Graph
  shapes : Shapes
  /-- The collections that are to be filled, the latest first. -/
  unfilled : List Nat

namespace Graph

/-- The text of a scalar. The default value of a mapping stands for it. `fuel` bounds the mappings. -/
def scalarText (g : Graph) : (fuel : Nat) → Nat → Except Fault (List Char)
  | 0, _ => .error .endlessDefault
  | fuel + 1, n =>
    match g.content? n with
    | some (.scalar text) => .ok text
    | some (.dict es) =>
      match es.find? fun e => g.hasTag .value e.1 with
      | some e => scalarText g fuel e.2
      | none => .error .malformed
    | _ => .error .malformed

/-- The value of a vertex with the tag of a scalar. A time is always written as a scalar. -/
def scalarValue (g : Graph) (n : Nat) (tag : Tag) : Except Fault Value := do
  let text ← g.scalarText (g.vertices.size + 1) n
  match tag, g.content? n with
  | .timestamp, some (.dict _) => throw .timeIsMapping
  | tag, _ => Scalar.value n tag text

end Graph

namespace Making

/-- What a number stands for, if it has been met. -/
def shape? (m : Making) (n : Nat) : Option Shape := (m.shapes[n]?).join

/-- Says what a number stands for. -/
def setShape (n : Nat) (s : Shape) (m : Making) : Making :=
  { m with shapes := m.shapes.modify n fun _ => some s }

/-- Meets a vertex. -/
def visit (m : Making) (n : Nat) : Except Fault Making :=
  match m.shape? n, m.graph.vertex? n with
  | some _, _ => .ok m
  | none, none => .error .malformed
  | none, some v =>
    match v.tag with
    | .list | .dict | .set | .orderedEntries | .entries =>
      .ok { m.setShape n (.list []) with unfilled := n :: m.unfilled }
    | .merge | .value | .indicator | .other _ => .error .malformed
    | tag => do return m.setShape n (.leaf (← m.graph.scalarValue n tag))

/-- Meets the key and the value of an entry. A collection is no key. -/
def visitEntry (m : Making) (e : Nat × Nat) : Except Fault Making := do
  let m ← m.visit e.1
  match m.shape? e.1 with
  | some (.leaf _) => m.visit e.2
  | _ => throw .malformed

/-- Makes a couple of a mapping with one entry; gives its number. -/
def couple (m : Making) (n : Nat) : Except Fault (Nat × Making) :=
  match m.graph.content? n with
  | some (.dict [(k, v)]) => do
    let m ← (← m.visit k).visit v
    return (m.shapes.size, { m with shapes := m.shapes.push (some (.pair k v)) })
  | _ => .error .malformed

/-- Makes couples of mappings with one entry each. -/
def couples (m : Making) : List Nat → Except Fault (List Nat × Making)
  | [] => .ok ([], m)
  | n :: rest => do
    let (couple, m) ← m.couple n
    let (more, m) ← m.couples rest
    return (couple :: more, m)

/-- Meets the entries of a mapping that has been merged into; gives them. -/
def mergedEntries (m : Making) (n : Nat) : Except Fault (List (Nat × Nat) × Making) := do
  let graph ← m.graph.merged n
  let es := graph.entries n
  return (es, ← es.foldlM visitEntry { m with graph })

/-- Fills a collection. -/
def fill (m : Making) (n : Nat) : Except Fault Making := do
  match m.graph.vertex? n with
  | some ⟨.list, .list items⟩ => return (← items.foldlM visit m).setShape n (.list items)
  | some ⟨.orderedEntries, .list items⟩ | some ⟨.entries, .list items⟩ =>
    let (couples, m) ← m.couples items
    return m.setShape n (.list couples)
  | some ⟨.set, .dict _⟩ =>
    let (es, m) ← m.mergedEntries n
    return m.setShape n (.set (es.map Prod.fst))
  | some ⟨.dict, .dict _⟩ =>
    let (es, m) ← m.mergedEntries n
    return m.setShape n (.dict es)
  | _ => throw .malformed

/-- Fills collections until none is left. `fuel` bounds the depth of the graph. -/
def fillAll : (fuel : Nat) → Making → Except Fault Making
  | 0, m => .ok m
  | fuel + 1, m =>
    if m.unfilled.isEmpty then .ok m
    else do fillAll fuel (← m.unfilled.reverse.foldlM fill { m with unfilled := [] })

end Making

/-- What the numbers of a graph stand for. -/
def Shape.ofGraph (g : Graph) : Except Fault Shapes := do
  let start : Making := ⟨g, Array.replicate g.vertices.size none, []⟩
  return (← Making.fillAll (g.vertices.size + 1) (← start.visit 0)).shapes

end VirtNet.Yaml
