import VirtNet.Yaml.Fault
import VirtNet.Yaml.Node

/-!
# The graph of a document

The nodes of a document with its aliases resolved: each node is a vertex with a number, and a collection
holds the numbers of its parts, so that one vertex can be a part of several others, and of itself.
-/

namespace VirtNet.Yaml

/-- What a vertex holds; parts are given by their numbers. -/
inductive Content
  | scalar (text : List Char)
  | list (items : List Nat)
  | dict (entries : List (Nat × Nat))
deriving DecidableEq, Repr

/-- A node of a document's graph. -/
structure Vertex where
  tag : Tag
  content : Content
deriving DecidableEq, Repr

/-- The vertices of a document by number. The root has the number zero. -/
structure Graph where
  vertices : Array Vertex
deriving DecidableEq, Repr

namespace Graph

/-- A vertex by number. -/
def vertex? (g : Graph) (n : Nat) : Option Vertex := g.vertices[n]?

/-- What a vertex holds. -/
def content? (g : Graph) (n : Nat) : Option Content := (g.vertex? n).map Vertex.content

/-- Whether a vertex has a tag. -/
def hasTag (g : Graph) (tag : Tag) (n : Nat) : Bool := (g.vertex? n).any (·.tag == tag)

/-- The entries of a mapping; other vertices have none. -/
def entries (g : Graph) (n : Nat) : List (Nat × Nat) :=
  match g.content? n with
  | some (.dict es) => es
  | _ => []

/-- The graph in which a vertex holds something else. -/
def hold (n : Nat) (content : Content) (g : Graph) : Graph :=
  ⟨g.vertices.modify n fun v => { v with content }⟩

/-- The graph in which a vertex has another tag. -/
def retag (n : Nat) (tag : Tag) (g : Graph) : Graph :=
  ⟨g.vertices.modify n fun v => { v with tag }⟩

/-! ## From nodes -/

/-- A graph that is being drawn, with the vertices of the anchored nodes by anchor. -/
structure Drawing where
  graph : Graph := ⟨#[]⟩
  anchored : List (Nat × Nat) := []

namespace Drawing

/-- The number of the next vertex. -/
def next (d : Drawing) : Nat := d.graph.vertices.size

/-- Adds a vertex. -/
def add (v : Vertex) (d : Drawing) : Drawing := { d with graph := ⟨d.graph.vertices.push v⟩ }

/-- Says what a vertex holds. -/
def hold (n : Nat) (content : Content) (d : Drawing) : Drawing :=
  { d with graph := d.graph.hold n content }

mutual

/-- Draws a node and what it holds; gives the number of its vertex. -/
def draw (d : Drawing) : Node → Nat × Drawing
  | .scalar tag text => (d.next, d.add ⟨tag, .scalar text⟩)
  | .list tag items =>
    let (parts, d') := drawAll (d.add ⟨tag, .list []⟩) items
    (d.next, d'.hold d.next (.list parts))
  | .dict tag entries =>
    let (parts, d') := drawEntries (d.add ⟨tag, .dict []⟩) entries
    (d.next, d'.hold d.next (.dict parts))
  | .anchored a n => draw { d with anchored := (a, d.next) :: d.anchored } n
  | .alias a => ((d.anchored.lookup a).getD 0, d)

/-- Draws some nodes. -/
def drawAll (d : Drawing) : List Node → List Nat × Drawing
  | [] => ([], d)
  | n :: rest =>
    let (part, d) := draw d n
    let (parts, d) := drawAll d rest
    (part :: parts, d)

/-- Draws some entries. -/
def drawEntries (d : Drawing) : List (Node × Node) → List (Nat × Nat) × Drawing
  | [] => ([], d)
  | (k, v) :: rest =>
    let (key, d) := draw d k
    let (value, d) := draw d v
    let (parts, d) := drawEntries d rest
    ((key, value) :: parts, d)

end

end Drawing

/-- The graph of a document's node. -/
def ofNode (n : Node) : Graph := (Drawing.draw {} n).2.graph

/-! ## Merging -/

/-- The value of the first merge key among entries, and the other entries. -/
def takeMerge? (g : Graph) : List (Nat × Nat) → Option (Nat × List (Nat × Nat))
  | [] => none
  | (k, v) :: rest =>
    if g.hasTag .merge k then some (v, rest)
    else (takeMerge? g rest).map fun (merged, others) => (merged, (k, v) :: others)

/-- Gives a mapping its entries for good. A key that names a default value is a text from here on. -/
def settle (n : Nat) (es : List (Nat × Nat)) (g : Graph) : Graph :=
  let defaults := (es.map Prod.fst).filter (g.hasTag .value)
  defaults.foldl (fun g k => g.retag k .text) (g.hold n (.dict es))

/-- Puts into a mapping, after the entries gathered so far and before its own, the entries of the mappings
that its merge keys name, which have been merged into before; of the mappings in a list the last comes
first. A merge key goes as soon as it is met, so that a mapping can be merged into itself. `fuel` bounds
the merge keys. -/
def merge : (fuel : Nat) → (gathered : List (Nat × Nat)) → Nat → Graph → Except Fault Graph
  | 0, _, _, _ => .error .malformed
  | fuel + 1, gathered, n, g =>
    let one (n : Nat) (g : Graph) : Except Fault (List (Nat × Nat) × Graph) :=
      match g.content? n with
      | some (.dict _) => do
        let g ← merge fuel [] n g
        return (g.entries n, g)
      | _ => throw .malformed
    match g.takeMerge? (g.entries n) with
    | none => .ok (g.settle n (gathered ++ g.entries n))
    | some (source, others) => do
      let g := g.hold n (.dict others)
      match g.content? source with
      | some (.list items) =>
        let (parts, g) ← items.foldlM (fun (parts, g) i => do
          let (part, g) ← one i g
          return (part :: parts, g)) ([], g)
        merge fuel (gathered ++ parts.flatten) n g
      | _ =>
        let (part, g) ← one source g
        merge fuel (gathered ++ part) n g

/-- The number of entries in a graph. -/
def entryCount (g : Graph) : Nat :=
  (List.range g.vertices.size).foldl (fun count n => count + (g.entries n).length) 0

/-- The graph with everything merged into a mapping. -/
def merged (n : Nat) (g : Graph) : Except Fault Graph := merge (g.entryCount + 1) [] n g

end Graph

end VirtNet.Yaml
