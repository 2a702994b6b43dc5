import VirtNet.Yaml.Tag
import VirtNet.Yaml.Token

/-!
# Nodes

A document is written as a tree of nodes: scalars, lists and mappings, each with its tag. A node can be
anchored, and an alias stands for an anchored node once more, also inside that node. `Node.ofTokens`
builds the tree from tokens, which it takes one by one, so that of two faults the one that shows first
counts.
-/

namespace VirtNet.Yaml

/-- A node of a document as it is written. -/
inductive Node
  | scalar (tag : Tag) (text : List Char)
  | list (tag : Tag) (items : List Node)
  | dict (tag : Tag) (entries : List (Node × Node))
  /-- A node with an anchor; anchors are numbered in the order of the text. -/
  | anchored (anchor : Nat) (n : Node)
  /-- The node with an anchor once more. -/
  | alias (anchor : Nat)

namespace Node

/-- The scalar that stands where nothing is written. -/
def absent : Node := .scalar .null []

/-- The tag that marks a node as having none. -/
def noTag : List Char := ['!']

/-- A scalar with the tag that is written before it, if there is one. -/
def ofScalar (tag : Option (List Char)) (plain : Bool) (text : List Char) : Node :=
  match tag with
  | none => .scalar (if plain then Tag.ofPlain text else .text) text
  | some name => .scalar (if name = noTag then Tag.ofPlain text else Tag.ofName name) text

/-- The tag of a collection: the one that is written before it, or the usual one. -/
def collectionTag (tag : Option (List Char)) (usual : Tag) : Tag :=
  match tag with
  | none => usual
  | some name => if name = noTag then usual else Tag.ofName name

/-! ## Taking tokens -/

/-- Tokens to read, and the anchors so far with their numbers, the latest first. -/
structure Source where
  tokens : List Token
  anchors : List (List Char × Nat)

namespace Source

/-- The next token. -/
def peek (s : Source) : Except Fault Token :=
  match s.tokens with
  | [] => .error .malformed
  | .broken e :: _ => .error e
  | t :: _ => .ok t

/-- What is left after the next token. -/
def next (s : Source) : Source := { s with tokens := s.tokens.drop 1 }

/-- The number of an anchor. -/
def anchor (s : Source) (name : List Char) : Except Fault Nat :=
  match s.anchors.lookup name with
  | some n => .ok n
  | none => .error .malformed

/-- Gives a node its anchor, if it has one; an anchor is given once. The first part of the result anchors
the node. -/
def register (s : Source) : Option (List Char) → Except Fault ((Node → Node) × Source)
  | none => .ok (id, s)
  | some name =>
    if (s.anchors.lookup name).isSome then .error .malformed
    else
      let n := s.anchors.length
      .ok (.anchored n, { s with anchors := (name, n) :: s.anchors })

end Source

/-! ## Before a node -/

/-- What stands before a node: its anchor, and its full tag. -/
structure Properties where
  anchor : Option (List Char) := none
  tag : Option (List Char) := none

/-- Whether nothing stands before a node. -/
def Properties.isEmpty (p : Properties) : Bool := p.anchor.isNone && p.tag.isNone

/-- What handles stand for. -/
abbrev Handles := List (List Char × List Char)

/-- The handles that need no directive. -/
def usualHandles : Handles := [(['!'], ['!']), (['!', '!'], Tag.schemaStart)]

/-- A full tag. Its handle must be known. -/
def fullTag (handles : Handles) (handle : Option (List Char)) (suffix : List Char) :
    Except Fault (List Char) :=
  match handle with
  | none => .ok suffix
  | some h =>
    match handles.lookup h with
    | some start => .ok (start ++ suffix)
    | none => .error .malformed

/-- The anchor and the tag before a node, in either order. After a tag the next token is looked at before
the tag's handle. -/
def properties (handles : Handles) (s : Source) : Except Fault (Properties × Source) := do
  match ← s.peek with
  | .anchor name =>
    let s := s.next
    match ← s.peek with
    | .tag h suffix => return (⟨some name, some (← fullTag handles h suffix)⟩, s.next)
    | _ => return (⟨some name, none⟩, s)
  | .tag h suffix =>
    let s := s.next
    match ← s.peek with
    | .anchor name => return (⟨some name, some (← fullTag handles h suffix)⟩, s.next)
    | _ => return (⟨none, some (← fullTag handles h suffix)⟩, s)
  | _ => return ({}, s)

/-! ## Nodes -/

/-- The indicators of a block. -/
def inBlock : Token → Bool
  | .key | .value | .blockEnd => true
  | _ => false

/-- Whether a token ends an item of a list in block style. -/
def endsItem : Token → Bool
  | .item | .blockEnd => true
  | _ => false

/-- Whether a token ends an item of a list that has the column of its key. -/
def endsFlatItem (t : Token) : Bool := t == .item || inBlock t

/-- Whether a token ends a part of an entry in braces, or with `close` in brackets. -/
def endsPart (close t : Token) : Bool := t == .comma || t == close

/-- Whether a token ends the key of an entry in braces, or with `close` in brackets. -/
def endsKey (close t : Token) : Bool := t == .value || endsPart close t

/-- Where a node may stand: whether blocks may start there, and whether an item of a list that has the
column of its key may. -/
structure Place where
  block : Bool
  flat : Bool

/-- Inside brackets or braces. -/
def Place.flow : Place := ⟨false, false⟩

/-- In a document or in a list. -/
def Place.item : Place := ⟨true, false⟩

/-- At a key or at a value of a mapping in block style. -/
def Place.entry : Place := ⟨true, true⟩

/-- What a node proves to be by its first token. -/
inductive Start
  /-- A scalar of its own, or one that is not written. -/
  | scalar (n : Node) (written : Bool)
  /-- A list that has the column of its key. -/
  | flatList
  | flowList
  | flowDict
  | blockList
  | blockDict

/-- What a node proves to be by its first token, after what stands before it. -/
def start (place : Place) (p : Properties) (t : Token) : Except Fault Start :=
  match t, place.block, place.flat with
  | .item, _, true => .ok .flatList
  | .scalar plain text, _, _ => .ok (.scalar (ofScalar p.tag plain text) true)
  | .openList, _, _ => .ok .flowList
  | .openDict, _, _ => .ok .flowDict
  | .blockList, true, _ => .ok .blockList
  | .blockDict, true, _ => .ok .blockDict
  | _, _, _ => if p.isEmpty then .error .malformed else .ok (.scalar (ofScalar p.tag true []) false)

mutual

/-- A node with what stands before it. `fuel` bounds the depth. -/
def read (handles : Handles) : (fuel : Nat) → Place → Source → Except Fault (Node × Source)
  | 0, _, _ => .error .malformed
  | fuel + 1, place, s => do
    match ← s.peek with
    | .alias name => return (.alias (← s.anchor name), s.next)
    | _ =>
      let (p, s) ← properties handles s
      let first ← start place p (← s.peek)
      let (wrap, s) ← s.register p.anchor
      let (n, s) ← content handles fuel p first s
      return (wrap n, s)

/-- The rest of a node from its first token on. -/
def content (handles : Handles) :
    (fuel : Nat) → Properties → Start → Source → Except Fault (Node × Source)
  | 0, _, _, _ => .error .malformed
  | fuel + 1, p, first, s =>
    let list (x : Except Fault (List Node × Source)) : Except Fault (Node × Source) :=
      x.map fun (ns, s) => (.list (collectionTag p.tag .list) ns, s)
    let dict (x : Except Fault (List (Node × Node) × Source)) : Except Fault (Node × Source) :=
      x.map fun (es, s) => (.dict (collectionTag p.tag .dict) es, s)
    match first with
    | .scalar n written => .ok (n, if written then s.next else s)
    | .flatList => list (flatItems handles fuel s)
    | .flowList => list (flowItems handles fuel true s.next)
    | .flowDict => dict (flowEntries handles fuel true s.next)
    | .blockList => list (blockItems handles fuel s.next)
    | .blockDict => dict (blockEntries handles fuel s.next)

/-- A node, or the absent one where the next token ends it. -/
def readUnless (handles : Handles) :
    (fuel : Nat) → (Token → Bool) → Place → Source → Except Fault (Node × Source)
  | 0, _, _, _ => .error .malformed
  | fuel + 1, ends, place, s => do
    if ends (← s.peek) then return (absent, s) else read handles fuel place s

/-- The value of a key, absent where there is no indicator of a value. -/
def readValue (handles : Handles) :
    (fuel : Nat) → (Token → Bool) → Place → Source → Except Fault (Node × Source)
  | 0, _, _, _ => .error .malformed
  | fuel + 1, ends, place, s => do
    match ← s.peek with
    | .value => readUnless handles fuel ends place s.next
    | _ => return (absent, s)

/-- The items of a list in block style, up to the end of the block. -/
def blockItems (handles : Handles) : (fuel : Nat) → Source → Except Fault (List Node × Source)
  | 0, _ => .error .malformed
  | fuel + 1, s => do
    match ← s.peek with
    | .item =>
      let (n, s) ← readUnless handles fuel endsItem .item s.next
      let (ns, s) ← blockItems handles fuel s
      return (n :: ns, s)
    | .blockEnd => return ([], s.next)
    | _ => throw .malformed

/-- The items of a list that has the column of its key. -/
def flatItems (handles : Handles) : (fuel : Nat) → Source → Except Fault (List Node × Source)
  | 0, _ => .error .malformed
  | fuel + 1, s => do
    match ← s.peek with
    | .item =>
      let (n, s) ← readUnless handles fuel endsFlatItem .item s.next
      let (ns, s) ← flatItems handles fuel s
      return (n :: ns, s)
    | _ => return ([], s)

/-- The entries of a mapping in block style, up to the end of the block. -/
def blockEntries (handles : Handles) :
    (fuel : Nat) → Source → Except Fault (List (Node × Node) × Source)
  | 0, _ => .error .malformed
  | fuel + 1, s => do
    match ← s.peek with
    | .key =>
      let (k, s) ← readUnless handles fuel inBlock .entry s.next
      let (v, s) ← readValue handles fuel inBlock .entry s
      let (es, s) ← blockEntries handles fuel s
      return ((k, v) :: es, s)
    | .blockEnd => return ([], s.next)
    | _ => throw .malformed

/-- The items of a list in brackets, up to the closing one. An item with an indicator of a key is a
mapping with one entry. -/
def flowItems (handles : Handles) :
    (fuel : Nat) → (first : Bool) → Source → Except Fault (List Node × Source)
  | 0, _, _ => .error .malformed
  | fuel + 1, first, s =>
    let item (s : Source) : Except Fault (List Node × Source) := do
      match ← s.peek with
      | .closeList => return ([], s.next)
      | .key =>
        let (k, s) ← readUnless handles fuel (endsKey .closeList) .flow s.next
        let (v, s) ← readValue handles fuel (endsPart .closeList) .flow s
        let (ns, s) ← flowItems handles fuel false s
        return (.dict .dict [(k, v)] :: ns, s)
      | _ =>
        let (n, s) ← read handles fuel .flow s
        let (ns, s) ← flowItems handles fuel false s
        return (n :: ns, s)
    do
      match ← s.peek, first with
      | .closeList, _ => return ([], s.next)
      | _, true => item s
      | .comma, false => item s.next
      | _, false => throw .malformed

/-- The entries of a mapping in braces, up to the closing one. -/
def flowEntries (handles : Handles) :
    (fuel : Nat) → (first : Bool) → Source → Except Fault (List (Node × Node) × Source)
  | 0, _, _ => .error .malformed
  | fuel + 1, first, s =>
    let entry (s : Source) : Except Fault (List (Node × Node) × Source) := do
      match ← s.peek with
      | .closeDict => return ([], s.next)
      | .key =>
        let (k, s) ← readUnless handles fuel (endsKey .closeDict) .flow s.next
        let (v, s) ← readValue handles fuel (endsPart .closeDict) .flow s
        let (es, s) ← flowEntries handles fuel false s
        return ((k, v) :: es, s)
      | _ =>
        let (k, s) ← read handles fuel .flow s
        let (es, s) ← flowEntries handles fuel false s
        return ((k, absent) :: es, s)
    do
      match ← s.peek, first with
      | .closeDict, _ => return ([], s.next)
      | _, true => entry s
      | .comma, false => entry s.next
      | _, false => throw .malformed

end

/-! ## Documents -/

/-- What directives say: whether there was a version, and the handles that were given. -/
structure Preamble where
  versioned : Bool := false
  handles : Handles := []

/-- Reads the directives before a document. Version and handles are given once. -/
def preamble (p : Preamble) : List Token → Except Fault (Preamble × List Token)
  | .directive (.version major) :: rest =>
    if p.versioned || major ≠ 1 then .error .malformed else preamble { p with versioned := true } rest
  | .directive (.handle h start) :: rest =>
    if (p.handles.lookup h).isSome then .error .malformed
    else preamble { p with handles := (h, start) :: p.handles } rest
  | .directive .reserved :: rest => preamble p rest
  | rest => .ok (p, rest)

/-- Whether a token ends a document that may be empty. -/
def endsDocument : Token → Bool
  | .directive _ | .documentStart | .documentEnd | .finish => true
  | _ => false

/-- Whether a token can only stand before a document, or after the last one. -/
def startsDocument : Token → Bool
  | .directive _ | .documentStart | .finish => true
  | _ => false

/-- The most steps that the tokens of a document take. -/
def depthBound (tokens : List Token) : Nat := 4 * tokens.length + 4

/-- The directives before a document and its start. -/
def documentStart (tokens : List Token) : Except Fault (Handles × Source) := do
  let (p, rest) ← preamble {} tokens
  let s : Source := ⟨rest, []⟩
  match ← s.peek with
  | .documentStart => return (p.handles ++ usualHandles, s.next)
  | _ => throw .malformed

/-- The rest of a text after its first document: there must be no other. -/
def onlyEnd (s : Source) : Except Fault Unit := do
  let rest := s.tokens.dropWhile (· == .documentEnd)
  match ← (⟨rest, []⟩ : Source).peek with
  | .finish => return ()
  | _ =>
    let _ ← documentStart rest
    throw .malformed

/-- The node of a text with at most one document; none if it has no document. -/
def ofTokens (tokens : List Token) : Except Fault (Option Node) := do
  let s : Source := ⟨tokens, []⟩
  let first ← s.peek
  if first = .finish then return none
  let (handles, s) ← if startsDocument first then documentStart tokens else pure (usualHandles, s)
  let (n, s) ←
    if startsDocument first && endsDocument (← s.peek) then pure (absent, s)
    else read handles (depthBound tokens) .item s
  onlyEnd s
  return some n

end Node

end VirtNet.Yaml
