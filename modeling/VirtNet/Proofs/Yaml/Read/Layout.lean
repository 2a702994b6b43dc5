import Mathlib.Data.List.Basic
import VirtNet.Proofs.Yaml.Read.Nodes
import VirtNet.Yaml.Graph.Shape

/-!
# The layout of a tree in its graph

The vertices of a tree are numbered as it is written: a value comes right before what is in it, part by
part. `Layout.places` lists the numbers with the values that they stand for; they are consecutive
(`map_fst_places`) and closed under going to a part (`mem_places_of_part`). Drawing the node of a tree
adds exactly the vertices of its places (`drawn`).
-/

namespace VirtNet.Yaml.Layout

/-! ## Places -/

/-- The values that a tree is made of: the items of a list, the keys and values of a mapping. -/
def parts : Value → List Value
  | .list items => items
  | .dict es => es.flatMap fun e => [e.1, e.2]
  | _ => []

mutual

/-- How many vertices a value has. -/
def count : Value → Nat
  | .list items => countAll items + 1
  | .dict es => countEntries es + 1
  | _ => 1

/-- How many vertices some values have. -/
def countAll : List Value → Nat
  | [] => 0
  | v :: vs => count v + countAll vs

/-- How many vertices some entries have. -/
def countEntries : List (Value × Value) → Nat
  | [] => 0
  | (k, v) :: es => count k + (count v + countEntries es)

end

mutual

/-- The numbers of a value and of what is in it, from `n` on. -/
def places (n : Nat) : Value → List (Nat × Value)
  | .list items => (n, .list items) :: placesAll (n + 1) items
  | .dict es => (n, .dict es) :: placesEntries (n + 1) es
  | v => [(n, v)]

/-- The same for some values. -/
def placesAll (n : Nat) : List Value → List (Nat × Value)
  | [] => []
  | v :: vs => places n v ++ placesAll (n + count v) vs

/-- The same for some entries. -/
def placesEntries (n : Nat) : List (Value × Value) → List (Nat × Value)
  | [] => []
  | (k, v) :: es => places n k ++ (places (n + count k) v ++ placesEntries (n + count k + count v) es)

end

/-- Some values that stand one after the other from `n` on, each with its number. -/
def slots (n : Nat) : List Value → List (Nat × Value)
  | [] => []
  | v :: vs => (n, v) :: slots (n + count v) vs

/-- The numbers of some values that stand one after the other from `n` on. -/
def numbers (n : Nat) (vs : List Value) : List Nat := (slots n vs).map Prod.fst

variable {v w : Value} {vs : List Value} {es : List (Value × Value)} {i n p : Nat}

theorem countEntries_eq (es : List (Value × Value)) : countEntries es = countAll (parts (.dict es)) := by
  induction es with
  | nil => rfl
  | cons e es ih =>
    obtain ⟨k, v⟩ := e
    rw [countEntries, ih]
    rfl

theorem placesEntries_eq (n : Nat) (es : List (Value × Value)) :
    placesEntries n es = placesAll n (parts (.dict es)) := by
  induction es generalizing n with
  | nil => rfl
  | cons e es ih =>
    obtain ⟨k, v⟩ := e
    rw [placesEntries, ih]
    rfl

/-- A value has one vertex more than its parts. -/
theorem count_eq (v : Value) : count v = countAll (parts v) + 1 := by
  cases v with
  | dict es => exact congrArg (· + 1) (countEntries_eq es)
  | _ => rfl

/-- A value stands right before its parts. -/
theorem places_eq (n : Nat) (v : Value) : places n v = (n, v) :: placesAll (n + 1) (parts v) := by
  cases v with
  | dict es => exact congrArg (List.cons _) (placesEntries_eq (n + 1) es)
  | _ => rfl

theorem one_le_count (v : Value) : 1 ≤ count v := by
  rw [count_eq]
  exact Nat.le_add_left 1 _

/-- What passes from the parts of every tree to the tree holds of all trees. -/
theorem ofParts {P : Value → Prop} (h : v.Tree)
    (step : ∀ v, v.Tree → (∀ w ∈ parts v, w.Tree ∧ P w) → P v) : P v := by
  induction h with
  | list h ih => exact step _ (.list h) fun w hw => ⟨h w hw, ih w hw⟩
  | dict hkeys h ih =>
    refine step _ (.dict hkeys h) fun w hw => ?_
    obtain ⟨e, he, hw⟩ := List.mem_flatMap.1 hw
    rw [List.mem_cons, List.mem_singleton] at hw
    rcases hw with rfl | rfl
    · obtain ⟨k, hk⟩ := hkeys e he
      rw [hk]
      exact ⟨.text k, step _ (.text k) fun w hw => nomatch hw⟩
    · exact ⟨h e he, ih e he⟩
  | null => exact step _ .null fun w hw => nomatch hw
  | bool b => exact step _ (.bool b) fun w hw => nomatch hw
  | int n => exact step _ (.int n) fun w hw => nomatch hw
  | text s => exact step _ (.text s) fun w hw => nomatch hw

theorem placesAll_eq (n : Nat) (vs : List Value) :
    placesAll n vs = (slots n vs).flatMap fun s => places s.1 s.2 := by
  induction vs generalizing n with
  | nil => rfl
  | cons v vs ih =>
    rw [placesAll, ih, slots, List.flatMap_cons]

/-- Where a value can stand among others. -/
theorem of_mem_slots {s : Nat × Value} (h : s ∈ slots n vs) :
    s.2 ∈ vs ∧ n ≤ s.1 ∧ s.1 + count s.2 ≤ n + countAll vs := by
  induction vs generalizing n with
  | nil => cases h
  | cons v vs ih =>
    rw [slots, List.mem_cons] at h
    rw [countAll]
    rcases h with rfl | h
    · exact ⟨List.mem_cons_self, Nat.le_refl n, by dsimp only; omega⟩
    · obtain ⟨hmem, hle, hbound⟩ := ih h
      exact ⟨List.mem_cons_of_mem v hmem, by omega, by omega⟩

/-- A place in a value is the place of the value or one in a part of it. -/
theorem mem_places {q : Nat × Value} :
    q ∈ places n v ↔ q = (n, v) ∨ ∃ s ∈ slots (n + 1) (parts v), q ∈ places s.1 s.2 := by
  rw [places_eq, placesAll_eq, List.mem_cons, List.mem_flatMap]

theorem self_mem_places (n : Nat) (v : Value) : (n, v) ∈ places n v := mem_places.2 (.inl rfl)

theorem map_fst_placesAll {vs : List Value}
    (h : ∀ w ∈ vs, ∀ n, (places n w).map Prod.fst = List.range' n (count w)) (m : Nat) :
    (placesAll m vs).map Prod.fst = List.range' m (countAll vs) := by
  induction vs generalizing m with
  | nil => rfl
  | cons w ws ih =>
    rw [List.forall_mem_cons] at h
    rw [placesAll, List.map_append, h.1, ih h.2, countAll, List.range'_append_1]

/-- The numbers of the places are consecutive. -/
theorem map_fst_places (h : v.Tree) (n : Nat) : (places n v).map Prod.fst = List.range' n (count v) := by
  refine ofParts h (P := fun v => ∀ n, (places n v).map Prod.fst = List.range' n (count v)) ?_ n
  intro v _ ih n
  rw [places_eq, List.map_cons, map_fst_placesAll fun w hw => (ih w hw).2, count_eq, List.range'_succ]

/-- The places of a value that has a place are places. -/
theorem places_subset (h : v.Tree) {q : Nat × Value} (hq : q ∈ places n v) :
    ∀ r ∈ places q.1 q.2, r ∈ places n v := by
  refine ofParts h (P := fun v => ∀ n q, q ∈ places n v → ∀ r ∈ places q.1 q.2, r ∈ places n v) ?_ n q hq
  intro v _ ih n q hq r hr
  rcases mem_places.1 hq with rfl | ⟨s, hs, hq⟩
  · exact hr
  · exact mem_places.2 (.inr ⟨s, hs, (ih s.2 (of_mem_slots hs).1).2 s.1 q hq r hr⟩)

/-- What has a place in a tree is a tree. -/
theorem tree_of_mem_places (h : v.Tree) {q : Nat × Value} (hq : q ∈ places n v) : q.2.Tree := by
  refine ofParts h (P := fun v => ∀ n q, q ∈ places n v → q.2.Tree) ?_ n q hq
  intro v hv ih n q hq
  rcases mem_places.1 hq with rfl | ⟨s, hs, hq⟩
  · exact hv
  · exact (ih s.2 (of_mem_slots hs).1).2 s.1 q hq

/-- What passes from a number to those of its parts passes from the first number to all. -/
theorem forall_mem_places {M : Nat → Prop} (h : v.Tree) (hfirst : M n)
    (hstep : ∀ q ∈ places n v, M q.1 → ∀ s ∈ slots (q.1 + 1) (parts q.2), M s.1) :
    ∀ q ∈ places n v, M q.1 := by
  refine ofParts h (P := fun v => ∀ n, M n →
    (∀ q ∈ places n v, M q.1 → ∀ s ∈ slots (q.1 + 1) (parts q.2), M s.1) → ∀ q ∈ places n v, M q.1) ?_ n hfirst hstep
  intro v _ ih n hfirst hstep q hq
  rcases mem_places.1 hq with rfl | ⟨s, hs, hq⟩
  · exact hfirst
  · exact (ih s.2 (of_mem_slots hs).1).2 s.1 (hstep (n, v) (self_mem_places n v) hfirst s hs)
      (fun r hr => hstep r (mem_places.2 (.inr ⟨s, hs, hr⟩))) q hq

/-- A place is among the numbers of its value. -/
theorem bounds_of_mem_places (h : v.Tree) {q : Nat × Value} (hq : q ∈ places n v) :
    n ≤ q.1 ∧ q.1 < n + count v := by
  have hmem : q.1 ∈ (places n v).map Prod.fst := List.mem_map_of_mem hq
  rw [map_fst_places h, List.mem_range'_1] at hmem
  exact hmem

/-- Every number of a value has its place. -/
theorem exists_mem_places (h : v.Tree) (hle : n ≤ i) (hlt : i < n + count v) : ∃ w, (i, w) ∈ places n v := by
  have hmem : i ∈ (places n v).map Prod.fst := by
    rw [map_fst_places h, List.mem_range'_1]
    exact ⟨hle, hlt⟩
  obtain ⟨⟨j, w⟩, hw, rfl⟩ := List.mem_map.1 hmem
  exact ⟨w, hw⟩

/-- A place is found by its number. -/
theorem getElem?_places (h : v.Tree) {q : Nat × Value} (hq : q ∈ places 0 v) : (places 0 v)[q.1]? = some q := by
  obtain ⟨k, hk⟩ := List.mem_iff_getElem?.1 hq
  have hfst : ((places 0 v).map Prod.fst)[k]? = some q.1 := by rw [List.getElem?_map, hk]; rfl
  rw [map_fst_places h] at hfst
  obtain ⟨hlt, hk'⟩ := List.getElem?_eq_some_iff.1 hfst
  rw [List.getElem_range', Nat.zero_add, Nat.one_mul] at hk'
  rw [← hk']
  exact hk

theorem length_places (h : v.Tree) (n : Nat) : (places n v).length = count v := by
  rw [← List.length_map Prod.fst, map_fst_places h, List.length_range']

/-! ## Vertices -/

/-- Neighbours as pairs. -/
def pairs : List Nat → List (Nat × Nat)
  | k :: v :: rest => (k, v) :: pairs rest
  | _ => []

/-- The vertex of a value with its number. -/
def vertex (n : Nat) : Value → Vertex
  | .list items => ⟨.list, .list (numbers (n + 1) items)⟩
  | .dict es => ⟨.dict, .dict (pairs (numbers (n + 1) (parts (.dict es))))⟩
  | .text s => ⟨.text, .scalar s.toList⟩
  | v => ⟨Tag.ofPlain (plainForm v), .scalar (plainForm v)⟩

/-- The vertices of some places. -/
def vertices (qs : List (Nat × Value)) : List Vertex := qs.map fun q => vertex q.1 q.2

/-- A drawing with some more vertices. -/
def extended (d : Graph.Drawing) (vs : List Vertex) : Graph.Drawing :=
  { d with graph := ⟨d.graph.vertices ++ vs.toArray⟩ }

theorem extended_nil (d : Graph.Drawing) : extended d [] = d := by
  simp [extended]

theorem extended_extended (d : Graph.Drawing) (us vs : List Vertex) :
    extended (extended d us) vs = extended d (us ++ vs) := by
  simp [extended]

theorem next_extended (d : Graph.Drawing) (vs : List Vertex) : (extended d vs).next = d.next + vs.length := by
  simp [extended, Graph.Drawing.next]

theorem next_add (d : Graph.Drawing) (v : Vertex) : (d.add v).next = d.next + 1 := by
  simp [Graph.Drawing.add, Graph.Drawing.next]

/-- Changing the first element behind some others. -/
theorem modify_length_append {α : Type} (as : List α) (a : α) (bs : List α) (f : α → α) :
    (as ++ a :: bs).modify as.length f = as ++ f a :: bs := by
  induction as with
  | nil => rfl
  | cons b as ih => exact congrArg (List.cons b) ih

/-- A vertex gets its parts after they are drawn. -/
theorem hold_extended (d : Graph.Drawing) (tag : Tag) (content content' : Content) (vs : List Vertex) :
    (extended (d.add ⟨tag, content⟩) vs).hold d.next content' = extended d (⟨tag, content'⟩ :: vs) := by
  have hvertices : ((d.graph.vertices.push ⟨tag, content⟩ ++ vs.toArray).modify d.graph.vertices.size
      fun v => { v with content := content' }) = d.graph.vertices ++ (⟨tag, content'⟩ :: vs).toArray := by
    apply Array.toList_inj.1
    rw [Array.toList_modify, ← Array.length_toList]
    simpa using modify_length_append d.graph.vertices.toList ⟨tag, content⟩ vs fun v => { v with content := content' }
  exact congrArg (fun vertices => { d with graph := ⟨vertices⟩ }) hvertices

/-- A value is drawn as the vertices of its places, the first of them its own. -/
def Drawn (v : Value) : Prop :=
  ∀ d : Graph.Drawing, d.draw (node v) = (d.next, extended d (vertices (places d.next v)))

theorem next_extended_places (h : v.Tree) (d : Graph.Drawing) (n : Nat) :
    (extended d (vertices (places n v))).next = d.next + count v := by
  rw [next_extended, vertices, List.length_map, length_places h]

theorem drawAll_nodes (h : ∀ v ∈ vs, v.Tree ∧ Drawn v) (d : Graph.Drawing) :
    d.drawAll (nodes vs) = (numbers d.next vs, extended d (vertices (placesAll d.next vs))) := by
  induction vs generalizing d with
  | nil =>
    rw [nodes, Graph.Drawing.drawAll, placesAll, vertices, List.map_nil, extended_nil]
    rfl
  | cons v vs ih =>
    rw [List.forall_mem_cons] at h
    rw [nodes, Graph.Drawing.drawAll, h.1.2 d]
    dsimp only
    rw [ih h.2, next_extended_places h.1.1, extended_extended]
    simp [placesAll, vertices, numbers, slots]

theorem drawEntries_nodeEntries (h : ∀ e ∈ es, (e.1.Tree ∧ Drawn e.1) ∧ e.2.Tree ∧ Drawn e.2)
    (d : Graph.Drawing) : d.drawEntries (nodeEntries es) =
      (pairs (numbers d.next (parts (.dict es))), extended d (vertices (placesEntries d.next es))) := by
  induction es generalizing d with
  | nil =>
    rw [nodeEntries, Graph.Drawing.drawEntries, placesEntries, vertices, List.map_nil, extended_nil]
    rfl
  | cons e es ih =>
    obtain ⟨k, v⟩ := e
    rw [List.forall_mem_cons] at h
    obtain ⟨⟨⟨hktree, hk⟩, htree, hv⟩, hes⟩ := h
    rw [nodeEntries, Graph.Drawing.drawEntries, hk d]
    dsimp only
    rw [hv, next_extended_places hktree]
    dsimp only
    rw [ih hes, next_extended_places htree, next_extended_places hktree, extended_extended, extended_extended]
    simp [placesEntries, vertices, numbers, slots, pairs, parts]

/-- Every tree is drawn as the vertices of its places. -/
theorem drawn (h : v.Tree) : Drawn v := by
  refine ofParts h fun v hv ih => ?_
  cases hv with
  | @list items h =>
    have hitems : ∀ w ∈ items, w.Tree ∧ Drawn w := ih
    intro d
    rw [node, Graph.Drawing.draw, drawAll_nodes hitems]
    dsimp only
    rw [hold_extended, next_add, places]
    rfl
  | @dict es hkeys h =>
    have hes : ∀ e ∈ es, (e.1.Tree ∧ Drawn e.1) ∧ e.2.Tree ∧ Drawn e.2 := fun e he =>
      ⟨ih e.1 (List.mem_flatMap.2 ⟨e, he, List.mem_cons_self⟩),
        ih e.2 (List.mem_flatMap.2 ⟨e, he, List.mem_cons_of_mem _ List.mem_cons_self⟩)⟩
    intro d
    rw [node, Graph.Drawing.draw, drawEntries_nodeEntries hes]
    dsimp only
    rw [hold_extended, next_add, places]
    rfl
  | null | bool | int | text =>
    intro d
    simp [node, Graph.Drawing.draw, extended, vertices, places, vertex, Graph.Drawing.add]

/-- The graph of a tree's node has the vertices of its places. -/
theorem ofNode_node (h : v.Tree) : Graph.ofNode (node v) = ⟨(vertices (places 0 v)).toArray⟩ := by
  have hdraw := drawn h {}
  rw [Graph.ofNode, hdraw]
  simp [extended, Graph.Drawing.next]

end VirtNet.Yaml.Layout
