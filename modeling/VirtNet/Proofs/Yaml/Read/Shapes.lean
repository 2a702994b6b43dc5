import VirtNet.Proofs.Yaml.Read.Layout
import VirtNet.Yaml.Graph.Value

/-!
# The shapes of a tree

Every vertex of a tree's graph comes to stand for its value (`ofGraph_treeGraph`). `Inv` is what holds
while collections are met and filled: a vertex is not met yet, or it stands for its value and all its parts
are met, or it is to be filled. One round fills all collections that are to be filled, and those that it
meets have greater numbers, so that there is fuel for all of them.
-/

namespace VirtNet.Yaml

namespace Layout

/-- What a value with its number stands for. -/
def shape (n : Nat) : Value → Shape
  | .list items => .list (numbers (n + 1) items)
  | .dict es => .dict (pairs (numbers (n + 1) (parts (.dict es))))
  | v => .leaf v

/-- The graph of a tree. -/
def treeGraph (v : Value) : Graph := ⟨(vertices (places 0 v)).toArray⟩

variable {v w : Value} {vs : List Value} {es : List (Value × Value)} {i n room : Nat}

/-! ## Vertices -/

/-- Lists and mappings. -/
def IsCollection (v : Value) : Prop := (∃ items, v = .list items) ∨ ∃ es, v = .dict es

/-- The parts of a readable value are readable. -/
theorem readable_of_mem_parts (h : Readable room v) (hw : w ∈ parts v) : ∃ room, Readable room w := by
  cases h with
  | list h => exact ⟨_, h w hw⟩
  | dict hkeys hdistinct h =>
    obtain ⟨e, he, hw⟩ := List.mem_flatMap.1 hw
    rw [List.mem_cons, List.mem_singleton] at hw
    rcases hw with hw | hw
    · obtain ⟨k, hk, hback⟩ := hkeys e he
      rw [hw, hk]
      exact ⟨0, .text hback.back⟩
    · rw [hw]
      exact ⟨_, h e he⟩
  | _ => cases hw

/-- What has a place in a readable value is readable. -/
theorem readable_of_mem_places (h : Readable room v) {q : Nat × Value} (hq : q ∈ places n v) :
    ∃ room, Readable room q.2 := by
  refine ofParts h.tree (P := fun v => ∀ room n q, Readable room v → q ∈ places n v →
    ∃ room, Readable room q.2) ?_ room n q h hq
  intro v _ ih room n q h hq
  rcases mem_places.1 hq with rfl | ⟨s, hs, hq⟩
  · exact ⟨room, h⟩
  · have hmem := (of_mem_slots hs).1
    obtain ⟨room', h'⟩ := readable_of_mem_parts h hmem
    exact (ih s.2 hmem).2 room' s.1 q h' hq

/-- The vertex of a scalar stands for it. -/
theorem vertex_of_scalar (h : Readable room w) (hscalar : ¬ IsCollection w) :
    ∃ tag text, vertex n w = ⟨tag, .scalar text⟩ ∧ (tag = .null ∨ tag = .bool ∨ tag = .int ∨ tag = .text) ∧
      (∀ place, Scalar.value place tag text = .ok w) ∧ shape n w = .leaf w := by
  have hform : ∀ {w t}, Resolves w t → vertex n w = ⟨Tag.ofPlain (plainForm w), .scalar (plainForm w)⟩ →
      vertex n w = ⟨t, .scalar (plainForm w)⟩ := fun hw hvertex => by rw [hvertex, hw.tag]
  cases h with
  | null => exact ⟨_, _, hform resolves_null rfl, .inl rfl, resolves_null.value, rfl⟩
  | bool b => exact ⟨_, _, hform (resolves_bool b) rfl, .inr (.inl rfl), (resolves_bool b).value, rfl⟩
  | int h => exact ⟨_, _, hform (resolves_int h) rfl, .inr (.inr (.inl rfl)), (resolves_int h).value, rfl⟩
  | @text _ s h =>
    refine ⟨_, _, rfl, .inr (.inr (.inr rfl)), fun place => ?_, rfl⟩
    rw [Scalar.value, String.ofList_toList]
  | list => exact absurd (.inl ⟨_, rfl⟩) hscalar
  | dict => exact absurd (.inr ⟨_, rfl⟩) hscalar

theorem size_treeGraph (h : v.Tree) : (treeGraph v).vertices.size = count v := by
  simp [treeGraph, vertices, length_places h]

/-- Each place has its vertex. -/
theorem vertex?_treeGraph (h : v.Tree) {q : Nat × Value} (hq : q ∈ places 0 v) :
    (treeGraph v).vertex? q.1 = some (vertex q.1 q.2) := by
  simp [treeGraph, Graph.vertex?, vertices, getElem?_places h hq]

/-- The parts of a value that has a place have places, further back than the value. -/
theorem mem_places_of_part (h : v.Tree) {q s : Nat × Value} (hq : q ∈ places n v)
    (hs : s ∈ slots (q.1 + 1) (parts q.2)) : s ∈ places n v ∧ q.1 < s.1 :=
  ⟨places_subset h hq s (mem_places.2 (.inr ⟨s, hs, self_mem_places s.1 s.2⟩)), (of_mem_slots hs).2.1⟩

/-- A number has one place. -/
theorem place_unique (h : v.Tree) (hw : (i, w) ∈ places 0 v) {u : Value} (hu : (i, u) ∈ places 0 v) : w = u := by
  have hplace : (places 0 v)[i]? = some (i, w) := getElem?_places h hw
  rw [getElem?_places h hu] at hplace
  exact (congrArg Prod.snd (Option.some.inj hplace)).symm

/-! ## Entries -/

/-- The entries of a mapping with their numbers. -/
theorem mem_pairs {e : Nat × Nat} (h : e ∈ pairs (numbers n (parts (.dict es)))) :
    ∃ f ∈ es, (e.1, f.1) ∈ slots n (parts (.dict es)) ∧ (e.2, f.2) ∈ slots n (parts (.dict es)) := by
  induction es generalizing n with
  | nil => cases h
  | cons f fs ih =>
    obtain ⟨k, v⟩ := f
    have hslots : slots n (parts (.dict ((k, v) :: fs))) =
        (n, k) :: (n + count k, v) :: slots (n + count k + count v) (parts (.dict fs)) := rfl
    have hpairs : pairs (numbers n (parts (.dict ((k, v) :: fs)))) =
        (n, n + count k) :: pairs (numbers (n + count k + count v) (parts (.dict fs))) := rfl
    rw [hpairs, List.mem_cons] at h
    rw [hslots]
    rcases h with rfl | h
    · exact ⟨(k, v), List.mem_cons_self, List.mem_cons_self, List.mem_cons_of_mem _ List.mem_cons_self⟩
    · obtain ⟨f, hf, hkey, hvalue⟩ := ih h
      exact ⟨f, List.mem_cons_of_mem _ hf, List.mem_cons_of_mem _ (List.mem_cons_of_mem _ hkey),
        List.mem_cons_of_mem _ (List.mem_cons_of_mem _ hvalue)⟩

/-- The entries of a mapping are all its parts. -/
theorem flatMap_pairs (n : Nat) (es : List (Value × Value)) :
    (pairs (numbers n (parts (.dict es)))).flatMap (fun e => [e.1, e.2]) = numbers n (parts (.dict es)) := by
  induction es generalizing n with
  | nil => rfl
  | cons f fs ih =>
    obtain ⟨k, v⟩ := f
    exact congrArg (fun rest => n :: (n + count k) :: rest) (ih (n + count k + count v))

/-- What a shape is made of are the parts of the value. -/
theorem parts_shape (n : Nat) (h : w.Tree) : (shape n w).parts = numbers (n + 1) (parts w) := by
  cases h with
  | dict => exact flatMap_pairs _ _
  | _ => rfl

/-- The key of an entry is a text with its place, and so is the value. -/
theorem entry_of_mem_places (h : v.Tree) (hq : (n, .dict es) ∈ places 0 v) {e : Nat × Nat}
    (he : e ∈ pairs (numbers (n + 1) (parts (.dict es)))) :
    ∃ k w, ((e.1, .text k) ∈ places 0 v ∧ n < e.1) ∧ (e.2, w) ∈ places 0 v ∧ n < e.2 := by
  obtain ⟨f, hf, hkey, hvalue⟩ := mem_pairs he
  have htext : ∃ k, f.1 = .text k := by
    have htree : Value.Tree (.dict es) := tree_of_mem_places h hq
    cases htree with
    | dict hkeys _ => exact hkeys f hf
  obtain ⟨k, hk⟩ := htext
  rw [hk] at hkey
  exact ⟨k, f.2, mem_places_of_part h hq hkey, mem_places_of_part h hq hvalue⟩

/-! ## Merging -/

theorem hold_eq_self {g : Graph} {tag : Tag} {content : Content} (h : g.vertex? n = some ⟨tag, content⟩) :
    g.hold n content = g := by
  have hvertices : (g.vertices.modify n fun v => { v with content }) = g.vertices := by
    refine Array.ext_getElem? fun i => ?_
    rw [Array.getElem?_modify]
    split
    · next heq =>
      subst heq
      have hn : g.vertices[n]? = some ⟨tag, content⟩ := h
      rw [hn]
      rfl
    · rfl
  rw [Graph.hold, hvertices]

/-- Where no key has the tag, nothing is taken out to be merged. -/
theorem takeMerge?_eq_none {g : Graph} {pairs : List (Nat × Nat)}
    (h : ∀ e ∈ pairs, g.hasTag .merge e.1 = false) : g.takeMerge? pairs = none := by
  induction pairs with
  | nil => rfl
  | cons e rest ih =>
    obtain ⟨k, w⟩ := e
    rw [List.forall_mem_cons] at h
    rw [Graph.takeMerge?, h.1, ih h.2]
    rfl

/-- Into a mapping of a tree nothing is merged. -/
theorem merged_treeGraph (h : v.Tree) (hq : (n, .dict es) ∈ places 0 v) :
    (treeGraph v).merged n = .ok (treeGraph v) := by
  have hvertex : (treeGraph v).vertex? n = some ⟨.dict, .dict (pairs (numbers (n + 1) (parts (.dict es))))⟩ :=
    vertex?_treeGraph h hq
  have hentries : (treeGraph v).entries n = pairs (numbers (n + 1) (parts (.dict es))) := by
    rw [Graph.entries, Graph.content?, hvertex]
    rfl
  -- all keys of a tree are texts
  have htag : ∀ e ∈ pairs (numbers (n + 1) (parts (.dict es))), ∀ tag, tag ≠ .text →
      (treeGraph v).hasTag tag e.1 = false := by
    intro e he tag htag
    obtain ⟨k, w, ⟨hkey, -⟩, -⟩ := entry_of_mem_places h hq he
    rw [Graph.hasTag, vertex?_treeGraph h hkey]
    simpa [vertex] using htag.symm
  have hdefaults : ((pairs (numbers (n + 1) (parts (.dict es)))).map Prod.fst).filter ((treeGraph v).hasTag .value) =
      [] := by
    rw [List.filter_eq_nil_iff]
    intro k hk
    obtain ⟨e, he, rfl⟩ := List.mem_map.1 hk
    simp [htag e he .value (by decide)]
  rw [Graph.merged, Graph.merge, hentries, takeMerge?_eq_none fun e he => htag e he .merge (by decide)]
  dsimp only
  rw [List.nil_append, Graph.settle, hdefaults, List.foldl_nil, hold_eq_self hvertex]

end Layout

namespace Making

open Layout

variable {v w : Value} {m m' : Making} {lo i n room : Nat} {round : List Nat}

/-! ## Meeting and filling -/

theorem shape?_setShape {s : Shape} (hn : n < m.shapes.size) :
    (m.setShape n s).shape? i = if i = n then some s else m.shape? i := by
  rw [shape?, shape?, setShape]
  dsimp only
  rw [Array.getElem?_modify]
  by_cases h : n = i
  · subst h
    simp [hn]
  · simp [h, Ne.symm h]

/-- What stands for a value, all its parts having been met. -/
structure Filled (m : Making) (q : Nat × Value) : Prop where
  shape : m.shape? q.1 = some (Layout.shape q.1 q.2)
  met : ∀ s ∈ slots (q.1 + 1) (parts q.2), m.shape? s.1 ≠ none

/-- What holds while the vertices of a tree are met and its collections are filled: those that are met
for the next round have numbers from `lo` on, and `round` are those that are still to be filled in this one. -/
structure Inv (v : Value) (lo : Nat) (round : List Nat) (m : Making) : Prop where
  graph : m.graph = treeGraph v
  size : m.shapes.size = count v
  unfilled : ∀ i ∈ m.unfilled, lo ≤ i ∧ ∃ w, (i, w) ∈ places 0 v ∧ IsCollection w
  pending : ∀ i ∈ round, lo ≤ i + 1 ∧ ∃ w, (i, w) ∈ places 0 v ∧ IsCollection w
  states : ∀ q ∈ places 0 v, m.shape? q.1 = none ∨ m.Filled q ∨
    m.shape? q.1 = some (.list []) ∧ (q.1 ∈ m.unfilled ∨ q.1 ∈ round)

/-- What is met stays met. -/
def Keeps (m m' : Making) : Prop := ∀ i, m.shape? i ≠ none → m'.shape? i ≠ none

theorem Keeps.trans {m'' : Making} (h : m.Keeps m') (h' : m'.Keeps m'') : m.Keeps m'' :=
  fun i hi => h' i (h i hi)

theorem Filled.keeps {q : Nat × Value} (h : m.Filled q) (hkeeps : m.Keeps m')
    (hshape : m'.shape? q.1 = m.shape? q.1) : m'.Filled q :=
  ⟨hshape.trans h.shape, fun s hs => hkeeps s.1 (h.met s hs)⟩

/-- A vertex that is not met yet is a scalar and stands for it, or it is a collection and to be filled. -/
theorem visit_of_none (h : Readable room v) (hinv : m.Inv v lo round) {q : Nat × Value} (hq : q ∈ places 0 v)
    (hnone : m.shape? q.1 = none) :
    (¬ IsCollection q.2 ∧ m.visit q.1 = .ok (m.setShape q.1 (shape q.1 q.2)) ∧ parts q.2 = []) ∨
      IsCollection q.2 ∧ m.visit q.1 =
        .ok { m.setShape q.1 (.list []) with unfilled := q.1 :: m.unfilled } := by
  obtain ⟨n, w⟩ := q
  dsimp only at hnone ⊢
  have hvertex : m.graph.vertex? n = some (vertex n w) := by
    rw [hinv.graph]
    exact vertex?_treeGraph h.tree hq
  obtain ⟨room', hw⟩ := readable_of_mem_places h hq
  by_cases hcollection : IsCollection w
  · refine .inr ⟨hcollection, ?_⟩
    rw [visit, hnone, hvertex]
    rcases hcollection with ⟨items, rfl⟩ | ⟨es, rfl⟩ <;> rfl
  · obtain ⟨tag, text, heq, htag, hvalue, hshape⟩ := vertex_of_scalar hw hcollection
    refine .inl ⟨hcollection, ?_, ?_⟩
    · rw [heq] at hvertex
      have hcontent : m.graph.content? n = some (.scalar text) := by
        rw [Graph.content?, hvertex]
        rfl
      have hscalar : m.graph.scalarValue n tag = .ok w := by
        rw [Graph.scalarValue, Graph.scalarText, hcontent, ← hvalue n]
        rcases htag with rfl | rfl | rfl | rfl <;> rfl
      rw [visit, hnone, hvertex, hshape]
      rcases htag with rfl | rfl | rfl | rfl <;> simp [hscalar, bind, Except.bind, pure, Except.pure]
    · cases hw with
      | list => exact absurd (.inl ⟨_, rfl⟩) hcollection
      | dict => exact absurd (.inr ⟨_, rfl⟩) hcollection
      | _ => rfl

theorem keeps_setShape {s : Shape} (hn : n < m.shapes.size) : m.Keeps (m.setShape n s) := by
  intro i hi
  rw [shape?_setShape hn]
  split
  · simp
  · exact hi

/-- A place whose vertex has not changed is in the state that it was in. -/
theorem Inv.state {round' : List Nat} (hinv : m.Inv v lo round) {q : Nat × Value} (hq : q ∈ places 0 v)
    (hkeeps : m.Keeps m') (hshape : m'.shape? q.1 = m.shape? q.1) (hunfilled : ∀ i ∈ m.unfilled, i ∈ m'.unfilled)
    (hround : q.1 ∈ round → q.1 ∈ round') :
    m'.shape? q.1 = none ∨ m'.Filled q ∨
      m'.shape? q.1 = some (.list []) ∧ (q.1 ∈ m'.unfilled ∨ q.1 ∈ round') := by
  rcases hinv.states q hq with hnone | hfilled | ⟨hempty, hwaiting⟩
  · exact .inl (hshape.trans hnone)
  · exact .inr (.inl (hfilled.keeps hkeeps hshape))
  · exact .inr (.inr ⟨hshape.trans hempty, hwaiting.imp (hunfilled q.1) hround⟩)

/-- Meeting a vertex of a tree succeeds and keeps the invariant. -/
theorem Inv.visit (h : Readable room v) (hinv : m.Inv v lo round) {q : Nat × Value} (hq : q ∈ places 0 v)
    (hlo : lo ≤ q.1) :
    ∃ m', m.visit q.1 = .ok m' ∧ m'.Inv v lo round ∧ m.Keeps m' ∧ m'.shape? q.1 ≠ none := by
  cases hshape : m.shape? q.1 with
  | some s =>
    refine ⟨m, ?_, hinv, fun _ hi => hi, by simp [hshape]⟩
    rw [Making.visit, hshape]
  | none =>
    have hsize : q.1 < m.shapes.size := by
      rw [hinv.size, ← Nat.zero_add (count v)]
      exact (bounds_of_mem_places h.tree hq).2
    -- a number has one place, so no other vertex changes
    have hunique : ∀ r ∈ places 0 v, r.1 = q.1 → r = q := by
      rintro ⟨j, u⟩ hr rfl
      exact Prod.ext rfl (place_unique h.tree hr hq)
    rcases visit_of_none h hinv hq hshape with ⟨-, hvisit, hparts⟩ | ⟨hcollection, hvisit⟩
    · have hkeeps : m.Keeps (m.setShape q.1 (shape q.1 q.2)) := keeps_setShape hsize
      refine ⟨_, hvisit, ⟨hinv.graph, ?_, hinv.unfilled, hinv.pending, fun r hr => ?_⟩, hkeeps, ?_⟩
      · rw [← hinv.size]
        exact Array.size_modify
      · by_cases hne : r.1 = q.1
        · obtain rfl := hunique r hr hne
          refine .inr (.inl ⟨?_, fun s hs => ?_⟩)
          · rw [shape?_setShape hsize, if_pos rfl]
          · rw [hparts] at hs
            cases hs
        · exact hinv.state hr hkeeps (by rw [shape?_setShape hsize, if_neg hne]) (fun _ hi => hi) id
      · rw [shape?_setShape hsize, if_pos rfl]
        simp
    · have hkeeps : m.Keeps { m.setShape q.1 (.list []) with unfilled := q.1 :: m.unfilled } :=
        @keeps_setShape m q.1 (.list []) hsize
      have hset : ∀ i, Making.shape? { m.setShape q.1 (.list []) with unfilled := q.1 :: m.unfilled } i =
          if i = q.1 then some (.list []) else m.shape? i := fun i => @shape?_setShape m i q.1 (.list []) hsize
      refine ⟨_, hvisit, ⟨hinv.graph, ?_, fun i hi => ?_, hinv.pending, fun r hr => ?_⟩, hkeeps, ?_⟩
      · rw [← hinv.size]
        exact Array.size_modify
      · rcases List.mem_cons.1 hi with rfl | hi
        · exact ⟨hlo, q.2, hq, hcollection⟩
        · exact hinv.unfilled i hi
      · by_cases hne : r.1 = q.1
        · exact .inr (.inr ⟨by rw [hset, if_pos hne], .inl (List.mem_cons.2 (.inl hne))⟩)
        · exact hinv.state hr hkeeps (by rw [hset, if_neg hne]) (fun _ hi => List.mem_cons_of_mem _ hi) id
      · rw [hset, if_pos rfl]
        simp

/-- Meeting the vertices of some places succeeds and keeps the invariant. -/
theorem Inv.visitAll (h : Readable room v) (hinv : m.Inv v lo round) {qs : List (Nat × Value)}
    (hqs : ∀ q ∈ qs, q ∈ places 0 v ∧ lo ≤ q.1) :
    ∃ m', (qs.map Prod.fst).foldlM Making.visit m = .ok m' ∧ m'.Inv v lo round ∧ m.Keeps m' ∧
      ∀ q ∈ qs, m'.shape? q.1 ≠ none := by
  induction qs generalizing m with
  | nil => exact ⟨m, rfl, hinv, fun _ hi => hi, fun q hq => nomatch hq⟩
  | cons q qs ih =>
    rw [List.forall_mem_cons] at hqs
    obtain ⟨m', hvisit, hinv', hkeeps, hmet⟩ := hinv.visit h hqs.1.1 hqs.1.2
    obtain ⟨m'', hfold, hinv'', hkeeps', hall⟩ := ih hinv' hqs.2
    refine ⟨m'', ?_, hinv'', hkeeps.trans hkeeps', List.forall_mem_cons.2 ⟨hkeeps' q.1 hmet, hall⟩⟩
    rw [List.map_cons, List.foldlM_cons, hvisit]
    exact hfold

/-- A scalar that is met stands for its value. -/
theorem Inv.shape_of_scalar (h : v.Tree) (hinv : m.Inv v lo round) {q : Nat × Value} (hq : q ∈ places 0 v)
    (hscalar : ¬ IsCollection q.2) (hmet : m.shape? q.1 ≠ none) : m.shape? q.1 = some (shape q.1 q.2) := by
  have hunique : (∃ w, (q.1, w) ∈ places 0 v ∧ IsCollection w) → False := by
    rintro ⟨w, hw, hcollection⟩
    rw [place_unique h hw hq] at hcollection
    exact hscalar hcollection
  rcases hinv.states q hq with hnone | hfilled | ⟨-, hwaiting | hwaiting⟩
  · exact absurd hnone hmet
  · exact hfilled.shape
  · exact (hunique (hinv.unfilled q.1 hwaiting).2).elim
  · exact (hunique (hinv.pending q.1 hwaiting).2).elim

/-- Meeting the keys and values of some entries succeeds and keeps the invariant. -/
theorem Inv.visitEntries (h : Readable room v) (hinv : m.Inv v lo round) {es : List (Nat × Nat)}
    (hes : ∀ e ∈ es, ∃ k w, ((e.1, .text k) ∈ places 0 v ∧ lo ≤ e.1) ∧ (e.2, w) ∈ places 0 v ∧ lo ≤ e.2) :
    ∃ m', es.foldlM Making.visitEntry m = .ok m' ∧ m'.Inv v lo round ∧ m.Keeps m' ∧
      ∀ e ∈ es, m'.shape? e.1 ≠ none ∧ m'.shape? e.2 ≠ none := by
  induction es generalizing m with
  | nil => exact ⟨m, rfl, hinv, fun _ hi => hi, fun e he => nomatch he⟩
  | cons e es ih =>
    rw [List.forall_mem_cons] at hes
    obtain ⟨⟨k, w, ⟨hkey, hkeyLo⟩, hvalue, hvalueLo⟩, hes⟩ := hes
    obtain ⟨m₁, hvisit₁, hinv₁, hkeeps₁, hmet₁⟩ := hinv.visit h hkey hkeyLo
    obtain ⟨m₂, hvisit₂, hinv₂, hkeeps₂, hmet₂⟩ := hinv₁.visit h hvalue hvalueLo
    obtain ⟨m₃, hfold, hinv₃, hkeeps₃, hall⟩ := ih hinv₂ hes
    have hleaf : m₁.shape? e.1 = some (.leaf (.text k)) := by
      refine hinv₁.shape_of_scalar h.tree hkey ?_ hmet₁
      rintro (⟨_, heq⟩ | ⟨_, heq⟩) <;> cases heq
    have hentry : m.visitEntry e = .ok m₂ := by
      rw [Making.visitEntry, hvisit₁]
      simp only [bind, Except.bind, hleaf]
      exact hvisit₂
    refine ⟨m₃, ?_, hinv₃, (hkeeps₁.trans hkeeps₂).trans hkeeps₃, List.forall_mem_cons.2
      ⟨⟨hkeeps₃ _ (hkeeps₂ _ hmet₁), hkeeps₃ _ hmet₂⟩, hall⟩⟩
    rw [List.foldlM_cons, hentry]
    exact hfold

/-- A collection whose parts are met can be said to stand for its value. -/
theorem Inv.setShape (h : v.Tree) (hinv : m.Inv v lo (n :: round)) (hq : (n, w) ∈ places 0 v)
    (hmet : ∀ s ∈ slots (n + 1) (parts w), m.shape? s.1 ≠ none) :
    (m.setShape n (shape n w)).Inv v lo round ∧ m.Keeps (m.setShape n (shape n w)) := by
  have hsize : n < m.shapes.size := by
    rw [hinv.size, ← Nat.zero_add (count v)]
    exact (bounds_of_mem_places h hq).2
  have hkeeps : m.Keeps (m.setShape n (shape n w)) := keeps_setShape hsize
  refine ⟨⟨hinv.graph, ?_, hinv.unfilled, fun i hi => hinv.pending i (List.mem_cons_of_mem n hi),
    fun r hr => ?_⟩, hkeeps⟩
  · rw [← hinv.size]
    exact Array.size_modify
  · obtain ⟨i, u⟩ := r
    by_cases hne : i = n
    · subst hne
      obtain rfl := place_unique h hr hq
      exact .inr (.inl ⟨by rw [shape?_setShape hsize, if_pos rfl], fun s hs => hkeeps s.1 (hmet s hs)⟩)
    · refine hinv.state hr hkeeps (by rw [shape?_setShape hsize, if_neg hne]) (fun _ hi => hi) fun hround => ?_
      exact (List.mem_cons.1 hround).resolve_left hne

/-- Filling a list meets its parts. -/
theorem Inv.fill_list {items : List Value} (h : Readable room v) (hinv : m.Inv v lo (n :: round)) (hlo : lo ≤ n + 1)
    (hq : (n, .list items) ∈ places 0 v) : ∃ m', m.fill n = .ok m' ∧ m'.Inv v lo round ∧ m.Keeps m' := by
  have hvertex : m.graph.vertex? n = some (vertex n (.list items)) := by
    rw [hinv.graph]
    exact vertex?_treeGraph h.tree hq
  have hparts : ∀ s ∈ slots (n + 1) items, s ∈ places 0 v ∧ lo ≤ s.1 := fun s hs =>
    ⟨(mem_places_of_part h.tree hq hs).1, Nat.le_trans hlo (of_mem_slots hs).2.1⟩
  obtain ⟨m', hfold, hinv', hkeeps, hmet⟩ := hinv.visitAll h hparts
  obtain ⟨hfinal, hkeeps'⟩ := hinv'.setShape h.tree hq hmet
  refine ⟨_, ?_, hfinal, hkeeps.trans hkeeps'⟩
  rw [Making.fill, hvertex]
  show (do return (← (numbers (n + 1) items).foldlM Making.visit m).setShape n (.list (numbers (n + 1) items))) = _
  rw [numbers, hfold]
  rfl

/-- Filling a mapping meets the keys and values of its entries, and these are all of its parts. -/
theorem Inv.fill_dict {es : List (Value × Value)} (h : Readable room v) (hinv : m.Inv v lo (n :: round))
    (hlo : lo ≤ n + 1) (hq : (n, .dict es) ∈ places 0 v) :
    ∃ m', m.fill n = .ok m' ∧ m'.Inv v lo round ∧ m.Keeps m' := by
  have hvertex : m.graph.vertex? n = some (vertex n (.dict es)) := by
    rw [hinv.graph]
    exact vertex?_treeGraph h.tree hq
  have hentries : m.graph.entries n = pairs (numbers (n + 1) (parts (.dict es))) := by
    rw [Graph.entries, Graph.content?, hvertex]
    rfl
  obtain ⟨m', hfold, hinv', hkeeps, hmet⟩ := hinv.visitEntries h fun e he => by
    obtain ⟨k, u, ⟨hkey, hkeyLo⟩, hvalue, hvalueLo⟩ := entry_of_mem_places h.tree hq he
    exact ⟨k, u, ⟨hkey, Nat.le_trans hlo hkeyLo⟩, hvalue, Nat.le_trans hlo hvalueLo⟩
  have hall : ∀ s ∈ slots (n + 1) (parts (.dict es)), m'.shape? s.1 ≠ none := by
    intro s hs
    have hmem : s.1 ∈ numbers (n + 1) (parts (.dict es)) := List.mem_map_of_mem hs
    rw [← flatMap_pairs, List.mem_flatMap] at hmem
    obtain ⟨e, he, hs⟩ := hmem
    rw [List.mem_cons, List.mem_singleton] at hs
    rcases hs with hs | hs
    · exact hs ▸ (hmet e he).1
    · exact hs ▸ (hmet e he).2
  obtain ⟨hfinal, hkeeps'⟩ := hinv'.setShape h.tree hq hall
  refine ⟨_, ?_, hfinal, hkeeps.trans hkeeps'⟩
  have hmerged : m.mergedEntries n = .ok (pairs (numbers (n + 1) (parts (.dict es))), m') := by
    have hgraph : m.graph.merged n = .ok m.graph := by
      rw [hinv.graph]
      exact merged_treeGraph h.tree hq
    rw [mergedEntries, hgraph]
    simp only [bind, Except.bind, hentries]
    rw [hfold]
    rfl
  rw [Making.fill, hvertex]
  dsimp only
  rw [hmerged]
  rfl

/-- Filling a collection of a tree succeeds and keeps the invariant. -/
theorem Inv.fill (h : Readable room v) (hinv : m.Inv v lo (n :: round)) :
    ∃ m', m.fill n = .ok m' ∧ m'.Inv v lo round ∧ m.Keeps m' := by
  obtain ⟨hlo, w, hq, ⟨items, rfl⟩ | ⟨es, rfl⟩⟩ := hinv.pending n List.mem_cons_self
  · exact hinv.fill_list h hlo hq
  · exact hinv.fill_dict h hlo hq

/-- A round fills every collection that it is to fill. -/
theorem Inv.fillRound (h : Readable room v) (hinv : m.Inv v lo round) :
    ∃ m', round.foldlM Making.fill m = .ok m' ∧ m'.Inv v lo [] ∧ m.Keeps m' := by
  induction round generalizing m with
  | nil => exact ⟨m, rfl, hinv, fun _ hi => hi⟩
  | cons n round ih =>
    obtain ⟨m', hfill, hinv', hkeeps⟩ := hinv.fill h
    obtain ⟨m'', hfold, hinv'', hkeeps'⟩ := ih hinv'
    refine ⟨m'', ?_, hinv'', hkeeps.trans hkeeps'⟩
    rw [List.foldlM_cons, hfill]
    exact hfold

/-- After all rounds no collection is to be filled. Each round leaves only greater numbers for the next. -/
theorem Inv.fillAll (h : Readable room v) (hinv : m.Inv v lo []) {fuel : Nat} (hfuel : count v ≤ lo + fuel) :
    ∃ m' lo', Making.fillAll fuel m = .ok m' ∧ m'.Inv v lo' [] ∧ m.Keeps m' ∧ m'.unfilled = [] := by
  induction fuel generalizing m lo with
  | zero =>
    refine ⟨m, lo, rfl, hinv, fun _ hi => hi, List.eq_nil_iff_forall_not_mem.2 fun i hi => ?_⟩
    obtain ⟨hlo, w, hw, -⟩ := hinv.unfilled i hi
    have hbound := (bounds_of_mem_places h.tree hw).2
    dsimp only at hbound
    omega
  | succ fuel ih =>
    by_cases hempty : m.unfilled.isEmpty = true
    · refine ⟨m, lo, ?_, hinv, fun _ hi => hi, List.isEmpty_iff.1 hempty⟩
      rw [Making.fillAll, if_pos hempty]
    · have hstart : Making.Inv v (lo + 1) m.unfilled.reverse { m with unfilled := [] } :=
        { graph := hinv.graph
          size := hinv.size
          unfilled := fun i hi => nomatch hi
          pending := fun i hi => by
            obtain ⟨hlo, hw⟩ := hinv.unfilled i (List.mem_reverse.1 hi)
            exact ⟨Nat.succ_le_succ hlo, hw⟩
          states := fun q hq => by
            rcases hinv.states q hq with hnone | hfilled | ⟨hshape, hwaiting⟩
            · exact .inl hnone
            · exact .inr (.inl ⟨hfilled.shape, hfilled.met⟩)
            · exact .inr (.inr ⟨hshape, .inr (List.mem_reverse.2 (hwaiting.resolve_right List.not_mem_nil))⟩) }
      obtain ⟨m', hfold, hinv', hkeeps⟩ := hstart.fillRound h
      obtain ⟨m'', lo', hrest, hinv'', hkeeps', hunfilled⟩ := ih hinv' (by omega)
      refine ⟨m'', lo', ?_, hinv'', fun i hi => hkeeps' i (hkeeps i hi), hunfilled⟩
      rw [Making.fillAll, if_neg hempty, hfold]
      exact hrest

end Making

namespace Layout

variable {v : Value} {room : Nat}

/-- Every number of a tree's graph comes to stand for its value. -/
theorem ofGraph_treeGraph (h : Readable room v) :
    ∃ ss, Shape.ofGraph (treeGraph v) = .ok ss ∧ ss.size = count v ∧
      ∀ q ∈ places 0 v, Shapes.shape? ss q.1 = some (shape q.1 q.2) := by
  have hsize := size_treeGraph h.tree
  have hempty : ∀ i, Making.shape? ⟨treeGraph v, Array.replicate (count v) none, []⟩ i = none := by
    intro i
    rw [Making.shape?, Array.getElem?_replicate]
    split <;> rfl
  have hstart : Making.Inv v 0 [] ⟨treeGraph v, Array.replicate (count v) none, []⟩ :=
    { graph := rfl
      size := Array.size_replicate
      unfilled := fun i hi => nomatch hi
      pending := fun i hi => nomatch hi
      states := fun q _ => .inl (hempty q.1) }
  obtain ⟨m, hvisit, hinv, -, hroot⟩ := hstart.visit h (self_mem_places 0 v) (Nat.zero_le 0)
  obtain ⟨m', lo, hfill, hinv', hkeeps, hunfilled⟩ := hinv.fillAll h
    (show count v ≤ 0 + (count v + 1) by omega)
  -- what was met is filled, since nothing is left to be filled
  have hfilled : ∀ q ∈ places 0 v, m'.shape? q.1 ≠ none → m'.Filled q := by
    intro q hq hmet
    rcases hinv'.states q hq with hnone | hfilled | ⟨-, hwaiting | hwaiting⟩
    · exact absurd hnone hmet
    · exact hfilled
    · rw [hunfilled] at hwaiting
      cases hwaiting
    · cases hwaiting
  -- the root was met, and with a value all of its parts
  have hmet : ∀ q ∈ places 0 v, m'.shape? q.1 ≠ none :=
    forall_mem_places (M := fun i => m'.shape? i ≠ none) h.tree (hkeeps 0 hroot) fun q hq hmet s hs =>
      (hfilled q hq hmet).met s hs
  refine ⟨m'.shapes, ?_, hinv'.size, fun q hq => (hfilled q hq (hmet q hq)).shape⟩
  rw [Shape.ofGraph, hsize]
  simp only [bind, Except.bind, hvisit, hfill]
  rfl

end Layout

end VirtNet.Yaml
