import VirtNet.Proofs.Yaml.Read.Tokens
import VirtNet.Yaml.Node

/-!
# Tokens as nodes

The tokens of a readable value are parsed as its node, whatever follows them (`parsed`), and so are those
of its document (`ofTokens_tokens`).
-/

namespace VirtNet.Yaml

mutual

/-- The node of a value. -/
def node : Value → Node
  | .text s => .scalar .text s.toList
  | .list items => .list .list (nodes items)
  | .dict es => .dict .dict (nodeEntries es)
  | v => .scalar (Tag.ofPlain (plainForm v)) (plainForm v)

/-- The nodes of some values. -/
def nodes : List Value → List Node
  | [] => []
  | v :: vs => node v :: nodes vs

/-- The nodes of some entries. -/
def nodeEntries : List (Value × Value) → List (Node × Node)
  | [] => []
  | (k, v) :: es => (node k, node v) :: nodeEntries es

end

namespace Node

variable {handles : Handles} {place : Place} {fuel : Nat} {rest : List Token} {anchors : List (List Char × Nat)}

/-! ## Nodes by their first token -/

theorem read_scalar (plain : Bool) (text : List Char) :
    read handles (fuel + 2) place ⟨.scalar plain text :: rest, anchors⟩ =
      .ok (ofScalar none plain text, ⟨rest, anchors⟩) := by
  rfl

theorem read_emptyList :
    read handles (fuel + 3) place ⟨.openList :: .closeList :: rest, anchors⟩ =
      .ok (.list .list [], ⟨rest, anchors⟩) := by
  rfl

theorem read_emptyDict :
    read handles (fuel + 3) place ⟨.openDict :: .closeDict :: rest, anchors⟩ =
      .ok (.dict .dict [], ⟨rest, anchors⟩) := by
  rfl

/-- A list in block style. -/
theorem read_blockList (hplace : place.block = true) {ns : List Node} {s : Source}
    (h : blockItems handles fuel ⟨rest, anchors⟩ = .ok (ns, s)) :
    read handles (fuel + 2) place ⟨.blockList :: rest, anchors⟩ = .ok (.list .list ns, s) := by
  obtain ⟨block, flat⟩ := place
  obtain rfl : block = true := hplace
  rw [read]
  show (content handles (fuel + 1) {} .blockList ⟨.blockList :: rest, anchors⟩).bind _ = _
  rw [content]
  show ((blockItems handles fuel ⟨rest, anchors⟩).map _).bind _ = _
  rw [h]
  rfl

/-- A mapping in block style. -/
theorem read_blockDict (hplace : place.block = true) {es : List (Node × Node)} {s : Source}
    (h : blockEntries handles fuel ⟨rest, anchors⟩ = .ok (es, s)) :
    read handles (fuel + 2) place ⟨.blockDict :: rest, anchors⟩ = .ok (.dict .dict es, s) := by
  obtain ⟨block, flat⟩ := place
  obtain rfl : block = true := hplace
  rw [read]
  show (content handles (fuel + 1) {} .blockDict ⟨.blockDict :: rest, anchors⟩).bind _ = _
  rw [content]
  show ((blockEntries handles fuel ⟨rest, anchors⟩).map _).bind _ = _
  rw [h]
  rfl

/-- A list that has the column of its key. -/
theorem read_flatList {ns : List Node} {s : Source}
    (h : flatItems handles fuel ⟨.item :: rest, anchors⟩ = .ok (ns, s)) :
    read handles (fuel + 2) .entry ⟨.item :: rest, anchors⟩ = .ok (.list .list ns, s) := by
  rw [read]
  show (content handles (fuel + 1) {} .flatList ⟨.item :: rest, anchors⟩).bind _ = _
  rw [content]
  show ((flatItems handles fuel ⟨.item :: rest, anchors⟩).map _).bind _ = _
  rw [h]
  rfl

/-! ## Parts -/

/-- A token that starts a node: it can be looked at, it ends no entry, and it stands in a document. -/
structure Starter (t : Token) : Prop where
  peek : ∀ rest anchors, (⟨t :: rest, anchors⟩ : Source).peek = .ok t
  inside : inBlock t = false
  content : startsDocument t = false

/-- Where a node starts it is read. -/
theorem readUnless_of_starter {t : Token} {ends : Token → Bool} (ht : Starter t) (hends : ends t = false) :
    readUnless handles (fuel + 1) ends place ⟨t :: rest, anchors⟩ =
      read handles fuel place ⟨t :: rest, anchors⟩ := by
  rw [readUnless, ht.peek]
  show (if ends t = true then _ else _) = _
  rw [hends]
  rfl

/-- An item of a list in block style. -/
theorem blockItems_item {n : Node} {ns : List Node} {s s' : Source}
    (hitem : readUnless handles fuel endsItem .item ⟨rest, anchors⟩ = .ok (n, s))
    (hitems : blockItems handles fuel s = .ok (ns, s')) :
    blockItems handles (fuel + 1) ⟨.item :: rest, anchors⟩ = .ok (n :: ns, s') := by
  rw [blockItems]
  show (readUnless handles fuel endsItem .item ⟨rest, anchors⟩).bind _ = _
  rw [hitem]
  show (blockItems handles fuel s).bind _ = _
  rw [hitems]
  rfl

theorem blockItems_end :
    blockItems handles (fuel + 1) ⟨.blockEnd :: rest, anchors⟩ = .ok ([], ⟨rest, anchors⟩) := by
  rfl

/-- An item of a list that has the column of its key. -/
theorem flatItems_item {n : Node} {ns : List Node} {s s' : Source}
    (hitem : readUnless handles fuel endsFlatItem .item ⟨rest, anchors⟩ = .ok (n, s))
    (hitems : flatItems handles fuel s = .ok (ns, s')) :
    flatItems handles (fuel + 1) ⟨.item :: rest, anchors⟩ = .ok (n :: ns, s') := by
  rw [flatItems]
  show (readUnless handles fuel endsFlatItem .item ⟨rest, anchors⟩).bind _ = _
  rw [hitem]
  show (flatItems handles fuel s).bind _ = _
  rw [hitems]
  rfl

/-- The items end before a key and at the end of the block around them. -/
theorem flatItems_end {t : Token} (ht : inBlock t = true) :
    flatItems handles (fuel + 1) ⟨t :: rest, anchors⟩ = .ok ([], ⟨t :: rest, anchors⟩) := by
  cases t <;> first | rfl | cases ht

/-- An entry of a mapping in block style. -/
theorem blockEntries_entry {k v : Node} {es : List (Node × Node)} {s s' s'' : Source}
    (hkey : readUnless handles fuel inBlock .entry ⟨rest, anchors⟩ = .ok (k, s))
    (hvalue : readValue handles fuel inBlock .entry s = .ok (v, s'))
    (hentries : blockEntries handles fuel s' = .ok (es, s'')) :
    blockEntries handles (fuel + 1) ⟨.key :: rest, anchors⟩ = .ok ((k, v) :: es, s'') := by
  rw [blockEntries]
  show (readUnless handles fuel inBlock .entry ⟨rest, anchors⟩).bind _ = _
  rw [hkey]
  show (readValue handles fuel inBlock .entry s).bind _ = _
  rw [hvalue]
  show (blockEntries handles fuel s').bind _ = _
  rw [hentries]
  rfl

theorem blockEntries_end :
    blockEntries handles (fuel + 1) ⟨.blockEnd :: rest, anchors⟩ = .ok ([], ⟨rest, anchors⟩) := by
  rfl

theorem readValue_value {ends : Token → Bool} :
    readValue handles (fuel + 1) ends place ⟨.value :: rest, anchors⟩ =
      readUnless handles fuel ends place ⟨rest, anchors⟩ := by
  rfl

end Node

open Node

variable {handles : Handles} {place : Place} {fuel : Nat} {rest : List Token} {anchors : List (List Char × Nat)}

/-! ## Values -/

/-- The tokens of a value start a node; those of a value that is not flat are no item. -/
theorem tokens_eq_cons {v : Value} (h : v.Tree) (flat : Bool) :
    ∃ t ts, tokens flat v = t :: ts ∧ Starter t ∧ (flat = false → t ≠ .item) := by
  cases h with
  | @list items h =>
    cases items with
    | nil => exact ⟨.openList, _, rfl, ⟨fun _ _ => rfl, rfl, rfl⟩, fun _ => by decide⟩
    | cons w ws =>
      cases flat with
      | true => exact ⟨.item, _, rfl, ⟨fun _ _ => rfl, rfl, rfl⟩, fun h => nomatch h⟩
      | false => exact ⟨.blockList, _, rfl, ⟨fun _ _ => rfl, rfl, rfl⟩, fun _ => by decide⟩
  | @dict es hkeys h =>
    cases es with
    | nil => exact ⟨.openDict, _, rfl, ⟨fun _ _ => rfl, rfl, rfl⟩, fun _ => by decide⟩
    | cons e es => exact ⟨.blockDict, _, rfl, ⟨fun _ _ => rfl, rfl, rfl⟩, fun _ => by decide⟩
  | _ => exact ⟨.scalar _ _, [], rfl, ⟨fun _ _ => rfl, rfl, rfl⟩, fun _ => by simp⟩

/-- The tokens of a value are parsed as its node, whatever follows them: behind a flat list a key, or the
end of the block that the list stands in. -/
structure Parsed (v : Value) : Prop where
  read : ∀ {flat : Bool} {handles : Handles} {place : Place} {fuel : Nat} {rest : List Token}
    {anchors : List (List Char × Nat)}, place.block = true →
    (flat = true → place = .entry ∧ ∃ t ts, rest = t :: ts ∧ inBlock t = true) →
    4 * (tokens flat v).length ≤ fuel →
    Node.read handles fuel place ⟨tokens flat v ++ rest, anchors⟩ = .ok (node v, ⟨rest, anchors⟩)

/-- A value is read where it may be absent. -/
theorem Parsed.readUnless {v : Value} {flat : Bool} {ends : Token → Bool} (h : Parsed v) (htree : v.Tree)
    (hends : ∀ t, inBlock t = false → (flat = false → t ≠ .item) → ends t = false) (hplace : place.block = true)
    (hflat : flat = true → place = .entry ∧ ∃ t ts, rest = t :: ts ∧ inBlock t = true)
    (hfuel : 4 * (tokens flat v).length < fuel) :
    Node.readUnless handles fuel ends place ⟨tokens flat v ++ rest, anchors⟩ = .ok (node v, ⟨rest, anchors⟩) := by
  obtain ⟨fuel, rfl⟩ := Nat.exists_eq_add_of_le' (show 1 ≤ fuel by omega)
  have hread := @Parsed.read v h flat handles place fuel rest anchors hplace hflat (by omega)
  obtain ⟨t, ts, htokens, ht, hitem⟩ := tokens_eq_cons htree flat
  rw [htokens, List.cons_append] at hread ⊢
  rw [readUnless_of_starter ht (hends t ht.inside hitem), hread]

theorem endsItem_of_inBlock {t : Token} (h : inBlock t = false) (hitem : t ≠ .item) : endsItem t = false := by
  rw [endsItem.eq_def]
  cases t <;> first | rfl | exact absurd rfl hitem | cases h

theorem endsFlatItem_of_inBlock {t : Token} (h : inBlock t = false) (hitem : t ≠ .item) :
    endsFlatItem t = false := by
  rw [endsFlatItem, h, Bool.or_false, beq_eq_false_iff_ne]
  exact hitem

/-- The items of a list in block style. -/
theorem blockItems_itemTokens {vs : List Value} (h : ∀ v ∈ vs, v.Tree ∧ Parsed v)
    (hfuel : 4 * (itemTokens vs).length ≤ fuel + 2) (hpos : 1 ≤ fuel) :
    blockItems handles fuel ⟨itemTokens vs ++ .blockEnd :: rest, anchors⟩ = .ok (nodes vs, ⟨rest, anchors⟩) := by
  induction vs generalizing fuel with
  | nil =>
    obtain ⟨fuel, rfl⟩ := Nat.exists_eq_add_of_le' hpos
    exact blockItems_end
  | cons v vs ih =>
    rw [List.forall_mem_cons] at h
    rw [itemTokens, List.length_cons, List.length_append] at hfuel
    obtain ⟨fuel, rfl⟩ := Nat.exists_eq_add_of_le' hpos
    rw [itemTokens, List.cons_append, List.append_assoc]
    refine blockItems_item ?_ (ih h.2 (by omega) (by omega))
    exact h.1.2.readUnless h.1.1 (fun t ht hitem => endsItem_of_inBlock ht (hitem rfl)) rfl
      (fun h => (Bool.false_ne_true h).elim) (by omega)

/-- The items of a list that has the column of its key. -/
theorem flatItems_itemTokens {vs : List Value} {t : Token} (h : ∀ v ∈ vs, v.Tree ∧ Parsed v)
    (ht : inBlock t = true) (hfuel : 4 * (itemTokens vs).length ≤ fuel + 2) (hpos : 1 ≤ fuel) :
    flatItems handles fuel ⟨itemTokens vs ++ t :: rest, anchors⟩ = .ok (nodes vs, ⟨t :: rest, anchors⟩) := by
  induction vs generalizing fuel with
  | nil =>
    obtain ⟨fuel, rfl⟩ := Nat.exists_eq_add_of_le' hpos
    exact flatItems_end ht
  | cons v vs ih =>
    rw [List.forall_mem_cons] at h
    rw [itemTokens, List.length_cons, List.length_append] at hfuel
    obtain ⟨fuel, rfl⟩ := Nat.exists_eq_add_of_le' hpos
    rw [itemTokens, List.cons_append, List.append_assoc]
    refine flatItems_item ?_ (ih h.2 (by omega) (by omega))
    exact h.1.2.readUnless h.1.1 (fun t ht hitem => endsFlatItem_of_inBlock ht (hitem rfl)) rfl
      (fun h => (Bool.false_ne_true h).elim) (by omega)

/-- The entries of a mapping in block style. -/
theorem blockEntries_entryTokens {es : List (Value × Value)}
    (h : ∀ e ∈ es, (e.1.Tree ∧ Parsed e.1) ∧ e.2.Tree ∧ Parsed e.2)
    (hfuel : 4 * (entryTokens es).length ≤ fuel + 2) (hpos : 1 ≤ fuel) :
    blockEntries handles fuel ⟨entryTokens es ++ .blockEnd :: rest, anchors⟩ =
      .ok (nodeEntries es, ⟨rest, anchors⟩) := by
  induction es generalizing fuel with
  | nil =>
    obtain ⟨fuel, rfl⟩ := Nat.exists_eq_add_of_le' hpos
    exact blockEntries_end
  | cons e es ih =>
    obtain ⟨k, v⟩ := e
    rw [List.forall_mem_cons] at h
    obtain ⟨⟨⟨hktree, hk⟩, htree, hv⟩, hes⟩ := h
    rw [entryTokens, List.length_cons, List.length_append, List.length_cons, List.length_append] at hfuel
    obtain ⟨fuel, rfl⟩ := Nat.exists_eq_add_of_le' (show 2 ≤ fuel by omega)
    rw [entryTokens, List.cons_append, List.append_assoc, List.cons_append, List.append_assoc]
    have hinside : ∀ flat t, inBlock t = false → (flat = false → t ≠ .item) → inBlock t = false :=
      fun _ _ ht _ => ht
    have hkey := @Parsed.readUnless handles .entry (fuel + 1)
      (.value :: (tokens (simpleKey? k).isSome v ++ (entryTokens es ++ .blockEnd :: rest))) anchors k false inBlock
      hk hktree (hinside false) rfl (fun h => (Bool.false_ne_true h).elim) (by omega)
    refine blockEntries_entry hkey ?_ (ih hes (by omega) (by omega))
    have hv : Parsed v := hv
    rw [readValue_value]
    refine hv.readUnless htree (hinside _) rfl (fun _ => ⟨rfl, ?_⟩) (by omega)
    -- a key or the end of the block comes next
    cases es with
    | nil => exact ⟨.blockEnd, rest, rfl, rfl⟩
    | cons e es => exact ⟨.key, _, rfl, rfl⟩

/-- A scalar is one token, flat or not. -/
theorem Parsed.of_scalar {v : Value} {plain : Bool} {text : List Char}
    (htokens : ∀ flat, tokens flat v = [.scalar plain text]) (hnode : node v = ofScalar none plain text) :
    Parsed v where
  read {flat handles place fuel rest anchors} _ _ hfuel := by
    rw [htokens, List.length_singleton] at hfuel
    obtain ⟨fuel, rfl⟩ := Nat.exists_eq_add_of_le' (show 2 ≤ fuel by omega)
    rw [htokens, hnode]
    exact read_scalar plain text

theorem parsed_text (s : String) : Parsed (.text s) := by
  refine .of_scalar (fun _ => rfl) ?_
  cases hs : style s.toList with
  | plain => simp [node, ofScalar, (of_style_plain hs).2.2]
  | single | double | literal => rfl

theorem parsed_emptyList : Parsed (.list []) where
  read {_ _ _ fuel _ _} _ _ hfuel := by
    have hlength : 3 ≤ fuel := Nat.le_trans (show 3 ≤ 4 * 2 by decide) hfuel
    obtain ⟨fuel, rfl⟩ := Nat.exists_eq_add_of_le' hlength
    exact read_emptyList

theorem parsed_emptyDict : Parsed (.dict []) where
  read {_ _ _ fuel _ _} _ _ hfuel := by
    have hlength : 3 ≤ fuel := Nat.le_trans (show 3 ≤ 4 * 2 by decide) hfuel
    obtain ⟨fuel, rfl⟩ := Nat.exists_eq_add_of_le' hlength
    exact read_emptyDict

/-- A list is a block of its own, unless it has the column of its key. -/
theorem parsed_list {vs : List Value} (hne : vs ≠ []) (hvs : ∀ v ∈ vs, v.Tree ∧ Parsed v) : Parsed (.list vs) where
  read {flat handles place fuel rest anchors} hplace hflat hfuel := by
    obtain ⟨w, ws, rfl⟩ := List.exists_cons_of_ne_nil hne
    cases flat with
    | true =>
      obtain ⟨rfl, t, ts, rfl, ht⟩ := hflat rfl
      have hlength : 4 * (itemTokens (w :: ws)).length ≤ fuel := hfuel
      have hpos : 1 ≤ (itemTokens (w :: ws)).length := by simp [itemTokens]
      obtain ⟨fuel, rfl⟩ := Nat.exists_eq_add_of_le' (show 2 ≤ fuel by omega)
      exact read_flatList (flatItems_itemTokens hvs ht (by omega) (by omega))
    | false =>
      have htokens : tokens false (.list (w :: ws)) = .blockList :: (itemTokens (w :: ws) ++ [.blockEnd]) := rfl
      rw [htokens, List.length_cons, List.length_append, List.length_singleton] at hfuel
      obtain ⟨fuel, rfl⟩ := Nat.exists_eq_add_of_le' (show 2 ≤ fuel by omega)
      rw [htokens, List.cons_append, List.append_assoc, List.singleton_append]
      exact read_blockList hplace (blockItems_itemTokens hvs (by omega) (by omega))

theorem parsed_dict {es : List (Value × Value)} (hne : es ≠ [])
    (hes : ∀ e ∈ es, (e.1.Tree ∧ Parsed e.1) ∧ e.2.Tree ∧ Parsed e.2) : Parsed (.dict es) where
  read {flat handles place fuel rest anchors} hplace hflat hfuel := by
    obtain ⟨e, es, rfl⟩ := List.exists_cons_of_ne_nil hne
    have htokens : tokens flat (.dict (e :: es)) = .blockDict :: (entryTokens (e :: es) ++ [.blockEnd]) := rfl
    rw [htokens, List.length_cons, List.length_append, List.length_singleton] at hfuel
    obtain ⟨fuel, rfl⟩ := Nat.exists_eq_add_of_le' (show 2 ≤ fuel by omega)
    rw [htokens, List.cons_append, List.append_assoc, List.singleton_append]
    exact read_blockDict hplace (blockEntries_entryTokens hes (by omega) (by omega))

/-- The tokens of a readable value are parsed as its node. -/
theorem parsed {room : Nat} {v : Value} (h : Readable room v) : Parsed v := by
  induction h with
  | null | bool | int => exact .of_scalar (fun _ => rfl) rfl
  | text => exact parsed_text _
  | @list room items h ih =>
    by_cases hne : items = []
    · subst hne
      exact parsed_emptyList
    · exact parsed_list hne fun v hv => ⟨(h v hv).tree, ih v hv⟩
  | @dict room es hkeys hdistinct h ih =>
    by_cases hne : es = []
    · subst hne
      exact parsed_emptyDict
    · refine parsed_dict hne fun e he => ⟨?_, (h e he).tree, ih e he⟩
      obtain ⟨k, hk, -⟩ := hkeys e he
      rw [hk]
      exact ⟨.text k, parsed_text k⟩

/-! ## Documents -/

theorem onlyEnd_tailTokens (marked : Bool) : onlyEnd ⟨tailTokens marked, []⟩ = .ok () := by
  cases marked <;> rfl

/-- The tokens of a document are parsed as the node of its value. -/
theorem ofTokens_tokens {room : Nat} {v : Value} (h : Readable room v) (marked : Bool) :
    ofTokens (tokens false v ++ tailTokens marked) = .ok (some (node v)) := by
  have hread := @Parsed.read v (parsed h) false usualHandles .item (depthBound (tokens false v ++ tailTokens marked))
    (tailTokens marked) [] rfl (fun h => nomatch h) (by rw [depthBound, List.length_append]; omega)
  obtain ⟨t, ts, htokens, ht, -⟩ := tokens_eq_cons h.tree false
  rw [htokens, List.cons_append] at hread ⊢
  have hfinish : t ≠ .finish := by
    rintro rfl
    cases ht.content
  unfold ofTokens
  dsimp only
  simp only [ht.peek, bind, Except.bind, hfinish, if_false, ht.content, Bool.false_eq_true, Bool.false_and,
    pure, Except.pure, hread, onlyEnd_tailTokens]

end VirtNet.Yaml
