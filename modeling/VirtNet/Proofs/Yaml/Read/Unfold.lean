import Mathlib.Data.List.Perm.Basic
import VirtNet.Proofs.Design.Record
import VirtNet.Proofs.Yaml.Read.Shapes

/-!
# A tree from its shapes

In a tree nothing occurs twice (`areShared_eq_false`), so nothing is numbered, and the shapes unfold to the
tree itself (`rootValue_eq`).
-/

namespace VirtNet.Yaml

namespace Layout

variable {v w : Value} {vs : List Value} {es : List (Value × Value)} {i m n room : Nat}

/-! ## Occurrences -/

/-- The numbers that occur as parts, in some places. -/
def occurring (qs : List (Nat × Value)) : List Nat := qs.flatMap fun q => numbers (q.1 + 1) (parts q.2)

/-- Of values one after the other, where every number in each but its first occurs once, every number occurs
once. -/
theorem occurring_placesAll_perm
    (h : ∀ w ∈ vs, ∀ n, (occurring (places n w)).Perm (List.range' (n + 1) (count w - 1))) (m : Nat) :
    (numbers m vs ++ occurring (placesAll m vs)).Perm (List.range' m (countAll vs)) := by
  induction vs generalizing m with
  | nil => exact .refl _
  | cons w ws ih =>
    rw [List.forall_mem_cons] at h
    have hfirst : (m :: occurring (places m w)).Perm (List.range' m (count w)) := by
      obtain ⟨k, hk⟩ := Nat.exists_eq_add_of_le' (one_le_count w)
      have hw := h.1 m
      rw [hk] at hw ⊢
      exact hw.cons m
    have hsplit : numbers m (w :: ws) ++ occurring (placesAll m (w :: ws)) =
        m :: (numbers (m + count w) ws ++
          (occurring (places m w) ++ occurring (placesAll (m + count w) ws))) := by
      simp [numbers, slots, placesAll, occurring]
    rw [hsplit, countAll, ← List.range'_append_1]
    exact .trans (.cons m (List.perm_append_comm_assoc _ _ _)) (hfirst.append (ih h.2 (m + count w)))

/-- Every number of a tree but the first occurs once as a part. -/
theorem occurring_perm (h : v.Tree) (n : Nat) :
    (occurring (places n v)).Perm (List.range' (n + 1) (count v - 1)) := by
  refine ofParts h (P := fun v => ∀ n, (occurring (places n v)).Perm (List.range' (n + 1) (count v - 1))) ?_ n
  intro v _ ih n
  have hhead : occurring (places n v) = numbers (n + 1) (parts v) ++ occurring (placesAll (n + 1) (parts v)) := by
    rw [places_eq]
    rfl
  rw [hhead, count_eq]
  exact occurring_placesAll_perm (fun w hw => (ih w hw).2) (n + 1)

/-- No number of a tree occurs twice as a part, and the first one does not occur. -/
theorem count_occurring (h : v.Tree) (i : Nat) :
    (occurring (places 0 v)).count i + (if i = 0 then 1 else 0) ≤ 1 := by
  have hperm := occurring_perm h 0
  have hnodup : (occurring (places 0 v)).Nodup := hperm.nodup_iff.2 List.nodup_range'
  have hcount := List.nodup_iff_count_le_one.1 hnodup i
  split
  · next hi =>
    have hnot : i ∉ occurring (places 0 v) := by
      rw [hperm.mem_iff, List.mem_range'_1]
      omega
    rw [List.count_eq_zero.2 hnot]
  · exact hcount

/-- Counting occurrences. -/
theorem getElem?_foldl_modify (ns : List Nat) (counts : Array Nat) (i : Nat) :
    (ns.foldl (fun counts n => counts.modify n (· + 1)) counts)[i]? = counts[i]?.map (· + ns.count i) := by
  induction ns generalizing counts with
  | nil => simp
  | cons n ns ih =>
    rw [List.foldl_cons, ih, Array.getElem?_modify, List.count_cons]
    by_cases hn : n = i
    · simp only [hn, if_true, beq_self_eq_true, Option.map_map]
      congr 1
      funext k
      dsimp only [Function.comp]
      omega
    · simp [hn]

/-- The shapes of a tree, by number. -/
structure Stands (ss : Shapes) (v : Value) : Prop where
  size : ss.size = count v
  shape : ∀ q ∈ places 0 v, ss.shape? q.1 = some (shape q.1 q.2)

theorem Stands.toList {ss : Shapes} (h : v.Tree) (hss : Stands ss v) :
    ss.toList = (places 0 v).map fun q => some (Layout.shape q.1 q.2) := by
  refine List.ext_getElem? fun i => ?_
  rw [List.getElem?_map, Array.getElem?_toList]
  by_cases hi : i < count v
  · obtain ⟨w, hw⟩ := exists_mem_places h (Nat.zero_le i) (by omega : i < 0 + count v)
    have hplace : (places 0 v)[i]? = some (i, w) := getElem?_places h hw
    have hshape := hss.shape _ hw
    have hsome : i < ss.size := by rw [hss.size]; exact hi
    rw [Shapes.shape?, Array.getElem?_eq_getElem hsome] at hshape
    rw [hplace, Array.getElem?_eq_getElem hsome]
    exact congrArg some hshape
  · have hnone : (places 0 v)[i]? = none := by
      rw [List.getElem?_eq_none_iff, length_places h]
      omega
    rw [hnone, Array.getElem?_eq_none]
    · rfl
    · rw [hss.size]
      omega

/-- Counting the parts of shapes counts the numbers that occur in their places. -/
theorem foldl_occurrences {qs : List (Nat × Value)} (hqs : ∀ q ∈ qs, q.2.Tree) (counts : Array Nat) :
    (qs.map fun q => some (Layout.shape q.1 q.2)).foldl (fun counts s =>
        (s.elim [] Shape.parts).foldl (fun counts n => counts.modify n (· + 1)) counts) counts =
      (occurring qs).foldl (fun counts n => counts.modify n (· + 1)) counts := by
  induction qs generalizing counts with
  | nil => rfl
  | cons q qs ih =>
    rw [List.forall_mem_cons] at hqs
    have hsplit : occurring (q :: qs) = (Layout.shape q.1 q.2).parts ++ occurring qs := by
      rw [parts_shape q.1 hqs.1]
      rfl
    rw [List.map_cons, List.foldl_cons, ih hqs.2, hsplit, List.foldl_append]
    rfl

/-- How often the numbers of a tree occur. -/
theorem occurrences_eq {ss : Shapes} (h : v.Tree) (hss : Stands ss v) : ss.occurrences =
    (occurring (places 0 v)).foldl (fun counts n => counts.modify n (· + 1))
      ((Array.replicate ss.size 0).modify 0 (· + 1)) := by
  rw [Shapes.occurrences, ← Array.foldl_toList, hss.toList h]
  exact foldl_occurrences (fun q hq => tree_of_mem_places h hq) _

/-- In a tree nothing is shared. -/
theorem areShared_eq_false {ss : Shapes} (h : v.Tree) (hss : Stands ss v) : ss.areShared = false := by
  rw [Bool.eq_false_iff]
  intro hany
  obtain ⟨i, hi, hshared⟩ := Array.any_eq_true.1 hany
  rw [Array.size_zip] at hi
  rw [Array.getElem_zip, Bool.and_eq_true, decide_eq_true_eq] at hshared
  have hinitial : ((Array.replicate ss.size 0).modify 0 (· + 1))[i]? = some (if i = 0 then 1 else 0) := by
    have hsize : i < ss.size := by omega
    rw [Array.getElem?_modify, Array.getElem?_replicate, if_pos hsize]
    by_cases hzero : i = 0
    · rw [if_pos hzero.symm, if_pos hzero]
      rfl
    · rw [if_neg (Ne.symm hzero), if_neg hzero]
  have hcounts : ss.occurrences[i]? = some ((if i = 0 then 1 else 0) + (occurring (places 0 v)).count i) := by
    rw [occurrences_eq h hss, getElem?_foldl_modify, hinitial]
    rfl
  have hcount := count_occurring h i
  obtain ⟨hlt, heq⟩ := Array.getElem?_eq_some_iff.1 hcounts
  omega

/-! ## Unfolding -/

/-- The numbers from `n` on stand for nothing yet. -/
def Fresh (closed : Shapes.Closed) (n : Nat) : Prop := ∀ i, n ≤ i → closed[i]?.join = none

/-- The shapes of some places. -/
def Shaped (ss : Shapes) (qs : List (Nat × Value)) : Prop := ∀ q ∈ qs, ss.shape? q.1 = some (shape q.1 q.2)

/-- A value is unfolded to itself, and the numbers behind it still stand for nothing. -/
def Unfolds (ss : Shapes) (v : Value) : Prop :=
  ∀ fuel around n closed, Shaped ss (places n v) → count v ≤ fuel → (∀ a ∈ around, a < n) → Fresh closed n →
    ∃ closed', Fresh closed' (n + count v) ∧
      Shapes.unfold ss false fuel around n closed = (⟨v, around.length⟩, closed')

/-- Values that stand one after the other are unfolded one after the other. -/
theorem mapM_unfold {ss : Shapes} {fuel : Nat} {around : List Nat} (h : ∀ w ∈ vs, Unfolds ss w) (m : Nat)
    (closed : Shapes.Closed) (hshaped : Shaped ss (placesAll m vs)) (hfuel : countAll vs ≤ fuel)
    (haround : ∀ a ∈ around, a < m) (hfresh : Fresh closed m) :
    ∃ closed', Fresh closed' (m + countAll vs) ∧ (numbers m vs).mapM (Shapes.unfold ss false fuel around) closed =
      (vs.map fun w => ⟨w, around.length⟩, closed') := by
  induction vs generalizing m closed with
  | nil => exact ⟨closed, hfresh, rfl⟩
  | cons w ws ih =>
    rw [List.forall_mem_cons] at h
    rw [countAll] at hfuel
    obtain ⟨closed₁, hfresh₁, hfirst⟩ := h.1 fuel around m closed
      (fun q hq => hshaped q (List.mem_append_left _ hq)) (by omega) haround hfresh
    obtain ⟨closed₂, hfresh₂, hrest⟩ := ih h.2 (m + count w) closed₁
      (fun q hq => hshaped q (List.mem_append_right _ hq)) (by omega)
      (fun a ha => by have := haround a ha; omega) hfresh₁
    refine ⟨closed₂, by rwa [countAll, ← Nat.add_assoc], ?_⟩
    have hnumbers : numbers m (w :: ws) = m :: numbers (m + count w) ws := rfl
    rw [hnumbers, List.mapM_cons]
    simp only [bind, StateT.bind, hfirst, hrest]
    rfl

/-- Parts that go back to nothing around them leave the least depth as it is. -/
theorem foldl_least (vs : List Value) (depth : Nat) :
    (vs.map fun w => (⟨w, depth + 1⟩ : Shapes.Unfolded)).foldl (fun least p => min least p.least) depth =
      depth := by
  induction vs with
  | nil => rfl
  | cons w ws ih => rw [List.map_cons, List.foldl_cons, Nat.min_eq_left (Nat.le_succ depth), ih]

/-- One shape that is met for the first time is unfolded from its parts. -/
theorem unfold_shape {ss : Shapes} {fuel : Nat} {around : List Nat} {closed closed' : Shapes.Closed} {s : Shape}
    (hclosed : closed[n]?.join = none) (haround : n ∉ around) (hshape : ss.shape? n = some s)
    (hparts : s.parts.mapM (Shapes.unfold ss false fuel (n :: around)) closed =
      (vs.map fun w => ⟨w, around.length + 1⟩, closed')) :
    Shapes.unfold ss false (fuel + 1) around n closed = (⟨Shapes.assemble s vs, around.length⟩,
      closed'.modify n fun _ => some (Shapes.assemble s vs)) := by
  have hidx : around.idxOf? n = none := List.idxOf?_eq_none_iff.2 haround
  have hvalues : (vs.map fun w => (⟨w, around.length + 1⟩ : Shapes.Unfolded)).map Shapes.Unfolded.value = vs := by
    rw [List.map_map]
    exact List.map_id vs
  simp only [Shapes.unfold, bind, StateT.bind, get, getThe, MonadStateOf.get, StateT.get, pure, hclosed, hidx,
    hshape, hparts, hvalues, foldl_least]
  rfl

theorem couples_parts (es : List (Value × Value)) : Shapes.assemble.couples (parts (.dict es)) = es := by
  induction es with
  | nil => rfl
  | cons e es ih => exact congrArg (List.cons e) ih

/-- Entries whose keys are texts. -/
theorem exists_record (h : ∀ e ∈ es, ∃ k, e.1 = Value.text k) :
    ∃ fs : List (String × Value), es = fs.map fun e => (.text e.1, e.2) := by
  induction es with
  | nil => exact ⟨[], rfl⟩
  | cons e es ih =>
    rw [List.forall_mem_cons] at h
    obtain ⟨k, hk⟩ := h.1
    obtain ⟨fs, hfs⟩ := ih h.2
    exact ⟨(k, e.2) :: fs, by rw [List.map_cons, ← hfs, ← hk]⟩

/-- A readable value is assembled from its parts. -/
theorem assemble_shape (h : Readable room v) (n : Nat) : Shapes.assemble (shape n v) (parts v) = v := by
  cases h with
  | @dict _ es hkeys hdistinct _ =>
    obtain ⟨fs, rfl⟩ := exists_record fun e he => (hkeys e he).imp fun _ hk => hk.1
    rw [List.map_map] at hdistinct
    have hnodup : (fs.map Prod.fst).Nodup := by
      refine .of_map Value.text ?_
      rw [List.map_map]
      exact hdistinct
    rw [shape, Shapes.assemble, couples_parts, Value.inserted_record hnodup]
  | _ => rfl

/-- Every readable value is unfolded to itself. -/
theorem unfolds {ss : Shapes} (h : Readable room v) : Unfolds ss v := by
  refine ofParts h.tree (P := fun v => ∀ room, Readable room v → Unfolds ss v) ?_ room h
  intro v hv ih room h fuel around n closed hshaped hfuel haround hfresh
  have hcount := count_eq v
  obtain ⟨fuel, rfl⟩ : ∃ k, fuel = k + 1 := Nat.exists_eq_add_of_le' (by omega)
  have hparts : ∀ w ∈ parts v, Unfolds ss w := fun w hw =>
    let ⟨room', h'⟩ := readable_of_mem_parts h hw
    (ih w hw).2 room' h'
  rw [Shaped, places_eq, List.forall_mem_cons] at hshaped
  have hall : ∀ a ∈ n :: around, a < n + 1 := by
    rw [List.forall_mem_cons]
    exact ⟨Nat.lt_succ_self n, fun a ha => Nat.lt_succ_of_lt (haround a ha)⟩
  have hroom : countAll (parts v) ≤ fuel := by omega
  obtain ⟨closed', hfresh', hmap⟩ := mapM_unfold hparts (n + 1) closed hshaped.2 hroom hall
    fun i hi => hfresh i (by omega)
  have hmet : n ∉ around := fun hn => Nat.lt_irrefl n (haround n hn)
  rw [← parts_shape n hv] at hmap
  have hunfold := unfold_shape (hfresh n (Nat.le_refl n)) hmet hshaped.1 hmap
  rw [assemble_shape h] at hunfold
  refine ⟨closed'.modify n fun _ => some v, fun i hi => ?_, hunfold⟩
  rw [Array.getElem?_modify, if_neg (by omega)]
  exact hfresh' i (by omega)

/-- The shapes of a readable value unfold to it. -/
theorem rootValue_eq {ss : Shapes} (h : Readable room v) (hss : Stands ss v) : ss.rootValue = v := by
  have hfresh : Fresh (Array.replicate ss.size none) 0 := by
    intro i _
    rw [Array.getElem?_replicate]
    split <;> rfl
  obtain ⟨closed', -, hunfold⟩ := unfolds h (ss.size + 1) [] 0 _ hss.shape
    (by rw [hss.size]; exact Nat.le_succ _) (fun a ha => nomatch ha) hfresh
  rw [Shapes.rootValue, areShared_eq_false h.tree hss, hunfold]

end Layout

end VirtNet.Yaml
