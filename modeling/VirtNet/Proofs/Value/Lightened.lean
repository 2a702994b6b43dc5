import VirtNet.Proofs.Value.Writable

/-!
# Mappings without some of their null entries

A mapping is lightened by leaving out entries that are null. As long as the keys of the mapping are
different, nothing is then found under a key that was left out, and what is found under any other key is
what was kept of it (`Lightened.lookup_or`). So whoever takes null for nothing reads the same
(`Lightened.lookupSome_eq`).
-/

namespace VirtNet.Value

variable {k v : Value} {key : String} {es es' : List (Value × Value)}

/-! ## Keys -/

/-- A key is the same as a text when it is the text, with or without a number. -/
theorem sameKey_text_iff : k.sameKey (.text key) = true ↔ k.bare = .text key := by
  have htext : (Value.text key).bare = .text key := rfl
  unfold sameKey
  rw [htext]
  cases k.bare <;> simp

/-- The keys of a mapping are different. -/
def DistinctKeys (es : List (Value × Value)) : Prop := es.Pairwise fun a b => a.1.sameKey b.1 = false

/-- Nothing is found under a text that is no key. -/
theorem lookup_eq_none (h : ∀ e ∈ es, e.1.sameKey (.text key) = false) : lookup key es = none := by
  induction es with
  | nil => rfl
  | cons e rest ih =>
    rw [List.forall_mem_cons] at h
    rw [lookup, h.1]
    exact ih h.2

/-- If the first key is a text, no other key is. -/
theorem DistinctKeys.sameKey_eq_false (h : DistinctKeys ((k, v) :: es)) (hk : k.sameKey (.text key) = true) :
    ∀ e ∈ es, e.1.sameKey (.text key) = false := by
  intro e he
  have hfalse : k.sameKey e.1 = false := (List.pairwise_cons.1 h).1 e he
  cases hsame : e.1.sameKey (.text key) with
  | false => rfl
  | true =>
    rw [sameKey_text_iff] at hk hsame
    simp [sameKey, hk, hsame] at hfalse

/-- A key is one of some texts. -/
def IsAmong (keys : List String) (k : Value) : Prop := ∃ key ∈ keys, k.sameKey (.text key) = true

/-- A key that is one of some texts is no other text. -/
theorem IsAmong.mem {keys : List String} (h : IsAmong keys k) (hk : k.sameKey (.text key) = true) :
    key ∈ keys := by
  obtain ⟨key', hmem, hk'⟩ := h
  rw [sameKey_text_iff] at hk hk'
  cases hk.symm.trans hk'
  exact hmem

/-! ## Lightened mappings -/

variable {drops : Value → Prop} {keeps : Value → Value → Value → Prop}

/-- The entries `es'` are the entries `es` without some that are null, whose keys `drops` allows. The others
keep their keys and their order, with values that `keeps` allows. -/
inductive Lightened (drops : Value → Prop) (keeps : Value → Value → Value → Prop) :
    List (Value × Value) → List (Value × Value) → Prop
  | nil : Lightened drops keeps [] []
  | keep {k v v' : Value} {es es' : List (Value × Value)} (h : keeps k v v')
      (rest : Lightened drops keeps es es') : Lightened drops keeps ((k, v) :: es) ((k, v') :: es')
  | drop {k : Value} {es es' : List (Value × Value)} (h : drops k)
      (rest : Lightened drops keeps es es') : Lightened drops keeps ((k, .null) :: es) es'

/-- A mapping of which nothing is left out. -/
theorem Lightened.refl (hkeeps : ∀ k v, keeps k v v) (es : List (Value × Value)) :
    Lightened drops keeps es es := by
  induction es with
  | nil => exact .nil
  | cons e rest ih => exact .keep (hkeeps e.1 e.2) ih

/-- No key is new. -/
theorem Lightened.exists_key (h : Lightened drops keeps es es') : ∀ e' ∈ es', ∃ e ∈ es, e.1 = e'.1 := by
  induction h with
  | nil => exact List.forall_mem_nil _
  | keep _ _ ih =>
    refine List.forall_mem_cons.2 ⟨⟨_, List.mem_cons_self, rfl⟩, fun e' he' => ?_⟩
    obtain ⟨e, he, hkey⟩ := ih e' he'
    exact ⟨e, List.mem_cons_of_mem _ he, hkey⟩
  | drop _ _ ih =>
    intro e' he'
    obtain ⟨e, he, hkey⟩ := ih e' he'
    exact ⟨e, List.mem_cons_of_mem _ he, hkey⟩

/-- Under a text there was null and is nothing, or there is what was kept of what was there. -/
theorem Lightened.lookup_or (h : Lightened drops keeps es es') (hdistinct : DistinctKeys es)
    (key : String) :
    (lookup key es = some .null ∧ lookup key es' = none ∧ ∃ k, k.sameKey (.text key) = true ∧ drops k) ∨
      Option.Rel (fun v v' => ∃ k, k.sameKey (.text key) = true ∧ keeps k v v') (lookup key es)
        (lookup key es') := by
  induction h with
  | nil => exact .inr .none
  | @keep k v v' es es' hkeep _ ih =>
    rw [lookup, lookup]
    by_cases hk : k.sameKey (.text key) = true
    · rw [if_pos hk, if_pos hk]
      exact .inr (.some ⟨k, hk, hkeep⟩)
    · rw [if_neg hk, if_neg hk]
      exact ih (List.pairwise_cons.1 hdistinct).2
  | @drop k es es' hdrop hrest ih =>
    rw [lookup]
    by_cases hk : k.sameKey (.text key) = true
    · rw [if_pos hk]
      -- keys are distinct, so nothing else is under the text
      refine .inl ⟨rfl, lookup_eq_none fun e' he' => ?_, k, hk, hdrop⟩
      obtain ⟨e, he, hkey⟩ := hrest.exists_key e' he'
      rw [← hkey]
      exact hdistinct.sameKey_eq_false hk e he
    · rw [if_neg hk]
      exact ih (List.pairwise_cons.1 hdistinct).2

/-- What is kept is found again, if nothing but itself is kept of a value. -/
theorem eq_of_rel {R : Value → Value → Prop} {x y : Option Value} (h : Option.Rel R x y)
    (hR : ∀ v v', R v v' → v = v') : y = x := by
  cases h with
  | some hkept => rw [hR _ _ hkept]
  | none => rfl

/-- What is found under a text stays, if it is not null or not to be left out. -/
theorem Lightened.lookup_eq (h : Lightened drops keeps es es') (hdistinct : DistinctKeys es)
    (hdrops : lookup key es = some .null → ∀ k, k.sameKey (.text key) = true → ¬ drops k)
    (hkeeps : ∀ k v v', k.sameKey (.text key) = true → keeps k v v' → v = v') :
    lookup key es' = lookup key es := by
  rcases h.lookup_or hdistinct key with ⟨hnull, -, k, hk, hdrop⟩ | hrel
  · exact absurd hdrop (hdrops hnull k hk)
  · exact eq_of_rel hrel fun v v' ⟨k, hk, hkeep⟩ => hkeeps k v v' hk hkeep

/-- A lookup that takes null for nothing finds the same. -/
theorem Lightened.lookupSome_eq (h : Lightened drops keeps es es') (hdistinct : DistinctKeys es)
    (hkeeps : ∀ k v v', k.sameKey (.text key) = true → keeps k v v' → v = v') :
    lookupSome key es' = lookupSome key es := by
  unfold lookupSome
  rcases h.lookup_or hdistinct key with ⟨hnull, hnone, -⟩ | hrel
  · rw [hnull, hnone]
  · rw [eq_of_rel hrel fun v v' ⟨k, hk, hkeep⟩ => hkeeps k v v' hk hkeep]

/-! ## Mappings that keep the values -/

/-- If no entry is null, none is left out. -/
theorem Lightened.eq_of_not_null (h : Lightened drops (fun _ v v' => v = v') es es')
    (hnull : ∀ e ∈ es, e.2 ≠ .null) : es' = es := by
  induction h with
  | nil => rfl
  | keep hkeep _ ih => rw [hkeep, ih (List.forall_mem_cons.1 hnull).2]
  | drop _ _ _ => exact absurd rfl (List.forall_mem_cons.1 hnull).1

/-- Nothing is new. -/
theorem Lightened.subset (h : Lightened drops (fun _ v v' => v = v') es es') : es' ⊆ es := by
  induction h with
  | nil => exact List.nil_subset _
  | keep hkeep _ ih =>
    subst hkeep
    exact List.cons_subset_cons _ ih
  | drop _ _ ih => exact List.subset_cons_of_subset _ ih

/-- What is not null stays. -/
theorem Lightened.mem_of_ne_null (h : Lightened drops (fun _ v v' => v = v') es es')
    {e : Value × Value} (he : e ∈ es) (hnull : e.2 ≠ .null) : e ∈ es' := by
  induction h with
  | nil => cases he
  | keep hkeep _ ih =>
    subst hkeep
    rcases List.mem_cons.1 he with rfl | he
    · exact List.mem_cons_self
    · exact List.mem_cons_of_mem _ (ih he)
  | drop _ _ ih =>
    rcases List.mem_cons.1 he with rfl | he
    · exact absurd rfl hnull
    · exact ih he

/-- If the keys that are gone can be written, leaving them out makes no difference to whether a mapping can
be. -/
theorem Lightened.hasText_eq (h : Lightened drops (fun _ v v' => v = v') es es')
    (hgone : ∀ k, (k, .null) ∈ es → (k, .null) ∉ es' → k.hasText = true) :
    (dict es').hasText = (dict es).hasText := by
  rw [Bool.eq_iff_iff, hasText_dict, hasText_dict]
  constructor
  · intro htext e he
    by_cases hkept : e ∈ es'
    · exact htext e hkept
    · obtain ⟨k, v⟩ := e
      obtain rfl : v = .null :=
        Classical.byContradiction fun hnull => hkept (h.mem_of_ne_null he hnull)
      exact ⟨hgone k he hkept, rfl⟩
  · exact fun htext e he => htext e (h.subset he)

/-! ## Unfolded mappings -/

/-- A value that unfolds to a mapping counts as true unless the mapping is empty. -/
theorem truthy_of_opened (h : v.opened = .dict es) : v.truthy = !es.isEmpty := by
  cases v with
  | dict entries =>
    cases h
    rfl
  | numbered n w =>
    cases w with
    | dict entries =>
      obtain rfl := Value.dict.inj h
      cases entries <;> rfl
    | again m =>
      have hagain : (if m = n then numbered n (again m) else again m) = .dict es := h
      split at hagain <;> cases hagain
    | _ => cases h
  | _ => cases h

end VirtNet.Value
