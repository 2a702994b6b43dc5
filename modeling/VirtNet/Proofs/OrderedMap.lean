import Mathlib.Data.List.Nodup
import VirtNet.OrderedMap

/-!
# What the operations of an ordered map do

An ordered map is read in two ways: by lookup (`get?`) and as the list of its entries. The lemmas say
what each operation does to either reading, so that no later proof opens `insertIn` or `lookupIn`. The
two readings agree (`get?_eq_some_iff`), and a list without repeated keys is a map as it stands
(`entries_ofList`).
-/

namespace VirtNet.OrderedMap

variable {α β : Type}

@[simp]
theorem entries_empty : (empty : OrderedMap α).entries = [] := rfl

/-- An entry of a list without repeated keys is what a lookup finds there. -/
theorem lookupIn_of_mem {key : String} {value : α} {es : List (String × α)}
    (hn : (es.map Prod.fst).Nodup) (h : (key, value) ∈ es) : lookupIn key es = some value := by
  induction es with
  | nil => simp at h
  | cons e rest ih =>
    obtain ⟨k, v⟩ := e
    rw [List.map_cons, List.nodup_cons] at hn
    rcases List.mem_cons.1 h with he | hm
    · simp only [Prod.mk.injEq] at he
      simp [lookupIn, he.1, he.2]
    · have hk : k ≠ key := by
        rintro rfl
        exact hn.1 (List.mem_map.2 ⟨_, hm, rfl⟩)
      simp only [lookupIn, hk, if_false]
      exact ih hn.2 hm

/-- Lookup goes through the entries in their order. -/
@[simp]
theorem lookupIn_append (key : String) (es fs : List (String × α)) :
    lookupIn key (es ++ fs) = (lookupIn key es).or (lookupIn key fs) := by
  induction es with
  | nil => simp [lookupIn]
  | cons e rest ih =>
    obtain ⟨k, v⟩ := e
    rw [List.cons_append, lookupIn, lookupIn]
    split
    · rfl
    · exact ih

/-- Lookup finds exactly the entries. -/
theorem get?_eq_some_iff {m : OrderedMap α} {key : String} {value : α} :
    m.get? key = some value ↔ (key, value) ∈ m.entries :=
  ⟨mem_of_get?, lookupIn_of_mem m.nodup⟩

/-- Lookup finds something under exactly the keys. -/
theorem isSome_get?_iff {m : OrderedMap α} {key : String} :
    (m.get? key).isSome ↔ key ∈ m.keys := by
  simp only [Option.isSome_iff_exists, get?_eq_some_iff, keys, List.mem_map, Prod.exists,
    exists_and_right, exists_eq_right]

/-! ## Insertion -/

/-- The entries after `insertIn` with a new key: the new entry comes last. -/
theorem insertIn_of_not_mem {key : String} {value : α} {es : List (String × α)}
    (h : key ∉ es.map Prod.fst) : insertIn key value es = es ++ [(key, value)] := by
  induction es with
  | nil => rfl
  | cons e rest ih =>
    obtain ⟨k, v⟩ := e
    simp only [List.map_cons, List.mem_cons, not_or] at h
    simp [insertIn, Ne.symm h.1, ih h.2]

/-- A new key goes to the end. -/
theorem entries_insert_of_not_mem {m : OrderedMap α} {key : String} {value : α}
    (h : key ∉ m.keys) : (m.insert key value).entries = m.entries ++ [(key, value)] :=
  insertIn_of_not_mem h

/-- The entries after an insertion are the new one and old ones under other keys. -/
theorem mem_entries_insert {m : OrderedMap α} {key : String} {value : α} {e : String × α} :
    e ∈ (m.insert key value).entries ↔ e = (key, value) ∨ e.1 ≠ key ∧ e ∈ m.entries := by
  obtain ⟨k, v⟩ := e
  rw [← get?_eq_some_iff, ← get?_eq_some_iff, get?_insert]
  by_cases h : key = k
  · subst h
    simp [eq_comm]
  · simp [h, Ne.symm h]

/-- Lookup of the key that was inserted. -/
@[simp]
theorem get?_insert_self (m : OrderedMap α) (key : String) (value : α) :
    (m.insert key value).get? key = some value := by
  simp [get?_insert]

/-- Lookup of another key than the one that was inserted. -/
theorem get?_insert_of_ne {m : OrderedMap α} {key key' : String} {value : α} (h : key ≠ key') :
    (m.insert key value).get? key' = m.get? key' := by
  simp [get?_insert, h]

/-- A key that is not there yet takes no other's place. -/
theorem get?_insert_of_new {m : OrderedMap α} {key key' : String} {value u : α} (hnew : m.get? key = none)
    (h : m.get? key' = some u) : (m.insert key value).get? key' = some u := by
  have hne : key ≠ key' := by
    rintro rfl
    rw [hnew] at h
    cases h
  rw [get?_insert_of_ne hne, h]

/-- Setting a key of a list of entries to the value that is there changes nothing. -/
theorem insertIn_of_lookupIn {key : String} {value : α} {es : List (String × α)}
    (h : lookupIn key es = some value) : insertIn key value es = es := by
  induction es with
  | nil => cases h
  | cons e rest ih =>
    obtain ⟨k, v⟩ := e
    unfold lookupIn at h
    unfold insertIn
    split at h
    · next hk =>
      cases h
      rw [if_pos hk, hk]
    · next hk => rw [if_neg hk, ih h]

/-- Inserting what is there already changes nothing. -/
theorem insert_of_get? {m : OrderedMap α} {key : String} {value : α} (h : m.get? key = some value) :
    m.insert key value = m :=
  ext (insertIn_of_lookupIn h)

/-! ## Removal and replacement -/

/-- The entries after an erasure are those under other keys. -/
theorem mem_entries_erase {m : OrderedMap α} {key : String} {e : String × α} :
    e ∈ (m.erase key).entries ↔ e.1 ≠ key ∧ e ∈ m.entries := by
  simp [erase, and_comm]

/-- Lookup after an erasure. -/
theorem get?_erase (m : OrderedMap α) (key key' : String) :
    (m.erase key).get? key' = if key = key' then none else m.get? key' := by
  ext value
  rw [get?_eq_some_iff, mem_entries_erase]
  by_cases h : key = key'
  · simp [h]
  · simp [h, Ne.symm h, get?_eq_some_iff]

/-- Erasing a key that is not there changes nothing. -/
theorem erase_of_not_mem {m : OrderedMap α} {key : String} (h : key ∉ m.keys) : m.erase key = m := by
  apply ext
  have hother : ∀ e ∈ m.entries, decide (e.1 ≠ key) = true := by
    intro e he
    rw [decide_eq_true_eq]
    rintro rfl
    exact h (List.mem_map_of_mem he)
  exact List.filter_eq_self.2 hother

/-- Two keys can be erased in either order. -/
theorem erase_comm (m : OrderedMap α) (key key' : String) :
    (m.erase key).erase key' = (m.erase key').erase key := by
  apply ext
  simp only [erase, List.filter_filter, Bool.and_comm]

/-- What was inserted under a key is erased with it. -/
theorem erase_insert_self (m : OrderedMap α) (key : String) (value : α) :
    (m.insert key value).erase key = m.erase key := by
  apply ext
  show (insertIn key value m.entries).filter _ = m.entries.filter _
  induction m.entries with
  | nil => simp [insertIn]
  | cons e rest ih =>
    obtain ⟨k, v⟩ := e
    by_cases h : k = key
    · simp [insertIn, h]
    · rw [insertIn, if_neg h, List.filter_cons, List.filter_cons, ih]

/-- An insertion and the erasure of another key can be made in either order. -/
theorem erase_insert_of_ne {m : OrderedMap α} {key key' : String} {value : α} (h : key ≠ key') :
    (m.insert key value).erase key' = (m.erase key').insert key value := by
  apply ext
  show (insertIn key value m.entries).filter _ = insertIn key value (m.entries.filter _)
  induction m.entries with
  | nil => simp [insertIn, h]
  | cons e rest ih =>
    obtain ⟨k, v⟩ := e
    by_cases hk : k = key
    · subst hk
      simp [insertIn, h]
    · by_cases hk' : k = key'
      · subst hk'
        simpa [insertIn, hk] using ih
      · simpa [insertIn, hk, hk'] using ih

/-- Lookup after a replacement. -/
theorem get?_modify (m : OrderedMap α) (key key' : String) (f : α → α) :
    (m.modify key f).get? key' = if key = key' then (m.get? key').map f else m.get? key' := by
  unfold modify
  by_cases h : key = key'
  · subst h
    cases hv : m.get? key <;> simp [hv]
  · cases hv : m.get? key <;> simp [h, get?_insert]

/-- A replacement keeps the keys and their order. -/
@[simp]
theorem keys_modify (m : OrderedMap α) (key : String) (f : α → α) :
    (m.modify key f).keys = m.keys := by
  unfold modify
  cases hv : m.get? key with
  | none => rfl
  | some v =>
    have hmem : key ∈ m.keys := isSome_get?_iff.1 (by simp [hv])
    simp [keys_insert, hmem]

/-! ## Maps from lists -/

/-- Inserting new and different keys one after the other appends their entries. -/
theorem entries_foldl_insert {es : List (String × α)} {m : OrderedMap α}
    (hn : (es.map Prod.fst).Nodup) (hd : ∀ e ∈ es, e.1 ∉ m.keys) :
    (es.foldl (fun m e => m.insert e.1 e.2) m).entries = m.entries ++ es := by
  induction es generalizing m with
  | nil => simp
  | cons e rest ih =>
    rw [List.map_cons, List.nodup_cons] at hn
    have he : e.1 ∉ m.keys := hd e List.mem_cons_self
    have hrest : ∀ e' ∈ rest, e'.1 ∉ (m.insert e.1 e.2).keys := by
      intro e' he'
      rw [keys_insert, if_neg he, List.mem_append, List.mem_singleton, not_or]
      refine ⟨hd e' (List.mem_cons_of_mem _ he'), ?_⟩
      intro heq
      exact hn.1 (heq ▸ List.mem_map_of_mem he')
    rw [List.foldl_cons, ih hn.2 hrest, entries_insert_of_not_mem he, List.append_assoc]
    rfl

/-- The entries of a map from a list are among the list. -/
theorem mem_of_mem_ofList {es : List (String × α)} {e : String × α} (h : e ∈ (ofList es).entries) :
    e ∈ es := by
  refine List.foldlRecOn es (fun (m : OrderedMap α) e => m.insert e.1 e.2)
    (motive := fun m => ∀ e ∈ m.entries, e ∈ es) (List.forall_mem_nil _) ?_ e h
  intro m hm e' he' e he
  rcases mem_entries_insert.1 he with heq | ⟨-, hold⟩
  · exact heq ▸ he'
  · exact hm e hold

/-- A list without repeated keys is the list of entries of its map. -/
theorem entries_ofList {es : List (String × α)} (hn : (es.map Prod.fst).Nodup) :
    (ofList es).entries = es := by
  rw [ofList, entries_foldl_insert hn (by simp [keys]), entries_empty, List.nil_append]

/-- Lookup in the map of a list without repeated keys. -/
theorem get?_ofList {es : List (String × α)} (hn : (es.map Prod.fst).Nodup) {key : String}
    {value : α} : (ofList es).get? key = some value ↔ (key, value) ∈ es := by
  rw [get?_eq_some_iff, entries_ofList hn]

/-- Lookup in the map of a list without repeated keys does not depend on the order of the list. -/
theorem get?_ofList_perm {es es' : List (String × α)} (h : es.Perm es')
    (hn : (es.map Prod.fst).Nodup) (key : String) : (ofList es').get? key = (ofList es).get? key := by
  have hn' : (es'.map Prod.fst).Nodup := (h.map Prod.fst).nodup_iff.1 hn
  ext value
  rw [get?_ofList hn', get?_ofList hn, h.mem_iff]

end VirtNet.OrderedMap
