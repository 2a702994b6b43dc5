/-!
# Maps in order of insertion

A map from texts whose entries stay in the order in which their keys first came. Each key occurs once,
by the field `nodup`. The main statements say what `insert` and `erase` do to the keys and to lookup.
-/

namespace VirtNet

/-- A map from texts to `α`, in order of insertion. -/
structure OrderedMap (α : Type) where
  /-- The keys with their values, in order. -/
  entries : List (String × α)
  /-- No key occurs twice. -/
  nodup : (entries.map Prod.fst).Nodup

namespace OrderedMap

variable {α : Type}

/-- Two maps with the same entries in the same order are equal. -/
@[ext]
theorem ext {m n : OrderedMap α} (h : m.entries = n.entries) : m = n := by
  cases m; cases n; cases h; rfl

instance [DecidableEq α] : DecidableEq (OrderedMap α) := fun m n =>
  if h : m.entries = n.entries then isTrue (ext h) else isFalse fun e => h (e ▸ rfl)

/-- The map without entries. -/
def empty : OrderedMap α := ⟨[], List.nodup_nil⟩

instance : Inhabited (OrderedMap α) := ⟨empty⟩

/-- The keys in order. -/
def keys (m : OrderedMap α) : List String := m.entries.map Prod.fst

/-- The values in order. -/
def values (m : OrderedMap α) : List α := m.entries.map Prod.snd

/-- The value of a key in a list of entries. -/
def lookupIn (key : String) : List (String × α) → Option α
  | [] => none
  | (k, v) :: rest => if k = key then some v else lookupIn key rest

/-- The value of a key. -/
def get? (m : OrderedMap α) (key : String) : Option α := lookupIn key m.entries

/-- Sets the value of a key in a list of entries: in place if the key is there, else at the end. -/
def insertIn (key : String) (value : α) : List (String × α) → List (String × α)
  | [] => [(key, value)]
  | (k, v) :: rest => if k = key then (key, value) :: rest else (k, v) :: insertIn key value rest

/-- The keys after `insertIn`: unchanged if the key was there, else with the key at the end. -/
theorem map_fst_insertIn (key : String) (value : α) (es : List (String × α)) :
    (insertIn key value es).map Prod.fst =
      if key ∈ es.map Prod.fst then es.map Prod.fst else es.map Prod.fst ++ [key] := by
  induction es with
  | nil => simp [insertIn]
  | cons e rest ih =>
    obtain ⟨k, v⟩ := e
    by_cases h : k = key
    · simp [insertIn, h]
    · have h' : ¬ key = k := fun e => h e.symm
      simp only [insertIn, h, if_false, List.map_cons, ih, List.mem_cons, h', false_or]
      split <;> simp

/-- Sets the value of a key. A new key goes to the end, a known one keeps its place. -/
def insert (m : OrderedMap α) (key : String) (value : α) : OrderedMap α where
  entries := insertIn key value m.entries
  nodup := by
    rw [map_fst_insertIn]
    split
    · exact m.nodup
    · next h =>
      refine List.nodup_append.2 ⟨m.nodup, by simp, ?_⟩
      intro a ha b hb
      rw [List.mem_singleton.1 hb]
      rintro rfl
      exact h ha

/-- Removes a key. -/
def erase (m : OrderedMap α) (key : String) : OrderedMap α where
  entries := m.entries.filter fun e => e.1 ≠ key
  nodup := m.nodup.sublist (List.filter_sublist.map Prod.fst)

/-- The map that arises from inserting entries one after the other. -/
def ofList (es : List (String × α)) : OrderedMap α := es.foldl (fun m e => m.insert e.1 e.2) empty

/-- Replaces the value of a key that is there. -/
def modify (m : OrderedMap α) (key : String) (f : α → α) : OrderedMap α :=
  match m.get? key with
  | some v => m.insert key (f v)
  | none => m

/-- Whether two maps have the same entries, in whichever order. -/
def sameEntries [DecidableEq α] (m n : OrderedMap α) : Bool :=
  m.entries.length == n.entries.length && m.entries.all fun e => n.get? e.1 = some e.2

/-- The keys after an insertion. -/
theorem keys_insert (m : OrderedMap α) (key : String) (value : α) :
    (m.insert key value).keys = if key ∈ m.keys then m.keys else m.keys ++ [key] :=
  map_fst_insertIn key value m.entries

/-- The keys after an erasure. -/
theorem keys_erase (m : OrderedMap α) (key : String) :
    (m.erase key).keys = m.keys.filter (· ≠ key) := by
  simp [keys, erase, List.filter_map, Function.comp_def]

/-- Lookup after `insertIn`. -/
theorem lookupIn_insertIn (key key' : String) (value : α) (es : List (String × α)) :
    lookupIn key' (insertIn key value es) = if key = key' then some value else lookupIn key' es := by
  induction es with
  | nil => simp [insertIn, lookupIn]
  | cons e rest ih =>
    obtain ⟨k, v⟩ := e
    by_cases h : k = key
    · subst h
      by_cases h' : k = key' <;> simp [insertIn, lookupIn, h']
    · by_cases h' : k = key'
      · subst h'
        simp [insertIn, lookupIn, h, Ne.symm h]
      · simp [insertIn, lookupIn, h, h', ih]

/-- Lookup after an insertion. -/
theorem get?_insert (m : OrderedMap α) (key key' : String) (value : α) :
    (m.insert key value).get? key' = if key = key' then some value else m.get? key' :=
  lookupIn_insertIn key key' value m.entries

/-- What a lookup finds is an entry. -/
theorem mem_of_get? {m : OrderedMap α} {key : String} {value : α} (h : m.get? key = some value) :
    (key, value) ∈ m.entries := by
  obtain ⟨es, _⟩ := m
  simp only [get?] at h
  induction es with
  | nil => simp [lookupIn] at h
  | cons e rest ih =>
    obtain ⟨k, v⟩ := e
    by_cases hk : k = key
    · simp only [lookupIn, hk, if_true, Option.some.injEq] at h
      simp [hk, h]
    · simp only [lookupIn, hk, if_false] at h
      have hn : (rest.map Prod.fst).Nodup := by
        next hd => exact (List.nodup_cons.1 hd).2
      exact List.mem_cons_of_mem _ (ih hn h)

end OrderedMap

end VirtNet
