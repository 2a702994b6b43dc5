import VirtNet.Proofs.Value.Writable
import VirtNet.Proofs.Yaml.Ends

/-!
# Anchors leave the rest of a document as it is

Anchoring changes nothing but numbers: a value ends in a text only if it did so before
(`endsIn_of_place`), can be written if it could before (`hasText_place`), and stays the same where it has no
numbers (`anchored_of_tree`).
-/

namespace VirtNet

/-- Texts, truth values, whole numbers and null, in lists and mappings with text keys, nothing of it
numbered. -/
inductive Value.Tree : Value → Prop
  | null : Tree .null
  | bool (b : Bool) : Tree (.bool b)
  | int (n : Int) : Tree (.int n)
  | text (s : String) : Tree (.text s)
  | list {items : List Value} (h : ∀ v ∈ items, Tree v) : Tree (.list items)
  | dict {es : List (Value × Value)} (hkeys : ∀ e ∈ es, ∃ k, e.1 = .text k) (h : ∀ e ∈ es, Tree e.2) :
      Tree (.dict es)

namespace Yaml

open Anchor

variable {again written : List Nat} {s : String}

namespace Anchor

/-! ## Entries and items -/

/-- The last item comes from the last one. -/
theorem getLast?_placeAll {vs : List Value} {v : Value}
    (h : (placeAll again written vs).1.getLast? = some v) :
    ∃ u w, vs.getLast? = some u ∧ v = (place again w u).1 := by
  induction vs generalizing written with
  | nil => cases h
  | cons u us ih =>
    cases us with
    | nil =>
      obtain rfl := Option.some.inj h
      exact ⟨u, written, rfl, rfl⟩
    | cons u' us' => exact ih h

/-- The last entry comes from the last one. -/
theorem getLast?_placeEntries {es : List (Value × Value)} {e : Value × Value}
    (h : (placeEntries again written es).1.getLast? = some e) :
    ∃ f w w', es.getLast? = some f ∧ e = ((place again w f.1).1, (place again w' f.2).1) := by
  induction es generalizing written with
  | nil => cases h
  | cons f fs ih =>
    cases fs with
    | nil =>
      obtain rfl := Option.some.inj h
      exact ⟨f, _, _, rfl, rfl⟩
    | cons f' fs' => exact ih h

/-- What is placed among some values was one of them. -/
theorem mem_placeAll {vs : List Value} {v : Value} (h : v ∈ (placeAll again written vs).1) :
    ∃ u ∈ vs, ∃ w, v = (place again w u).1 := by
  induction vs generalizing written with
  | nil => cases h
  | cons u us ih =>
    rcases List.mem_cons.1 h with rfl | h
    · exact ⟨u, List.mem_cons_self, written, rfl⟩
    · obtain ⟨u', hu', hplaced⟩ := ih h
      exact ⟨u', List.mem_cons_of_mem _ hu', hplaced⟩

/-- What is placed among some entries was one of them. -/
theorem mem_placeEntries {es : List (Value × Value)} {e : Value × Value}
    (h : e ∈ (placeEntries again written es).1) :
    ∃ f ∈ es, ∃ w w', e = ((place again w f.1).1, (place again w' f.2).1) := by
  induction es generalizing written with
  | nil => cases h
  | cons f fs ih =>
    rcases List.mem_cons.1 h with rfl | h
    · exact ⟨f, List.mem_cons_self, _, _, rfl⟩
    · obtain ⟨f', hf', hplaced⟩ := ih h
      exact ⟨f', List.mem_cons_of_mem _ hf', hplaced⟩

/-! ## Values -/

/-- A value ends in a text only if it did so before it was placed. -/
theorem endsIn_of_place {v : Value} (h : EndsIn s (place again written v).1) : EndsIn s v := by
  induction v using Value.inductionOn generalizing written with
  | list items ih =>
    cases h with
    | list hlast h =>
      obtain ⟨u, w, hu, rfl⟩ := getLast?_placeAll hlast
      exact .list hu (ih u (List.mem_of_getLast? hu) h)
  | pair a b iha ihb =>
    cases h with
    | pair _ h => exact .pair a (ihb h)
  | set ms ih => cases h
  | dict es ih =>
    cases h with
    | dict hlast h =>
      obtain ⟨f, w, w', hf, rfl⟩ := getLast?_placeEntries hlast
      exact .dict hf ((ih f (List.mem_of_getLast? hf)).2 h)
  | numbered n v ih =>
    rw [place] at h
    refine .numbered n ?_
    split at h
    · cases h
    · exact h
    · cases h with
      | numbered _ h => exact ih h
    · exact ih h
  | again n => cases h
  | _ => exact h

/-- A value that can be written can still be written once it is placed. -/
theorem hasText_place {v : Value} (h : v.hasText = true) : (place again written v).1.hasText = true := by
  induction v using Value.inductionOn generalizing written with
  | list items ih | set items ih =>
    rw [Value.hasText, Value.allHaveText_eq_all, List.all_eq_true] at h
    show Value.allHaveText _ = true
    rw [Value.allHaveText_eq_all, List.all_eq_true]
    intro v hv
    obtain ⟨u, hu, w, rfl⟩ := mem_placeAll hv
    exact ih u hu (h u hu)
  | pair a b iha ihb =>
    rw [Value.hasText, Bool.and_eq_true] at h
    show (Value.hasText _ && Value.hasText _) = true
    rw [Bool.and_eq_true]
    exact ⟨iha h.1, ihb h.2⟩
  | dict es ih =>
    rw [Value.hasText, Value.entriesHaveText_eq_all, List.all_eq_true] at h
    show Value.entriesHaveText _ = true
    rw [Value.entriesHaveText_eq_all, List.all_eq_true]
    intro e he
    obtain ⟨f, hf, w, w', rfl⟩ := mem_placeEntries he
    obtain ⟨hkey, hvalue⟩ := (Bool.and_eq_true _ _).mp (h f hf)
    rw [Bool.and_eq_true]
    exact ⟨(ih f hf).1 hkey, (ih f hf).2 hvalue⟩
  | numbered n v ih =>
    rw [place]
    split
    · rfl
    · exact h
    · exact ih h
    · exact ih h
  | again n => rfl
  | _ => exact h

theorem placeAll_eq_self {vs : List Value} (h : ∀ v ∈ vs, place again written v = (v, written)) :
    placeAll again written vs = (vs, written) := by
  induction vs with
  | nil => rfl
  | cons v vs ih =>
    rw [List.forall_mem_cons] at h
    rw [placeAll, h.1]
    dsimp only
    rw [ih h.2]

theorem placeEntries_eq_self {es : List (Value × Value)} (hkeys : ∀ e ∈ es, ∃ key, e.1 = .text key)
    (h : ∀ e ∈ es, place again written e.2 = (e.2, written)) :
    placeEntries again written es = (es, written) := by
  induction es with
  | nil => rfl
  | cons e es ih =>
    rw [List.forall_mem_cons] at h hkeys
    obtain ⟨k, v⟩ := e
    obtain ⟨⟨key, hkey⟩, hkeys⟩ := hkeys
    have hk : place again written k = (k, written) := by
      rw [show k = .text key from hkey]
      rfl
    rw [placeEntries, hk]
    dsimp only
    rw [show place again written v = (v, written) from h.1]
    dsimp only
    rw [ih hkeys h.2]

/-- A value without numbers is left as it is. -/
theorem place_of_tree {v : Value} (h : v.Tree) : place again written v = (v, written) := by
  induction h generalizing written with
  | null | bool | int | text => rfl
  | list h ih => rw [place, placeAll_eq_self fun v hv => ih v hv]
  | dict hkeys h ih => rw [place, placeEntries_eq_self hkeys fun e he => ih e he]

/-- A value without numbers has no anchors. -/
theorem anchored_of_tree {v : Value} (h : v.Tree) : anchored v = v := by
  rw [anchored, place_of_tree h]

/-- A document of writable values has a text. -/
theorem isSome_toYaml? {v : Value} (h : v.hasText = true) : (toYaml? v).isSome = true := by
  rw [toYaml?, anchored, if_pos (hasText_place h)]
  rfl

end Anchor

end Yaml

end VirtNet
