import VirtNet.Proofs.Value.Induction
import VirtNet.Value.Text

/-!
# Values that can be written

A value can be written when every whole number in it can. What is in such a value can be written too: its
parts, the value unfolded (`hasText_opened`), and what is found under a key (`hasText_lookup`).
-/

namespace VirtNet.Value

variable {v w : Value} {n : Nat}

theorem allHaveText_eq_all (vs : List Value) : allHaveText vs = vs.all hasText := by
  induction vs with
  | nil => rfl
  | cons v vs ih => rw [allHaveText, ih, List.all_cons]

theorem entriesHaveText_eq_all (es : List (Value × Value)) :
    entriesHaveText es = es.all fun e => e.1.hasText && e.2.hasText := by
  induction es with
  | nil => rfl
  | cons e es ih => rw [entriesHaveText, ih, List.all_cons]

theorem hasText_record (fields : List (String × Value)) :
    (record fields).hasText = fields.all fun f => f.2.hasText := by
  rw [record, hasText, entriesHaveText_eq_all, List.all_map]
  rfl

theorem hasText_list {items : List Value} :
    (list items).hasText = true ↔ ∀ v ∈ items, v.hasText = true := by
  rw [hasText, allHaveText_eq_all, List.all_eq_true]

theorem hasText_dict {entries : List (Value × Value)} :
    (dict entries).hasText = true ↔ ∀ e ∈ entries, e.1.hasText = true ∧ e.2.hasText = true := by
  simp only [hasText, entriesHaveText_eq_all, List.all_eq_true, Bool.and_eq_true]

/-- A value that can be written has a text. -/
theorem toText?_of_hasText (h : v.hasText = true) : v.toText? = some v.toText := if_pos h

/-! ## Values put into values -/

theorem replaceAll_eq_map (vs : List Value) : replaceAll n w vs = vs.map (replace n w) := by
  induction vs with
  | nil => rfl
  | cons v rest ih => rw [replaceAll, ih, List.map_cons]

theorem replaceEntries_eq_map (es : List (Value × Value)) :
    replaceEntries n w es = es.map fun e => (replace n w e.1, replace n w e.2) := by
  induction es with
  | nil => rfl
  | cons e rest ih => rw [replaceEntries, ih, List.map_cons]

/-- A value can still be written when another that can be written is put into it. -/
theorem hasText_replace (hw : w.hasText = true) (h : v.hasText = true) :
    (replace n w v).hasText = true := by
  induction v using inductionOn with
  | list items ih | set items ih =>
    rw [hasText, allHaveText_eq_all, List.all_eq_true] at h
    show allHaveText (replaceAll n w items) = true
    rw [allHaveText_eq_all, replaceAll_eq_map, List.all_map, List.all_eq_true]
    exact fun v hv => ih v hv (h v hv)
  | pair a b iha ihb =>
    rw [hasText, Bool.and_eq_true] at h
    show (hasText _ && hasText _) = true
    rw [Bool.and_eq_true]
    exact ⟨iha h.1, ihb h.2⟩
  | dict entries ih =>
    rw [hasText_dict] at h
    show (dict (replaceEntries n w entries)).hasText = true
    rw [hasText_dict, replaceEntries_eq_map, List.forall_mem_map]
    exact fun e he => ⟨(ih e he).1 (h e he).1, (ih e he).2 (h e he).2⟩
  | numbered m v ih =>
    show (if m = n then v else replace n w v).hasText = true
    split
    · exact h
    · exact ih h
  | again m =>
    show (if m = n then w else again m).hasText = true
    split
    · exact hw
    · rfl
  | _ => exact h

/-- A value that can be written can be written when it is unfolded. -/
theorem hasText_opened (h : v.hasText = true) : v.opened.hasText = true := by
  cases v with
  | numbered n v => exact hasText_replace h h
  | _ => exact h

/-! ## Entries -/

variable {key : String} {fields : List (Value × Value)}

/-- What is found under a key is the value of an entry. -/
theorem mem_of_lookup_eq_some (h : lookup key fields = some v) : ∃ k, (k, v) ∈ fields := by
  induction fields with
  | nil => cases h
  | cons e rest ih =>
    rw [lookup] at h
    split at h
    · obtain rfl := Option.some.inj h
      exact ⟨e.1, List.mem_cons_self⟩
    · obtain ⟨k, hk⟩ := ih h
      exact ⟨k, List.mem_cons_of_mem _ hk⟩

/-- What is found under a key of a mapping that can be written can be written. -/
theorem hasText_lookup (h : (dict fields).hasText = true) (hv : lookup key fields = some v) :
    v.hasText = true := by
  obtain ⟨k, hk⟩ := mem_of_lookup_eq_some hv
  exact (hasText_dict.1 h (k, v) hk).2

/-- So can what stands for it where nothing is found. -/
theorem hasText_lookup_getD (key : String) (h : (dict fields).hasText = true) (hw : w.hasText = true) :
    ((lookup key fields).getD w).hasText = true := by
  cases hv : lookup key fields with
  | none => exact hw
  | some v => exact hasText_lookup h hv

/-- What is found under a key and is not null is what is found there. -/
theorem lookup_of_lookupSome (h : lookupSome key fields = some v) : lookup key fields = some v := by
  unfold lookupSome at h
  split at h
  · cases h
  · cases h
  · next hv => rwa [h] at hv

end VirtNet.Value
