import VirtNet.Text.Split

/-!
# Fields of texts that were put together

A separator between two texts cuts them apart again (`fields_append_separator`), so the fields of a
text that was joined from fields are those fields (`fields_join`).
-/

namespace VirtNet.Text

variable {separator : Char}

/-- A text without separators is one field. -/
theorem fields_of_not_mem {cs : List Char} (h : separator ∉ cs) : fields separator cs = [cs] := by
  induction cs with
  | nil => rfl
  | cons c rest ih =>
    rw [List.mem_cons, not_or] at h
    rw [fields, if_neg (Ne.symm h.1), ih h.2]

/-- The fields of two texts with a separator between them are those of the one, then those of the
other. -/
theorem fields_append_separator (cs ds : List Char) :
    fields separator (cs ++ separator :: ds) = fields separator cs ++ fields separator ds := by
  induction cs with
  | nil => simp [fields]
  | cons c rest ih =>
    rw [List.cons_append, fields, fields, ih]
    split
    · rfl
    · cases hf : fields separator rest with
      | nil => exact absurd hf (fields_ne_nil separator rest)
      | cons f fs => rfl

/-- The fields of texts with a separator after each. -/
theorem fields_flatMap_append_separator (fs : List (List Char)) :
    fields separator (fs.flatMap (· ++ [separator])) = fs.flatMap (fields separator) ++ [[]] := by
  induction fs with
  | nil => rfl
  | cons f fs ih =>
    rw [List.flatMap_cons, List.append_assoc, List.singleton_append, fields_append_separator, ih,
      List.flatMap_cons, List.append_assoc]

/-- No field has a separator in it. -/
theorem not_mem_of_mem_fields {cs f : List Char} (h : f ∈ fields separator cs) : separator ∉ f := by
  induction cs generalizing f with
  | nil =>
    rw [List.mem_singleton.1 h]
    exact List.not_mem_nil
  | cons c rest ih =>
    rw [fields] at h
    split at h
    · rcases List.mem_cons.1 h with rfl | hrest
      · exact List.not_mem_nil
      · exact ih hrest
    · next hc =>
      cases hf : fields separator rest with
      | nil => exact absurd hf (fields_ne_nil separator rest)
      | cons g gs =>
        rw [hf] at h
        rcases List.mem_cons.1 h with rfl | hrest
        · have hg : separator ∉ g := ih (hf ▸ List.mem_cons_self)
          rw [List.mem_cons, not_or]
          exact ⟨Ne.symm hc, hg⟩
        · exact ih (hf ▸ List.mem_cons_of_mem _ hrest)

/-- The fields of a joined text are those of its parts, in order. -/
theorem fields_join_eq_flatMap {fs : List (List Char)} (hne : fs ≠ []) :
    fields separator (join [separator] fs) = fs.flatMap (fields separator) := by
  induction fs with
  | nil => exact absurd rfl hne
  | cons f fs ih =>
    cases fs with
    | nil => simp [join]
    | cons g gs =>
      have hjoin : join [separator] (f :: g :: gs) = f ++ separator :: join [separator] (g :: gs) := by
        simp [join]
      rw [hjoin, fields_append_separator, ih (by simp)]
      rfl

/-- The parts between separators are not cut further. -/
theorem flatMap_fields_of_not_mem {fs : List (List Char)} (h : ∀ f ∈ fs, separator ∉ f) :
    fs.flatMap (fields separator) = fs := by
  induction fs with
  | nil => rfl
  | cons f fs ih =>
    rw [List.flatMap_cons, fields_of_not_mem (h f List.mem_cons_self),
      ih fun g hg => h g (List.mem_cons_of_mem _ hg)]
    rfl

/-- The fields of a text that was joined from fields. -/
theorem fields_join {fs : List (List Char)} (hne : fs ≠ []) (h : ∀ f ∈ fs, separator ∉ f) :
    fields separator (join [separator] fs) = fs := by
  rw [fields_join_eq_flatMap hne, flatMap_fields_of_not_mem h]

/-- After its first part, a joined text has the separator before each. -/
theorem join_cons (between f : List Char) (fs : List (List Char)) :
    join between (f :: fs) = f ++ fs.flatMap (between ++ ·) := by
  induction fs generalizing f with
  | nil => rw [join, List.flatMap_nil, List.append_nil]
  | cons g gs ih => rw [join, ih g, List.flatMap_cons, List.append_assoc, List.append_assoc]

/-- A character of a joined text is one of the separator or of a part. -/
theorem mem_join {between : List Char} {fs : List (List Char)} {c : Char} (h : c ∈ join between fs) :
    c ∈ between ∨ ∃ f ∈ fs, c ∈ f := by
  cases fs with
  | nil => cases h
  | cons f fs =>
    rw [join_cons, List.mem_append] at h
    rcases h with hf | hrest
    · exact .inr ⟨f, List.mem_cons_self, hf⟩
    · obtain ⟨g, hg, hc⟩ := List.mem_flatMap.1 hrest
      rcases List.mem_append.1 hc with hbetween | hc
      · exact .inl hbetween
      · exact .inr ⟨g, List.mem_cons_of_mem _ hg, hc⟩

/-- The characters of a part are in the joined text. -/
theorem mem_join_of_mem {between f : List Char} {fs : List (List Char)} {c : Char} (hf : f ∈ fs)
    (hc : c ∈ f) : c ∈ join between fs := by
  cases fs with
  | nil => cases hf
  | cons g fs =>
    rw [join_cons, List.mem_append]
    rcases List.mem_cons.1 hf with rfl | hf
    · exact .inl hc
    · exact .inr (List.mem_flatMap.2 ⟨f, hf, List.mem_append_right _ hc⟩)

end VirtNet.Text
