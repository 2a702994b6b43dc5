import VirtNet.Text.Split

/-!
# Lines

A text is its lines, each with its line feed (`flatten_lines`). Cut at the lines that are three hyphens it
falls into parts (`parts`). Texts that were put together with such lines between them come apart again
exactly when every one of them but the last ends its line (`parts_join_iff`), provided that none has such
a line in it; a text in which no line feed has a hyphen after it has none (`Unmarked`).
-/

namespace VirtNet.Text

/-- The lines of a text, each with its line feed; the last may be without one. -/
def lines : List Char → List (List Char)
  | [] => []
  | c :: rest =>
    if c = '\n' then [c] :: lines rest
    else
      match lines rest with
      | [] => [[c]]
      | l :: ls => (c :: l) :: ls

/-- A text ends its last line. -/
def EndsLine (cs : List Char) : Prop := cs.getLast? = some '\n'

instance : DecidablePred EndsLine := fun cs => inferInstanceAs (Decidable (cs.getLast? = some '\n'))

/-- Three hyphens and nothing else. -/
def isMark (line : List Char) : Bool := line == "---\n".toList || line == "---".toList

/-- The parts of a text between the lines that are marks. -/
def parts (cs : List Char) : List (List Char) := ((lines cs).splitOnP isMark).map List.flatten

variable {as bs cs : List Char}

/-! ## Lines of texts that are put together -/

@[simp]
theorem flatten_lines (cs : List Char) : (lines cs).flatten = cs := by
  induction cs with
  | nil => rfl
  | cons c rest ih =>
    rw [lines]
    split
    · rw [List.flatten_cons, ih]
      rfl
    · split
      · next h =>
        rw [h] at ih
        rw [← ih]
        rfl
      · next l ls h =>
        rw [h] at ih
        rw [← ih]
        rfl

theorem lines_ne_nil (h : cs ≠ []) : lines cs ≠ [] := by
  intro hnil
  apply h
  rw [← flatten_lines cs, hnil]
  rfl

/-- Every line but the last has a line feed. -/
theorem endsLine_of_mem_dropLast_lines {l : List Char} (h : l ∈ (lines cs).dropLast) : EndsLine l := by
  induction cs generalizing l with
  | nil => cases h
  | cons c rest ih =>
    rw [lines] at h
    split at h
    · next hc =>
      subst hc
      cases hrest : lines rest with
      | nil =>
        rw [hrest] at h
        cases h
      | cons m ms =>
        rw [hrest, List.dropLast_cons_of_ne_nil (List.cons_ne_nil _ _)] at h
        rcases List.mem_cons.1 h with rfl | hmem
        · rfl
        · exact ih (hrest ▸ hmem)
    · -- the character is put before the first line of the rest
      split at h
      · cases h
      · next m ms hrest =>
        rw [hrest] at ih
        cases ms with
        | nil => cases h
        | cons n ns =>
          rw [List.dropLast_cons_of_ne_nil (List.cons_ne_nil _ _)] at h ih
          rcases List.mem_cons.1 h with rfl | hmem
          · have hm : EndsLine m := ih List.mem_cons_self
            rw [EndsLine, List.getLast?_cons, hm]
            rfl
          · exact ih (List.mem_cons_of_mem _ hmem)

/-- A text that ends its line leaves the lines after it as they are. -/
theorem lines_append (h : EndsLine as) : lines (as ++ bs) = lines as ++ lines bs := by
  induction as with
  | nil => cases h
  | cons c rest ih =>
    rw [List.cons_append, lines, lines]
    cases hrest : rest with
    | nil =>
      rw [hrest] at h
      obtain rfl : c = '\n' := by simpa [EndsLine] using h
      rfl
    | cons d ds =>
      have hends : EndsLine rest := by
        rw [hrest]
        rwa [EndsLine, hrest, List.getLast?_cons_cons] at h
      rw [← hrest, ih hends]
      split
      · rfl
      · cases hl : lines rest with
        | nil => exact absurd hl (lines_ne_nil (by simp [hrest]))
        | cons l ls => rfl

/-- A text without line feeds is one line once it has one. -/
theorem lines_append_lineFeed (h : '\n' ∉ cs) : lines (cs ++ ['\n']) = [cs ++ ['\n']] := by
  induction cs with
  | nil => rfl
  | cons c rest ih =>
    rw [List.mem_cons, not_or] at h
    rw [List.cons_append, lines, if_neg (Ne.symm h.1), ih h.2]

/-- Texts without line feeds, joined and ended by them, are its lines. -/
theorem lines_join {ls : List (List Char)} (hne : ls ≠ []) (h : ∀ l ∈ ls, '\n' ∉ l) :
    lines (join ['\n'] ls ++ ['\n']) = ls.map (· ++ ['\n']) := by
  induction ls with
  | nil => exact absurd rfl hne
  | cons l ls ih =>
    rw [List.forall_mem_cons] at h
    cases ls with
    | nil => exact lines_append_lineFeed h.1
    | cons m ms =>
      have hends : EndsLine (l ++ ['\n']) := by
        rw [EndsLine, List.getLast?_concat]
      rw [join, List.append_assoc, lines_append hends, lines_append_lineFeed h.1,
        ih (List.cons_ne_nil _ _) h.2]
      rfl

/-! ## Parts -/

/-- The groups between marks, but the last, are of elements before the last. -/
theorem forall_mem_dropLast_splitOnP {α : Type} {p : α → Bool} {Q : α → Prop} {xs : List α}
    (h : ∀ x ∈ xs.dropLast, Q x) : ∀ g ∈ (xs.splitOnP p).dropLast, ∀ x ∈ g, Q x := by
  induction xs with
  | nil => simp [List.splitOnP_nil]
  | cons x ys ih =>
    cases ys with
    | nil =>
      rw [List.splitOnP_cons_eq_if_modifyHead, List.splitOnP_nil]
      split <;> simp
    | cons y zs =>
      rw [List.dropLast_cons_of_ne_nil (List.cons_ne_nil _ _), List.forall_mem_cons] at h
      have hrest := ih h.2
      have hne : (y :: zs).splitOnP p ≠ [] := List.splitOnP_ne_nil p _
      rw [List.splitOnP_cons_eq_if_modifyHead]
      split
      · rw [List.dropLast_cons_of_ne_nil hne, List.forall_mem_cons]
        exact ⟨by simp, hrest⟩
      · cases hgroups : (y :: zs).splitOnP p with
        | nil => exact absurd hgroups hne
        | cons g gs =>
          rw [hgroups] at hrest
          cases gs with
          | nil => simp
          | cons g' gs' =>
            rw [List.dropLast_cons_of_ne_nil (List.cons_ne_nil _ _), List.forall_mem_cons] at hrest
            rw [List.modifyHead_cons, List.dropLast_cons_of_ne_nil (List.cons_ne_nil _ _),
              List.forall_mem_cons, List.forall_mem_cons]
            exact ⟨⟨h.1, hrest.1⟩, hrest.2⟩

/-- Every part but the last is empty or ends its line: there is a mark after it. -/
theorem endsLine_of_mem_dropLast_parts {part : List Char} (h : part ∈ (parts cs).dropLast) :
    part = [] ∨ EndsLine part := by
  rw [parts, ← List.map_dropLast] at h
  obtain ⟨g, hg, rfl⟩ := List.mem_map.1 h
  have hlines : ∀ l ∈ g, EndsLine l :=
    forall_mem_dropLast_splitOnP (fun l hl => endsLine_of_mem_dropLast_lines hl) g hg
  cases hlast : g.getLast? with
  | none =>
    rw [List.getLast?_eq_none_iff.1 hlast]
    exact .inl rfl
  | some l =>
    refine .inr ?_
    obtain ⟨ls, rfl⟩ := List.getLast?_eq_some_iff.1 hlast
    have hl : EndsLine l := hlines l (by simp)
    rw [EndsLine, List.flatten_concat, List.getLast?_append, hl]
    rfl

/-- A text without marks is one part. -/
theorem parts_of_not_mark (h : ∀ l ∈ lines cs, isMark l = false) : parts cs = [cs] := by
  rw [parts, List.splitOnP_eq_singleton h, List.map_singleton, flatten_lines]

/-- A text without marks that ends its line is the part before a mark. -/
theorem parts_append_mark (h : ∀ l ∈ lines as, isMark l = false) (hends : EndsLine as) :
    parts (as ++ ("---\n".toList ++ bs)) = as :: parts bs := by
  have hmark : EndsLine "---\n".toList := by decide
  have hlines : lines (as ++ ("---\n".toList ++ bs)) = lines as ++ "---\n".toList :: lines bs := by
    rw [lines_append hends, lines_append hmark]
    rfl
  rw [parts, hlines, List.splitOnP_append_cons_of_forall_mem h _ (by decide), List.map_cons,
    flatten_lines]
  rfl

/-- Texts without marks that end their lines are the parts of the whole that they are joined to. -/
theorem parts_join {t : List Char} {ts : List (List Char)} (h : ∀ u ∈ t :: ts, ∀ l ∈ lines u, isMark l = false)
    (hends : ∀ u ∈ (t :: ts).dropLast, EndsLine u) :
    parts (join "---\n".toList (t :: ts)) = t :: ts := by
  induction ts generalizing t with
  | nil => exact parts_of_not_mark (h t List.mem_cons_self)
  | cons u us ih =>
    rw [List.dropLast_cons_of_ne_nil (List.cons_ne_nil _ _), List.forall_mem_cons] at hends
    have hjoin : join "---\n".toList (t :: u :: us) =
        t ++ ("---\n".toList ++ join "---\n".toList (u :: us)) := by
      rw [join, List.append_assoc]
    rw [hjoin, parts_append_mark (h t List.mem_cons_self) hends.1,
      ih (fun v hv => h v (List.mem_cons_of_mem _ hv)) hends.2]

/-- Texts without marks, joined by marks, are the parts of the whole exactly when each of them but the
last ends its line. -/
theorem parts_join_iff {t : List Char} {ts : List (List Char)}
    (h : ∀ u ∈ t :: ts, u ≠ [] ∧ ∀ l ∈ lines u, isMark l = false) :
    parts (join "---\n".toList (t :: ts)) = t :: ts ↔ ∀ u ∈ (t :: ts).dropLast, EndsLine u := by
  constructor
  · intro hparts u hu
    rw [← hparts] at hu
    refine (endsLine_of_mem_dropLast_parts hu).resolve_left ?_
    rw [hparts] at hu
    exact (h u (List.dropLast_subset _ hu)).1
  · exact parts_join fun u hu => (h u hu).2

/-! ## Texts without marks -/

/-- No line feed has a hyphen right after it. -/
def Unmarked : List Char → Prop
  | [] => True
  | c :: rest => (c = '\n' → rest.head? ≠ some '-') ∧ Unmarked rest

instance Unmarked.instDecidable : (cs : List Char) → Decidable (Unmarked cs)
  | [] => isTrue trivial
  | c :: rest =>
    have := Unmarked.instDecidable rest
    inferInstanceAs (Decidable ((c = '\n' → rest.head? ≠ some '-') ∧ Unmarked rest))

/-- The first line starts as the text does. -/
theorem head?_of_lines_eq_cons {l : List Char} {ls : List (List Char)} (h : lines cs = l :: ls) :
    l.head? = cs.head? := by
  cases cs with
  | nil => cases h
  | cons c rest =>
    rw [lines] at h
    split at h
    · cases h
      rfl
    · split at h
      all_goals
        cases h
        rfl

/-- No line after the first starts with a hyphen where no line feed has one after it. -/
theorem head?_ne_of_mem_tail_lines (h : Unmarked cs) {l : List Char} (hl : l ∈ (lines cs).tail) :
    l.head? ≠ some '-' := by
  induction cs with
  | nil => cases hl
  | cons c rest ih =>
    have hrest := ih h.2
    rw [lines] at hl
    split at hl
    · next hc =>
      cases hlines : lines rest with
      | nil =>
        rw [hlines] at hl
        cases hl
      | cons m ms =>
        rw [hlines] at hl hrest
        rcases List.mem_cons.1 hl with rfl | hmem
        · -- the line after a line feed starts with the character after it
          rw [head?_of_lines_eq_cons hlines]
          exact h.1 hc
        · exact hrest hmem
    · split at hl
      · cases hl
      · next m ms hlines =>
        rw [hlines] at hrest
        exact hrest hl

/-- A mark starts with a hyphen. -/
theorem isMark_of_head?_ne {l : List Char} (h : l.head? ≠ some '-') : isMark l = false := by
  refine Bool.eq_false_iff.2 fun hmark => ?_
  simp only [isMark, Bool.or_eq_true, beq_iff_eq] at hmark
  rcases hmark with rfl | rfl <;> exact h rfl

/-- Such a text has no marks unless it starts with a hyphen. -/
theorem Unmarked.not_mark (h : Unmarked cs) (hhead : cs.head? ≠ some '-') :
    ∀ l ∈ lines cs, isMark l = false := by
  intro l hl
  refine isMark_of_head?_ne ?_
  cases hlines : lines cs with
  | nil =>
    rw [hlines] at hl
    cases hl
  | cons m ms =>
    rw [hlines] at hl
    rcases List.mem_cons.1 hl with rfl | hmem
    · rw [head?_of_lines_eq_cons hlines]
      exact hhead
    · exact head?_ne_of_mem_tail_lines h (by rw [hlines]; exact hmem)

/-- Two texts together have no hyphen after a line feed when neither has one and they do not meet so. -/
theorem unmarked_append : Unmarked (as ++ bs) ↔ Unmarked as ∧ Unmarked bs ∧
    (EndsLine as → bs.head? ≠ some '-') := by
  induction as with
  | nil => simp [Unmarked, EndsLine]
  | cons c rest ih =>
    cases rest with
    | nil =>
      simp only [List.cons_append, List.nil_append, Unmarked, EndsLine, List.getLast?_singleton,
        Option.some.injEq]
      rw [and_comm]
      simp
    | cons d ds =>
      show (c = '\n' → some d ≠ some '-') ∧ Unmarked (d :: ds ++ bs) ↔
        ((c = '\n' → some d ≠ some '-') ∧ Unmarked (d :: ds)) ∧ Unmarked bs ∧ _
      rw [ih, and_assoc, EndsLine, EndsLine, List.getLast?_cons_cons]

/-- A text without line feeds has no hyphen after one. -/
theorem unmarked_of_not_mem (h : '\n' ∉ cs) : Unmarked cs := by
  induction cs with
  | nil => trivial
  | cons c rest ih =>
    rw [List.mem_cons, not_or] at h
    exact ⟨fun hc => absurd hc.symm h.1, ih h.2⟩

end VirtNet.Text
