import VirtNet.Proofs.Text.Lines
import VirtNet.Proofs.Yaml.Inline

/-!
# Lines of written values

Whatever stands at an indentation, no line of it starts with a hyphen: every line feed is followed by
blanks or by a further break (`unmarked_writeBelow`). So the lines of a mapping start with its keys, and
none of them is a mark between documents (`unmarked_writeEntries_root`). A written value ends its line unless it
ends in a literal block whose text ends in a break other than a line feed.
-/

namespace VirtNet.Yaml

open Text

variable {cs : List Char} {indent column n : Nat}

/-! ## Indentations -/

theorem not_endsLine_replicate (n : Nat) : ¬ EndsLine (List.replicate n ' ') := by
  rw [EndsLine, List.getLast?_replicate]
  split <;> simp

/-- An indentation adds no hyphen after a line feed. -/
@[simp]
theorem unmarked_replicate_append : Unmarked (List.replicate n ' ' ++ cs) ↔ Unmarked cs := by
  rw [unmarked_append]
  have hblank : Unmarked (List.replicate n ' ') := by
    refine unmarked_of_not_mem ?_
    rw [List.mem_replicate]
    simp
  simp [hblank, not_endsLine_replicate]

@[simp]
theorem unmarked_spaces_append : Unmarked (spaces n ++ cs) ↔ Unmarked cs := unmarked_replicate_append

/-- What is indented starts with a blank. -/
theorem head?_replicate_append (hn : 1 ≤ n) : (List.replicate n ' ' ++ cs).head? = some ' ' := by
  obtain ⟨m, rfl⟩ := Nat.exists_eq_add_of_le' hn
  rfl

theorem head?_spaces_append (hn : 1 ≤ n) : (spaces n ++ cs).head? = some ' ' :=
  head?_replicate_append hn

/-- A character other than a line feed adds no hyphen after one. -/
theorem unmarked_cons_of_ne {c : Char} (h : c ≠ '\n') : Unmarked (c :: cs) ↔ Unmarked cs := by
  simp [Unmarked, h]

/-- A new line that is indented adds no hyphen after a line feed. -/
theorem unmarked_newLine_append (hn : 1 ≤ indent) : Unmarked (newLine indent ++ cs) ↔ Unmarked cs := by
  rw [newLine, List.cons_append, Unmarked, head?_replicate_append hn, unmarked_replicate_append]
  simp

/-! ## Scalars -/

/-- A text without line feeds that is written plainly has no hyphen after one. -/
theorem unmarked_writePlain (hn : 1 ≤ indent) {afterSpace : Bool} (h : '\n' ∉ cs) :
    Unmarked (writePlain indent column afterSpace cs) := by
  induction cs generalizing column afterSpace with
  | nil => trivial
  | cons c rest ih =>
    rw [List.mem_cons, not_or] at h
    rw [writePlain]
    split
    · rw [unmarked_newLine_append hn]
      exact ih h.2
    · rw [unmarked_cons_of_ne (Ne.symm h.1)]
      exact ih h.2

/-- A line after a run of breaks is indented, so it does not start with a hyphen. -/
theorem unmarked_lead_append (hn : 1 ≤ indent) {afterBreak : Bool} (h : Unmarked cs) :
    Unmarked ((if afterBreak then List.replicate indent ' ' else []) ++ cs) ∧
      (afterBreak = true →
        ((if afterBreak then List.replicate indent ' ' else []) ++ cs).head? ≠ some '-') := by
  cases afterBreak with
  | false => exact ⟨h, fun h => absurd h Bool.false_ne_true⟩
  | true =>
    refine ⟨unmarked_replicate_append.2 h, fun _ => ?_⟩
    rw [if_pos rfl, head?_replicate_append hn]
    decide

/-- Inside single quotes no line feed has a hyphen after it, and no run of breaks has one after it. -/
theorem unmarked_writeSingle (hn : 1 ≤ indent) {before : Option Char} :
    Unmarked (writeSingle indent column before cs) ∧
      (before.any isBreak = true → (writeSingle indent column before cs).head? ≠ some '-') := by
  induction cs generalizing column before with
  | nil =>
    have hend := @unmarked_lead_append [] indent hn (before.any isBreak) trivial
    rwa [List.append_nil] at hend
  | cons c rest ih =>
    rw [writeSingle]
    dsimp only
    split
    · next hc =>
      -- a break: what follows it starts with a blank or with a further break
      have hrest := @ih 0 (some c)
      have hc' : c ≠ '-' := by
        rintro rfl
        exact absurd hc (by decide)
      have htail : Unmarked (c :: writeSingle indent 0 (some c) rest) := ⟨fun _ => hrest.2 hc, hrest.1⟩
      split
      · exact ⟨⟨fun _ => by simpa using hc', htail⟩, fun _ => by simp⟩
      · exact ⟨htail, fun _ => by simpa using hc'⟩
    · next hc =>
      have hc' : c ≠ '\n' := by
        rintro rfl
        exact hc (by decide)
      have hquote : ('\'' : Char) ≠ '\n' := by decide
      generalize (if before.any isBreak = true then indent else column) = column'
      split
      · exact unmarked_lead_append hn ((unmarked_cons_of_ne hquote).2 ((unmarked_cons_of_ne hquote).2 ih.1))
      · split
        · rw [List.append_assoc]
          exact unmarked_lead_append hn ((unmarked_newLine_append hn).2 ih.1)
        · exact unmarked_lead_append hn ((unmarked_cons_of_ne hc').2 ih.1)

/-- Inside double quotes no line feed has a hyphen after it. -/
theorem unmarked_writeDouble (hn : 1 ≤ indent) {first afterEscape : Bool} :
    Unmarked (writeDouble indent column first afterEscape cs) := by
  induction cs generalizing column first afterEscape with
  | nil => trivial
  | cons c rest ih =>
    have hslash : ('\\' : Char) ≠ '\n' := by decide
    -- there is no line feed in an escape, so nothing after it is at the start of a line
    have hescape : ∀ ds, Unmarked ds → Unmarked (escape c ++ ds) := by
      intro ds hds
      rw [unmarked_append]
      refine ⟨unmarked_of_not_mem (lineFeed_not_mem_escape c), hds, fun hends => ?_⟩
      exact absurd (List.mem_of_getLast? hends) (lineFeed_not_mem_escape c)
    rw [writeDouble]
    dsimp only
    split
    · split
      · split
        · rw [List.append_assoc, List.cons_append]
          exact hescape _ ((unmarked_cons_of_ne hslash).2 ((unmarked_newLine_append hn).2 ih))
        · rw [List.append_assoc, List.cons_append]
          exact hescape _ ((unmarked_cons_of_ne hslash).2 ((unmarked_newLine_append hn).2
            ((unmarked_cons_of_ne hslash).2 ih)))
      · exact hescape _ ih
    · next hc =>
      have hc' : c ≠ '\n' := by
        rintro rfl
        exact hc (by decide)
      split
      · rw [List.append_assoc, List.cons_append, unmarked_cons_of_ne hslash,
          unmarked_newLine_append hn]
        split
        · exact (unmarked_cons_of_ne hslash).2 ((unmarked_cons_of_ne hc').2 ih)
        · exact (unmarked_cons_of_ne hc').2 ih
      · exact (unmarked_cons_of_ne hc').2 ih

/-- In the lines of a literal block no line feed has a hyphen after it. -/
theorem unmarked_writeLines (hn : 1 ≤ indent) {atStart : Bool} :
    Unmarked (writeLines indent atStart cs) ∧
      (atStart = true → (writeLines indent atStart cs).head? ≠ some '-') := by
  induction cs generalizing atStart with
  | nil =>
    cases atStart <;> simp [writeLines, Unmarked]
  | cons c rest ih =>
    rw [writeLines]
    split
    · next hc =>
      have hc' : c ≠ '-' := by
        rintro rfl
        exact absurd hc (by decide)
      exact ⟨⟨fun _ => ih.2 rfl, ih.1⟩, fun _ => by simpa using hc'⟩
    · next hc =>
      have hc' : c ≠ '\n' := by
        rintro rfl
        exact hc (by decide)
      split
      · refine ⟨unmarked_replicate_append.2 ((unmarked_cons_of_ne hc').2 ih.1), fun _ => ?_⟩
        rw [head?_replicate_append hn]
        decide
      · next hstart => exact ⟨(unmarked_cons_of_ne hc').2 ih.1, fun h => absurd h hstart⟩

/-- The lines of a literal block can follow a line feed. -/
theorem unmarked_writeLiteral (hn : 1 ≤ indent) : Unmarked (writeLiteral indent cs) := by
  have hhints : '\n' ∉ '|' :: literalHints cs := by
    unfold literalHints
    dsimp only
    rw [List.mem_cons, List.mem_append, not_or, not_or]
    refine ⟨by decide, ?_, ?_⟩
    · split <;> decide
    · split
      · decide
      · split <;> decide
      · split
        · decide
        · split <;> decide
  have hlines : Unmarked ('\n' :: writeLines indent true cs) :=
    ⟨fun _ => (unmarked_writeLines hn).2 rfl, (unmarked_writeLines hn).1⟩
  exact unmarked_append.2 ⟨unmarked_of_not_mem hhints, hlines, fun _ => by simp⟩

/-- A text with a line feed is not written plainly. -/
theorem lineFeed_not_mem_of_style (h : style cs = .plain) : '\n' ∉ cs := by
  intro hmem
  rw [style, if_pos (by simpa using hmem)] at h
  split at h <;> cases h

/-- Around what has no hyphen after a line feed, quotes and a last line feed add none. -/
theorem unmarked_append_of_head {bs : List Char} (has : Unmarked cs) (hbs : Unmarked ('\n' :: bs)) :
    Unmarked (cs ++ bs) :=
  unmarked_append.2 ⟨has, hbs.2, fun _ => hbs.1 rfl⟩

theorem unmarked_writeInline (hn : 1 ≤ indent) : Unmarked (writeInline indent column (style cs) cs) := by
  have hdouble : Unmarked ('"' :: writeDouble indent (column + 1) true false cs ++ ['"']) :=
    unmarked_append_of_head ((unmarked_cons_of_ne (by decide)).2 (unmarked_writeDouble hn))
      (by decide)
  unfold writeInline
  split
  · next h => exact unmarked_writePlain hn (lineFeed_not_mem_of_style h)
  · exact unmarked_append_of_head ((unmarked_cons_of_ne (by decide)).2 (unmarked_writeSingle hn).1)
      (by decide)
  · exact hdouble
  · exact hdouble

/-! ## Values -/

/-- A scalar or an empty collection has no hyphen after a line feed. -/
theorem unmarked_writeLeaf (hn : 1 ≤ indent) (v : Value) : Unmarked (writeLeaf indent column v) := by
  have hlast : Unmarked ['\n', '\n'] := (by decide)
  have hform : ∀ v, Unmarked (writePlain indent column false (plainForm v) ++ ['\n']) := fun v =>
    unmarked_append_of_head (unmarked_writePlain hn (lineFeed_not_mem_plainForm v)) hlast
  unfold writeLeaf
  split
  · dsimp only
    split
    · exact unmarked_writeLiteral hn
    · exact unmarked_append_of_head (unmarked_writeInline hn) hlast
  · decide
  · exact unmarked_append.2 ⟨by decide, unmarked_writeLiteral hn, fun h => absurd h (by decide)⟩
  · decide
  · decide
  · decide
  · next anchor =>
    have hname : '\n' ∉ '*' :: anchorName anchor := by
      simpa using lineFeed_not_mem_anchorName anchor
    exact unmarked_append_of_head (unmarked_of_not_mem hname) hlast
  · exact hform _

/-- An indented line can follow a line feed. -/
theorem unmarked_lineFeed_spaces_append (hn : 1 ≤ n) :
    Unmarked ('\n' :: (spaces n ++ cs)) ↔ Unmarked cs := by
  rw [Unmarked, head?_spaces_append hn, unmarked_spaces_append]
  simp

/-- Items below each other, where each value can stand after its hyphen. -/
theorem unmarked_writeItems {vs : List Value} (hn : 1 ≤ n)
    (h : ∀ v ∈ vs, Unmarked (writeAfterMark true n v)) : Unmarked ('\n' :: writeItems n false vs) := by
  induction vs with
  | nil =>
    rw [writeItems]
    decide
  | cons v vs ih =>
    rw [List.forall_mem_cons] at h
    rw [writeItems, indentation, if_neg (by decide), List.append_assoc,
      unmarked_lineFeed_spaces_append hn, List.cons_append, unmarked_cons_of_ne (by decide)]
    exact unmarked_append_of_head h.1 (ih h.2)

/-- Items on the line of a mark and below it. -/
theorem unmarked_writeItems_first {vs : List Value} (hn : 1 ≤ n)
    (h : ∀ v ∈ vs, Unmarked (writeAfterMark true n v)) : Unmarked (writeItems n true vs) := by
  cases vs with
  | nil => trivial
  | cons v vs =>
    rw [List.forall_mem_cons] at h
    rw [writeItems, indentation, if_pos rfl, List.nil_append, List.cons_append,
      unmarked_cons_of_ne (by decide)]
    exact unmarked_append_of_head h.1 (unmarked_writeItems hn h.2)

/-- A value can stand on the line of a key, of a hyphen or of another mark, and below it. -/
structure Placed (v : Value) : Prop where
  afterMark : ∀ inList n, 1 ≤ n → Unmarked (writeAfterMark inList n v)
  below : ∀ listColumn n column, 1 ≤ listColumn → Unmarked (writeBelow listColumn n column v)

/-- An entry, where its key and its value can stand after their marks. -/
theorem unmarked_writeEntry {key v : Value} (hn : 1 ≤ n) (hkey : Placed key) (hv : Placed v) :
    Unmarked (match simpleKey? key with
      | some cs => cs ++ ':' :: writeBelow n n (n + cs.length + 2) v
      | none => '?' :: writeAfterMark false n key ++ spaces n ++ ':' :: writeAfterMark false n v) := by
  have hvalue : ∀ ds, Unmarked ds → Unmarked ('\n' :: ':' :: ds) := fun ds hds =>
    ⟨fun _ => by simp, (unmarked_cons_of_ne (by decide)).2 hds⟩
  split
  · next cs hcs =>
    exact unmarked_append_of_head (unmarked_of_not_mem (lineFeed_not_mem_simpleKey hcs))
      (hvalue _ (hv.below n n _ hn))
  · rw [List.append_assoc]
    refine unmarked_append_of_head ((unmarked_cons_of_ne (by decide)).2 (hkey.afterMark _ _ hn)) ?_
    rw [unmarked_lineFeed_spaces_append hn, unmarked_cons_of_ne (by decide)]
    exact hv.afterMark _ _ hn

/-- Entries below each other. -/
theorem unmarked_writeEntries {es : List (Value × Value)} (hn : 1 ≤ n)
    (h : ∀ e ∈ es, Placed e.1 ∧ Placed e.2) : Unmarked ('\n' :: writeEntries n false es) := by
  induction es with
  | nil =>
    rw [writeEntries]
    decide
  | cons e es ih =>
    rw [List.forall_mem_cons] at h
    obtain ⟨key, v⟩ := e
    rw [writeEntries, indentation, if_neg (by decide), List.append_assoc,
      unmarked_lineFeed_spaces_append hn]
    exact unmarked_append_of_head (unmarked_writeEntry hn h.1.1 h.1.2) (ih h.2)

/-- Entries on the line of a mark and below it. -/
theorem unmarked_writeEntries_first {es : List (Value × Value)} (hn : 1 ≤ n)
    (h : ∀ e ∈ es, Placed e.1 ∧ Placed e.2) : Unmarked (writeEntries n true es) := by
  cases es with
  | nil => trivial
  | cons e es =>
    rw [List.forall_mem_cons] at h
    obtain ⟨key, v⟩ := e
    rw [writeEntries, indentation, if_pos rfl, List.nil_append]
    exact unmarked_append_of_head (unmarked_writeEntry hn h.1.1 h.1.2) (unmarked_writeEntries hn h.2)

/-- Members below each other. -/
theorem unmarked_writeMembers {ms : List Value} (hn : 1 ≤ n) (h : ∀ m ∈ ms, Placed m) :
    Unmarked ('\n' :: writeMembers n false ms) := by
  induction ms with
  | nil =>
    rw [writeMembers]
    decide
  | cons m ms ih =>
    rw [List.forall_mem_cons] at h
    rw [writeMembers, indentation, if_neg (by decide), List.append_assoc,
      unmarked_lineFeed_spaces_append hn]
    refine unmarked_append_of_head ?_ (ih h.2)
    split
    · next cs hcs =>
      exact unmarked_append_of_head (unmarked_of_not_mem (lineFeed_not_mem_simpleKey hcs)) (by decide)
    · rw [List.append_assoc]
      refine unmarked_append_of_head
        ((unmarked_cons_of_ne (by decide)).2 (h.1.afterMark _ _ hn)) ?_
      rw [unmarked_lineFeed_spaces_append hn]
      decide

/-- A scalar, or a collection that is empty, after a mark or a key. -/
theorem placed_of_leaf {v : Value}
    (hmark : ∀ inList n, writeAfterMark inList n v = ' ' :: writeLeaf (n + 2) (n + 2) v)
    (hbelow : ∀ listColumn n column,
      writeBelow listColumn n column v = ' ' :: writeLeaf (n + 2) column v) : Placed v where
  afterMark inList n _ := by
    rw [hmark, unmarked_cons_of_ne (by decide)]
    exact unmarked_writeLeaf (by omega) v
  below listColumn n column _ := by
    rw [hbelow, unmarked_cons_of_ne (by decide)]
    exact unmarked_writeLeaf (by omega) v

namespace Placed

theorem list {items : List Value} (h : ∀ v ∈ items, Placed v) : Placed (.list items) where
  afterMark inList n hn := by
    rw [writeAfterMark, unmarked_cons_of_ne (by decide)]
    split
    · exact unmarked_writeLeaf (by omega) _
    · exact unmarked_writeItems_first (by omega) fun v hv => (h v hv).afterMark true _ (by omega)
  below listColumn n column hn := by
    rw [writeBelow]
    split
    · exact (unmarked_cons_of_ne (by decide)).2 (unmarked_writeLeaf (by omega) _)
    · exact unmarked_writeItems hn fun v hv => (h v hv).afterMark true _ hn

/-- The two values of a pair stand below each other after hyphens. -/
theorem pair {a b : Value} (ha : Placed a) (hb : Placed b) : Placed (.pair a b) where
  afterMark inList n hn := by
    rw [writeAfterMark, List.append_assoc, List.cons_append, List.cons_append, unmarked_cons_of_ne (by decide),
      unmarked_cons_of_ne (by decide)]
    refine unmarked_append_of_head (ha.afterMark true _ (by omega)) ?_
    rw [unmarked_lineFeed_spaces_append (by omega), unmarked_cons_of_ne (by decide)]
    exact hb.afterMark true _ (by omega)
  below listColumn n column hn := by
    rw [writeBelow, List.append_assoc, List.append_assoc, List.cons_append,
      unmarked_lineFeed_spaces_append hn, List.cons_append, unmarked_cons_of_ne (by decide)]
    refine unmarked_append_of_head (ha.afterMark true _ hn) ?_
    rw [unmarked_lineFeed_spaces_append hn, unmarked_cons_of_ne (by decide)]
    exact hb.afterMark true _ hn

/-- The members of a set stand below its tag. -/
theorem set {ms : List Value} (h : ∀ m ∈ ms, Placed m) : Placed (.set ms) := by
  have hmembers : ∀ n, 1 ≤ n → Unmarked (" !!set\n".toList ++ writeMembers n false ms) := by
    intro n hn
    have htag : " !!set\n".toList ++ writeMembers n false ms =
        " !!set".toList ++ '\n' :: writeMembers n false ms := rfl
    rw [htag]
    exact unmarked_append_of_head (by decide) ⟨fun _ => by simp, unmarked_writeMembers hn h⟩
  constructor
  · intro inList n hn
    rw [writeAfterMark]
    split
    · exact (unmarked_cons_of_ne (by decide)).2 (unmarked_writeLeaf (by omega) _)
    · exact hmembers _ (by omega)
  · intro listColumn n column hn
    rw [writeBelow]
    split
    · exact (unmarked_cons_of_ne (by decide)).2 (unmarked_writeLeaf (by omega) _)
    · exact hmembers _ (by omega)

theorem dict {es : List (Value × Value)} (h : ∀ e ∈ es, Placed e.1 ∧ Placed e.2) : Placed (.dict es) where
  afterMark inList n hn := by
    rw [writeAfterMark, unmarked_cons_of_ne (by decide)]
    split
    · exact unmarked_writeLeaf (by omega) _
    · exact unmarked_writeEntries_first (by omega) h
  below listColumn n column hn := by
    rw [writeBelow]
    split
    · exact (unmarked_cons_of_ne (by decide)).2 (unmarked_writeLeaf (by omega) _)
    · exact unmarked_writeEntries (by omega) h

/-- A value stands below the name of its anchor as it stands below a key. -/
theorem numbered (anchor : Nat) {v : Value} (h : Placed v) : Placed (.numbered anchor v) := by
  have hname : ∀ {ds}, Unmarked ds → Unmarked (' ' :: '&' :: anchorName anchor ++ ds) := by
    intro ds hds
    refine unmarked_append.2 ⟨unmarked_of_not_mem ?_, hds, fun hends => ?_⟩
    · simpa using lineFeed_not_mem_anchorName anchor
    · have hmem := List.mem_of_getLast? hends
      simp [lineFeed_not_mem_anchorName] at hmem
  constructor
  · intro inList n hn
    rw [writeAfterMark]
    exact hname (h.below _ _ _ (by split <;> omega))
  · intro listColumn n column hn
    rw [writeBelow]
    exact hname (h.below _ _ _ hn)

end Placed

/-- Every value can stand after a mark and below a key. -/
theorem placed (v : Value) : Placed v := by
  induction v using Value.inductionOn with
  | list items ih => exact .list ih
  | pair a b iha ihb => exact .pair iha ihb
  | set ms ih => exact .set ih
  | dict es ih => exact .dict ih
  | numbered anchor v ih => exact .numbered anchor ih
  | _ => exact placed_of_leaf (fun _ _ => rfl) (fun _ _ _ => rfl)

/-! ## Documents -/

/-- A value below a key at the start of a line, other than a list. -/
inductive Nested : Value → Prop
  | text (s : String) : Nested (.text s)
  | dict (es : List (Value × Value)) : Nested (.dict es)

theorem Nested.unmarked_writeBelow {v : Value} (h : Nested v) :
    Unmarked (writeBelow 0 0 column v) := by
  cases h with
  | text s =>
    rw [writeBelow, unmarked_cons_of_ne (by decide)]
    · exact unmarked_writeLeaf (by decide) _
    all_goals simp
  | dict es =>
    rw [writeBelow]
    split
    · exact (unmarked_cons_of_ne (by decide)).2 (unmarked_writeLeaf (by decide) _)
    · exact unmarked_writeEntries (by decide) fun e _ => ⟨placed e.1, placed e.2⟩

/-- Where the values of a mapping are texts and mappings, no line of it starts with a hyphen unless a key
does. -/
theorem unmarked_writeEntries_root {es : List (Value × Value)} {first : Bool}
    (h : ∀ e ∈ es, Nested e.2 ∧ ∃ cs, simpleKey? e.1 = some cs ∧ cs ≠ [] ∧ cs.head? ≠ some '-') :
    Unmarked ('\n' :: writeEntries 0 first es) := by
  induction es generalizing first with
  | nil =>
    rw [writeEntries]
    decide
  | cons e es ih =>
    rw [List.forall_mem_cons] at h
    obtain ⟨key, v⟩ := e
    obtain ⟨⟨hv, cs, hkey, hne, hhead⟩, hes⟩ := h
    obtain ⟨c, rest, rfl⟩ := List.exists_cons_of_ne_nil hne
    have hindent : indentation first 0 = [] := by
      cases first <;> rfl
    rw [writeEntries, hindent, List.nil_append, hkey]
    have hline : Unmarked ('\n' :: ((c :: rest) ++ ':' :: writeBelow 0 0 (0 + (c :: rest).length + 2) v)) :=
      ⟨fun _ => hhead, unmarked_append_of_head
        (unmarked_of_not_mem (lineFeed_not_mem_simpleKey hkey))
        ⟨fun _ => by simp, (unmarked_cons_of_ne (by decide)).2 hv.unmarked_writeBelow⟩⟩
    exact unmarked_append_of_head hline (ih hes)

end VirtNet.Yaml
