import VirtNet.Proofs.Yaml.Anchor
import VirtNet.Proofs.Yaml.Inline
import VirtNet.Proofs.Yaml.Read.PlainForm
import VirtNet.Yaml.Token.Lexer

/-!
# The characters of a document

Every character of a document is one that may be shown (`Shown.writeDocument`): what may not be shown is
written as an escape. So the whole text is permitted, and the lexer reads all of it (`ofText_of_shown`).
-/

namespace VirtNet.Yaml

open Text

/-- A text of which every character may be shown. -/
def Shown (cs : List Char) : Prop := ∀ c ∈ cs, Traits.isShown c = true

namespace Shown

variable {as bs cs : List Char} {c : Char} {indent column n : Nat}

@[simp]
theorem nil : Shown [] := fun _ hc => nomatch hc

@[simp]
theorem cons_iff : Shown (c :: cs) ↔ Traits.isShown c = true ∧ Shown cs := List.forall_mem_cons

@[simp]
theorem append_iff : Shown (as ++ bs) ↔ Shown as ∧ Shown bs := List.forall_mem_append

theorem of_all (h : cs.all Traits.isShown = true) : Shown cs := List.all_eq_true.1 h

@[simp]
theorem replicate (n : Nat) : Shown (List.replicate n ' ') := by
  intro c hc
  rw [(List.mem_replicate.1 hc).2]
  decide

theorem spaces (n : Nat) : Shown (spaces n) := replicate n

/-- Only characters that may be shown are permitted in a shown text. -/
theorem isPermitted (h : Traits.isShown c = true) : isPermitted c = true := by
  simp only [Traits.isShown, Bool.or_eq_true, Bool.and_eq_true, decide_eq_true_eq, beq_iff_eq, bne_iff_ne] at h
  simp only [Yaml.isPermitted, Bool.or_eq_true, Bool.and_eq_true, decide_eq_true_eq, beq_iff_eq]
  rcases h with ((((rfl | h) | h) | h) | h) | h
  · exact .inl (.inl (.inl (.inl (.inl (.inl (.inr rfl))))))
  all_goals omega

/-! ## Scalars -/

theorem writePlain {afterSpace : Bool} (h : Shown cs) : Shown (writePlain indent column afterSpace cs) := by
  induction cs generalizing column afterSpace with
  | nil => exact nil
  | cons c rest ih =>
    rw [cons_iff] at h
    rw [Yaml.writePlain]
    split
    · rw [newLine, append_iff, cons_iff]
      exact ⟨⟨by decide, replicate _⟩, ih h.2⟩
    · exact cons_iff.2 ⟨h.1, ih h.2⟩

theorem writeSingle {before : Option Char} (h : Shown cs) : Shown (writeSingle indent column before cs) := by
  induction cs generalizing column before with
  | nil =>
    rw [Yaml.writeSingle]
    split <;> simp
  | cons c rest ih =>
    rw [cons_iff] at h
    have hfeed : Traits.isShown '\n' = true := by decide
    have hquote : Traits.isShown '\'' = true := by decide
    rw [Yaml.writeSingle]
    dsimp only
    split
    · split <;> simp [h.1, ih h.2, hfeed]
    · generalize (if before.any isBreak = true then indent else column) = column'
      have hlead : Shown (if before.any isBreak then List.replicate indent ' ' else []) := by
        split <;> simp
      split
      · simp [hlead, hquote, ih h.2]
      · split
        · simp [hlead, newLine, hfeed, ih h.2]
        · simp [hlead, h.1, ih h.2]

theorem escape (c : Char) : Shown (escape c) := fun _ hd => (shown_of_mem_escape hd).1

theorem writeDouble {first afterEscape : Bool} : Shown (writeDouble indent column first afterEscape cs) := by
  induction cs generalizing column first afterEscape with
  | nil => exact nil
  | cons c rest ih =>
    have hfeed : Traits.isShown '\n' = true := by decide
    have hslash : Traits.isShown '\\' = true := by decide
    rw [Yaml.writeDouble]
    dsimp only
    split
    · split
      · split <;> simp [escape, newLine, hfeed, hslash, ih]
      · simp [escape, ih]
    · next hc =>
      have hc : Traits.isShown c = true := (shown_of_needsEscape (Bool.eq_false_iff.2 hc)).1
      split
      · split <;> simp [newLine, hfeed, hslash, hc, ih]
      · simp [hc, ih]

theorem writeLines {atStart : Bool} (h : Shown cs) : Shown (writeLines indent atStart cs) := by
  induction cs generalizing atStart with
  | nil =>
    rw [Yaml.writeLines]
    split
    · exact nil
    · exact cons_iff.2 ⟨by decide, nil⟩
  | cons c rest ih =>
    rw [cons_iff] at h
    rw [Yaml.writeLines]
    split
    · exact cons_iff.2 ⟨h.1, ih h.2⟩
    · split <;> simp [h.1, ih h.2]

theorem literalHints (cs : List Char) : Shown (literalHints cs) := by
  have hmarks : Shown ['2'] ∧ Shown ['+'] ∧ Shown ['-'] :=
    ⟨of_all (by decide), of_all (by decide), of_all (by decide)⟩
  unfold Yaml.literalHints
  dsimp only
  rw [append_iff]
  refine ⟨?_, ?_⟩
  · split
    · exact hmarks.1
    · exact nil
  · split
    · exact nil
    · split
      · exact hmarks.2.1
      · exact hmarks.2.2
    · split
      · exact hmarks.2.2
      · split
        · exact hmarks.2.1
        · exact nil

theorem writeLiteral (h : Shown cs) : Shown (writeLiteral indent cs) := by
  rw [Yaml.writeLiteral, List.cons_append, cons_iff, append_iff, cons_iff]
  exact ⟨by decide, literalHints cs, by decide, writeLines h⟩

/-- In every style but double quotes a text is shown as it is. -/
theorem of_style (h : style cs ≠ .double) : Shown cs := by
  have hspecial : ((Traits.of cs).special = false) → Shown cs := fun hspecial c hc => by
    simpa using List.any_eq_false.1 hspecial c hc
  cases hs : style cs with
  | plain =>
    have hplain := (of_style_plain hs).2.1
    simp only [Traits.allowsPlain, Bool.not_eq_true', Bool.or_eq_false_iff] at hplain
    exact hspecial hplain.1.1.1.1.2
  | single =>
    have hsingle := of_style_single hs
    simp only [Traits.allowsSingle, Bool.not_eq_true', Bool.or_eq_false_iff] at hsingle
    exact hspecial hsingle.1.1
  | double => exact absurd hs h
  | literal =>
    have hliteral := (of_style_literal hs).1
    simp only [Traits.allowsLiteral, Bool.not_eq_true', Bool.or_eq_false_iff] at hliteral
    exact hspecial hliteral.1.1

/-- A text in its style is shown. -/
theorem writeInline : Shown (writeInline indent column (style cs) cs) := by
  have hdouble : Shown ('"' :: Yaml.writeDouble indent (column + 1) true false cs ++ ['"']) := by
    have hquote : Traits.isShown '"' = true := by decide
    simp [hquote, writeDouble]
  cases hs : style cs with
  | plain => exact writePlain (of_style (by simp [hs]))
  | single =>
    have hquote : Traits.isShown '\'' = true := by decide
    have hcs : Shown cs := of_style (by simp [hs])
    simp [Yaml.writeInline, hquote, writeSingle hcs]
  | double => exact hdouble
  | literal => exact hdouble

/-- A text without the characters that may not be shown is shown. -/
theorem of_not_mem (h : ∀ c, Traits.isShown c = false → c ∉ cs) : Shown cs := fun c hc =>
  Bool.of_not_eq_false fun hshown => h c hshown hc

/-- What may not be shown is not in a text that is shown, and is no digit. -/
theorem not_mem_of_isShown (h : Traits.isShown c = false) (hcs : Shown cs) : c ∉ cs := fun hc => by
  rw [hcs c hc] at h
  cases h

theorem isDigit_of_isShown (h : Traits.isShown c = false) : c.isDigit = false := by
  refine Bool.eq_false_iff.2 fun hdigit => ?_
  rw [(plain_of_isDigit hdigit).2.1] at h
  cases h

/-- The plain form of a scalar is shown. -/
theorem plainForm (v : Value) : Shown (plainForm v) := by
  have hminus : ∀ {c}, Traits.isShown c = false → c ≠ '-' := by
    rintro c hc rfl
    cases hc
  cases v with
  | null => exact of_all (by decide)
  | bool b =>
    cases b
    · exact of_all (by decide)
    · exact of_all (by decide)
  | int n => exact of_not_mem fun c hc => Value.not_mem_int (isDigit_of_isShown hc) (hminus hc) n
  | float x =>
    have htext : Shown x.toText.toList := of_not_mem fun c hc =>
      Binary64.not_mem_toText (isDigit_of_isShown hc) (not_mem_of_isShown hc (of_all (by decide))) x
    show Shown (floatText x)
    unfold floatText
    split
    · exact of_all (by decide)
    · split <;> exact of_all (by decide)
    · dsimp only
      split
      · exact htext
      · rw [append_iff, cons_iff, cons_iff]
        exact ⟨fun c hc => htext c (List.takeWhile_subset _ hc), by decide, by decide,
          fun c hc => htext c (List.dropWhile_subset _ hc)⟩
  | date d => exact of_not_mem fun c hc => Date.not_mem_toText (isDigit_of_isShown hc) (hminus hc) d
  | moment m =>
    exact of_not_mem fun c hc => Moment.not_mem_textWith (isDigit_of_isShown hc)
      (not_mem_of_isShown hc (of_all (by decide))) (not_mem_of_isShown hc (of_all (by decide))) m
  | _ => exact nil

theorem anchorName (anchor : Nat) : Shown (anchorName anchor) := by
  refine of_not_mem fun c hc => ?_
  rw [Yaml.anchorName, String.toList_append, List.mem_append, not_or]
  exact ⟨not_mem_of_isShown hc (of_all (by decide)), not_mem_padded (isDigit_of_isShown hc) 3 anchor⟩

/-- Bytes in base 64 are shown. -/
theorem encode (bs : List UInt8) : Shown (Base64.encode bs) :=
  forall_mem_encode (P := fun c => Traits.isShown c = true) (of_all (by decide)) (by decide) (by decide) bs

/-- A scalar or an empty collection is shown. -/
theorem writeLeaf (v : Value) : Shown (writeLeaf indent column v) := by
  have hfeed : Traits.isShown '\n' = true := by decide
  have hform : ∀ v, Shown (Yaml.writePlain indent column false (Yaml.plainForm v) ++ ['\n']) := fun v => by
    simp [hfeed, writePlain (plainForm v)]
  unfold Yaml.writeLeaf
  split
  · dsimp only
    split
    · next hstyle => exact writeLiteral (of_style (by simp [hstyle]))
    · simp [hfeed, writeInline]
  · exact of_all (by decide)
  · rw [append_iff]
    exact ⟨of_all (by decide), writeLiteral (encode _)⟩
  · exact of_all (by decide)
  · exact of_all (by decide)
  · exact of_all (by decide)
  · rw [append_iff, cons_iff]
    exact ⟨⟨by decide, anchorName _⟩, of_all (by decide)⟩
  · exact hform _

/-- A key on the line of its value is shown. -/
theorem simpleKey {v : Value} (hkey : simpleKey? v = some cs) : Shown cs := by
  induction v using Value.inductionOn generalizing cs with
  | text k =>
    rw [(of_simpleKey_text hkey).1]
    exact writeInline
  | int n =>
    rw [simpleKey?] at hkey
    dsimp only at hkey
    split at hkey
    · obtain rfl := Option.some.inj hkey
      exact plainForm (.int n)
    · cases hkey
  | numbered anchor v ih =>
    rw [simpleKey?, Option.map_eq_some_iff] at hkey
    obtain ⟨inner, hinner, rfl⟩ := hkey
    rw [append_iff, cons_iff, cons_iff]
    exact ⟨⟨by decide, anchorName anchor⟩, by decide, ih hinner⟩
  | again anchor =>
    rw [simpleKey?] at hkey
    obtain rfl := Option.some.inj hkey
    exact cons_iff.2 ⟨by decide, anchorName anchor⟩
  | null | bool _ | float _ | date _ | moment _ =>
    rw [simpleKey?] at hkey
    obtain rfl := Option.some.inj hkey
    exact plainForm _
  | bytes _ | list _ _ | pair _ _ _ _ | set _ _ | dict _ _ =>
    simp [simpleKey?] at hkey

/-! ## Values -/

/-- A value is shown after a mark and below a key. -/
structure Placed (v : Value) : Prop where
  afterMark : ∀ inList n, Shown (writeAfterMark inList n v)
  below : ∀ listColumn n column, Shown (writeBelow listColumn n column v)

theorem indentation (first : Bool) (n : Nat) : Shown (indentation first n) := by
  cases first
  · exact spaces n
  · exact nil

theorem writeItems {vs : List Value} {first : Bool} (h : ∀ v ∈ vs, Placed v) : Shown (writeItems n first vs) := by
  have hhyphen : Traits.isShown '-' = true := by decide
  induction vs generalizing first with
  | nil => exact nil
  | cons v vs ih =>
    rw [List.forall_mem_cons] at h
    rw [Yaml.writeItems]
    simp [indentation, hhyphen, h.1.afterMark, ih h.2]

theorem writeEntries {es : List (Value × Value)} {first : Bool} (h : ∀ e ∈ es, Placed e.1 ∧ Placed e.2) :
    Shown (writeEntries n first es) := by
  have hmarks : Traits.isShown '?' = true ∧ Traits.isShown ':' = true := by decide
  induction es generalizing first with
  | nil => exact nil
  | cons e es ih =>
    obtain ⟨k, v⟩ := e
    rw [List.forall_mem_cons] at h
    obtain ⟨⟨hk, hv⟩, hes⟩ := h
    rw [Yaml.writeEntries]
    split
    · next cs hkey => simp [indentation, hmarks, simpleKey hkey, hv.below, ih hes]
    · simp [indentation, hmarks, hk.afterMark, hv.afterMark, spaces, ih hes]

theorem writeMembers {ms : List Value} {first : Bool} (h : ∀ m ∈ ms, Placed m) :
    Shown (writeMembers n first ms) := by
  have hmark : Traits.isShown '?' = true := by decide
  have hnull : Shown ": null\n".toList := of_all (by decide)
  induction ms generalizing first with
  | nil => exact nil
  | cons m ms ih =>
    rw [List.forall_mem_cons] at h
    rw [Yaml.writeMembers]
    split
    · next cs hkey =>
      rw [append_iff, append_iff, append_iff]
      exact ⟨⟨indentation first n, simpleKey hkey, hnull⟩, ih h.2⟩
    · rw [append_iff, append_iff, append_iff, append_iff, cons_iff]
      exact ⟨⟨indentation first n, ⟨⟨hmark, h.1.afterMark _ _⟩, spaces n⟩, hnull⟩, ih h.2⟩

theorem blank_cons_writeLeaf {indent column : Nat} (v : Value) : Shown (' ' :: Yaml.writeLeaf indent column v) :=
  cons_iff.2 ⟨by decide, writeLeaf v⟩

namespace Placed

theorem leaf {v : Value}
    (hmark : ∀ inList n, writeAfterMark inList n v = ' ' :: Yaml.writeLeaf (n + 2) (n + 2) v)
    (hbelow : ∀ listColumn n column, writeBelow listColumn n column v = ' ' :: Yaml.writeLeaf (n + 2) column v) :
    Placed v where
  afterMark inList n := by
    rw [hmark]
    exact blank_cons_writeLeaf v
  below listColumn n column := by
    rw [hbelow]
    exact blank_cons_writeLeaf v

theorem list {items : List Value} (h : ∀ v ∈ items, Placed v) : Placed (.list items) where
  afterMark inList n := by
    rw [writeAfterMark, cons_iff]
    refine ⟨by decide, ?_⟩
    split
    · exact writeLeaf _
    · exact writeItems h
  below listColumn n column := by
    rw [writeBelow]
    split
    · exact blank_cons_writeLeaf _
    · exact cons_iff.2 ⟨by decide, writeItems h⟩

theorem pair {a b : Value} (ha : Placed a) (hb : Placed b) : Placed (.pair a b) := by
  have hblank : Traits.isShown ' ' = true := by decide
  have hfeed : Traits.isShown '\n' = true := by decide
  have hhyphen : Traits.isShown '-' = true := by decide
  constructor
  · intro inList n
    rw [writeAfterMark]
    simp [hblank, hhyphen, ha.afterMark, hb.afterMark, spaces]
  · intro listColumn n column
    rw [writeBelow]
    simp [hfeed, hhyphen, ha.afterMark, hb.afterMark, spaces]

theorem set {ms : List Value} (h : ∀ m ∈ ms, Placed m) : Placed (.set ms) := by
  have hmembers : ∀ n, Shown (" !!set\n".toList ++ Yaml.writeMembers n false ms) := fun n =>
    append_iff.2 ⟨of_all (by decide), writeMembers h⟩
  constructor
  · intro inList n
    rw [writeAfterMark]
    split
    · exact blank_cons_writeLeaf _
    · exact hmembers _
  · intro listColumn n column
    rw [writeBelow]
    split
    · exact blank_cons_writeLeaf _
    · exact hmembers _

theorem dict {es : List (Value × Value)} (h : ∀ e ∈ es, Placed e.1 ∧ Placed e.2) : Placed (.dict es) where
  afterMark inList n := by
    rw [writeAfterMark, cons_iff]
    refine ⟨by decide, ?_⟩
    split
    · exact writeLeaf _
    · exact writeEntries h
  below listColumn n column := by
    rw [writeBelow]
    split
    · exact blank_cons_writeLeaf _
    · exact cons_iff.2 ⟨by decide, writeEntries h⟩

theorem numbered (anchor : Nat) {v : Value} (h : Placed v) : Placed (.numbered anchor v) := by
  have hname : Shown (' ' :: '&' :: Yaml.anchorName anchor) :=
    cons_iff.2 ⟨by decide, cons_iff.2 ⟨by decide, anchorName anchor⟩⟩
  constructor
  · intro inList n
    rw [writeAfterMark]
    exact append_iff.2 ⟨hname, h.below _ _ _⟩
  · intro listColumn n column
    rw [writeBelow]
    exact append_iff.2 ⟨hname, h.below _ _ _⟩

end Placed

/-- Every value is shown after a mark and below a key. -/
theorem placed (v : Value) : Placed v := by
  induction v using Value.inductionOn with
  | list items ih => exact .list ih
  | pair a b iha ihb => exact .pair iha ihb
  | set ms ih => exact .set ih
  | dict es ih => exact .dict ih
  | numbered anchor v ih => exact .numbered anchor ih
  | _ => exact .leaf (fun _ _ => rfl) (fun _ _ _ => rfl)

/-! ## Documents -/

theorem writeRoot (v : Value) : Shown (writeRoot v) := by
  unfold Yaml.writeRoot
  split
  · exact writeItems fun v _ => placed v
  · exact writeItems fun v _ => placed v
  · exact writeEntries fun e _ => ⟨placed e.1, placed e.2⟩
  · exact append_iff.2 ⟨of_all (by decide), writeMembers fun m _ => placed m⟩
  · exact append_iff.2 ⟨cons_iff.2 ⟨by decide, anchorName _⟩, (placed _).below _ _ _⟩
  · exact writeLeaf _

/-- Every character of a document is shown. -/
theorem writeDocument (v : Value) : Shown (writeDocument v) := by
  rw [Yaml.writeDocument, append_iff]
  refine ⟨writeRoot v, ?_⟩
  split
  · exact of_all (by decide)
  · exact nil

end Shown

/-- A shown text is read whole, from its first character on. -/
theorem ofText_of_shown {cs : List Char} (h : Shown cs) :
    Token.ofText cs = Lexer.run (cs.length + 1) (Lexer.between true ⟨cs, 0, 0, 0⟩ [] []) := by
  have hpermitted : cs.findIdx? (!isPermitted ·) = none := by
    rw [List.findIdx?_eq_none_iff]
    intro c hc
    rw [Shown.isPermitted (h c hc)]
    rfl
  have hstart : Cursor.start cs = ⟨cs, 0, 0, 0⟩ := by
    cases cs with
    | nil => rfl
    | cons c rest =>
      have hmark : c ≠ Cursor.byteOrderMark := by
        rintro rfl
        exact absurd (Shown.cons_iff.1 h).1 (by decide)
      simp [Cursor.start, startsWith, hmark]
  rw [Token.ofText, hpermitted]
  dsimp only
  rw [Token.ofPermitted, hstart]
  rfl

end VirtNet.Yaml
