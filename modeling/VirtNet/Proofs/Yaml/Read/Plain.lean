import VirtNet.Proofs.Yaml.Inline
import VirtNet.Yaml.Token.Plain

/-!
# Reading back plain texts

A text that may be written without quotes is read back as it was, wherever its lines were folded
(`read_writePlain`). `Clean` says what keeps such a text together: all its gaps are single characters
inside it that are spaces, no colon stands before one, and no number sign after one.
-/

namespace VirtNet.Yaml

variable {cs k : List Char} {c : Char} {indent column floor : Nat}

/-! ## Characters -/

/-- A character that is shown as itself is a gap only if it is a space or a break. -/
theorem eq_space_of_isGap (hshown : Traits.isShown c = true) (hbreak : isBreak c = false)
    (h : isGap c = true) : c = ' ' := by
  rw [isGap, isSpace, isLineEnd, hbreak] at h
  simp only [Bool.or_eq_true, beq_iff_eq, Bool.or_false] at h
  rcases h with ((rfl | rfl) | hzero) | rfl
  · rfl
  · exact absurd hshown (by decide)
  · have hnull : c = '\x00' := Char.toNat_inj.1 hzero
    rw [hnull] at hshown
    exact absurd hshown (by decide)
  · exact absurd hshown (by decide)

/-- A character that is shown as itself ends a line only if it is a break. -/
theorem isLineEnd_of_isShown (hshown : Traits.isShown c = true) (hbreak : isBreak c = false) :
    isLineEnd c = false := by
  rw [isLineEnd, hbreak, Bool.or_false, beq_eq_false_iff_ne]
  rintro rfl
  exact absurd hshown (by decide)

theorem ne_of_isBreak (hc : isBreak c = true) {d : Char} (hd : isBreak d = false) : c ≠ d := by
  rintro rfl
  exact absurd hc (by simp [hd])

/-- A break other than the next-line control is read as itself. -/
theorem lineEndMeaning_of_isBreak (hc : isBreak c = true) (hnext : c ≠ '\u0085') :
    lineEndMeaning c = c := by
  rw [lineEndMeaning]
  split
  · rfl
  · next hseparator =>
    simp only [Bool.or_eq_true, beq_iff_eq, not_or] at hseparator
    simp only [isBreak, Bool.or_eq_true, beq_iff_eq, hseparator, or_false] at hc
    rcases hc with hc | hc
    · exact hc.symm
    · exact absurd (Char.toNat_inj.1 hc) hnext

namespace Plain

/-! ## Texts without quotes -/

/-- A text that stays together without quotes. `afterSpace` says whether it follows a gap. -/
def Clean : (afterSpace : Bool) → List Char → Prop
  | _, [] => True
  | afterSpace, c :: rest =>
    (isGap c = true → c = ' ' ∧ rest ≠ []) ∧ (c = ':' → startsWithGap rest = false) ∧
      (c = '#' → afterSpace = false) ∧ Clean (c == ' ') rest

/-- What follows a character of a text is clean if no indicator, no trailing space and no gap but
spaces is in it. -/
theorem clean_of_hasInnerIndicator {a : Char} (ha : isGap a = true → a = ' ')
    (hinner : Traits.hasInnerIndicator (a :: cs) = false) (hgaps : ∀ c ∈ cs, isGap c = true → c = ' ')
    (hlast : cs.getLast? ≠ some ' ') : Clean (a == ' ') cs := by
  induction cs generalizing a with
  | nil => trivial
  | cons c rest ih =>
    rw [Traits.hasInnerIndicator, Bool.or_eq_false_iff, Bool.or_eq_false_iff] at hinner
    rw [List.forall_mem_cons] at hgaps
    refine ⟨fun hc => ⟨hgaps.1 hc, ?_⟩, ?_, ?_, ih hgaps.1 hinner.2 hgaps.2 ?_⟩
    · rintro rfl
      exact hlast (congrArg some (hgaps.1 hc))
    · rintro rfl
      simpa using hinner.1.1
    · rintro rfl
      rw [Bool.eq_false_iff]
      intro hspace
      rw [beq_iff_eq] at hspace
      rw [hspace] at hinner
      exact absurd hinner.1.2 (by decide)
    · intro hrest
      rw [List.getLast?_cons] at hlast
      rw [hrest] at hlast
      exact hlast rfl

/-- A text that may be written without quotes is clean. -/
theorem clean_of_allowsPlain (h : (Traits.of cs).allowsPlain = true) : Clean true cs := by
  simp only [Traits.allowsPlain, Traits.of, Bool.not_eq_true', Bool.or_eq_false_iff, List.any_eq_false,
    Bool.not_eq_true, Bool.not_eq_false] at h
  obtain ⟨⟨⟨⟨⟨⟨⟨⟨-, hstart⟩, hinner⟩, hbreaks⟩, hshown⟩, hleading⟩, htrailing⟩, -⟩, -⟩ := h
  have hgaps : ∀ c ∈ cs, isGap c = true → c = ' ' := fun c hc =>
    eq_space_of_isGap (hshown c hc) (hbreaks c hc)
  cases cs with
  | nil => trivial
  | cons c rest =>
    rw [List.forall_mem_cons] at hgaps
    rw [Traits.startsAsIndicator, Bool.or_eq_false_iff] at hstart
    have hc : isGap c = false := by
      rw [Bool.eq_false_iff]
      intro hgap
      rw [hgaps.1 hgap] at hleading
      cases hleading
    have hlast : rest.getLast? ≠ some ' ' := by
      intro hlast
      rw [List.getLast?_cons, hlast] at htrailing
      cases htrailing
    refine ⟨fun hgap => absurd hgap (by simp [hc]), ?_, ?_,
      clean_of_hasInnerIndicator hgaps.1 hinner hgaps.2 hlast⟩
    · rintro rfl
      simpa using hstart.2
    · rintro rfl
      exact absurd hstart.1 (by decide)

/-- A clean text that does not start with a gap does not start with one when it is written either. -/
theorem startsWithGap_writePlain {afterSpace : Bool} (h : startsWithGap cs = false) :
    startsWithGap (writePlain indent column afterSpace cs ++ k) = false := by
  cases cs with
  | nil => cases h
  | cons c rest =>
    have hc : (c == ' ') = false := by
      rw [beq_eq_false_iff_ne]
      rintro rfl
      cases h
    rw [writePlain, hc]
    exact h

/-- Outside brackets only a gap ends a key after its colon. -/
theorem endsKey_eq_startsWithGap (cs : List Char) : endsKey false cs = startsWithGap cs := by
  cases cs with
  | nil => rfl
  | cons c rest => simp [endsKey, startsWithGap]

/-- A word goes on with a character of a clean text that is no space. -/
theorem endsWord_writePlain {b afterSpace : Bool} (h : Clean b (c :: cs)) (hc : c ≠ ' ') :
    endsWord false c (writePlain indent column afterSpace cs ++ k) = false := by
  obtain ⟨hgap, hcolon, -, -⟩ := h
  have hgap : isGap c = false := Bool.eq_false_iff.2 fun h => hc (hgap h).1
  rw [endsWord, hgap, endsKey_eq_startsWithGap]
  by_cases heq : c = ':'
  · simp [startsWithGap_writePlain (hcolon heq)]
  · simp [heq]

/-! ## Reading -/

/-- A reading with some more text before it. -/
def Reading.after (cs : List Char) (r : Reading) : Reading := { r with text := cs ++ r.text }

/-- A text is read as `r` when there is fuel for all its characters. -/
def ReadAs (floor : Nat) (cs : List Char) (r : Reading) : Prop :=
  ∀ fuel, cs.length ≤ fuel → read false floor fuel cs = r

variable {r : Reading}

/-- A text that is not empty leaves fuel for a step. -/
theorem ReadAs.of_step (hne : cs ≠ []) (h : ∀ n, cs.length ≤ n + 1 → read false floor (n + 1) cs = r) :
    ReadAs floor cs r := by
  intro fuel hfuel
  have hlength : 0 < cs.length := List.length_pos_iff.2 hne
  obtain ⟨n, rfl⟩ := Nat.exists_eq_add_of_le' (show 1 ≤ fuel by omega)
  exact h n hfuel

/-- A character that ends no word belongs to the text. -/
theorem read_cons (h : endsWord false c cs = false) (fuel : Nat) :
    read false floor (fuel + 1) (c :: cs) = (read false floor (fuel + 1) cs).after [c] := by
  rcases hword : word false cs with ⟨w, afterWord⟩
  have hcons : word false (c :: cs) = (c :: w, afterWord) := by
    rw [word, if_neg (by simp [h]), hword]
  rw [read, read, hword, hcons]
  dsimp only
  cases lineBreak? (afterWord.dropWhile (· == ' ')) with
  | some found =>
    dsimp only
    split <;> simp [Reading.after]
  | none =>
    dsimp only
    split <;> simp [Reading.after]

theorem ReadAs.cons (h : ReadAs floor cs r) (hword : endsWord false c cs = false) :
    ReadAs floor (c :: cs) (r.after [c]) := by
  refine .of_step (List.cons_ne_nil c cs) fun n hn => ?_
  rw [List.length_cons] at hn
  rw [read_cons hword, h (n + 1) (by omega)]

/-- A character that ends no word is no gap. -/
theorem isGap_of_endsWord (h : endsWord false c cs = false) : isGap c = false := by
  rw [endsWord, Bool.or_eq_false_iff, Bool.or_eq_false_iff] at h
  exact h.1.1

/-- A character that is no gap is no space. -/
theorem ne_space_of_isGap (h : isGap c = false) : c ≠ ' ' := by
  rintro rfl
  cases h

/-- There is no line break before a character that is no gap. -/
theorem lineBreak?_of_isGap (h : isGap c = false) : lineBreak? (c :: cs) = none := by
  rw [isGap, Bool.or_eq_false_iff] at h
  rw [lineBreak?, h.2]
  · simp
  · rintro rest rfl
    cases h.2

/-- Where a word starts a text goes on. -/
theorem goesOn_cons (hsign : c ≠ '#') (h : endsWord false c cs = false) :
    goesOn false (c :: cs) = true := by
  simp [goesOn, startsWith, word, h, hsign]

theorem word_of_gap (hc : isGap c = true) : word false (c :: cs) = ([], c :: cs) := by
  rw [word, if_pos (by simp [endsWord, hc])]

/-- Spaces before a word belong to the text. -/
theorem read_spaces {j : Nat} (hj : 0 < j) (hsign : c ≠ '#') (hc : endsWord false c cs = false)
    (fuel : Nat) :
    read false floor (fuel + 1) (spaces j ++ c :: cs) =
      (read false floor fuel (c :: cs)).after (spaces j) := by
  have hgap := isGap_of_endsWord hc
  have hne := ne_space_of_isGap hgap
  obtain ⟨i, rfl⟩ := Nat.exists_eq_add_of_le' hj
  have hspaces : ∀ d ∈ spaces (i + 1), (d == ' ') = true := by simp [spaces]
  have hword : word false (spaces (i + 1) ++ c :: cs) = ([], spaces (i + 1) ++ c :: cs) :=
    word_of_gap (by decide)
  rw [read, hword]
  dsimp only
  rw [List.takeWhile_append_of_pos hspaces, List.dropWhile_append_of_pos hspaces,
    List.takeWhile_cons_of_neg (by simpa using hne), List.dropWhile_cons_of_neg (by simpa using hne),
    lineBreak?_of_isGap hgap]
  dsimp only
  rw [goesOn_cons hsign hc]
  simp [spaces, Reading.after]

theorem ReadAs.spaces {j : Nat} (h : ReadAs floor (c :: cs) r) (hj : 0 < j) (hsign : c ≠ '#')
    (hc : endsWord false c cs = false) : ReadAs floor (spaces j ++ c :: cs) (r.after (spaces j)) := by
  refine .of_step (by simp) fun n hn => ?_
  have hspaces : (Yaml.spaces j).length = j := List.length_replicate
  rw [List.length_append] at hn
  rw [read_spaces hj hsign hc, h n (by omega)]

/-- The indentation of a line is passed up to its first character. -/
theorem lineGap_spaces {n column : Nat} (hgap : isGap c = false)
    (hborder : column + n = 0 → atBorder (c :: cs) = false) :
    lineGap column (spaces n ++ c :: cs) = ⟨[], column + n, false, c :: cs⟩ := by
  induction n generalizing column with
  | zero =>
    rw [spaces, List.replicate_zero, List.nil_append, lineGap.eq_def]
    dsimp only
    rw [if_neg (fun h => absurd h.2 (by simp [hborder h.1]))]
    split
    · next heq =>
      cases heq
      cases hgap
    · next heq =>
      cases heq
      cases hgap
    · next d rest _ _ heq =>
      cases heq
      rw [isGap, Bool.or_eq_false_iff] at hgap
      rw [hgap.2]
      rfl
    · next heq => cases heq
  | succ n ih =>
    have hblank : atBorder (spaces (n + 1) ++ c :: cs) = false := rfl
    rw [lineGap.eq_def]
    dsimp only
    rw [if_neg (by simp [hblank])]
    show lineGap (column + 1) (spaces n ++ c :: cs) = _
    rw [ih (fun h => absurd h (by omega))]
    congr 1
    omega

/-- A line that was folded goes on after a space. -/
theorem read_newLine (hindent : 0 < indent) (hfloor : floor ≤ indent) (hsign : c ≠ '#')
    (hc : endsWord false c cs = false) (fuel : Nat) :
    read false floor (fuel + 1) (newLine indent ++ c :: cs) =
      (read false floor fuel (c :: cs)).after [' '] := by
  have hword : word false (newLine indent ++ c :: cs) = ([], newLine indent ++ c :: cs) :=
    word_of_gap (by decide)
  have hgap : lineGap 0 (spaces indent ++ c :: cs) = ⟨[], 0 + indent, false, c :: cs⟩ :=
    lineGap_spaces (isGap_of_endsWord hc) (fun h => absurd h (by omega))
  have hdrop : (newLine indent ++ c :: cs).dropWhile (· == ' ') = newLine indent ++ c :: cs := rfl
  have hbreak : lineBreak? (newLine indent ++ c :: cs) = some ('\n', spaces indent ++ c :: cs) := rfl
  rw [read, hword]
  dsimp only
  rw [hdrop, hbreak]
  dsimp only
  rw [hgap]
  simp [goesOn_cons hsign hc, hfloor, Reading.after, foldLines]

theorem ReadAs.newLine (h : ReadAs floor (c :: cs) r) (hindent : 0 < indent) (hfloor : floor ≤ indent)
    (hsign : c ≠ '#') (hc : endsWord false c cs = false) :
    ReadAs floor (newLine indent ++ c :: cs) (r.after [' ']) := by
  refine .of_step (by simp) fun n hn => ?_
  have hbreak : (Yaml.newLine indent).length = indent + 1 := by simp [Yaml.newLine]
  rw [List.length_append] at hn
  rw [read_newLine hindent hfloor hsign hc, h n (by omega)]

/-- Where a clean text is folded it goes on with a word. -/
theorem exists_word (hclean : Clean true cs) (hne : cs ≠ []) (hsingle : startsWithoutSpace cs = true) :
    ∃ a as, writePlain indent indent true cs ++ k = a :: as ∧ a ≠ '#' ∧ endsWord false a as = false := by
  obtain ⟨a, as, rfl⟩ := List.exists_cons_of_ne_nil hne
  have ha : a ≠ ' ' := by simpa [startsWithoutSpace] using hsingle
  have hwritten : writePlain indent indent true (a :: as) =
      a :: writePlain indent (indent + 1) (a == ' ') as := by simp [writePlain]
  refine ⟨a, writePlain indent (indent + 1) (a == ' ') as ++ k, by rw [hwritten]; rfl, ?_,
    endsWord_writePlain hclean ha⟩
  intro h
  exact absurd (hclean.2.2.1 h) (by decide)

/-- A clean text is read back from what is written, up to a text that it does not go on with. `j` spaces
of it have been passed. -/
theorem read_writePlain {crossed : Bool} {rest : List Char} (hend : ReadAs floor k ⟨[], crossed, rest⟩)
    (hindent : 0 < indent) (hfloor : floor ≤ indent) {b afterSpace : Bool} {j : Nat}
    (hclean : Clean b cs) (hj : 0 < j → b = true ∧ afterSpace = true ∧ cs ≠ []) :
    ReadAs floor (spaces j ++ (writePlain indent column afterSpace cs ++ k)) ⟨spaces j ++ cs, crossed, rest⟩ := by
  -- the spaces that were passed are read with the next character of a word
  induction cs generalizing column b afterSpace j with
  | nil =>
    rcases Nat.eq_zero_or_pos j with rfl | hpos
    · exact hend
    · exact absurd rfl (hj hpos).2.2
  | cons c cs ih =>
    obtain ⟨hgap, -, hsign, hrest⟩ := id hclean
    rw [writePlain]
    split
    · next hfold =>
      -- the line is folded at `c`, a single space
      simp only [Bool.and_eq_true, beq_iff_eq, Bool.not_eq_true'] at hfold
      obtain ⟨⟨⟨rfl, rfl⟩, hsingle⟩, -⟩ := hfold
      have hzero : j = 0 := by
        rcases Nat.eq_zero_or_pos j with h | h
        · exact h
        · exact absurd (hj h).2.1 (by decide)
      subst hzero
      obtain ⟨d, ds, hwritten, hd, hword⟩ := @exists_word cs k indent hrest (hgap rfl).2 hsingle
      have hline := @ih indent _ true 0 hrest (fun h => absurd h (Nat.lt_irrefl 0))
      rw [spaces, List.replicate_zero, List.nil_append, hwritten] at hline
      rw [spaces, List.replicate_zero, List.nil_append, List.append_assoc, hwritten]
      exact hline.newLine hindent hfloor hd hword
    · by_cases hspace : c = ' '
      · -- a further space
        subst hspace
        have hline := @ih (column + 1) (' ' == ' ') (' ' == ' ') (j + 1) hrest (fun _ => ⟨rfl, rfl, (hgap rfl).2⟩)
        rw [spaces, List.replicate_succ', List.append_assoc, List.append_assoc] at hline
        exact hline
      · -- a character of a word
        have hword : endsWord false c (writePlain indent (column + 1) (c == ' ') cs ++ k) = false :=
          endsWord_writePlain hclean hspace
        have hline := @ih (column + 1) (c == ' ') (c == ' ') 0 hrest (fun h => absurd h (Nat.lt_irrefl 0))
        rw [spaces, List.replicate_zero, List.nil_append] at hline
        rcases Nat.eq_zero_or_pos j with rfl | hpos
        · exact hline.cons hword
        · have hsign : c ≠ '#' := by
            rintro rfl
            exact absurd (hsign rfl) (by simp [(hj hpos).1])
          exact (hline.cons hword).spaces hpos hsign hword

/-! ## What a scalar does not go on with -/

/-- A scalar ends before a colon with a gap after it. -/
theorem readAs_colon (h : startsWithGap cs = true) : ReadAs floor (':' :: cs) ⟨[], false, ':' :: cs⟩ := by
  have hword : word false (':' :: cs) = ([], ':' :: cs) := by
    rw [word, if_pos]
    simp [endsWord, endsKey_eq_startsWithGap, h]
  have hdrop : (':' :: cs).dropWhile (· == ' ') = ':' :: cs := rfl
  refine .of_step (List.cons_ne_nil ':' cs) fun n _ => ?_
  rw [read, hword]
  dsimp only
  rw [hdrop, lineBreak?_of_isGap (by decide)]
  rfl

/-- A scalar ends before a line that is not indented enough, before the border of a document, and at the
end of the text. -/
theorem readAs_lineFeed {n : Nat} {x : List Char} (hx : ∀ c cs, x = c :: cs → isGap c = false)
    (hend : x = [] → n = 0) (hstop : x = [] ∨ n < floor ∨ n = 0 ∧ atBorder x = true) :
    ReadAs floor ('\n' :: (spaces n ++ x)) ⟨[], true, x⟩ := by
  have hword : word false ('\n' :: (spaces n ++ x)) = ([], '\n' :: (spaces n ++ x)) :=
    word_of_gap (by decide)
  have hdrop : ('\n' :: (spaces n ++ x)).dropWhile (· == ' ') = '\n' :: (spaces n ++ x) := rfl
  have hbreak : lineBreak? ('\n' :: (spaces n ++ x)) = some ('\n', spaces n ++ x) := rfl
  -- the next token is too far left, or the document ends before it
  have hgap : ∃ border, lineGap 0 (spaces n ++ x) = ⟨[], n, border, x⟩ ∧
      (border = false → n < floor ∨ x = []) := by
    cases x with
    | nil =>
      obtain rfl := hend rfl
      exact ⟨false, rfl, fun _ => .inr rfl⟩
    | cons c cs =>
      by_cases hborder : n = 0 ∧ atBorder (c :: cs) = true
      · obtain ⟨rfl, hborder⟩ := hborder
        refine ⟨true, ?_, fun h => absurd h (by decide)⟩
        rw [spaces, List.replicate_zero, List.nil_append, lineGap.eq_def]
        simp [hborder]
      · refine ⟨false, ?_, fun _ => .inl ?_⟩
        · rw [lineGap_spaces (hx c cs rfl) (fun h => Bool.eq_false_iff.2 fun hb => hborder ⟨by omega, hb⟩),
            Nat.zero_add]
        · simpa [hborder] using hstop
  obtain ⟨border, hgap, hclosed⟩ := hgap
  refine .of_step (List.cons_ne_nil '\n' (spaces n ++ x)) fun m _ => ?_
  rw [read, hword]
  dsimp only
  rw [hdrop, hbreak]
  dsimp only
  rw [hgap, if_neg]
  simp only [Bool.and_eq_true, Bool.not_eq_true', Bool.false_or, decide_eq_true_eq]
  rintro ⟨⟨hborder, hfloor⟩, hon⟩
  rcases hclosed hborder with h | rfl
  · omega
  · exact absurd hon (by decide)

end Plain

end VirtNet.Yaml
