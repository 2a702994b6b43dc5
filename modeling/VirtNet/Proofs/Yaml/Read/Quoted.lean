import Mathlib.Algebra.Group.Nat.Defs
import VirtNet.Proofs.Yaml.Inline
import VirtNet.Proofs.Yaml.Read.Plain
import VirtNet.Yaml.Token.Quoted

/-!
# Reading back texts in quotes

A text between single quotes is read back as it was if every character in it may be shown and none is
the next-line control, which a line break written in its place is not read back as
(`single_writeSingle`). Between double quotes every text is read back (`double_writeDouble`).
-/

namespace VirtNet.Yaml.Quoted

variable {cs k : List Char} {c : Char} {indent column : Nat} {passed : Between}

theorem push_ok (as bs rest : List Char) : push as (.ok (bs, rest)) = .ok (as ++ bs, rest) := rfl

theorem push_nil (r : Except Fault (List Char × List Char)) : push [] r = r := by
  cases r <;> rfl

theorem push_push (as bs : List Char) (r : Except Fault (List Char × List Char)) :
    push as (push bs r) = push (as ++ bs) r := by
  cases r with
  | error e => rfl
  | ok p => exact congrArg (fun cs => Except.ok (cs, p.2)) (List.append_assoc as bs p.1).symm

theorem atBorder_cons (hhyphen : c ≠ '-') (hpoint : c ≠ '.') : atBorder (c :: cs) = false := by
  rw [atBorder, startsDocument, endsDocument]
  · rfl
  · rintro rest h
    exact hpoint (List.cons.inj h).1
  · rintro rest h
    exact hhyphen (List.cons.inj h).1

/-- What follows a text that does not start a line is at no border. -/
theorem not_border (h : passed.isLineStart = false) : ¬ (passed.isLineStart && atBorder cs) = true := by
  simp [h]

/-- What starts with neither a hyphen nor a point is at no border. -/
theorem not_border_cons (hhyphen : c ≠ '-') (hpoint : c ≠ '.') :
    ¬ (passed.isLineStart && atBorder (c :: cs)) = true := by
  simp [atBorder_cons hhyphen hpoint]

/-! ## Single quotes, character by character -/

theorem single_end (hk : k.head? ≠ some '\'') : single passed ('\'' :: k) = .ok (passed.text, k) := by
  rw [single.eq_def]
  dsimp only
  rw [if_neg (not_border_cons (by decide) (by decide))]
  split <;> grind

theorem single_quote : single passed ('\'' :: '\'' :: cs) =
    push (passed.text ++ ['\'']) (single .nothing cs) := by
  rw [single.eq_def]
  dsimp only
  rw [if_neg (not_border_cons (by decide) (by decide))]
  rfl

theorem single_space : single passed (' ' :: cs) = single (passed.addSpace ' ') cs := by
  rw [single.eq_def]
  dsimp only
  rw [if_neg (not_border_cons (by decide) (by decide))]
  rfl

/-- A character that is neither a quote nor a carriage return. -/
theorem single_other (hquote : c ≠ '\'') (hreturn : c ≠ '\r')
    (hborder : ¬ (passed.isLineStart && atBorder (c :: cs)) = true) :
    single passed (c :: cs) =
      if isSpace c then single (passed.addSpace c) cs
      else if isLineEnd c then single (passed.addBreak (lineEndMeaning c)) cs
      else push (passed.text ++ [c]) (single .nothing cs) := by
  rw [single.eq_def]
  dsimp only
  rw [if_neg hborder]
  split <;> simp_all

/-- A line feed or a separator is read as itself. -/
theorem single_break (hc : isBreak c = true) (hnext : c ≠ '\u0085') :
    single passed (c :: cs) = single (passed.addBreak c) cs := by
  have hspace : isSpace c = false := by
    simp [isSpace, ne_of_isBreak hc (show isBreak ' ' = false from rfl),
      ne_of_isBreak hc (show isBreak '\t' = false from rfl)]
  rw [single_other (ne_of_isBreak hc rfl) (ne_of_isBreak hc rfl)
    (not_border_cons (ne_of_isBreak hc rfl) (ne_of_isBreak hc rfl)), hspace, isLineEnd, hc, Bool.or_true,
    lineEndMeaning_of_isBreak hc hnext]
  rfl

theorem single_char (hline : passed.isLineStart = false) (hgap : isGap c = false) (hquote : c ≠ '\'') :
    single passed (c :: cs) = push (passed.text ++ [c]) (single .nothing cs) := by
  have hreturn : c ≠ '\r' := by
    rintro rfl
    cases hgap
  rw [isGap, Bool.or_eq_false_iff, Bool.or_eq_false_iff] at hgap
  rw [single_other hquote hreturn (not_border hline), hgap.1.1, hgap.2]
  rfl

/-- The indentation of a line does not count. -/
theorem single_indent {first : Option Char} {others : List Char} {atStart : Bool} (hindent : 0 < indent) :
    single (.lines first others atStart) (List.replicate indent ' ' ++ cs) =
      single (.lines first others false) cs := by
  induction indent generalizing atStart with
  | zero => exact absurd hindent (Nat.lt_irrefl 0)
  | succ n ih =>
    rw [List.replicate_succ, List.cons_append, single_space]
    rcases Nat.eq_zero_or_pos n with rfl | hn
    · rfl
    · exact ih hn

/-! ## Single quotes -/

/-- What the reader has passed where the writer goes on with `cs` after the character `before`: spaces
and breaks are kept until the next character. -/
inductive Passed : (before : Option Char) → (cs : List Char) → Between → Prop
  | nothing {before : Option Char} {cs : List Char} (h : ∀ c, before = some c → isBreak c = false ∧ c ≠ ' ') :
      Passed before cs .nothing
  | spaces {spaces cs : List Char} : Passed (some ' ') cs (.spaces spaces)
  | folded {cs : List Char} (h : startsWithoutSpace cs = true) :
      Passed (some ' ') cs (.lines (some '\n') [] false)
  | lines {b c : Char} {others cs : List Char} (hb : isBreak b = true) (h : c = '\n' → others ≠ []) :
      Passed (some b) cs (.lines (some c) others true)

theorem anyNeighbours_append {p : Char → Char → Bool} {as bs : List Char}
    (h : Traits.anyNeighbours p (as ++ bs) = false) : Traits.anyNeighbours p bs = false := by
  induction as with
  | nil => exact h
  | cons a as ih =>
    apply ih
    cases hrest : as ++ bs with
    | nil => rfl
    | cons b rest =>
      rw [List.cons_append, hrest, Traits.anyNeighbours, Bool.or_eq_false_iff] at h
      exact h.2

/-- No character has the character before it as a neighbour of the kind. -/
theorem of_anyNeighbours {p : Char → Char → Bool} {b : Char} {before : Option Char}
    (h : Traits.anyNeighbours p (before.toList ++ c :: cs) = false) (hb : before = some b) : p b c = false := by
  subst hb
  rw [Option.toList_some, List.singleton_append, Traits.anyNeighbours, Bool.or_eq_false_iff] at h
  exact h.1

/-- Where nothing is kept the writer has just written no break. -/
theorem Passed.not_isBreak {before : Option Char} (h : Passed before cs .nothing) :
    before.any isBreak = false := by
  cases h with
  | nothing h =>
    cases before with
    | none => rfl
    | some b => exact (h b rfl).1

/-- A text goes on after a break when the line is indented. -/
theorem Passed.exists_after {before : Option Char} (h : Passed before cs passed) (hindent : 0 < indent) :
    ∃ passed', passed'.isLineStart = false ∧ passed'.text = passed.text ∧
      ∀ rest, single passed ((if before.any isBreak then List.replicate indent ' ' else []) ++ rest) =
        single passed' rest := by
  cases h with
  | nothing h =>
    refine ⟨.nothing, rfl, rfl, fun rest => ?_⟩
    rw [(@Passed.nothing before cs h).not_isBreak]
    rfl
  | spaces => exact ⟨_, rfl, rfl, fun rest => rfl⟩
  | folded => exact ⟨_, rfl, rfl, fun rest => rfl⟩
  | @lines b c others _ hb =>
    refine ⟨.lines (some c) others false, rfl, rfl, fun rest => ?_⟩
    rw [Option.any_some, hb, if_pos rfl, single_indent hindent]

/-- What is written for `c` is read as `c`: the reader goes on after it, and what it has read by then and
what it keeps are the text up to `c`. -/
def SingleStep (indent column : Nat) (before : Option Char) (passed : Between) (c : Char)
    (rest : List Char) : Prop :=
  ∃ out passed' column', Passed (some c) rest passed' ∧ out ++ passed'.text = passed.text ++ [c] ∧
    ∀ tail, single passed (writeSingle indent column before (c :: rest) ++ tail) =
      push out (single passed' (writeSingle indent column' (some c) rest ++ tail))

/-- A break is kept. The first line feed of a run is written twice, since a line feed alone is read as a
space. -/
theorem singleStep_break {before : Option Char} {rest : List Char} (h : Passed before (c :: rest) passed)
    (hc : isBreak c = true) (hnext : c ≠ '\u0085') (hspace : before ≠ some ' ') :
    SingleStep indent column before passed c rest := by
  unfold SingleStep
  rw [writeSingle]
  dsimp only
  rw [if_pos hc]
  cases h with
  | spaces => exact absurd rfl hspace
  | folded => exact absurd rfl hspace
  | nothing h =>
    have hbefore : before.any isBreak = false := (@Passed.nothing before rest h).not_isBreak
    by_cases hfeed : c = '\n'
    · subst hfeed
      refine ⟨[], .lines (some '\n') ['\n'] true, 0, .lines rfl (by simp), rfl, fun tail => ?_⟩
      simp only [hbefore, beq_self_eq_true, Bool.not_false, Bool.and_self, if_true, List.cons_append,
        List.nil_append]
      rw [single_break rfl (by decide), single_break rfl (by decide), push_nil]
      rfl
    · refine ⟨[], .lines (some c) [] true, 0, .lines hc (fun h => absurd h hfeed), ?_, fun tail => ?_⟩
      · simp [Between.text, foldLines, hfeed]
      · simp only [hfeed, beq_iff_eq, Bool.and_eq_true, false_and, if_false, List.cons_append, List.nil_append]
        rw [single_break hc hnext, push_nil]
        rfl
  | @lines b d others _ hb h =>
    refine ⟨[], .lines (some d) (others ++ [c]) true, 0, .lines hc (by simp), ?_, fun tail => ?_⟩
    · by_cases hd : d = '\n'
      · simp [Between.text, foldLines, hd, h hd]
      · simp [Between.text, foldLines, hd]
    · simp only [Option.any_some, hb, Bool.not_true, Bool.and_false, Bool.false_eq_true, if_false,
        List.cons_append, List.nil_append]
      rw [single_break hc hnext, push_nil]
      rfl

/-- A space is kept, or stands for the line break that is written in its place. -/
theorem singleStep_space {before : Option Char} {rest : List Char} (h : Passed before (' ' :: rest) passed)
    (hindent : 0 < indent) (hbefore : before.any isBreak = false) :
    SingleStep indent column before passed ' ' rest := by
  unfold SingleStep
  rw [writeSingle]
  simp only [show isBreak ' ' = false from rfl, hbefore, Bool.false_eq_true, if_false, List.nil_append,
    show (' ' == '\'') = false from rfl, beq_self_eq_true, Bool.true_and]
  split
  · next hfold =>
    simp only [Bool.and_eq_true] at hfold
    obtain ⟨⟨⟨hword, -⟩, hsingle⟩, -⟩ := hfold
    cases h with
    | spaces => simp at hword
    | folded => simp at hword
    | lines hb => simp [hb] at hbefore
    | nothing =>
      refine ⟨[], .lines (some '\n') [] false, indent, .folded hsingle, rfl, fun tail => ?_⟩
      rw [newLine, List.cons_append, List.cons_append, single_break rfl (by decide), List.append_assoc, push_nil]
      exact single_indent hindent
  · cases h with
    | nothing =>
      refine ⟨[], .spaces [' '], column + 1, .spaces, rfl, fun tail => ?_⟩
      rw [List.cons_append, single_space, push_nil]
      rfl
    | @spaces spaces =>
      refine ⟨[], .spaces (spaces ++ [' ']), column + 1, .spaces, rfl, fun tail => ?_⟩
      rw [List.cons_append, single_space, push_nil]
      rfl
    | folded h => simp [startsWithoutSpace] at h
    | lines hb => simp [hb] at hbefore

/-- A character of a word is read with all that was kept before it. -/
theorem singleStep_char {before : Option Char} {rest : List Char} (h : Passed before (c :: rest) passed)
    (hindent : 0 < indent) (hc : isBreak c = false) (hspace : c ≠ ' ') (hshown : Traits.isShown c = true) :
    SingleStep indent column before passed c rest := by
  obtain ⟨passed', hline, htext, hlead⟩ := h.exists_after hindent
  have hnothing : Passed (some c) rest .nothing := by
    refine .nothing fun d hd => ?_
    cases hd
    exact ⟨hc, hspace⟩
  unfold SingleStep
  rw [writeSingle]
  dsimp only
  rw [hc, if_neg Bool.false_ne_true]
  generalize (if before.any isBreak = true then indent else column) = column'
  split
  · next hquote =>
    rw [beq_iff_eq] at hquote
    subst hquote
    refine ⟨passed.text ++ ['\''], .nothing, column' + 2, hnothing, List.append_nil _, fun tail => ?_⟩
    rw [List.append_assoc, hlead, List.cons_append, List.cons_append, single_quote, htext]
  · next hquote =>
    rw [beq_iff_eq] at hquote
    have hgap : isGap c = false := by
      rw [Bool.eq_false_iff]
      intro hgap
      exact hspace (eq_space_of_isGap hshown hc hgap)
    refine ⟨passed.text ++ [c], .nothing, column' + 1, hnothing, List.append_nil _, fun tail => ?_⟩
    rw [if_neg (by simp [hspace]), List.append_assoc, hlead, List.cons_append,
      single_char hline hgap hquote, htext]

/-- A text between single quotes is read back. -/
theorem single_writeSingle (hindent : 0 < indent) (hk : k.head? ≠ some '\'') {before : Option Char}
    (hshown : ∀ c ∈ cs, Traits.isShown c = true) (hnext : '\u0085' ∉ cs)
    (hbreakSpace : Traits.anyNeighbours (fun a b => isBreak a && b == ' ') (before.toList ++ cs) = false)
    (hspaceBreak : Traits.anyNeighbours (fun a b => a == ' ' && isBreak b) (before.toList ++ cs) = false)
    (hpassed : Passed before cs passed) :
    single passed (writeSingle indent column before cs ++ '\'' :: k) = .ok (passed.text ++ cs, k) := by
  induction cs generalizing column before passed with
  | nil =>
    obtain ⟨passed', -, htext, hlead⟩ := hpassed.exists_after hindent
    rw [writeSingle, hlead, single_end hk, htext, List.append_nil]
  | cons c rest ih =>
    rw [List.forall_mem_cons] at hshown
    rw [List.mem_cons, not_or] at hnext
    -- whatever `c` is, the text up to it is read, and the rest is read from there
    have hstep : SingleStep indent column before passed c rest := by
      rcases Bool.eq_false_or_eq_true (isBreak c) with hc | hc
      · refine singleStep_break hpassed hc (Ne.symm hnext.1) fun hbefore => ?_
        simpa [hc] using of_anyNeighbours hspaceBreak hbefore
      · by_cases hspace : c = ' '
        · subst hspace
          refine singleStep_space hpassed hindent ?_
          rw [Option.any_eq_false]
          intro b hb
          simpa using of_anyNeighbours hbreakSpace hb
        · exact singleStep_char hpassed hindent hc hspace hshown.1
    obtain ⟨out, passed', column', hpassed', htext, hread⟩ := hstep
    have hrest := @ih column' _ _ hshown.2 hnext.2 (anyNeighbours_append hbreakSpace)
      (anyNeighbours_append hspaceBreak) hpassed'
    rw [hread, hrest, push_ok, ← List.append_assoc, htext, List.append_assoc]
    rfl

/-! ## Escapes -/

theorem hexDigit?_hexDigit : ∀ d < 16, hexDigit? (Text.hexDigit d).toUpper = some d := by decide

/-- Digits of base 16 are read as the number that they were written for. -/
theorem hexValue?_hex (width count value n : Nat) (cs : List Char) :
    hexValue? (width + count) value ((Text.hex width n).map Char.toUpper ++ cs) =
      hexValue? count (value * 16 ^ width + n % 16 ^ width) cs := by
  induction width generalizing count n cs with
  | zero => simp [Text.hex, Nat.mod_one]
  | succ width ih =>
    have hcount : width + 1 + count = width + (count + 1) := by omega
    have hvalue : 16 * (value * 16 ^ width + n / 16 % 16 ^ width) + n % 16 =
        value * 16 ^ (width + 1) + n % 16 ^ (width + 1) := by
      rw [Nat.pow_succ, Nat.mul_comm (16 ^ width) 16, Nat.mod_mul, Nat.mul_left_comm value]
      omega
    rw [Text.hex, List.map_append, List.append_assoc, hcount, ih]
    rw [List.map_singleton, List.singleton_append, hexValue?, hexDigit?_hexDigit _ (Nat.mod_lt _ (by decide)),
      Option.bind_some, hvalue]

/-- The number of a character is read as the character. -/
theorem character_toNat (c : Char) : character c.toNat = .ok c := by
  have hvalid : c.toNat.isValidChar := c.valid
  rw [character, if_pos hvalid, Char.ofNat_toNat]

/-- An escape by number is read as its character. -/
theorem escape_hex {letter : Char} {count : Nat} (hletter : shortEscapes.lookup letter = none)
    (hcount : escapeLength? letter = some count) (hc : c.toNat < 16 ^ count) (cs : List Char) :
    escape (letter :: ((Text.hex count c.toNat).map Char.toUpper ++ cs)) = .ok (c, count + 1) := by
  have hvalue := hexValue?_hex count 0 0 c.toNat cs
  rw [Nat.zero_mul, Nat.zero_add, Nat.mod_eq_of_lt hc, Nat.add_zero] at hvalue
  rw [escape, hletter, hcount]
  dsimp only
  rw [hvalue, hexValue?]
  dsimp only
  rw [character_toNat]
  rfl

/-- Every letter of an escape is read as the character that it is written for. -/
theorem shortEscapes_escapeLetters :
    ∀ e ∈ escapeLetters, shortEscapes.lookup e.2 = some (Char.ofNat e.1) := by decide

/-- An escape is a backslash and what is read as the character. -/
theorem escape_escape (c : Char) :
    ∃ tail, Yaml.escape c = '\\' :: tail ∧ ∀ cs, escape (tail ++ cs) = .ok (c, tail.length) := by
  unfold Yaml.escape
  dsimp only
  split
  · next letter hletter =>
    obtain ⟨before, after, hsplit, -⟩ := List.lookup_eq_some_iff.1 hletter
    have hread := shortEscapes_escapeLetters (c.toNat, letter) (by rw [hsplit]; simp)
    refine ⟨[letter], rfl, fun cs => ?_⟩
    rw [List.singleton_append, escape, hread, Char.ofNat_toNat]
    rfl
  · have hlength : ∀ width, ((Text.hex width c.toNat).map Char.toUpper).length + 1 = width + 1 := by
      simp [Text.length_hex]
    split
    · refine ⟨_, rfl, fun cs => ?_⟩
      rw [List.cons_append, List.length_cons, hlength, escape_hex (by decide) (by decide) (by omega)]
    · split
      · refine ⟨_, rfl, fun cs => ?_⟩
        rw [List.cons_append, List.length_cons, hlength, escape_hex (by decide) (by decide) (by omega)]
      · refine ⟨_, rfl, fun cs => ?_⟩
        have hvalid : c.toNat.isValidChar := c.valid
        rw [List.cons_append, List.length_cons, hlength, escape_hex (by decide) (by decide)
          (by rcases hvalid with h | h <;> omega)]

/-! ## Double quotes, character by character -/

theorem double_skip (as : List Char) : double as.length passed (as ++ cs) = double 0 passed cs := by
  induction as with
  | nil => rfl
  | cons a as ih =>
    rw [List.length_cons, List.cons_append, double, ih]

theorem double_end : double 0 passed ('"' :: k) = .ok (passed.text, k) := by
  rw [double.eq_def]
  dsimp only
  rw [if_neg (not_border_cons (by decide) (by decide))]
  rfl

theorem double_space : double 0 passed (' ' :: cs) = double 0 (passed.addSpace ' ') cs := by
  rw [double.eq_def]
  dsimp only
  rw [if_neg (not_border_cons (by decide) (by decide))]
  rfl

/-- No escape starts with a line end. -/
theorem isLineEnd_of_escape {e : Char × Nat} (h : escape (c :: cs) = .ok e) : isLineEnd c = false := by
  have hshort : shortEscapes.all (fun e => isLineEnd e.1 == false) = true := by decide
  have hlong : ∀ e ∈ [('x', 2), ('u', 4), ('U', 8)], isLineEnd e.1 = false := by decide
  rw [escape] at h
  cases hc : shortEscapes.lookup c with
  | some d =>
    obtain ⟨before, after, hsplit, -⟩ := List.lookup_eq_some_iff.1 hc
    exact beq_iff_eq.1 (List.all_eq_true.1 hshort (c, d) (by rw [hsplit]; simp))
  | none =>
    cases hlength : escapeLength? c with
    | some count =>
      obtain ⟨before, after, hsplit, -⟩ := List.lookup_eq_some_iff.1 hlength
      exact hlong (c, count) (by rw [hsplit]; simp)
    | none =>
      rw [hc, hlength] at h
      cases h

/-- After a backslash an escape stands for its character. -/
theorem double_backslash {e : Char} {length : Nat} (h : escape (c :: cs) = .ok (e, length)) :
    double 0 passed ('\\' :: c :: cs) =
      push (passed.text ++ [e]) (double (length - 1) .nothing cs) := by
  have hend := isLineEnd_of_escape h
  have hreturn : c ≠ '\r' := by
    rintro rfl
    cases hend
  rw [double.eq_def]
  dsimp only
  rw [if_neg (not_border_cons (by decide) (by decide))]
  split
  · next heq => cases heq
  · next heq => cases heq
  · next heq =>
    cases heq
    exact absurd rfl hreturn
  · next heq =>
    cases heq
    rw [hend, h]
    rfl
  · next heq => cases heq
  · next hother _ heq =>
    cases heq
    exact absurd rfl (hother c cs rfl)

/-- An escape stands for its character. -/
theorem double_escape (c : Char) :
    double 0 passed (Yaml.escape c ++ cs) = push (passed.text ++ [c]) (double 0 .nothing cs) := by
  obtain ⟨tail, htail, hread⟩ := escape_escape c
  cases tail with
  | nil => cases hread []
  | cons d ds =>
    have hstep := @double_backslash (ds ++ cs) d passed c _ (hread cs)
    rw [List.length_cons, Nat.add_sub_cancel, double_skip] at hstep
    rw [htail]
    exact hstep

/-- A space after a backslash stands for itself. -/
theorem double_escapedSpace :
    double 0 passed ('\\' :: ' ' :: cs) = push (passed.text ++ [' ']) (double 0 .nothing cs) := by
  have hread : escape (' ' :: cs) = .ok (' ', 1) := rfl
  exact double_backslash hread

/-- The indentation of a line does not count. -/
theorem double_indent {first : Option Char} {others : List Char} {atStart : Bool} (hindent : 0 < indent) :
    double 0 (.lines first others atStart) (List.replicate indent ' ' ++ cs) =
      double 0 (.lines first others false) cs := by
  induction indent generalizing atStart with
  | zero => exact absurd hindent (Nat.lt_irrefl 0)
  | succ n ih =>
    rw [List.replicate_succ, List.cons_append, double_space]
    rcases Nat.eq_zero_or_pos n with rfl | hn
    · rfl
    · exact ih hn

/-- A line that ends in a backslash goes on without a gap. -/
theorem double_continued (hindent : 0 < indent) :
    double 0 passed ('\\' :: newLine indent ++ cs) =
      push passed.text (double 0 (.lines none [] false) cs) := by
  rw [newLine, List.cons_append, List.cons_append, double.eq_def]
  dsimp only
  rw [if_neg (not_border_cons (by decide) (by decide))]
  show push passed.text (double 0 (.lines none [] true) (List.replicate indent ' ' ++ cs)) = _
  rw [double_indent hindent]

/-- A character that needs no escape and is no space. -/
theorem double_char (hline : passed.isLineStart = false) (hgap : isGap c = false) (hquote : c ≠ '"')
    (hbackslash : c ≠ '\\') :
    double 0 passed (c :: cs) = push (passed.text ++ [c]) (double 0 .nothing cs) := by
  have hreturn : c ≠ '\r' := by
    rintro rfl
    cases hgap
  rw [isGap, Bool.or_eq_false_iff, Bool.or_eq_false_iff] at hgap
  rw [double.eq_def]
  dsimp only
  rw [if_neg (not_border hline)]
  split <;> simp_all

/-! ## Double quotes -/

/-- A character that needs no escape is a space, or no gap, quote or backslash. -/
theorem of_needsEscape (h : needsEscape c = false) (hspace : c ≠ ' ') :
    isGap c = false ∧ c ≠ '"' ∧ c ≠ '\\' := by
  obtain ⟨hshown, hbreak⟩ := shown_of_needsEscape h
  refine ⟨?_, ?_, ?_⟩
  · rw [Bool.eq_false_iff]
    intro hgap
    exact hspace (eq_space_of_isGap hshown hbreak hgap)
  · rintro rfl
    exact absurd h (by decide)
  · rintro rfl
    exact absurd h (by decide)

/-- What the reader has passed, and what of the writer's text it has not, where the writer goes on with
`cs`: a line joined by a backslash goes on with a character of a word, or with the backslash of a space. -/
inductive Kept : (lead : List Char) → (column : Nat) → (first afterEscape : Bool) → Between → List Char → Prop
  | nothing {column : Nat} {first afterEscape : Bool} {cs : List Char} :
      Kept [] column first afterEscape .nothing cs
  | spaces {column : Nat} {first afterEscape : Bool} {spaces cs : List Char} :
      Kept [] column first afterEscape (.spaces spaces) cs
  | joined {column : Nat} {first afterEscape : Bool} {cs : List Char} (h : startsWithoutSpace cs = true) :
      Kept [] column first afterEscape (.lines none [] false) cs
  | joinedSpace {column : Nat} {cs : List Char} (h : startsWithoutSpace cs = false)
      (hcolumn : column ≤ lineWidth) : Kept ['\\'] column false false (.lines none [] false) cs

variable {lead rest : List Char} {first afterEscape : Bool}

/-- What is written for `c` is read as `c`: the reader goes on after it, and what it has read by then and
what it keeps are the text up to `c`. -/
def DoubleStep (indent : Nat) (lead : List Char) (column : Nat) (first afterEscape : Bool) (passed : Between)
    (c : Char) (rest : List Char) : Prop :=
  ∃ out lead' column' afterEscape' passed', Kept lead' column' false afterEscape' passed' rest ∧
    out ++ passed'.text = passed.text ++ [c] ∧
    ∀ tail, double 0 passed (lead ++ writeDouble indent column first afterEscape (c :: rest) ++ tail) =
      push out (double 0 passed' (lead' ++ writeDouble indent column' false afterEscape' rest ++ tail))

/-- An escape is read as its character, also where the line is joined with the next one after it. -/
theorem doubleStep_escape (hindent : 0 < indent) (hwidth : indent < lineWidth) (hc : needsEscape c = true) :
    DoubleStep indent [] column first afterEscape passed c rest := by
  unfold DoubleStep
  rw [writeDouble, hc]
  dsimp only
  rw [if_pos rfl, List.nil_append]
  split
  · split
    · next hword =>
      refine ⟨passed.text ++ [c], [], indent, false, .lines none [] false, .joined hword, List.append_nil _,
        fun tail => ?_⟩
      rw [List.append_assoc, List.append_assoc, double_escape, double_continued hindent]
      exact congrArg _ (push_nil _)
    · next hspace =>
      refine ⟨passed.text ++ [c], ['\\'], indent + 1, false, .lines none [] false,
        .joinedSpace (Bool.eq_false_iff.2 hspace) hwidth, List.append_nil _, fun tail => ?_⟩
      rw [List.append_assoc, List.append_assoc, double_escape, double_continued hindent]
      exact congrArg _ (push_nil _)
  · refine ⟨passed.text ++ [c], [], column + (Yaml.escape c).length, true, .nothing, .nothing, List.append_nil _,
      fun tail => ?_⟩
    rw [List.append_assoc, double_escape]
    rfl

/-- A character that needs no escape is read as itself, also where the line is joined before it. -/
theorem doubleStep_char (h : Kept [] column first afterEscape passed (c :: rest)) (hindent : 0 < indent)
    (hc : needsEscape c = false) (hspace : c ≠ ' ') :
    DoubleStep indent [] column first afterEscape passed c rest := by
  have hline : passed.isLineStart = false := by cases h <;> rfl
  obtain ⟨hgap, hquote, hbackslash⟩ := of_needsEscape hc hspace
  unfold DoubleStep
  rw [writeDouble, hc]
  simp only [Bool.false_eq_true, beq_iff_eq, hspace, if_false, List.nil_append]
  split
  · refine ⟨passed.text ++ [c], [], indent + 1, false, .nothing, .nothing, List.append_nil _, fun tail => ?_⟩
    rw [List.append_nil, List.append_assoc, double_continued hindent, List.cons_append,
      double_char rfl hgap hquote hbackslash, push_push]
    rfl
  · refine ⟨passed.text ++ [c], [], column + 1, false, .nothing, .nothing, List.append_nil _, fun tail => ?_⟩
    rw [List.cons_append, double_char hline hgap hquote hbackslash]
    rfl

/-- A space is kept. Where the line is joined before it, a backslash keeps it. -/
theorem doubleStep_space (h : Kept lead column first afterEscape passed (' ' :: rest)) (hindent : 0 < indent) :
    DoubleStep indent lead column first afterEscape passed ' ' rest := by
  have hescape : needsEscape ' ' = false := by decide
  unfold DoubleStep
  rw [writeDouble, hescape]
  simp only [Bool.false_eq_true, beq_self_eq_true, if_false, if_true]
  cases h with
  | joined h => cases h
  | joinedSpace _ hcolumn =>
    have hshort : ¬ lineWidth < column := Nat.not_lt.2 hcolumn
    refine ⟨[' '], [], column + 1, false, .nothing, .nothing, rfl, fun tail => ?_⟩
    simp only [hshort, decide_false, Bool.and_false, Bool.false_eq_true, if_false]
    exact double_escapedSpace
  | nothing =>
    split
    · refine ⟨[' '], [], indent + 2, false, .nothing, .nothing, rfl, fun tail => ?_⟩
      rw [List.nil_append, List.append_assoc, List.append_assoc, double_continued hindent]
      exact (push_nil _).trans double_escapedSpace
    · refine ⟨[], [], column + 1, false, .spaces [' '], .spaces, rfl, fun tail => ?_⟩
      rw [List.nil_append, List.cons_append, double_space, push_nil]
      rfl
  | @spaces _ _ _ spaces =>
    split
    · refine ⟨spaces ++ [' '], [], indent + 2, false, .nothing, .nothing, List.append_nil _, fun tail => ?_⟩
      rw [List.nil_append, List.append_assoc, List.append_assoc, double_continued hindent, ← push_push]
      exact congrArg _ double_escapedSpace
    · refine ⟨[], [], column + 1, false, .spaces (spaces ++ [' ']), .spaces, rfl, fun tail => ?_⟩
      rw [List.nil_append, List.cons_append, double_space, push_nil]
      rfl

/-- A text between double quotes is read back from every place in it. -/
theorem double_writeDouble_kept (hindent : 0 < indent) (hwidth : indent < lineWidth)
    (h : Kept lead column first afterEscape passed cs) :
    double 0 passed (lead ++ writeDouble indent column first afterEscape cs ++ '"' :: k) =
      .ok (passed.text ++ cs, k) := by
  induction cs generalizing lead column first afterEscape passed with
  | nil =>
    cases h with
    | joinedSpace h => cases h
    | nothing => exact double_end
    | spaces => exact double_end.trans (by rw [List.append_nil])
    | joined => exact double_end
  | cons c rest ih =>
    have hstep : DoubleStep indent lead column first afterEscape passed c rest := by
      by_cases hspace : c = ' '
      · subst hspace
        exact doubleStep_space h hindent
      · -- only a space is kept by a backslash before it
        have hlead : lead = [] := by
          cases h with
          | joinedSpace h => exact absurd h (by simpa [startsWithoutSpace] using hspace)
          | _ => rfl
        subst hlead
        rcases Bool.eq_false_or_eq_true (needsEscape c) with hc | hc
        · exact doubleStep_escape hindent hwidth hc
        · exact doubleStep_char h hindent hc hspace
    obtain ⟨out, lead', column', afterEscape', passed', h', htext, hread⟩ := hstep
    rw [hread, ih h', push_ok, ← List.append_assoc, htext, List.append_assoc]
    rfl

/-- A text between double quotes is read back. -/
theorem double_writeDouble (hindent : 0 < indent) (hwidth : indent < lineWidth) {first : Bool} :
    double 0 .nothing (writeDouble indent column first false cs ++ '"' :: k) = .ok (cs, k) :=
  double_writeDouble_kept hindent hwidth .nothing

end VirtNet.Yaml.Quoted
