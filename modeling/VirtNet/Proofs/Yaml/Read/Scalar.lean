import VirtNet.Proofs.Yaml.Read.Lexer

/-!
# Scalars as tokens

Where a scalar of a document starts the lexer finds one token with its text: for a text in the style
chosen for it (`finds_writeInline_line`, `finds_writeInline_key`), and for every other plain form
(`finds_writePlain`).
-/

namespace VirtNet.Yaml

open Lexer

variable {as cs k : List Char} {c : Char} {indent column n : Nat}

/-! ## Plain texts -/

namespace Plain

/-- What is written starts with a character that is no gap only if the text does. -/
theorem of_writePlain_eq_cons {afterSpace : Bool} {d e : Char} {ks : List Char}
    (h : writePlain indent column afterSpace cs ++ e :: ks = d :: as) (hgap : isGap d = false) (hne : e ≠ d) :
    ∃ rest, cs = d :: rest ∧ as = writePlain indent (column + 1) (d == ' ') rest ++ e :: ks := by
  cases cs with
  | nil =>
    rw [writePlain] at h
    exact absurd (List.cons.inj h).1 hne
  | cons c rest =>
    rw [writePlain] at h
    split at h
    · rw [newLine, List.cons_append, List.cons_append] at h
      rw [← (List.cons.inj h).1] at hgap
      cases hgap
    · rw [List.cons_append] at h
      obtain ⟨rfl, rfl⟩ := List.cons.inj h
      exact ⟨rest, rfl, rfl⟩

/-- A plain text starts like no border of a document. -/
theorem atBorder_writePlain {afterSpace : Bool} {e : Char} {ks : List Char}
    (h : Traits.startsAsDocumentMark cs = false) (he : e = '\n' ∨ e = ':') :
    atBorder (writePlain indent column afterSpace cs ++ e :: ks) = false := by
  have hmark : ∀ d, isGap d = false → e ≠ d → ∀ as,
      writePlain indent column afterSpace cs ++ e :: ks = d :: d :: d :: as → [d, d, d].isPrefixOf cs = true := by
    intro d hgap hne as has
    obtain ⟨one, rfl, hone⟩ := of_writePlain_eq_cons has hgap hne
    obtain ⟨two, rfl, htwo⟩ := of_writePlain_eq_cons hone.symm hgap hne
    obtain ⟨three, rfl, -⟩ := of_writePlain_eq_cons htwo.symm hgap hne
    simp
  rw [Traits.startsAsDocumentMark, Bool.or_eq_false_iff] at h
  rw [atBorder, startsDocument, endsDocument]
  · rfl
  · intro as has
    have hprefix := hmark '.' rfl (by rcases he with rfl | rfl <;> decide) as has
    rw [h.2] at hprefix
    cases hprefix
  · intro as has
    have hprefix := hmark '-' rfl (by rcases he with rfl | rfl <;> decide) as has
    rw [h.1] at hprefix
    cases hprefix

/-- A text that may be written without quotes starts with no gap, and not as an indicator. -/
theorem head_of_allowsPlain (h : (Traits.of (c :: cs)).allowsPlain = true) :
    isGap c = false ∧ Traits.startsAsIndicator (c :: cs) = false ∧
      Traits.startsAsDocumentMark (c :: cs) = false := by
  have hclean := clean_of_allowsPlain h
  simp only [Traits.allowsPlain, Traits.of, Bool.not_eq_true', Bool.or_eq_false_iff] at h
  obtain ⟨⟨⟨⟨⟨⟨⟨⟨hmark, hstart⟩, -⟩, -⟩, -⟩, hleading⟩, -⟩, -⟩, -⟩ := h
  refine ⟨?_, hstart, hmark⟩
  rw [Bool.eq_false_iff]
  intro hgap
  rw [(hclean.1 hgap).1] at hleading
  cases hleading

/-- A text that may be written without quotes is a plain scalar when it is written so. -/
theorem startsPlain_writePlain {afterSpace : Bool} (h : (Traits.of (c :: cs)).allowsPlain = true) :
    startsPlain false c (writePlain indent column afterSpace cs ++ k) = true := by
  obtain ⟨hgap, hstart, -⟩ := head_of_allowsPlain h
  rw [Traits.startsAsIndicator, Bool.or_eq_false_iff] at hstart
  by_cases hindicator : c = '-' ∨ c = '?' ∨ c = ':'
  · have hrest : startsWithGap cs = false := by
      rcases hindicator with rfl | rfl | rfl <;> simpa using hstart.2
    rcases hindicator with rfl | rfl | rfl <;> simp [startsPlain, startsWithGap_writePlain hrest]
  · have hindicators : indicators.all (fun d => d == '-' || d == '?' || d == ':' ||
        Traits.startIndicators.contains d) = true := by decide
    have hnot : c ∉ indicators := by
      intro hc
      have hc := List.all_eq_true.1 hindicators c hc
      rw [hstart.1] at hc
      simp only [Bool.or_false, Bool.or_eq_true, beq_iff_eq, or_assoc] at hc
      exact hindicator hc
    simp [startsPlain, hgap, hnot]

end Plain

/-- A text that may be written without quotes is one token when it is written so. -/
theorem finds_writePlain {indents : List Nat} {e : Char} {ks rest : List Char} {crossed : Bool}
    (hplain : (Traits.of cs).allowsPlain = true) (hne : cs ≠ []) (hindent : 0 < indent)
    (hfloor : floorOf indents ≤ indent) (he : e = '\n' ∨ e = ':')
    (hend : Plain.ReadAs (floorOf indents) (e :: ks) ⟨[], crossed, rest⟩) :
    Finds indents (writePlain indent column false cs) (e :: ks) (.scalar true cs) rest crossed := by
  obtain ⟨c, cs, rfl⟩ := List.exists_cons_of_ne_nil hne
  obtain ⟨hgap, hstart, hmark⟩ := Plain.head_of_allowsPlain hplain
  have hsign : c ≠ '#' := by
    rintro rfl
    rw [Traits.startsAsIndicator, Bool.or_eq_false_iff] at hstart
    cases hstart.1
  have hspace : (c == ' ') = false := beq_eq_false_iff_ne.2 (Plain.ne_space_of_isGap hgap)
  have hwritten : writePlain indent column false (c :: cs) =
      c :: writePlain indent (column + 1) false cs := by
    rw [writePlain, hspace]
    rfl
  refine ⟨c, _, hwritten, hgap, hsign, fun allowed k tokens hk => ?_⟩
  have hstarts : startsPlain false c (writePlain indent (column + 1) false cs ++ e :: ks) = true :=
    Plain.startsPlain_writePlain hplain
  have hborder : atBorder (c :: (writePlain indent (column + 1) false cs ++ e :: ks)) = false := by
    rw [← List.cons_append, ← hwritten]
    exact Plain.atBorder_writePlain hmark he
  have hread : Plain.read false (floorOf indents) k.rest.length k.rest = ⟨c :: cs, crossed, rest⟩ := by
    rw [hk, ← List.cons_append, ← hwritten]
    exact Plain.read_writePlain (j := 0) hend hindent hfloor (Plain.clean_of_allowsPlain hplain)
      (fun h => absurd h (Nat.lt_irrefl 0)) _ (Nat.le_refl _)
  rw [← floor_between allowed k indents tokens] at hread
  rw [token_plain _ rfl hstarts fun _ => hborder, Lexer.plain, saveKey_between]
  show Except.ok ((({ between allowed k indents tokens with possible := keyAt allowed k indents tokens }.emit
    (.scalar true (Plain.read false (between allowed k indents tokens).floor k.rest.length k.rest).text)).moveTo
    (Plain.read false (between allowed k indents tokens).floor k.rest.length k.rest).rest).allowKey
    (Plain.read false (between allowed k indents tokens).floor k.rest.length k.rest).crossed) = _
  rw [hread]
  rfl

/-! ## Texts in quotes -/

/-- A text between single quotes is one token. -/
theorem finds_writeSingle {indents : List Nat} (hsingle : (Traits.of cs).allowsSingle = true)
    (hnext : '\u0085' ∉ cs) (hindent : 0 < indent) (hk : k.head? ≠ some '\'') :
    Finds indents ('\'' :: writeSingle indent column none cs ++ ['\'']) k (.scalar false cs) k false := by
  simp only [Traits.allowsSingle, Traits.of, Bool.not_eq_true', Bool.or_eq_false_iff, List.any_eq_false,
    Bool.not_eq_false] at hsingle
  have hpassed : Quoted.Passed none cs .nothing := .nothing fun c hc => by cases hc
  have hread := @Quoted.single_writeSingle cs k indent column .nothing hindent hk none hsingle.1.1 hnext
    hsingle.1.2 hsingle.2 hpassed
  refine ⟨'\'', writeSingle indent column none cs ++ ['\''], rfl, rfl, by decide,
    fun allowed cursor tokens _ => ?_⟩
  rw [List.append_assoc, List.singleton_append, token_single, Lexer.quoted, hread, saveKey_between]
  rfl

/-- A text between double quotes is one token. -/
theorem finds_writeDouble {indents : List Nat} {first : Bool} (hindent : 0 < indent)
    (hwidth : indent < lineWidth) :
    Finds indents ('"' :: writeDouble indent column first false cs ++ ['"']) k (.scalar false cs) k false := by
  have hread := @Quoted.double_writeDouble cs k indent column hindent hwidth first
  refine ⟨'"', writeDouble indent column first false cs ++ ['"'], rfl, rfl, by decide,
    fun allowed cursor tokens _ => ?_⟩
  rw [List.append_assoc, List.singleton_append, token_double, Lexer.quoted, hread, saveKey_between]
  rfl

/-! ## Texts in the style chosen for them -/

theorem of_style_plain (h : style cs = .plain) :
    cs ≠ [] ∧ (Traits.of cs).allowsPlain = true ∧ Tag.ofPlain cs = .text := by
  unfold style at h
  dsimp only at h
  split at h
  · split at h <;> cases h
  · split at h
    · cases h
    · next hne =>
      split at h
      · next hplain =>
        rw [Bool.and_eq_true, beq_iff_eq] at hplain
        exact ⟨by simpa using hne, hplain⟩
      · split at h <;> cases h

theorem of_style_single (h : style cs = .single) : (Traits.of cs).allowsSingle = true := by
  unfold style at h
  dsimp only at h
  split at h
  · split at h <;> cases h
  · split at h
    · next hempty =>
      rw [List.isEmpty_iff.1 hempty]
      rfl
    · split at h
      · cases h
      · split at h
        · next hsingle => exact hsingle
        · cases h

theorem of_style_literal (h : style cs = .literal) :
    (Traits.of cs).allowsLiteral = true ∧ '\n' ∈ cs := by
  unfold style at h
  dsimp only at h
  split at h
  · next hline =>
    split at h
    · next hliteral => exact ⟨hliteral, by simpa using hline⟩
    · cases h
  · split at h
    · cases h
    · split at h
      · cases h
      · split at h <;> cases h

/-- A text comes back from its style: only double quotes bring the next-line control back. -/
def ReadsBack (cs : List Char) : Prop := style cs = .double ∨ '\u0085' ∉ cs

/-- A text that ends its line is one token. -/
theorem finds_writeInline_line {indents : List Nat} {x : List Char} (hstyle : style cs ≠ .literal)
    (hback : ReadsBack cs) (hindent : 0 < indent) (hwidth : indent < lineWidth)
    (hfloor : floorOf indents ≤ indent) (hx : Starts x) (hxnil : x = [] → n = 0)
    (hstop : x = [] ∨ n < floorOf indents ∨ n = 0 ∧ atBorder x = true) :
    ∃ r crossed, Finds indents (writeInline indent column (style cs) cs) ('\n' :: (spaces n ++ x))
        (.scalar (style cs == .plain) cs) r crossed ∧
      (r = '\n' :: (spaces n ++ x) ∧ crossed = false ∨ r = x ∧ crossed = true) := by
  cases hs : style cs with
  | literal => exact absurd hs hstyle
  | plain =>
    obtain ⟨hne, hplain, -⟩ := of_style_plain hs
    exact ⟨x, true, finds_writePlain hplain hne hindent hfloor (.inl rfl)
      (Plain.readAs_lineFeed (fun c cs h => (hx c cs h).1) hxnil hstop), .inr ⟨rfl, rfl⟩⟩
  | single =>
    have hnext : '\u0085' ∉ cs := hback.resolve_left (by rw [hs]; decide)
    exact ⟨_, false, finds_writeSingle (of_style_single hs) hnext hindent (by simp), .inl ⟨rfl, rfl⟩⟩
  | double => exact ⟨_, false, finds_writeDouble hindent hwidth, .inl ⟨rfl, rfl⟩⟩

/-- A short text without breaks before a colon is one token. -/
theorem finds_writeInline_key {indents : List Nat} {rest : List Char} (hbreaks : ∀ c ∈ cs, isBreak c = false)
    (hshort : 1 + 10 * cs.length ≤ lineWidth) (hback : ReadsBack cs) (hrest : startsWithGap rest = true) :
    Finds indents (writeInline 0 0 (style cs) cs) (':' :: rest) (.scalar (style cs == .plain) cs)
      (':' :: rest) false := by
  cases hs : style cs with
  | literal =>
    -- a text in a block has a break
    have hline := (of_style_literal hs).2
    exact absurd (hbreaks _ hline) (by decide)
  | plain =>
    obtain ⟨hne, hplain, -⟩ := of_style_plain hs
    -- a text that fits the line is written alike at every indentation
    have hwritten : writePlain 0 0 false cs = writePlain (floorOf indents + 1) 0 false cs := by
      rw [writePlain_of_fits (by omega), writePlain_of_fits (by omega)]
    rw [writeInline, hwritten]
    exact finds_writePlain hplain hne (by omega) (by omega) (.inr rfl) (Plain.readAs_colon hrest)
  | single =>
    have hnext : '\u0085' ∉ cs := hback.resolve_left (by rw [hs]; decide)
    have hwritten : writeSingle 0 1 none cs = writeSingle 1 1 none cs := by
      rw [writeSingle_of_fits hbreaks rfl (by omega), writeSingle_of_fits hbreaks rfl (by omega)]
    rw [writeInline, hwritten]
    exact finds_writeSingle (of_style_single hs) hnext (by decide) (by simp)
  | double =>
    have hwritten : writeDouble 0 1 true false cs = writeDouble 1 1 true false cs := by
      rw [writeDouble_of_fits (by omega), writeDouble_of_fits (by omega)]
    rw [writeInline, hwritten]
    exact finds_writeDouble (by decide) (by decide)

end VirtNet.Yaml
