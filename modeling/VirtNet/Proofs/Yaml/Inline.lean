import VirtNet.Proofs.Value.Induction
import VirtNet.Proofs.Value.Text
import VirtNet.Yaml.Writer

/-!
# Texts on one line

A text without line breaks that fits the width is written on one line: plainly as itself, in quotes
character by character (`writePlain_of_fits`, `writeSingle_of_fits`, `writeDouble_of_fits`), so there is no
break in it (`isBreak_of_mem_writeInline`). A key that stands on the line of its value fits
(`lineFeed_not_mem_simpleKey`).
-/

namespace VirtNet.Yaml

open Text

variable {cs : List Char} {indent column : Nat}

/-! ## Plain and quoted texts -/

/-- A plain text that fits is written as itself. -/
theorem writePlain_of_fits {afterSpace : Bool} (h : column + cs.length ≤ lineWidth) :
    writePlain indent column afterSpace cs = cs := by
  induction cs generalizing column afterSpace with
  | nil => rfl
  | cons c rest ih =>
    rw [List.length_cons] at h
    have hcolumn : ¬ lineWidth < column := by omega
    have hrest : ∀ b, writePlain indent (column + 1) b rest = rest := fun b => ih (by omega)
    rw [writePlain, hrest]
    simp [hcolumn]

/-- A character between single quotes. -/
def singleChar (c : Char) : List Char := if c = '\'' then ['\'', '\''] else [c]

/-- A text without breaks that fits is written character by character between single quotes. -/
theorem writeSingle_of_fits {before : Option Char} (hbreaks : ∀ c ∈ cs, isBreak c = false)
    (hbefore : before.any isBreak = false) (h : column + 2 * cs.length ≤ lineWidth) :
    writeSingle indent column before cs = cs.flatMap singleChar := by
  induction cs generalizing column before with
  | nil => simp [writeSingle, hbefore]
  | cons c rest ih =>
    rw [List.length_cons] at h
    rw [List.forall_mem_cons] at hbreaks
    have hcolumn : ¬ lineWidth < column := by omega
    have hrest : ∀ k ≤ 2, writeSingle indent (column + k) (some c) rest = rest.flatMap singleChar :=
      fun k hk => ih hbreaks.2 (by simpa using hbreaks.1) (by omega)
    rw [writeSingle, List.flatMap_cons, singleChar]
    dsimp only
    rw [hbreaks.1, hbefore]
    by_cases hc : c = '\''
    · simp [hc, ← hrest 2 (by omega)]
    · simp [hc, hcolumn, hrest 1 (by omega)]

/-- A character between double quotes. -/
def doubleChar (c : Char) : List Char := if needsEscape c then escape c else [c]

/-- An escape has at most ten characters. -/
theorem length_escape_le (c : Char) : (escape c).length ≤ 10 := by
  unfold escape
  dsimp only
  split
  · simp
  · split
    · simp [length_hex]
    · split <;> simp [length_hex]

/-- A text that fits is written character by character between double quotes. -/
theorem writeDouble_of_fits {first afterEscape : Bool} (h : column + 10 * cs.length ≤ lineWidth) :
    writeDouble indent column first afterEscape cs = cs.flatMap doubleChar := by
  induction cs generalizing column first afterEscape with
  | nil => rfl
  | cons c rest ih =>
    rw [List.length_cons] at h
    have hcolumn : ¬ lineWidth < column := by omega
    have hlength := length_escape_le c
    have hescape : ¬ lineWidth + 1 < column + (escape c).length := by omega
    have hrest : ∀ k ≤ 10, ∀ b, writeDouble indent (column + k) false b rest = rest.flatMap doubleChar :=
      fun k hk b => ih (by omega)
    rw [writeDouble, List.flatMap_cons, doubleChar]
    by_cases hc : needsEscape c = true
    · simp [hc, hescape, hrest _ hlength]
    · simp [hc, hcolumn, hrest 1 (by omega)]

/-! ## Line breaks -/

/-- What needs no escape may be shown and breaks no line. -/
theorem shown_of_needsEscape {c : Char} (h : needsEscape c = false) : Traits.isShown c = true ∧ isBreak c = false := by
  have hfeed : c ≠ '\n' := by
    rintro rfl
    exact absurd h (by decide)
  simp only [needsEscape, Bool.or_eq_false_iff, beq_eq_false_iff_ne, Bool.not_eq_false', Bool.or_eq_true,
    Bool.and_eq_true, decide_eq_true_eq] at h
  constructor
  · simp only [Traits.isShown, Bool.or_eq_true, Bool.and_eq_true, decide_eq_true_eq, bne_iff_ne]
    omega
  · simp [isBreak, hfeed, h]

/-- The characters of an escape can be shown, and none of them is a break. -/
theorem shown_of_mem_escape {c d : Char} (h : d ∈ escape c) : Traits.isShown d = true ∧ isBreak d = false := by
  have hletters : ∀ e ∈ escapeLetters, Traits.isShown e.2 = true ∧ isBreak e.2 = false := by decide
  have hdigits : ∀ width n, ∀ d ∈ (hex width n).map Char.toUpper,
      Traits.isShown d = true ∧ isBreak d = false := by
    intro width n d hd
    obtain ⟨e, he, rfl⟩ := List.mem_map.1 hd
    obtain ⟨k, hk, rfl⟩ := mem_hex he
    have hupper : ∀ k < 16, Traits.isShown (hexDigit k).toUpper = true ∧
        isBreak (hexDigit k).toUpper = false := by decide
    exact hupper k hk
  have hmark : ∀ letter, Traits.isShown letter = true ∧ isBreak letter = false → ∀ width,
      d ∈ '\\' :: letter :: (hex width c.toNat).map Char.toUpper →
      Traits.isShown d = true ∧ isBreak d = false := by
    intro letter hletter width hd
    rw [List.mem_cons, List.mem_cons] at hd
    rcases hd with rfl | rfl | hd
    · decide
    · exact hletter
    · exact hdigits width c.toNat d hd
  unfold escape at h
  dsimp only at h
  split at h
  · next letter hlookup =>
    obtain ⟨before, after, hsplit, -⟩ := List.lookup_eq_some_iff.1 hlookup
    have hletter := hletters (c.toNat, letter) (by rw [hsplit]; simp)
    rw [List.mem_cons, List.mem_singleton] at h
    rcases h with rfl | rfl
    · decide
    · exact hletter
  · split at h
    · exact hmark 'x' (by decide) 2 h
    · split at h
      · exact hmark 'u' (by decide) 4 h
      · exact hmark 'U' (by decide) 8 h

/-- The escape of a character has no line feed in it. -/
theorem lineFeed_not_mem_escape (c : Char) : '\n' ∉ escape c := fun h =>
  absurd (shown_of_mem_escape h).2 (by decide)

/-- A text without breaks that fits is written without breaks. -/
theorem isBreak_of_mem_writeInline {s : Style} (hbreaks : ∀ c ∈ cs, isBreak c = false)
    (h : column + 1 + 10 * cs.length ≤ lineWidth) : ∀ c ∈ writeInline indent column s cs, isBreak c = false := by
  have hsingle : ∀ c ∈ cs.flatMap singleChar, isBreak c = false := by
    intro c hc
    obtain ⟨d, hd, hmem⟩ := List.mem_flatMap.1 hc
    rw [singleChar] at hmem
    split at hmem
    · obtain rfl : c = '\'' := by simpa using hmem
      rfl
    · rw [List.mem_singleton.1 hmem]
      exact hbreaks d hd
  have hdouble : ∀ c ∈ cs.flatMap doubleChar, isBreak c = false := by
    intro c hc
    obtain ⟨d, hd, hmem⟩ := List.mem_flatMap.1 hc
    rw [doubleChar] at hmem
    split at hmem
    · exact (shown_of_mem_escape hmem).2
    · rw [List.mem_singleton.1 hmem]
      exact hbreaks d hd
  have hquotes : ∀ q, isBreak q = false → ∀ ds, (∀ c ∈ ds, isBreak c = false) →
      ∀ c ∈ q :: ds ++ [q], isBreak c = false := by
    intro q hq ds hds
    simpa [or_imp, forall_and, hq] using hds
  have hquoted : ∀ c ∈ '"' :: writeDouble indent (column + 1) true false cs ++ ['"'], isBreak c = false := by
    rw [writeDouble_of_fits h]
    exact hquotes '"' rfl _ hdouble
  cases s with
  | plain =>
    rw [writeInline, writePlain_of_fits (by omega)]
    exact hbreaks
  | single =>
    rw [writeInline, writeSingle_of_fits hbreaks rfl (by omega)]
    exact hquotes '\'' rfl _ hsingle
  | double => exact hquoted
  | literal => exact hquoted

/-- The plain form of a scalar is on one line. -/
theorem lineFeed_not_mem_plainForm (v : Value) : '\n' ∉ plainForm v := by
  cases v with
  | null => exact (by decide : '\n' ∉ "null".toList)
  | bool b =>
    cases b
    · exact (by decide : '\n' ∉ "false".toList)
    · exact (by decide : '\n' ∉ "true".toList)
  | int n => exact Value.not_mem_int rfl (by decide) n
  | float x =>
    have htext : '\n' ∉ x.toText.toList := Binary64.not_mem_toText (by decide) (by decide) x
    show '\n' ∉ floatText x
    unfold floatText
    split
    · decide
    · split <;> decide
    · dsimp only
      split
      · exact htext
      · simp only [List.mem_append, List.mem_cons, not_or]
        exact ⟨fun h => htext (List.takeWhile_subset _ h), by decide, by decide,
          fun h => htext (List.dropWhile_subset _ h)⟩
  | date d => exact Date.not_mem_toText rfl (by decide) d
  | moment m => exact Moment.not_mem_textWith rfl (by decide) (by decide) m
  | _ => exact List.not_mem_nil

theorem lineFeed_not_mem_anchorName (anchor : Nat) : '\n' ∉ anchorName anchor := by
  simp [anchorName, not_mem_padded]

/-- A text that is a key on the line of its value is not empty, without breaks, and short. -/
theorem of_simpleKey_text {k : String} (h : simpleKey? (.text k) = some cs) :
    cs = writeInline 0 0 (style k.toList) k.toList ∧ (∀ c ∈ k.toList, isBreak c = false) ∧
      k.toList.length ≤ 122 := by
  rw [simpleKey?] at h
  dsimp only at h
  split at h
  · cases h
  · next hshort =>
    rw [Bool.or_eq_true, Bool.or_eq_true, not_or, not_or, Bool.not_eq_true', Bool.not_eq_false,
      decide_eq_true_eq] at hshort
    have hlength := hshort.2
    have htag : "!!str".length = 5 := rfl
    rw [maxKeyLength] at hlength
    exact ⟨(Option.some.inj h).symm, by simpa using hshort.1.2, by omega⟩

/-- A key on the line of its value is on one line. -/
theorem lineFeed_not_mem_simpleKey {key : Value} (h : simpleKey? key = some cs) : '\n' ∉ cs := by
  induction key using Value.inductionOn generalizing cs with
  | text s =>
    obtain ⟨rfl, hbreaks, hlength⟩ := of_simpleKey_text h
    intro hmem
    have hfits : 0 + 1 + 10 * s.toList.length ≤ lineWidth := by
      rw [lineWidth]
      omega
    exact absurd (isBreak_of_mem_writeInline hbreaks hfits _ hmem) (by decide)
  | int n =>
    rw [simpleKey?] at h
    dsimp only at h
    split at h
    · obtain rfl := Option.some.inj h
      exact lineFeed_not_mem_plainForm (.int n)
    · cases h
  | numbered anchor v ih =>
    rw [simpleKey?, Option.map_eq_some_iff] at h
    obtain ⟨inner, hinner, rfl⟩ := h
    simpa [lineFeed_not_mem_anchorName] using ih hinner
  | again anchor =>
    rw [simpleKey?] at h
    obtain rfl := Option.some.inj h
    simpa using lineFeed_not_mem_anchorName anchor
  | null | bool _ | float _ | date _ | moment _ =>
    rw [simpleKey?] at h
    obtain rfl := Option.some.inj h
    exact lineFeed_not_mem_plainForm _
  | bytes _ | list _ _ | pair _ _ _ _ | set _ _ | dict _ _ =>
    simp [simpleKey?] at h

end VirtNet.Yaml
