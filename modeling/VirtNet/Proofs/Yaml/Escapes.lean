import VirtNet.Proofs.Journal
import VirtNet.Proofs.Yaml.Read.Cursor
import VirtNet.Yaml.Token.Lexer

/-!
# Escapes of code points

An escape in double quotes gives a code point, and not every code point is that of a character. Where it is
not, the text is not divided further, for a fault that names the code point. Such a fault is told by the
text, which has the escape (`HasEscape`): the lexer hands the scanners nothing but ends of the text, and
only the scanner of double quotes reads escapes (`allTold_ofText`).
-/

namespace VirtNet.Yaml

open Outcome

variable {text cs rest : List Char} {n : Nat}

/-! ## Escapes of code points -/

/-- In a text there is an escape of a code point: a backslash, a letter, and as many digits as the letter asks
for, which give the code point. -/
def HasEscape (text : List Char) (n : Nat) : Prop :=
  ∃ before letter digits after, text = before ++ '\\' :: letter :: (digits ++ after) ∧
    Quoted.escapeLength? letter = some digits.length ∧ Quoted.hexValue? digits.length 0 digits = some n

/-- An escape in a part of a text is one in the text. -/
theorem HasEscape.mono (h : HasEscape cs n) (hcs : cs <:+: text) : HasEscape text n := by
  obtain ⟨before, letter, digits, after, rfl, hletter, hvalue⟩ := h
  obtain ⟨front, back, rfl⟩ := hcs
  exact ⟨front ++ before, letter, digits, after ++ back, by simp, hletter, hvalue⟩

/-- If a fault names a code point, the text has an escape of it. -/
def Told (text : List Char) (e : Fault) : Prop := ∀ n, e = .noCharacter n → HasEscape text n

theorem Told.mono {e : Fault} (h : Told cs e) (hcs : cs <:+: text) : Told text e :=
  fun n hn => (h n hn).mono hcs

theorem told_malformed : Told text .malformed := nofun

/-- If a computation fails, the text tells the fault. -/
abbrev Tells {α : Type} (text : List Char) (x : Except Fault α) : Prop :=
  Meets (Told text) (fun _ => True) x

/-- The text tells all faults among the tokens. -/
def AllTold (text : List Char) (tokens : List Token) : Prop := ∀ e, .broken e ∈ tokens → Told text e

namespace Quoted

/-- A number is read off as many digits as are asked for. -/
theorem exists_digits {count value : Nat} (h : hexValue? count value cs = some n) :
    ∃ digits after, cs = digits ++ after ∧ digits.length = count ∧
      hexValue? digits.length value digits = some n := by
  induction count generalizing value cs with
  | zero => exact ⟨[], cs, rfl, rfl, h⟩
  | succ count ih =>
    cases cs with
    | nil => cases h
    | cons c rest =>
      obtain ⟨d, hd, h⟩ := Option.bind_eq_some_iff.1 h
      obtain ⟨digits, after, rfl, rfl, hvalue⟩ := ih h
      exact ⟨c :: digits, after, rfl, rfl, Option.bind_eq_some_iff.2 ⟨d, hd, hvalue⟩⟩

/-- An escape that is no character has its code point in the text. -/
theorem tells_escape (h : '\\' :: cs <:+ text) : Tells text (escape cs) := by
  unfold escape
  split
  · exact .error told_malformed
  · next letter rest =>
    split
    · exact .ok trivial
    · next count _ hcount =>
      split
      · exact .error told_malformed
      · next n hn =>
        refine .map (R := fun _ => True) ?_ fun _ _ => trivial
        unfold character
        split
        · exact .ok trivial
        · refine .error ?_
          rintro _ ⟨⟩
          obtain ⟨before, rfl⟩ := h
          obtain ⟨digits, after, rfl, rfl, hvalue⟩ := exists_digits hn
          exact ⟨before, letter, digits, after, rfl, hcount, hvalue⟩
    · exact .error told_malformed

theorem tells_push {r : Except Fault (List Char × List Char)} (h : Tells text r) (cs : List Char) :
    Tells text (push cs r) := by
  cases h with
  | ok _ => exact .ok trivial
  | error he => exact .error he

/-- In single quotes there is no escape. -/
theorem tells_single (passed : Between) : Tells text (single passed cs) := by
  fun_induction single passed cs
  case case1 | case2 => exact .error told_malformed
  case case3 ih | case8 ih => exact tells_push ih _
  case case4 => exact .ok trivial
  case case5 ih | case6 ih | case7 ih => exact ih

/-- In double quotes the escapes are part of the text. -/
theorem tells_double (skip : Nat) (passed : Between) (h : cs <:+ text) :
    Tells text (double skip passed cs) := by
  have hrest : ∀ {c : Char} {rest : List Char}, c :: rest <:+ text → rest <:+ text :=
    fun h => (List.suffix_cons _ _).trans h
  fun_induction double skip passed cs
  case case1 ih => exact ih (hrest h)
  case case2 | case3 => exact .error told_malformed
  case case4 => exact .ok trivial
  case case5 ih => exact tells_push (ih (hrest (hrest (hrest h)))) _
  case case6 ih => exact tells_push (ih (hrest (hrest h))) _
  case case7 hescape _ _ => exact .error ((tells_escape h).of_error hescape)
  case case8 ih => exact tells_push (ih (hrest (hrest h))) _
  case case9 ih => exact ih (hrest (hrest h))
  case case10 ih | case11 ih => exact ih (hrest h)
  case case12 ih => exact tells_push (ih (hrest h)) _

end Quoted

/-! ## Tokens -/

namespace Property

theorem tells_number (cs : List Char) : Tells text (number cs) := by
  unfold number
  dsimp only
  split
  · exact .error told_malformed
  · split
    · exact .error nofun
    · exact .ok trivial

theorem tells_required {α : Type} (x : Option α) : Tells text (required x) := by
  cases x with
  | none => exact .error told_malformed
  | some a => exact .ok trivial

theorem tells_version (cs : List Char) : Tells text (version cs) := by
  unfold version
  refine (tells_number _).bind fun ⟨major, rest⟩ _ => ?_
  dsimp only
  split
  · refine (tells_number _).bind fun ⟨minor, rest⟩ _ => ?_
    dsimp only
    split
    · exact .pure trivial
    · exact .error told_malformed
  · exact .error told_malformed

theorem meets_directive (cs : List Char) :
    Meets (Told text) (fun p => ∀ e, p.1 ≠ .broken e) (directive cs) := by
  have hrest : ∀ p : Directive × List Char, Meets (Told text) (fun p => ∀ e, p.1 ≠ .broken e) (do
      return (Token.directive p.1, ← required (restOfLine? p.2))) :=
    fun p => (tells_required _).bind fun _ _ => .pure nofun
  unfold directive
  dsimp only
  split
  · exact .error told_malformed
  · split
    · exact (tells_version _).bind fun p _ => hrest p
    · split
      · exact (tells_required _).bind fun p _ => hrest p
      · exact hrest (.reserved, _)

/-- What is read as a tag is one. -/
theorem tag?_ne_broken {p : Token × List Char} (h : tag? rest = some p) : ∀ e, p.1 ≠ .broken e := by
  have hend : ∀ {handle : Option (List Char)} {suffix r : List Char},
      (if endsHere r then some (Token.tag handle suffix, r) else none) = some p → ∀ e, p.1 ≠ .broken e := by
    intro handle suffix r h
    obtain ⟨-, ⟨⟩⟩ := Option.ite_none_right_eq_some.1 h
    exact nofun
  unfold tag? at h
  dsimp only at h
  split at h
  · obtain ⟨⟨suffix, r⟩, -, h⟩ := Option.bind_eq_some_iff.1 h
    dsimp only at h
    split at h
    · exact hend h
    · cases h
  · split at h
    · exact hend h
    · split at h
      · obtain ⟨⟨handle, r⟩, -, h⟩ := Option.bind_eq_some_iff.1 h
        obtain ⟨⟨suffix, r⟩, -, h⟩ := Option.bind_eq_some_iff.1 h
        exact hend h
      · obtain ⟨⟨handle, r⟩, -, h⟩ := Option.bind_eq_some_iff.1 h
        obtain ⟨⟨suffix, r⟩, -, h⟩ := Option.bind_eq_some_iff.1 h
        exact hend h

end Property

namespace Lexer

variable {l : Lexer} {t : Token}

/-- The lexer is within the text and has met no fault. -/
structure Within (text : List Char) (l : Lexer) : Prop where
  rest : l.cursor.rest <:+ text
  whole : ∀ e, .broken e ∉ l.tokens

/-- A step of the lexer fails for a fault that the text tells, or leaves the lexer within the text. -/
abbrev Stays (text : List Char) (x : Except Fault Lexer) : Prop := Meets (Told text) (Within text) x

theorem rest_skip_suffix (count : Nat) (k : Cursor) : (k.skip count).rest <:+ k.rest := by
  induction count generalizing k with
  | zero => exact List.suffix_rfl
  | succ count ih =>
    refine (ih k.next).trans ?_
    rw [Cursor.rest_next]
    exact List.tail_suffix _

/-- What only changes the state of the lexer keeps it within the text. -/
theorem Within.congr {l' : Lexer} (h : l.Within text) (hcursor : l'.cursor = l.cursor)
    (htokens : l'.tokens = l.tokens) : l'.Within text := ⟨hcursor ▸ h.rest, htokens ▸ h.whole⟩

theorem Within.allowKey {allowed : Bool} (h : l.Within text) : (l.allowKey allowed).Within text :=
  ⟨h.rest, h.whole⟩

theorem Within.skip {count : Nat} (h : l.Within text) : (l.skip count).Within text :=
  ⟨(rest_skip_suffix count l.cursor).trans h.rest, h.whole⟩

theorem Within.moveTo (h : l.Within text) : (l.moveTo rest).Within text :=
  ⟨(rest_skip_suffix _ l.cursor).trans h.rest, h.whole⟩

theorem Within.closeBlocks {stays : Nat → Bool} (h : l.Within text) : (l.closeBlocks stays).Within text := by
  unfold Lexer.closeBlocks
  split
  · exact h
  · refine ⟨h.rest, fun e he => ?_⟩
    rcases List.mem_append.1 he with he | he
    · cases (List.mem_replicate.1 he).2
    · exact h.whole e he

section Within

variable (h : l.Within text)

include h

theorem Within.emit (ht : ∀ e, t ≠ .broken e) : (l.emit t).Within text := by
  refine ⟨h.rest, fun e he => ?_⟩
  rcases List.mem_cons.1 he with rfl | he
  · exact ht e rfl
  · exact h.whole e he

theorem Within.openBlock (ht : ∀ e, t ≠ .broken e) : (l.openBlock t).Within text := by
  unfold Lexer.openBlock
  split
  · exact (h.emit ht).congr rfl rfl
  · exact h

theorem Within.confirm (k : PossibleKey) : (l.confirm k).Within text := by
  have hinsert : ∀ (n : Nat) (ts : List Token), (∀ e, .broken e ∉ ts) → ∀ e,
      .broken e ∉ l.tokens.take n ++ ts ++ l.tokens.drop n := by
    intro n ts hts e he
    rw [List.mem_append, List.mem_append] at he
    rcases he with (he | he) | he
    · exact h.whole e (List.mem_of_mem_take he)
    · exact hts e he
    · exact h.whole e (List.mem_of_mem_drop he)
  unfold Lexer.confirm
  dsimp only
  split
  · exact ⟨h.rest, hinsert _ _ (by simp)⟩
  · exact ⟨h.rest, hinsert _ _ (by simp)⟩

theorem Within.dropKey : Stays text l.dropKey := by
  unfold Lexer.dropKey
  split
  · exact .error told_malformed
  · exact .pure (h.congr rfl rfl)

theorem Within.saveKey : Stays text l.saveKey := by
  unfold Lexer.saveKey
  split
  · exact h.dropKey.bind fun l' h' => .pure (.congr h' rfl rfl)
  · exact .ok h

theorem Within.dropStale : Stays text l.dropStale := by
  have hfresh : ∀ c k, Tells text (fresh c k) := by
    intro c k
    unfold fresh
    split
    · exact .ok trivial
    · split
      · split
        · exact .error told_malformed
        · exact .ok trivial
      · exact .ok trivial
  refine (hfresh _ _).bind fun _ _ => ?_
  exact (Meets.mapM fun k _ => hfresh _ k).bind fun _ _ => .pure (h.congr rfl rfl)

theorem Within.blockIndicator (ht : ∀ e, t ≠ .broken e) : Stays text (l.blockIndicator t) := by
  unfold Lexer.blockIndicator
  split
  · exact .ok h
  · split
    · exact .ok (h.openBlock ht)
    · exact .error told_malformed

theorem Within.toNext : Stays text l.toNext := by
  unfold Lexer.toNext
  dsimp only
  refine Meets.bind (R := Within text) ?_ fun l' h' => .pure (.closeBlocks h')
  split
  · exact Within.dropStale (.allowKey (.moveTo h))
  · exact Within.dropStale (.moveTo h)

/-! What each kind of token leaves. -/

theorem Within.finish : Stays text l.finish := by
  unfold Lexer.finish
  exact h.closeBlocks.dropKey.bind fun _ h' => .pure (.emit h' nofun)

theorem Within.border (ht : ∀ e, t ≠ .broken e) : Stays text (l.border t) := by
  unfold Lexer.border
  exact h.closeBlocks.dropKey.bind fun _ h' => .pure (.allowKey (.skip (.emit h' ht)))

theorem Within.opening (ht : ∀ e, t ≠ .broken e) : Stays text (l.opening t) := by
  unfold Lexer.opening
  exact h.saveKey.bind fun _ h' => .pure (.allowKey (.skip (.emit (.congr h' rfl rfl) ht)))

theorem Within.closing (ht : ∀ e, t ≠ .broken e) : Stays text (l.closing t) := by
  refine h.dropKey.bind fun l' h' => ?_
  split
  · exact .error told_malformed
  · exact .pure (.allowKey (.skip (.emit (.congr h' rfl rfl) ht)))

theorem Within.comma : Stays text l.comma := by
  unfold Lexer.comma
  exact h.dropKey.bind fun _ h' => .pure (.allowKey (.skip (.emit h' nofun)))

theorem Within.item : Stays text l.item := by
  unfold Lexer.item
  exact Meets.bind (h.blockIndicator (t := .blockList) nofun) fun _ h' => h'.dropKey.bind fun _ h'' =>
    .pure (.allowKey (.skip (.emit h'' nofun)))

theorem Within.key : Stays text l.key := by
  unfold Lexer.key
  exact Meets.bind (h.blockIndicator (t := .blockDict) nofun) fun _ h' => h'.dropKey.bind fun _ h'' =>
    .pure (.allowKey (.skip (.emit h'' nofun)))

theorem Within.value : Stays text l.value := by
  unfold Lexer.value
  split
  · next k _ => exact .pure (.allowKey (.skip (.emit (.congr (h.confirm k) rfl rfl) nofun)))
  · exact Meets.bind (h.blockIndicator (t := .blockDict) nofun) fun _ h' =>
      .pure (.allowKey (.skip (.emit h' nofun)))

theorem Within.simple {read : Option (Token × List Char)}
    (hread : ∀ p, read = some p → ∀ e, p.1 ≠ .broken e) : Stays text (l.simple read) := by
  refine h.saveKey.bind fun l' h' => ?_
  split
  · next t rest => exact .pure (.allowKey (.moveTo (.emit h' (hread _ rfl))))
  · exact .error told_malformed

theorem Within.quoted {read : Except Fault (List Char × List Char)} (hread : Tells text read) :
    Stays text (l.quoted read) := by
  unfold Lexer.quoted
  exact h.saveKey.bind fun _ h' => hread.bind fun _ _ => .pure (.allowKey (.moveTo (.emit h' nofun)))

theorem Within.plain : Stays text l.plain := by
  unfold Lexer.plain
  exact h.saveKey.bind fun _ h' => .pure (.allowKey (.moveTo (.emit h' nofun)))

theorem Within.blockScalar (folded : Bool) (rest : List Char) : Stays text (l.blockScalar folded rest) := by
  refine h.dropKey.bind fun l' h' => ?_
  split
  · exact .pure (.allowKey (.moveTo (.emit h' nofun)))
  · exact .error told_malformed

theorem Within.directive (rest : List Char) : Stays text (l.directive rest) := by
  refine h.closeBlocks.dropKey.bind fun l' h' => ?_
  refine (Property.meets_directive rest).bind fun p hp => ?_
  exact .pure (.allowKey (.moveTo (.emit h' hp)))

theorem Within.token {c : Char} (hrest : l.cursor.rest = c :: rest) : Stays text (l.token c rest) := by
  have hsuffix : rest <:+ text := (List.suffix_cons c rest).trans (hrest ▸ h.rest)
  have hname : ∀ (make : List Char → Token), (∀ name e, make name ≠ .broken e) →
      Stays text (l.simple ((Property.name? rest).map fun p => (make p.1, p.2))) := by
    intro make hmake
    refine h.simple fun p hp => ?_
    obtain ⟨q, -, rfl⟩ := Option.map_eq_some_iff.1 hp
    exact hmake q.1
  unfold Lexer.token
  refine .ite (h.directive rest) ?_
  refine .ite (h.border nofun) ?_
  refine .ite (h.border nofun) ?_
  refine .ite (h.opening nofun) ?_
  refine .ite (h.opening nofun) ?_
  refine .ite (h.closing nofun) ?_
  refine .ite (h.closing nofun) ?_
  refine .ite h.comma ?_
  refine .ite h.item ?_
  refine .ite h.key ?_
  refine .ite h.value ?_
  refine .ite (hname .alias nofun) ?_
  refine .ite (hname .anchor nofun) ?_
  refine .ite (h.simple fun p hp => Property.tag?_ne_broken hp) ?_
  refine .ite (h.blockScalar false rest) ?_
  refine .ite (h.blockScalar true rest) ?_
  refine .ite (h.quoted (Quoted.tells_single _)) ?_
  -- only this scanner reads escapes, and it gets an end of the text
  refine .ite (h.quoted (Quoted.tells_double 0 _ hsuffix)) ?_
  exact .ite h.plain (.error told_malformed)

/-- Where the text cannot be divided further, the fault is the one that was met. -/
theorem Within.broken {e : Fault} (he : Told text e) : AllTold text (l.broken e) := by
  intro e' h'
  rw [Lexer.broken, List.mem_reverse] at h'
  rcases List.mem_cons.1 h' with heq | hmem
  · obtain rfl := Token.broken.inj heq
    exact he
  · exact absurd (List.mem_of_mem_drop hmem) (h.whole e')

end Within

/-- A fault among the tokens is told by the text. -/
theorem allTold_run (fuel : Nat) (h : l.Within text) : AllTold text (run fuel l) := by
  induction fuel generalizing l with
  | zero => exact h.broken told_malformed
  | succ fuel ih =>
    rw [run]
    have hnext := h.toNext
    split
    · next e he => exact h.broken (hnext.of_error he)
    · next l' hl' =>
      rw [hl'] at hnext
      cases hnext with
      | ok hwithin =>
        split
        · have hfinish := hwithin.finish
          split
          · next e he => exact h.broken (hfinish.of_error he)
          · next l'' hl'' =>
            rw [hl''] at hfinish
            cases hfinish with
            | ok hfinished =>
              intro e he
              exact absurd (List.mem_reverse.1 he) (hfinished.whole e)
        · next c rest hrest =>
          have htoken := hwithin.token hrest
          split
          · next e he => exact h.broken (htoken.of_error he)
          · next l'' hl'' =>
            rw [hl''] at htoken
            cases htoken with
            | ok hpassed => exact ih hpassed

end Lexer

theorem allTold_ofPermitted : AllTold text (Token.ofPermitted text) := by
  refine Lexer.allTold_run (text.length + 1) ⟨?_, fun _ => List.not_mem_nil⟩
  unfold Cursor.start
  split
  · rw [Cursor.rest_next]
    exact List.tail_suffix _
  · exact List.suffix_rfl

/-- A fault among the tokens of a text is told by the text. -/
theorem allTold_ofText : AllTold text (Token.ofText text) := by
  intro e he
  unfold Token.ofText at he
  split at he
  · exact allTold_ofPermitted e he
  · next index _ =>
    dsimp only at he
    split at he
    · exact (allTold_ofPermitted e he).mono (List.take_prefix _ _).isInfix
    · obtain rfl := Token.broken.inj (List.mem_singleton.1 he)
      exact told_malformed

end VirtNet.Yaml
