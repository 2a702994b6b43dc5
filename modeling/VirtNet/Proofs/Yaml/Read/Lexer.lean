import VirtNet.Proofs.Yaml.Read.Cursor
import VirtNet.Proofs.Yaml.Read.Literal
import VirtNet.Yaml.Token.Lexer

/-!
# Runs of the lexer

`Lexes l ts` says that the lexer, in the state `l` between two tokens, goes on without a fault and that
`ts` are the tokens of the whole text (`Lexes.run`). `From` says the same of all states that differ only in
how many characters and lines were read: where a text starts at a column, with the columns of the open
blocks and the tokens so far. The rules for `From` take a text apart from its front: one rule for a gap,
for the end of a block, and for each indicator.
-/

namespace VirtNet.Yaml

variable {as bs cs x rest : List Char} {c : Char} {n column : Nat}

/-! ## Runs -/

/-- The lexer goes on without a fault from a state between two tokens; the tokens of the whole text. -/
inductive Lexes : Lexer → List Token → Prop
  | finish {l m e : Lexer} (hnext : l.toNext = .ok m) (hrest : m.cursor.rest = []) (hend : m.finish = .ok e) :
      Lexes l e.tokens.reverse
  | step {l m e : Lexer} {c : Char} {rest : List Char} {ts : List Token} (hnext : l.toNext = .ok m)
      (hrest : m.cursor.rest = c :: rest) (htoken : m.token c rest = .ok e)
      (hlength : e.cursor.rest.length < l.cursor.rest.length) (h : Lexes e ts) : Lexes l ts

namespace Lexes

variable {l l' : Lexer} {ts : List Token}

/-- A run gives its tokens, as long as there is fuel for every character. -/
theorem run (h : Lexes l ts) {fuel : Nat} (hfuel : l.cursor.rest.length < fuel) : l.run fuel = ts := by
  induction h generalizing fuel with
  | finish hnext hrest hend =>
    obtain ⟨n, rfl⟩ := Nat.exists_eq_add_of_le' (show 1 ≤ fuel by omega)
    rw [Lexer.run, hnext]
    dsimp only
    rw [hrest]
    dsimp only
    rw [hend]
  | step hnext hrest htoken hlength _ ih =>
    obtain ⟨n, rfl⟩ := Nat.exists_eq_add_of_le' (show 1 ≤ fuel by omega)
    rw [Lexer.run, hnext]
    dsimp only
    rw [hrest]
    dsimp only
    rw [htoken]
    exact ih (by omega)

/-- Only what comes after the gap counts. -/
theorem congr (h : Lexes l' ts) (hnext : l.toNext = l'.toNext)
    (hlength : l'.cursor.rest.length ≤ l.cursor.rest.length) : Lexes l ts := by
  cases h with
  | finish hnext' hrest hend => exact .finish (hnext.trans hnext') hrest hend
  | step hnext' hrest htoken hlength' h =>
    exact .step (hnext.trans hnext') hrest htoken (Nat.lt_of_lt_of_le hlength' hlength) h

end Lexes

/-! ## Gaps and blocks -/

/-- A text starts with a token, or it is at its end. -/
def Starts (x : List Char) : Prop := ∀ c cs, x = c :: cs → isGap c = false ∧ c ≠ '#'

namespace Lexer

variable {crossed : Bool}

theorem passGap_of_starts (h : Starts x) : passGap false crossed x = (crossed, x) := by
  cases x with
  | nil => rfl
  | cons c cs =>
    obtain ⟨hgap, hsign⟩ := h c cs rfl
    rw [isGap, isSpace, Bool.or_eq_false_iff, Bool.or_eq_false_iff, Bool.or_eq_false_iff] at hgap
    rw [passGap]
    · simp [hgap, hsign]
    · rintro rest rfl
      cases hgap.2

theorem passGap_spaces (n : Nat) : passGap false crossed (spaces n ++ x) = passGap false crossed x := by
  induction n with
  | zero => rfl
  | succ n ih => exact ih

/-- What follows a gap is the end of the text. -/
theorem passGap_suffix (comment crossed : Bool) (x : List Char) :
    ∃ bs, x = bs ++ (passGap comment crossed x).2 := by
  fun_induction passGap comment crossed x with
  | case1 _ _ rest ih =>
    obtain ⟨bs, hbs⟩ := ih
    exact ⟨'\r' :: '\n' :: bs, congrArg (fun rest => '\r' :: '\n' :: rest) hbs⟩
  | case2 | case3 | case4 =>
    rename_i ih
    obtain ⟨bs, hbs⟩ := ih
    exact ⟨_ :: bs, congrArg (List.cons _) hbs⟩
  | case5 | case6 => exact ⟨[], rfl⟩

/-- The state between two tokens, outside brackets and where no key can have started. -/
def between (allowed : Bool) (k : Cursor) (indents : List Nat) (tokens : List Token) : Lexer :=
  { cursor := k, tokens, count := tokens.length, indents, keyAllowed := allowed }

/-- Up to the next token a gap is passed, keys that are too far back are given up, and blocks end. -/
theorem toNext_eq {l : Lexer} {p : Option PossibleKey} (houter : l.outer = [])
    (hgap : passGap false false l.cursor.rest = (crossed, x)) (hfresh : fresh (l.cursor.moveTo x) l.possible = .ok p) :
    l.toNext = .ok ({ l with
      cursor := l.cursor.moveTo x, possible := p, keyAllowed := crossed || l.keyAllowed }.closeBlocks
        (· ≤ (l.cursor.moveTo x).column)) := by
  obtain ⟨k, tokens, count, indents, possible, outer, allowed⟩ := l
  dsimp only at houter hgap hfresh
  subst houter
  rw [toNext, hgap]
  cases crossed <;>
    simp [moveTo, inFlow, allowKey, dropStale, hfresh, bind, Except.bind, pure, Except.pure]

/-- No block ends where the innermost one goes on. -/
theorem closeBlocks_eq_self {l : Lexer} {stays : Nat → Bool}
    (h : ∀ i, l.indents.head? = some i → stays i = true) : l.closeBlocks stays = l := by
  obtain ⟨k, tokens, count, indents, possible, outer, allowed⟩ := l
  unfold closeBlocks
  cases indents with
  | nil => simp
  | cons i is => simp [h i rfl]

/-- Where a token stands in the innermost block there is nothing to do before it. -/
theorem toNext_of_settled {l : Lexer} (houter : l.outer = [])
    (hgap : passGap false false l.cursor.rest = (false, l.cursor.rest))
    (hfresh : fresh l.cursor l.possible = .ok l.possible)
    (hdepth : ∀ i, l.indents.head? = some i → i ≤ l.cursor.column) : l.toNext = .ok l := by
  rw [toNext_eq houter hgap (by rw [Cursor.moveTo_self]; exact hfresh), Cursor.moveTo_self]
  exact congrArg Except.ok (closeBlocks_eq_self (l := l) (by simpa using hdepth))

/-- Right behind an opening bracket there is nothing to do before a token. -/
theorem toNext_of_flow {l : Lexer} {p : Option PossibleKey} (houter : l.outer = [p]) (hpossible : l.possible = none)
    (hgap : passGap false false l.cursor.rest = (false, l.cursor.rest))
    (hfresh : fresh l.cursor p = .ok p) : l.toNext = .ok l := by
  obtain ⟨k, tokens, count, indents, possible, outer, allowed⟩ := l
  dsimp only at houter hpossible hgap hfresh
  subst houter hpossible
  have hnone : fresh k none = .ok none := rfl
  rw [toNext, hgap]
  simp [moveTo, inFlow, dropStale, closeBlocks, hfresh, hnone, Cursor.moveTo_self, bind, Except.bind, pure,
    Except.pure]

/-- The columns of the open blocks after a token at a column that stands in a block. -/
def opened (column : Nat) (indents : List Nat) : List Nat :=
  if indents.head?.all (· < column) then column :: indents else indents

/-- The tokens after a token at a column that stands in a block, the start of the block among them. -/
def started (start : Token) (column : Nat) (indents : List Nat) (tokens : List Token) : List Token :=
  if indents.head?.all (· < column) then start :: tokens else tokens

theorem openBlock_between (start : Token) (allowed : Bool) (k : Cursor) (indents : List Nat)
    (tokens : List Token) :
    (between allowed k indents tokens).openBlock start =
      between allowed k (opened k.column indents) (started start k.column indents tokens) := by
  unfold openBlock isDeeper opened started
  show (if (indents.head?.all fun x => x < k.column) = true then _ else _) = _
  split <;> rfl

theorem blockIndicator_between (start : Token) (k : Cursor) (indents : List Nat) (tokens : List Token) :
    (between true k indents tokens).blockIndicator start =
      .ok (between true k (opened k.column indents) (started start k.column indents tokens)) := by
  rw [← openBlock_between]
  rfl

theorem closeBlocks_between (stays : Nat → Bool) (allowed : Bool) (k : Cursor) (indents : List Nat)
    (tokens : List Token) :
    (between allowed k indents tokens).closeBlocks stays =
      between allowed k (indents.dropWhile (!stays ·))
        (List.replicate (indents.takeWhile (!stays ·)).length .blockEnd ++ tokens) := by
  unfold closeBlocks between
  simp [inFlow, Nat.add_comm]

/-- At the end of a document all blocks end. -/
theorem closeAll_between (allowed : Bool) (k : Cursor) (indents : List Nat) (tokens : List Token) :
    (between allowed k indents tokens).closeBlocks (fun _ => false) =
      between allowed k [] (List.replicate indents.length .blockEnd ++ tokens) := by
  have hall : ∀ i ∈ indents, (!false) = true := fun _ _ => rfl
  have hdrop : indents.dropWhile (fun _ => !false) = [] := List.dropWhile_eq_nil_iff.2 hall
  have htake : indents.takeWhile (fun _ => !false) = indents := List.takeWhile_eq_self_iff.2 hall
  rw [closeBlocks_between, hdrop, htake]

theorem finish_between (allowed : Bool) (k : Cursor) (indents : List Nat) (tokens : List Token) :
    (between allowed k indents tokens).finish =
      .ok (between allowed k [] (.finish :: (List.replicate indents.length .blockEnd ++ tokens))) := by
  rw [Lexer.finish, closeAll_between]
  rfl

theorem border_between (border : Token) (allowed : Bool) (k : Cursor) (indents : List Nat)
    (tokens : List Token) :
    (between allowed k indents tokens).border border =
      .ok (between false (k.skip 3) [] (border :: (List.replicate indents.length .blockEnd ++ tokens))) := by
  rw [Lexer.border, closeAll_between]
  rfl

/-- The key that may start at a place. -/
def keyAt (allowed : Bool) (k : Cursor) (indents : List Nat) (tokens : List Token) : Option PossibleKey :=
  if allowed then some ⟨tokens.length, indents.head? == some k.column, k.index, k.line, k.column⟩ else none

theorem saveKey_between (allowed : Bool) (k : Cursor) (indents : List Nat) (tokens : List Token) :
    (between allowed k indents tokens).saveKey =
      .ok { between allowed k indents tokens with possible := keyAt allowed k indents tokens } := by
  cases allowed <;> rfl

/-- A colon after a token where a key may have started makes it a key, which starts its mapping unless the
mapping has started. -/
theorem value_keyAt (t : Token) (k k' : Cursor) (indents : List Nat) (tokens : List Token) :
    Lexer.value { between false k' indents (t :: tokens) with possible := keyAt true k indents tokens } =
      .ok (between false (k'.skip 1) (opened k.column indents)
        (.value :: t :: .key :: started .blockDict k.column indents tokens)) := by
  have hback : tokens.length + 1 - tokens.length = 1 := by omega
  unfold Lexer.value keyAt confirm opened started isDeeper
  by_cases hdeeper : indents.head?.all (· < k.column) = true
  · simp [between, inFlow, hdeeper, hback, emit, skip, allowKey]
  · rw [Bool.not_eq_true] at hdeeper
    simp [between, inFlow, hdeeper, hback, emit, skip, allowKey]

/-- The least column of a further line of a scalar in the innermost of some open blocks. -/
def floorOf (indents : List Nat) : Nat := indents.head?.elim 0 (· + 1)

theorem floor_between (allowed : Bool) (k : Cursor) (indents : List Nat) (tokens : List Token) :
    (between allowed k indents tokens).floor = floorOf indents := by
  cases indents <;> rfl

/-- A key that need not be one is given up on a later line. -/
theorem fresh_keyAt_of_lt {allowed : Bool} {k k' : Cursor} {indents : List Nat} {tokens : List Token}
    (hdepth : ∀ i, indents.head? = some i → i < k.column) (hline : k.line < k'.line) :
    fresh k' (keyAt allowed k indents tokens) = .ok none := by
  cases allowed with
  | false => rfl
  | true =>
    have hrequired : (indents.head? == some k.column) = false := by
      rw [beq_eq_false_iff_ne]
      exact fun h => absurd (hdepth _ h) (Nat.lt_irrefl _)
    rw [keyAt, if_pos rfl, fresh]
    dsimp only
    rw [if_pos (.inl (by omega)), hrequired]
    rfl

/-- A key stays possible on its line. -/
theorem fresh_keyAt {allowed : Bool} {k k' : Cursor} {indents : List Nat} {tokens : List Token}
    (hline : k'.line = k.line) (hindex : k'.index ≤ k.index + keyLimit) :
    fresh k' (keyAt allowed k indents tokens) = .ok (keyAt allowed k indents tokens) := by
  cases allowed with
  | false => rfl
  | true =>
    rw [keyAt, if_pos rfl, fresh]
    dsimp only
    rw [if_neg]
    rintro (h | h)
    · exact h hline.symm
    · omega

/-- Up to a token outside brackets a gap is passed and blocks end. -/
theorem toNext_between {allowed : Bool} {k : Cursor} {indents : List Nat} {tokens : List Token}
    (hgap : passGap false false k.rest = (crossed, x)) :
    (between allowed k indents tokens).toNext =
      .ok (between (crossed || allowed) (k.moveTo x)
        (indents.dropWhile fun i => !decide (i ≤ (k.moveTo x).column))
        (List.replicate (indents.takeWhile fun i => !decide (i ≤ (k.moveTo x).column)).length .blockEnd ++
          tokens)) := by
  have hnext := @toNext_eq x crossed (between allowed k indents tokens) none rfl hgap rfl
  rw [hnext]
  exact congrArg Except.ok (closeBlocks_between _ _ _ _ _)

end Lexer

namespace Lexer

/-! ## The token that comes next -/

theorem startsDocument_of_gap (h : startsWithGap rest = true) : startsDocument ('-' :: rest) = false := by
  rw [startsDocument]
  rintro tail heq
  rw [(List.cons.inj heq).2] at h
  cases h

theorem token_item (l : Lexer) (h : startsWithGap rest = true) : l.token '-' rest = l.item := by
  simp [token, startsDocument_of_gap h, endsDocument, h]

theorem token_key (l : Lexer) (h : startsWithGap rest = true) : l.token '?' rest = l.key := by
  simp [token, startsDocument, endsDocument, h]

theorem token_value (l : Lexer) (h : startsWithGap rest = true) : l.token ':' rest = l.value := by
  simp [token, startsDocument, endsDocument, h]

theorem token_single (l : Lexer) : l.token '\'' rest = l.quoted (Quoted.single .nothing rest) := by
  simp [token, startsDocument, endsDocument]

theorem token_double (l : Lexer) : l.token '"' rest = l.quoted (Quoted.double 0 .nothing rest) := by
  simp [token, startsDocument, endsDocument]

theorem token_literal (l : Lexer) (h : l.outer = []) : l.token '|' rest = l.blockScalar false rest := by
  simp [token, startsDocument, endsDocument, inFlow, h]

theorem token_openList (l : Lexer) : l.token '[' rest = l.opening .openList := by
  simp [token, startsDocument, endsDocument]

theorem token_closeList (l : Lexer) : l.token ']' rest = l.closing .closeList := by
  simp [token, startsDocument, endsDocument]

theorem token_openDict (l : Lexer) : l.token '\x7b' rest = l.opening .openDict := by
  simp [token, startsDocument, endsDocument]

theorem token_closeDict (l : Lexer) : l.token '\x7d' rest = l.closing .closeDict := by
  simp [token, startsDocument, endsDocument]

theorem token_documentEnd (l : Lexer) (h : l.cursor.column = 0) (hgap : startsWithGap rest = true) :
    l.token '.' ('.' :: '.' :: rest) = l.border .documentEnd := by
  simp [token, startsDocument, endsDocument, h, hgap]

/-- A plain text starts with none of the other tokens. -/
theorem token_plain (l : Lexer) (houter : l.outer = []) (h : startsPlain false c rest = true)
    (hborder : l.cursor.column = 0 → atBorder (c :: rest) = false) : l.token c rest = l.plain := by
  have hdocument : ((l.cursor.column == 0) && startsDocument (c :: rest)) = false := by
    by_cases hcolumn : l.cursor.column = 0
    · exact Bool.and_eq_false_imp.2 fun _ => (Bool.or_eq_false_iff.1 (hborder hcolumn)).1
    · simp [hcolumn]
  have hend : ((l.cursor.column == 0) && endsDocument (c :: rest)) = false := by
    by_cases hcolumn : l.cursor.column = 0
    · exact Bool.and_eq_false_imp.2 fun _ => (Bool.or_eq_false_iff.1 (hborder hcolumn)).2
    · simp [hcolumn]
  have hflow : l.inFlow = false := by simp [inFlow, houter]
  have hindicators : indicators = ['-', '?', ':', ',', '[', ']', '\x7b', '\x7d', '#', '&', '*', '!', '|', '>',
    '\'', '"', '%', '@', '\x60'] := rfl
  have hne : c ∉ ['%', '[', '\x7b', ']', '\x7d', ',', '*', '&', '!', '|', '>', '\'', '"'] ∧
      (startsWithGap rest = true → c ∉ ['-', '?', ':']) := by
    simp only [startsPlain, Bool.or_eq_true, Bool.and_eq_true, Bool.not_eq_true', Bool.not_false, Bool.true_and,
      beq_iff_eq] at h
    rcases h with ⟨-, h⟩ | ⟨h, rfl | rfl | rfl⟩
    · rw [hindicators, List.contains_eq_mem, decide_eq_false_iff_not] at h
      simp only [List.mem_cons, List.not_mem_nil, or_false, not_or] at h ⊢
      simp [h]
    · simp [h]
    · simp [h]
    · simp [h]
  obtain ⟨hne, hgap⟩ := hne
  simp only [List.mem_cons, List.not_mem_nil, or_false, not_or] at hne hgap
  unfold token
  dsimp only
  rw [hdocument, hend, hflow, h]
  cases hrest : startsWithGap rest with
  | true => simp [hne, hgap hrest]
  | false => simp [hne]

end Lexer

open Lexer

/-- A state is as good as the one after the gap up to the next token. -/
theorem Lexes.of_gap {l : Lexer} {crossed : Bool} {ts : List Token} (houter : l.outer = [])
    (hcount : l.count = l.tokens.length) (hx : Starts x)
    (hgap : passGap false false l.cursor.rest = (crossed, x)) (hsplit : l.cursor.rest = as ++ x)
    (hfresh : fresh (l.cursor.moveTo x) l.possible = .ok none)
    (h : Lexes (between (crossed || l.keyAllowed) (l.cursor.moveTo x) l.indents l.tokens) ts) :
    Lexes l ts := by
  have hrest := Cursor.rest_moveTo hsplit
  have hgap' : passGap false false (l.cursor.moveTo x).rest = (false, x) := by
    rw [hrest]
    exact passGap_of_starts hx
  refine h.congr ?_ ?_
  · rw [toNext_eq houter hgap hfresh, toNext_between hgap']
    have hself : (l.cursor.moveTo x).moveTo x = l.cursor.moveTo x := by
      have hmove := Cursor.moveTo_self (l.cursor.moveTo x)
      rwa [hrest] at hmove
    rw [hself, ← closeBlocks_between]
    obtain ⟨k, tokens, count, indents, possible, outer, allowed⟩ := l
    dsimp only at houter hcount
    subst houter hcount
    rfl
  · show (l.cursor.moveTo x).rest.length ≤ _
    rw [hrest, hsplit, List.length_append]
    exact Nat.le_add_left _ _

/-! ## Texts -/

/-- With the columns of the open blocks, the lexer takes a text before another one for one token, after
which it goes on at `rest`. -/
def Finds (indents : List Nat) (written after : List Char) (t : Token) (rest : List Char) (crossed : Bool) :
    Prop :=
  ∃ c as, written = c :: as ∧ isGap c = false ∧ c ≠ '#' ∧
    ∀ (allowed : Bool) (k : Cursor) (tokens : List Token), k.rest = c :: (as ++ after) →
      (between allowed k indents tokens).token c (as ++ after) = do
        let l ← (between allowed k indents tokens).saveKey
        return ((l.emit t).moveTo rest).allowKey crossed

/-- Where a text starts at a column, with the columns of the open blocks and the tokens so far, the lexer
goes on without a fault; the tokens of the whole text. `allowed` says whether a key may start there. -/
def From (allowed : Bool) (x : List Char) (column : Nat) (indents : List Nat) (tokens ts : List Token) :
    Prop :=
  ∀ k : Cursor, k.rest = x → k.column = column → Lexes (between allowed k indents tokens) ts

namespace From

variable {allowed : Bool} {indents : List Nat} {tokens ts : List Token}

/-- A line feed and the indentation of the next line are passed. -/
theorem lineFeed (hx : Starts x) (h : From true x n indents tokens ts) :
    From allowed ('\n' :: (spaces n ++ x)) column indents tokens ts := by
  intro k hrest _
  have hsplit : k.rest = ('\n' :: spaces n) ++ x := hrest
  have hgap : passGap false false k.rest = (true, x) := by
    rw [hrest]
    exact (passGap_spaces n).trans (passGap_of_starts hx)
  have hcolumn := (Cursor.moveTo_of_break (show k.rest = [] ++ '\n' :: (spaces n ++ x) from hrest) rfl).1
  exact Lexes.of_gap rfl rfl hx hgap hsplit rfl (h _ (Cursor.rest_moveTo hsplit) hcolumn)

/-- A space is passed. -/
theorem space (h : From allowed x (column + 1) indents tokens ts) :
    From allowed (' ' :: x) column indents tokens ts := by
  intro k hrest hcolumn
  have hsplit : k.rest = spaces 1 ++ x := hrest
  have hmove := Cursor.moveTo_append hsplit
  rw [Cursor.skip_of_onLine hsplit (Cursor.onLine_spaces 1)] at hmove
  have hafter := Cursor.rest_moveTo hsplit
  obtain ⟨bs, hx⟩ := passGap_suffix false false x
  -- the gap from the space on is the one behind the space
  have hgap : passGap false false k.rest = passGap false false x := by rw [hsplit, passGap_spaces]
  have hbehind : passGap false false (k.moveTo x).rest = passGap false false x := by rw [hafter]
  have hcursor : (k.moveTo x).moveTo (passGap false false x).2 = k.moveTo (passGap false false x).2 := by
    have htwice := @Cursor.moveTo_moveTo (spaces 1) bs (passGap false false x).2 k (by rw [← hx]; exact hsplit)
    rwa [← hx] at htwice
  refine (h _ hafter ?_).congr ?_ ?_
  · rw [hmove, ← hcolumn]
    rfl
  · rw [toNext_between (hgap.trans rfl), toNext_between (hbehind.trans rfl), hcursor]
  · show (k.moveTo x).rest.length ≤ k.rest.length
    rw [hafter, hrest]
    exact Nat.le_succ _

/-- A block that starts further right ends. -/
theorem pop {i : Nat} (hx : Starts x) (hi : n < i) (h : From true x n indents (.blockEnd :: tokens) ts) :
    From true x n (i :: indents) tokens ts := by
  intro k hrest hcolumn
  have hgap : passGap false false k.rest = (false, x) := by
    rw [hrest]
    exact passGap_of_starts hx
  have hself : k.moveTo x = k := by
    rw [← hrest]
    exact Cursor.moveTo_self k
  refine (h k hrest hcolumn).congr ?_ (Nat.le_refl _)
  rw [toNext_between hgap, toNext_between hgap, hself, hcolumn, List.dropWhile_cons_of_pos (by simp; omega),
    List.takeWhile_cons_of_pos (by simp; omega), List.length_cons, List.replicate_succ',
    List.append_assoc]
  rfl

/-- A token that ends no block. -/
theorem step (hgap : isGap c = false) (hsign : c ≠ '#') (hdepth : ∀ i, indents.head? = some i → i ≤ column)
    (h : ∀ k : Cursor, k.rest = c :: rest → k.column = column →
      ∃ e, (between allowed k indents tokens).token c rest = .ok e ∧
        e.cursor.rest.length ≤ rest.length ∧ Lexes e ts) :
    From allowed (c :: rest) column indents tokens ts := by
  intro k hrest hcolumn
  obtain ⟨e, htoken, hlength, hlexes⟩ := h k hrest hcolumn
  have hx : Starts (c :: rest) := fun d ds heq => by
    cases heq
    exact ⟨hgap, hsign⟩
  have hgaps : passGap false false k.rest = (false, k.rest) := by
    rw [hrest]
    exact passGap_of_starts hx
  have hnext : (between allowed k indents tokens).toNext = .ok (between allowed k indents tokens) :=
    toNext_of_settled rfl hgaps rfl fun i hi => hcolumn ▸ hdepth i hi
  refine .step hnext hrest htoken ?_ hlexes
  show _ < k.rest.length
  rw [hrest]
  exact Nat.lt_succ_of_le hlength

/-- After an indicator of one character the text goes on behind it. -/
theorem length_skip_one {k : Cursor} (h : k.rest = c :: rest) : (k.skip 1).rest = rest :=
  Cursor.rest_skip (show k.rest = [c] ++ rest from h)

theorem column_skip_one {k : Cursor} (h : k.rest = c :: rest) (hc : isLineEnd c = false)
    (hmark : c ≠ Cursor.byteOrderMark) : (k.skip 1).column = k.column + 1 := by
  show k.next.column = _
  rw [Cursor.next_of_onLine h hc hmark]

/-- An item starts its list unless the list has started. -/
theorem item (hgap : startsWithGap rest = true) (hdepth : ∀ i, indents.head? = some i → i ≤ column)
    (h : From true rest (column + 1) (opened column indents)
      (.item :: started .blockList column indents tokens) ts) :
    From true ('-' :: rest) column indents tokens ts := by
  refine step rfl (by decide) hdepth fun k hrest hcolumn => ?_
  refine ⟨between true (k.skip 1) (opened column indents)
    (.item :: started .blockList column indents tokens), ?_,
    Nat.le_of_eq (congrArg List.length (length_skip_one hrest)), h _ (length_skip_one hrest) ?_⟩
  · rw [token_item _ hgap, Lexer.item, blockIndicator_between, hcolumn]
    rfl
  · rw [column_skip_one hrest rfl (by decide), hcolumn]

/-- A key with an indicator starts its mapping unless the mapping has started. -/
theorem key (hgap : startsWithGap rest = true) (hdepth : ∀ i, indents.head? = some i → i ≤ column)
    (h : From true rest (column + 1) (opened column indents)
      (.key :: started .blockDict column indents tokens) ts) :
    From true ('?' :: rest) column indents tokens ts := by
  refine step rfl (by decide) hdepth fun k hrest hcolumn => ?_
  refine ⟨between true (k.skip 1) (opened column indents)
    (.key :: started .blockDict column indents tokens), ?_,
    Nat.le_of_eq (congrArg List.length (length_skip_one hrest)), h _ (length_skip_one hrest) ?_⟩
  · rw [token_key _ hgap, Lexer.key, blockIndicator_between, hcolumn]
    rfl
  · rw [column_skip_one hrest rfl (by decide), hcolumn]

/-- The value of a key with an indicator has one of its own, below that of the key. -/
theorem value {is : List Nat} (hgap : startsWithGap rest = true)
    (h : From true rest (column + 1) (column :: is) (.value :: tokens) ts) :
    From true (':' :: rest) column (column :: is) tokens ts := by
  refine step rfl (by decide) (fun i hi => ?_) fun k hrest hcolumn => ?_
  · cases hi
    exact Nat.le_refl _
  have hopened : opened column (column :: is) = column :: is ∧
      started .blockDict column (column :: is) tokens = tokens := by
    simp [opened, started]
  refine ⟨between true (k.skip 1) (column :: is) (.value :: tokens), ?_,
    Nat.le_of_eq (congrArg List.length (length_skip_one hrest)), h _ (length_skip_one hrest) ?_⟩
  · rw [token_value _ hgap, Lexer.value]
    show (do
      let l ← (between true k (column :: is) tokens).blockIndicator .blockDict
      return ((l.emit .value).skip 1).allowKey !l.inFlow) = _
    rw [blockIndicator_between, hcolumn, hopened.1, hopened.2]
    rfl
  · rw [column_skip_one hrest rfl (by decide), hcolumn]

/-- The blocks that end at a column and those that end with the text are all the open ones. -/
theorem blockEnds_append (p : Nat → Bool) :
    List.replicate (indents.dropWhile p).length Token.blockEnd ++
        (List.replicate (indents.takeWhile p).length .blockEnd ++ tokens) =
      List.replicate indents.length .blockEnd ++ tokens := by
  have hlength := congrArg List.length (@List.takeWhile_append_dropWhile _ p indents)
  rw [List.length_append] at hlength
  rw [← List.append_assoc, List.replicate_append_replicate, Nat.add_comm, hlength]

/-- At its end a text ends all blocks. -/
theorem finish {crossed : Bool} (hgap : passGap false false x = (crossed, [])) :
    From allowed x column indents tokens
      (Token.finish :: (List.replicate indents.length .blockEnd ++ tokens)).reverse := by
  intro k hrest _
  rw [← hrest] at hgap
  have hend : (k.moveTo []).rest = [] := Cursor.rest_moveTo (List.append_nil _).symm
  have hlexes := Lexes.finish (@toNext_between _ _ allowed k indents tokens hgap) hend
    (finish_between _ _ _ _)
  rw [blockEnds_append] at hlexes
  exact hlexes

/-- The mark of a document's end ends all blocks. -/
theorem documentEnd :
    From true "...\n".toList 0 indents tokens
      (Token.finish :: .documentEnd :: (List.replicate indents.length .blockEnd ++ tokens)).reverse := by
  intro k hrest hcolumn
  have hmark : k.rest = ['.', '.', '.'] ++ ['\n'] := hrest
  have hgap : passGap false false k.rest = (false, k.rest) := by
    rw [hmark]
    rfl
  have hnext := @toNext_between _ _ true k indents tokens hgap
  rw [Cursor.moveTo_self] at hnext
  have hskip : (k.skip 3).rest = ['\n'] := Cursor.rest_skip hmark
  have hend : From false ['\n'] (k.skip 3).column []
      (.documentEnd :: (List.replicate indents.length .blockEnd ++ tokens)) _ :=
    @finish _ _ _ _ _ true rfl
  refine .step hnext hmark ((token_documentEnd _ hcolumn rfl).trans (border_between _ _ _ _ _)) ?_ ?_
  · show (k.skip 3).rest.length < k.rest.length
    rw [hskip, hmark]
    decide
  · rw [blockEnds_append]
    exact hend _ hskip rfl

/-- At the end of a line the text goes on below, where what started on the line is a key no more. -/
theorem lexes_lineEnd {k k' : Cursor} {tokens' : List Token} (hx : Starts x)
    (hdepth : ∀ i, indents.head? = some i → i < k.column) (hrest : k'.rest = '\n' :: (spaces n ++ x))
    (hline : k.line ≤ k'.line) (h : From true x n indents tokens' ts) :
    Lexes { between false k' indents tokens' with possible := keyAt allowed k indents tokens } ts := by
  have hsplit : k'.rest = ('\n' :: spaces n) ++ x := hrest
  have hgap : passGap false false k'.rest = (true, x) := by
    rw [hrest]
    exact (passGap_spaces n).trans (passGap_of_starts hx)
  obtain ⟨hcolumn, hlater⟩ := Cursor.moveTo_of_break (show k'.rest = [] ++ '\n' :: (spaces n ++ x) from hrest) rfl
  exact Lexes.of_gap rfl rfl hx hgap hsplit (fresh_keyAt_of_lt hdepth (Nat.lt_of_le_of_lt hline hlater))
    (h _ (Cursor.rest_moveTo hsplit) hcolumn)

/-- Where the lexer finds a scalar that ends its line. -/
theorem scalar {written r : List Char} {t : Token} {crossed : Bool} (hx : Starts x)
    (hdepth : ∀ i, indents.head? = some i → i < column)
    (hfinds : Finds indents written ('\n' :: (spaces n ++ x)) t r crossed)
    (hend : r = '\n' :: (spaces n ++ x) ∧ crossed = false ∨ r = x ∧ crossed = true)
    (h : From true x n indents (t :: tokens) ts) :
    From allowed (written ++ '\n' :: (spaces n ++ x)) column indents tokens ts := by
  obtain ⟨c, as, rfl, hgap, hsign, htoken⟩ := hfinds
  rw [List.cons_append]
  refine step hgap hsign (fun i hi => Nat.le_of_lt (hdepth i hi)) fun k hrest hcolumn => ?_
  have htoken := htoken allowed k tokens hrest
  rw [saveKey_between] at htoken
  have hline : k.rest = (c :: as) ++ '\n' :: (spaces n ++ x) := hrest
  have hwhole : k.rest = (c :: as ++ '\n' :: spaces n) ++ x := by
    rw [hline, List.append_assoc]
    rfl
  have hdepth' : ∀ i, indents.head? = some i → i < k.column := fun i hi => hcolumn ▸ hdepth i hi
  refine ⟨_, htoken, ?_, ?_⟩
  · show (k.moveTo r).rest.length ≤ _
    rcases hend with ⟨rfl, -⟩ | ⟨rfl, -⟩
    · rw [Cursor.rest_moveTo hline, List.length_append]
      exact Nat.le_add_left _ _
    · rw [Cursor.rest_moveTo hwhole, List.length_append, List.length_cons, List.length_append]
      omega
  · rcases hend with ⟨rfl, rfl⟩ | ⟨rfl, rfl⟩
    · -- the scalar ends before the line does
      have hle : k.line ≤ (k.moveTo ('\n' :: (spaces n ++ x))).line := by
        rw [Cursor.moveTo_append hline]
        exact Cursor.line_skip_le _ k
      exact lexes_lineEnd hx hdepth' (Cursor.rest_moveTo hline) hle h
    · -- the scalar was read up to the next token
      obtain ⟨hnewColumn, hnewLine⟩ := Cursor.moveTo_of_break hline rfl
      have hrest' := Cursor.rest_moveTo hwhole
      have hself : (k.moveTo r).moveTo r = k.moveTo r := by
        have hmove := Cursor.moveTo_self (k.moveTo r)
        rwa [hrest'] at hmove
      have hgap : passGap false false (k.moveTo r).rest = (false, r) := by
        rw [hrest']
        exact passGap_of_starts hx
      refine Lexes.of_gap rfl rfl hx hgap (show _ = [] ++ r from hrest') ?_ ?_
      · show fresh ((k.moveTo r).moveTo r) _ = _
        rw [hself]
        exact fresh_keyAt_of_lt hdepth' hnewLine
      · show Lexes (between true ((k.moveTo r).moveTo r) _ _) _
        rw [hself]
        exact h _ hrest' hnewColumn

/-- A scalar before a colon is a key. -/
theorem simpleKey {written : List Char} {t : Token} (hdepth : ∀ i, indents.head? = some i → i ≤ column)
    (hfinds : Finds indents written (':' :: rest) t (':' :: rest) false)
    (hrest : startsWithGap rest = true) (hline : Cursor.OnLine written) (hlength : written.length ≤ keyLimit)
    (h : From false rest (column + written.length + 1) (opened column indents)
      (.value :: t :: .key :: started .blockDict column indents tokens) ts) :
    From true (written ++ ':' :: rest) column indents tokens ts := by
  obtain ⟨c, as, rfl, hgap, hsign, htoken⟩ := hfinds
  rw [List.cons_append]
  refine step hgap hsign hdepth fun k hk hcolumn => ?_
  have htoken := htoken true k tokens hk
  rw [saveKey_between] at htoken
  have hsplit : k.rest = (c :: as) ++ ':' :: rest := hk
  have hmove := Cursor.moveTo_append hsplit
  rw [Cursor.skip_of_onLine hsplit hline] at hmove
  refine ⟨_, htoken, ?_, ?_⟩
  · show (k.moveTo (':' :: rest)).rest.length ≤ _
    rw [hmove, List.length_append]
    exact Nat.le_add_left _ _
  · show Lexes { between false (k.moveTo (':' :: rest)) indents (t :: tokens) with
      possible := keyAt true k indents tokens } ts
    generalize k.moveTo (':' :: rest) = k' at *
    have hrest' : k'.rest = ':' :: rest := by rw [hmove]
    have hgap' : passGap false false k'.rest = (false, k'.rest) := by
      rw [hrest']
      rfl
    -- the key is on one line and short enough, so it may still be one
    have hfresh : fresh k' (keyAt true k indents tokens) = .ok (keyAt true k indents tokens) :=
      fresh_keyAt (by rw [hmove]) (by rw [hmove]; exact Nat.add_le_add_left hlength _)
    have hdepth' : ∀ i, indents.head? = some i → i ≤ k'.column := by
      intro i hi
      have hi := hdepth i hi
      rw [hmove]
      show i ≤ k.column + (c :: as).length
      omega
    refine .step (toNext_of_settled rfl hgap' hfresh hdepth') hrest'
      ((token_value _ hrest).trans (value_keyAt _ _ _ _ _)) ?_ ?_
    · show (k'.skip 1).rest.length < k'.rest.length
      rw [length_skip_one hrest', hrest']
      exact Nat.lt_succ_self _
    · rw [hcolumn]
      refine h _ (length_skip_one hrest') ?_
      rw [column_skip_one hrest' rfl (by decide), hmove]
      show k.column + (c :: as).length + 1 = _
      rw [hcolumn]

/-- A literal block. -/
theorem literal {text : List Char} (hdepth : ∀ i, indents.head? = some i → i ≤ column)
    (hread : Block.read? false (max 1 (floorOf indents)) rest = some (text, x))
    (hrest : rest = as ++ c :: (spaces n ++ x)) (hc : isBreak c = true)
    (h : From true x n indents (.scalar false text :: tokens) ts) :
    From allowed ('|' :: rest) column indents tokens ts := by
  refine step rfl (by decide) hdepth fun k hk hcolumn => ?_
  have hbreak : k.rest = ('|' :: as) ++ c :: (spaces n ++ x) := by rw [hk, hrest]; rfl
  have hsplit : k.rest = ('|' :: as ++ c :: spaces n) ++ x := by
    rw [hbreak, List.append_assoc]
    rfl
  refine ⟨between true (k.moveTo x) indents (.scalar false text :: tokens), ?_, ?_,
    h _ (Cursor.rest_moveTo hsplit) (Cursor.moveTo_of_break hbreak hc).1⟩
  · have hdrop : (between allowed k indents tokens).dropKey = .ok (between allowed k indents tokens) := rfl
    rw [token_literal _ rfl, blockScalar]
    simp only [hdrop, bind, Except.bind, floor_between, hread]
    rfl
  · show (k.moveTo x).rest.length ≤ _
    rw [Cursor.rest_moveTo hsplit, hrest, List.length_append, List.length_cons, List.length_append]
    omega

/-- A pair of brackets with nothing between them. -/
theorem brackets {first last : Token} {a b : Char} (hx : Starts x)
    (hdepth : ∀ i, indents.head? = some i → i < column)
    (ha : isGap a = false ∧ a ≠ '#' ∧ a ≠ Cursor.byteOrderMark)
    (hb : isGap b = false ∧ b ≠ '#' ∧ b ≠ Cursor.byteOrderMark)
    (hopen : ∀ (l : Lexer) rest, l.token a rest = l.opening first)
    (hclose : ∀ (l : Lexer) rest, l.token b rest = l.closing last)
    (h : From true x n indents (last :: first :: tokens) ts) :
    From allowed (a :: b :: '\n' :: (spaces n ++ x)) column indents tokens ts := by
  refine step ha.1 ha.2.1 (fun i hi => Nat.le_of_lt (hdepth i hi)) fun k hk hcolumn => ?_
  -- what could be a key before the brackets is put aside between them
  have hopening : (between allowed k indents tokens).opening first =
      .ok { between true (k.skip 1) indents (first :: tokens) with
        outer := [keyAt allowed k indents tokens] } := by
    rw [Lexer.opening, saveKey_between]
    rfl
  have hclosing : Lexer.closing last { between true (k.skip 1) indents (first :: tokens) with
      outer := [keyAt allowed k indents tokens] } =
      .ok { between false ((k.skip 1).skip 1) indents (last :: first :: tokens) with
        possible := keyAt allowed k indents tokens } := rfl
  have hone := length_skip_one hk
  have htwo := length_skip_one hone
  have hnext := Cursor.next_of_onLine hk
    (by rw [isGap, Bool.or_eq_false_iff] at ha; exact ha.1.2) ha.2.2
  refine ⟨_, (hopen _ _).trans hopening, Nat.le_of_eq (congrArg List.length hone), ?_⟩
  have hgapOne : passGap false false (k.skip 1).rest = (false, (k.skip 1).rest) := by
    rw [hone]
    exact passGap_of_starts fun c cs heq => by
      cases heq
      exact ⟨hb.1, hb.2.1⟩
  have hline : (k.skip 1).line = k.line := by
    show k.next.line = _
    rw [hnext]
  have hindex : (k.skip 1).index ≤ k.index + keyLimit := by
    show k.next.index ≤ _
    rw [hnext]
    exact Nat.add_le_add_left (by decide) _
  have hfresh : fresh (k.skip 1) (keyAt allowed k indents tokens) = .ok (keyAt allowed k indents tokens) :=
    fresh_keyAt hline hindex
  refine .step (toNext_of_flow rfl rfl hgapOne hfresh) hone ((hclose _ _).trans hclosing) ?_ ?_
  · show ((k.skip 1).skip 1).rest.length < (k.skip 1).rest.length
    rw [htwo, hone]
    exact Nat.lt_succ_self _
  · refine lexes_lineEnd hx (fun i hi => hcolumn ▸ hdepth i hi) htwo ?_ h
    exact Nat.le_trans (Nat.le_of_eq hline.symm) (Cursor.line_skip_le 1 (k.skip 1))

end From

end VirtNet.Yaml
