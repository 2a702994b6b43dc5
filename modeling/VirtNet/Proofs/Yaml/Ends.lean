import VirtNet.Proofs.Text.Lines
import VirtNet.Proofs.Value.Induction
import VirtNet.Yaml.Writer

/-!
# How documents end

The text of a document ends its line (`endsLine_writeDocument`) unless the last thing in it is a literal
block whose text ends in a single break other than a line feed: that break is written as it stands. Where
several breaks end the block, the mark of the document's end is there to end the line.
-/

namespace VirtNet.Yaml

open Text

variable {as bs cs : List Char} {indent column n : Nat} {first : Bool}

theorem endsLine_append (h : EndsLine bs) : EndsLine (as ++ bs) := by
  rw [EndsLine, List.getLast?_append, h]
  rfl

theorem endsLine_cons (c : Char) (h : EndsLine bs) : EndsLine (c :: bs) := by
  rw [← List.singleton_append]
  exact endsLine_append h

/-! ## Scalars -/

/-- A text ends in a break that does not end a line. -/
def EndsInBreak (cs : List Char) : Prop := ∃ c, cs.getLast? = some c ∧ isBreak c = true ∧ c ≠ '\n'

/-- The lines of a block end the last line, unless the text ends in another break. The line before is
ended where the text is empty. -/
theorem endsLine_writeLines {d : Char} {atStart : Bool} (h : ¬ EndsInBreak cs)
    (hd : cs = [] → atStart = true → d = '\n') : EndsLine (d :: writeLines indent atStart cs) := by
  induction cs generalizing d atStart with
  | nil =>
    rw [writeLines]
    split
    · next hstart =>
      rw [hd rfl hstart]
      decide
    · exact endsLine_cons d (by decide)
  | cons c rest ih =>
    have hrest : ¬ EndsInBreak rest := by
      rintro ⟨b, hb, hbreak⟩
      refine h ⟨b, ?_, hbreak⟩
      rw [List.getLast?_cons, hb]
      rfl
    have hbreak : isBreak c = true → rest = [] → c = '\n' := by
      rintro hc rfl
      exact Classical.not_not.1 fun hne => h ⟨c, rfl, hc, hne⟩
    rw [writeLines]
    split
    · next hc => exact endsLine_cons d (ih hrest fun hnil _ => hbreak hc hnil)
    · have hline : EndsLine (c :: writeLines indent false rest) := ih hrest fun _ h => absurd h (by decide)
      split
      · exact endsLine_cons d (endsLine_append hline)
      · exact endsLine_cons d hline

theorem endsLine_writeLiteral (h : ¬ EndsInBreak cs) : EndsLine (writeLiteral indent cs) :=
  endsLine_append (endsLine_writeLines h fun _ _ => rfl)

/-! ## Bytes -/

section Base64

variable {P : Char → Prop}

theorem of_letter (halphabet : ∀ c ∈ Base64.alphabet, P c) (hpad : P '=') (k : Nat) :
    P (Base64.letter k) := by
  rw [Base64.letter, List.getD_eq_getElem?_getD]
  cases hk : Base64.alphabet[k]? with
  | none => exact hpad
  | some c => exact halphabet c (List.mem_of_getElem? hk)

theorem forall_mem_groups (halphabet : ∀ c ∈ Base64.alphabet, P c) (hpad : P '=') (bytes : List UInt8) :
    ∀ c ∈ Base64.groups bytes, P c := by
  have hletter := of_letter halphabet hpad
  induction bytes using Base64.groups.induct with
  | case1 => exact List.forall_mem_nil _
  | case2 a => simp [Base64.groups, hletter, hpad]
  | case3 a b => simp [Base64.groups, hletter, hpad]
  | case4 a b c rest ih => simpa [Base64.groups, hletter] using ih

theorem forall_mem_base64Lines (hfeed : P '\n') {width room : Nat} (h : ∀ c ∈ cs, P c) :
    ∀ c ∈ Base64.lines width room cs, P c := by
  induction cs generalizing room with
  | nil =>
    rw [Base64.lines]
    split <;> simp [hfeed]
  | cons c rest ih =>
    rw [List.forall_mem_cons] at h
    cases room with
    | zero => simpa [Base64.lines, hfeed, h.1] using ih h.2
    | succ room => simpa [Base64.lines, h.1] using ih h.2

/-- What holds of the alphabet, of the padding and of a line feed holds of every character that bytes are
written with. -/
theorem forall_mem_encode (halphabet : ∀ c ∈ Base64.alphabet, P c) (hpad : P '=') (hfeed : P '\n')
    (bytes : List UInt8) : ∀ c ∈ Base64.encode bytes, P c :=
  forall_mem_base64Lines hfeed (forall_mem_groups halphabet hpad bytes)

end Base64

/-- A text in base 64 has no breaks but line feeds. -/
theorem not_endsInBreak_encode (bytes : List UInt8) : ¬ EndsInBreak (Base64.encode bytes) := by
  rintro ⟨c, hc, hbreak, hne⟩
  have halphabet : Base64.alphabet.all (fun d => !isBreak d) = true := by decide
  have hfeed : isBreak c = false ∨ c = '\n' := by
    refine forall_mem_encode (P := fun c => isBreak c = false ∨ c = '\n') (fun d hd => .inl ?_)
      (.inl rfl) (.inr rfl) bytes c (List.mem_of_getLast? hc)
    simpa using List.all_eq_true.1 halphabet d hd
  rcases hfeed with hno | hfeed
  · rw [hno] at hbreak
    cases hbreak
  · exact hne hfeed

/-! ## Values -/

/-- A text that is written as a block and ends in a break that does not end a line. -/
def Unfinished (s : String) : Prop := style s.toList = .literal ∧ EndsInBreak s.toList

/-- The last thing in a value is the text `s`. -/
inductive EndsIn (s : String) : Value → Prop
  | text : EndsIn s (.text s)
  | list {vs : List Value} {v : Value} (hlast : vs.getLast? = some v) (h : EndsIn s v) :
      EndsIn s (.list vs)
  | pair (a : Value) {b : Value} (h : EndsIn s b) : EndsIn s (.pair a b)
  | dict {es : List (Value × Value)} {e : Value × Value} (hlast : es.getLast? = some e)
      (h : EndsIn s e.2) : EndsIn s (.dict es)
  | numbered (n : Nat) {v : Value} (h : EndsIn s v) : EndsIn s (.numbered n v)

/-- A scalar or an empty collection ends its line, unless it is an unfinished text. -/
theorem endsLine_writeLeaf {v : Value} (h : ∀ s, v = .text s → ¬ Unfinished s) :
    EndsLine (writeLeaf indent column v) := by
  have hlast : EndsLine ['\n'] := by decide
  unfold writeLeaf
  split
  · next s =>
    dsimp only
    split
    · next hstyle => exact endsLine_writeLiteral fun hbreak => h s rfl ⟨hstyle, hbreak⟩
    · exact endsLine_append hlast
  · decide
  · exact endsLine_append (endsLine_writeLiteral (not_endsInBreak_encode _))
  · decide
  · decide
  · decide
  · exact endsLine_append hlast
  · exact endsLine_append hlast

/-- A value ends its line, after a mark and below a key. -/
structure Ended (v : Value) : Prop where
  afterMark : ∀ inList n, EndsLine (writeAfterMark inList n v)
  below : ∀ listColumn n column, EndsLine (writeBelow listColumn n column v)

/-- Items end as the last of them does. -/
theorem endsLine_writeItems {vs : List Value} (hne : vs ≠ [])
    (h : ∀ v, vs.getLast? = some v → Ended v) : EndsLine (writeItems n first vs) := by
  induction vs generalizing first with
  | nil => exact absurd rfl hne
  | cons v vs ih =>
    rw [writeItems]
    cases vs with
    | nil =>
      rw [writeItems, List.append_nil]
      exact endsLine_append (endsLine_cons _ ((h v rfl).afterMark true n))
    | cons w ws => exact endsLine_append (ih (by simp) fun u hu => h u hu)

/-- Entries end as the value of the last of them does. -/
theorem endsLine_writeEntries {es : List (Value × Value)} (hne : es ≠ [])
    (h : ∀ e, es.getLast? = some e → Ended e.2) : EndsLine (writeEntries n first es) := by
  induction es generalizing first with
  | nil => exact absurd rfl hne
  | cons e es ih =>
    obtain ⟨key, v⟩ := e
    rw [writeEntries]
    cases es with
    | nil =>
      have hv : Ended v := h (key, v) rfl
      rw [writeEntries, List.append_nil]
      refine endsLine_append ?_
      split
      · exact endsLine_append (endsLine_cons _ (hv.below _ _ _))
      · exact endsLine_append (endsLine_cons _ (hv.afterMark _ _))
    | cons e' es' => exact endsLine_append (ih (by simp) fun u hu => h u hu)

/-- Members end their lines. -/
theorem endsLine_writeMembers {ms : List Value} (hne : ms ≠ []) : EndsLine (writeMembers n first ms) := by
  induction ms generalizing first with
  | nil => exact absurd rfl hne
  | cons m ms ih =>
    rw [writeMembers]
    cases ms with
    | nil =>
      rw [writeMembers, List.append_nil]
      refine endsLine_append ?_
      split <;> exact endsLine_append (by decide)
    | cons m' ms' => exact endsLine_append (ih (by simp))

theorem ended_of_leaf {v : Value} (h : ∀ s, v = .text s → ¬ Unfinished s)
    (hmark : ∀ inList n, writeAfterMark inList n v = ' ' :: writeLeaf (n + 2) (n + 2) v)
    (hbelow : ∀ listColumn n column,
      writeBelow listColumn n column v = ' ' :: writeLeaf (n + 2) column v) : Ended v where
  afterMark inList n := by
    rw [hmark]
    exact endsLine_cons _ (endsLine_writeLeaf h)
  below listColumn n column := by
    rw [hbelow]
    exact endsLine_cons _ (endsLine_writeLeaf h)

theorem endsLine_emptyLeaf {v : Value} (h : ∀ s, v ≠ .text s) : EndsLine (' ' :: writeLeaf indent column v) :=
  endsLine_cons _ (endsLine_writeLeaf fun s hs => absurd hs (h s))

namespace Ended

/-- A list ends as its last item does. -/
theorem list {vs : List Value} (h : ∀ v, vs.getLast? = some v → Ended v) : Ended (.list vs) where
  afterMark inList n := by
    rw [writeAfterMark]
    split
    · exact endsLine_emptyLeaf (by simp)
    · next hne => exact endsLine_cons _ (endsLine_writeItems (by simpa using hne) h)
  below listColumn n column := by
    rw [writeBelow]
    split
    · exact endsLine_emptyLeaf (by simp)
    · next hne => exact endsLine_cons _ (endsLine_writeItems (by simpa using hne) h)

theorem pair {a b : Value} (h : Ended b) : Ended (.pair a b) where
  afterMark inList n := by
    rw [writeAfterMark]
    exact endsLine_append (endsLine_cons _ (h.afterMark _ _))
  below listColumn n column := by
    rw [writeBelow]
    exact endsLine_append (endsLine_cons _ (h.afterMark _ _))

/-- The members of a set have no values, so they end their lines whatever they are. -/
theorem set (ms : List Value) : Ended (.set ms) where
  afterMark inList n := by
    rw [writeAfterMark]
    split
    · exact endsLine_emptyLeaf (by simp)
    · next hne => exact endsLine_append (endsLine_writeMembers (by simpa using hne))
  below listColumn n column := by
    rw [writeBelow]
    split
    · exact endsLine_emptyLeaf (by simp)
    · next hne => exact endsLine_append (endsLine_writeMembers (by simpa using hne))

/-- A mapping ends as its last value does. -/
theorem dict {es : List (Value × Value)} (h : ∀ e, es.getLast? = some e → Ended e.2) : Ended (.dict es) where
  afterMark inList n := by
    rw [writeAfterMark]
    split
    · exact endsLine_emptyLeaf (by simp)
    · next hne => exact endsLine_cons _ (endsLine_writeEntries (by simpa using hne) h)
  below listColumn n column := by
    rw [writeBelow]
    split
    · exact endsLine_emptyLeaf (by simp)
    · next hne => exact endsLine_cons _ (endsLine_writeEntries (by simpa using hne) h)

theorem numbered (anchor : Nat) {v : Value} (h : Ended v) : Ended (.numbered anchor v) where
  afterMark inList n := by
    rw [writeAfterMark]
    exact endsLine_append (h.below _ _ _)
  below listColumn n column := by
    rw [writeBelow]
    exact endsLine_append (h.below _ _ _)

end Ended

/-- A value ends its line unless the last thing in it is an unfinished text. -/
theorem ended {v : Value} (h : ∀ s, EndsIn s v → ¬ Unfinished s) : Ended v := by
  -- what a part ends in the whole ends in, if the part comes last
  induction v using Value.inductionOn with
  | text s =>
    refine ended_of_leaf ?_ (fun _ _ => rfl) (fun _ _ _ => rfl)
    rintro t ⟨⟩
    exact h s .text
  | list items ih => exact .list fun v hv => ih v (List.mem_of_getLast? hv) fun s hs => h s (.list hv hs)
  | pair a b iha ihb => exact .pair (ihb fun s hs => h s (.pair a hs))
  | set ms ih => exact .set ms
  | dict es ih => exact .dict fun e he => (ih e (List.mem_of_getLast? he)).2 fun s hs => h s (.dict he hs)
  | numbered anchor v ih => exact .numbered anchor (ih fun s hs => h s (.numbered anchor hs))
  | _ => exact ended_of_leaf (by simp) (fun _ _ => rfl) (fun _ _ _ => rfl)

/-! ## Documents -/

/-- A list ends open where its last value does. -/
theorem lastEndsOpen_of_getLast? {vs : List Value} {v : Value} (hlast : vs.getLast? = some v) :
    lastEndsOpen vs = endsOpen v := by
  induction vs with
  | nil => cases hlast
  | cons w ws ih =>
    cases ws with
    | nil =>
      obtain rfl := Option.some.inj hlast
      rfl
    | cons w' ws' => exact ih hlast

/-- A mapping ends open where the value of its last entry does. -/
theorem lastValueEndsOpen_of_getLast? {es : List (Value × Value)} {e : Value × Value}
    (hlast : es.getLast? = some e) : lastValueEndsOpen es = endsOpen e.2 := by
  induction es with
  | nil => cases hlast
  | cons f fs ih =>
    cases fs with
    | nil =>
      obtain rfl := Option.some.inj hlast
      rfl
    | cons f' fs' => exact ih hlast

/-- A value in which an open block comes last ends open. -/
theorem EndsIn.endsOpen {s : String} {v : Value} (h : EndsIn s v) (hstyle : style s.toList = .literal)
    (hkeeps : keepsBreaks s.toList = true) : endsOpen v = true := by
  induction h with
  | text => simp [Yaml.endsOpen, hstyle, hkeeps]
  | list hlast h ih => exact (lastEndsOpen_of_getLast? hlast).trans ih
  | pair a h ih => exact ih
  | dict hlast h ih => exact (lastValueEndsOpen_of_getLast? hlast).trans ih
  | numbered n h ih => exact ih

/-- A document ends its line unless the last thing in it is an unfinished text with a single break at
its end. -/
theorem endsLine_writeDocument {v : Value}
    (h : ∀ s, EndsIn s v → Unfinished s → keepsBreaks s.toList = true) : EndsLine (writeDocument v) := by
  rw [writeDocument]
  split
  · exact endsLine_append (by decide)
  · next hopen =>
    rw [Bool.or_eq_true, not_or] at hopen
    -- an unfinished text at the end would have left the document open
    have hv : ∀ s, EndsIn s v → ¬ Unfinished s := fun s hs hun =>
      hopen.1 (hs.endsOpen hun.1 (h s hs hun))
    rw [List.append_nil]
    unfold writeRoot
    split
    · next w ws =>
      exact endsLine_writeItems (by simp) fun u hu => ended fun s hs => hv s (.list hu hs)
    · next a b =>
      refine endsLine_writeItems (by simp) fun u hu => ended fun s hs => hv s (.pair a ?_)
      obtain rfl : b = u := Option.some.inj hu
      exact hs
    · next e es =>
      exact endsLine_writeEntries (by simp) fun u hu => ended fun s hs => hv s (.dict hu hs)
    · exact endsLine_append (endsLine_writeMembers (by simp))
    · next anchor u =>
      exact endsLine_append ((ended fun s hs => hv s (.numbered anchor hs)).below _ _ _)
    · refine endsLine_writeLeaf ?_
      rintro s rfl
      exact hv s .text

end VirtNet.Yaml
