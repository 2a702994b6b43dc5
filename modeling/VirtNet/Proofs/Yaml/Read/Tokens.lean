import VirtNet.Proofs.Yaml.Read.Leaf
import VirtNet.Proofs.Yaml.Read.Shown

/-!
# Values as tokens

`Readable` collects what a value needs for its text to be read back, and `tokens` are the tokens of its
text. The lexer finds them wherever the value stands: after a mark and below a key (`lexed`), and so in
the text of a document (`ofText_writeDocument`).
-/

namespace VirtNet.Yaml

open Lexer

/-! ## Readable values -/

/-- A key whose text is found again: in its style it comes back, and on the line of its value it has no
more characters than a key may have. -/
structure ReadableKey (k : String) : Prop where
  back : ReadsBack k.toList
  short : ∀ cs, simpleKey? (.text k) = some cs → cs.length ≤ keyLimit

/-- Null, truth values, texts, numbers that can be written, and lists and mappings of these with distinct
texts as keys. `room` bounds how many collections are around each other. -/
inductive Readable : (room : Nat) → Value → Prop
  | null {room : Nat} : Readable room .null
  | bool {room : Nat} (b : Bool) : Readable room (.bool b)
  | int {room : Nat} {n : Int} (h : Text.isWritable n = true) : Readable room (.int n)
  | text {room : Nat} {s : String} (h : ReadsBack s.toList) : Readable room (.text s)
  | list {room : Nat} {items : List Value} (h : ∀ v ∈ items, Readable room v) :
      Readable (room + 1) (.list items)
  | dict {room : Nat} {es : List (Value × Value)} (hkeys : ∀ e ∈ es, ∃ k, e.1 = .text k ∧ ReadableKey k)
      (hdistinct : (es.map Prod.fst).Nodup) (h : ∀ e ∈ es, Readable room e.2) :
      Readable (room + 1) (.dict es)

/-- What is readable is a tree. -/
theorem Readable.tree {room : Nat} {v : Value} (h : Readable room v) : v.Tree := by
  induction h with
  | null => exact .null
  | bool b => exact .bool b
  | int => exact .int _
  | text => exact .text _
  | list h ih => exact .list ih
  | dict hkeys hdistinct h ih =>
    exact .dict (fun e he => (hkeys e he).imp fun _ hk => hk.1) ih

/-! ## Tokens -/

mutual

/-- The tokens of a value. A list that has the column of its key is `flat`: no block starts or ends with
it. -/
def tokens (flat : Bool) : Value → List Token
  | .text s => [.scalar (style s.toList == .plain) s.toList]
  | .list items =>
    if items.isEmpty then [.openList, .closeList]
    else if flat then itemTokens items
    else .blockList :: (itemTokens items ++ [.blockEnd])
  | .dict es =>
    if es.isEmpty then [.openDict, .closeDict] else .blockDict :: (entryTokens es ++ [.blockEnd])
  | v => [.scalar true (plainForm v)]

/-- The tokens of the items of a list. -/
def itemTokens : List Value → List Token
  | [] => []
  | v :: vs => .item :: (tokens false v ++ itemTokens vs)

/-- The tokens of the entries of a mapping. -/
def entryTokens : List (Value × Value) → List Token
  | [] => []
  | (k, v) :: es =>
    .key :: (tokens false k ++ .value :: (tokens (simpleKey? k).isSome v ++ entryTokens es))

end

/-! ## Open blocks -/

variable {indents : List Nat} {n : Nat}

/-- A token at a column that stands in a block leaves that block the innermost one. -/
theorem opened_eq_cons (h : ∀ i, indents.head? = some i → i ≤ n) : ∃ is, opened n indents = n :: is := by
  cases indents with
  | nil => exact ⟨[], rfl⟩
  | cons i is =>
    have hi : i ≤ n := h i rfl
    rcases Nat.lt_or_eq_of_le hi with hlt | rfl
    · exact ⟨i :: is, by simp [opened, hlt]⟩
    · exact ⟨is, by simp [opened]⟩

/-- A block that is the innermost one has started. -/
theorem opened_self (n : Nat) (is : List Nat) : opened n (n :: is) = n :: is := by
  simp [opened]

theorem started_self (start : Token) (n : Nat) (is : List Nat) (tokens : List Token) :
    started start n (n :: is) tokens = tokens := by
  simp [started]

/-- A block further right than the others starts. -/
theorem opened_of_lt (h : ∀ i, indents.head? = some i → i < n) : opened n indents = n :: indents := by
  cases indents with
  | nil => rfl
  | cons i is => simp [opened, h i rfl]

theorem started_of_lt (h : ∀ i, indents.head? = some i → i < n) (start : Token) (tokens : List Token) :
    started start n indents tokens = start :: tokens := by
  cases indents with
  | nil => rfl
  | cons i is => simp [started, h i rfl]

/-- What stands right of the innermost block stands right of all of them. -/
theorem lt_of_head (hhead : indents.head? = some n) {column : Nat} (h : n < column) :
    ∀ i, indents.head? = some i → i < column := by
  intro i hi
  obtain rfl := Option.some.inj (hhead.symm.trans hi)
  exact h

/-- What comes after a value in a block at column `n`: the end of the text, or a token no further right. -/
structure Next (n m : Nat) (x : List Char) : Prop where
  starts : Starts x
  atEnd : x = [] → m = 0
  column : m ≤ n

variable {m room column : Nat} {x : List Char} {T ts : List Token}

/-- What may come after a block may come after one further right. -/
theorem Next.mono (h : Next n m x) {column : Nat} (hcolumn : n ≤ column) : Next column m x :=
  ⟨h.starts, h.atEnd, Nat.le_trans h.column hcolumn⟩

theorem Next.follows (h : Next n m x) (hhead : indents.head? = some n) : Follows indents m x where
  starts := h.starts
  atEnd := h.atEnd
  outside := by
    have hfloor : floorOf indents = n + 1 := by rw [floorOf, hhead]; rfl
    have hcolumn := h.column
    exact .inr (.inl (by omega))

theorem indented_of_head (hhead : indents.head? = some n) (hn : n + 2 < lineWidth) : Indented indents (n + 2) where
  eq := by
    have hfloor : floorOf indents = n + 1 := by rw [floorOf, hhead]; rfl
    omega
  width := hn

/-! ## Values -/

/-- A value that stands in a block at column `n` is found by the lexer, after a mark at this column and
behind the colon of a key. -/
structure Lexed (room : Nat) (v : Value) : Prop where
  afterMark : ∀ {inList : Bool} {n m : Nat} {indents : List Nat} {x : List Char} {T ts : List Token},
    n + 2 * room + 2 < lineWidth → indents.head? = some n → Next n m x →
    From true x m indents ((tokens false v).reverse ++ T) ts →
    From true (writeAfterMark inList n v ++ (spaces m ++ x)) (n + 1) indents T ts
  below : ∀ {n column m : Nat} {indents : List Nat} {x : List Char} {T ts : List Token},
    n + 2 * room + 2 < lineWidth → n ≤ column → indents.head? = some n → Next n m x →
    From true x m indents ((tokens true v).reverse ++ T) ts →
    From false (writeBelow n n (column + 1) v ++ (spaces m ++ x)) column indents T ts

/-- A scalar or an empty collection. -/
theorem Lexed.of_leaf {v : Value} (hflat : tokens true v = tokens false v)
    (hmark : ∀ inList n, writeAfterMark inList n v = ' ' :: writeLeaf (n + 2) (n + 2) v)
    (hbelow : ∀ listColumn n column, writeBelow listColumn n column v = ' ' :: writeLeaf (n + 2) column v)
    (h : ∀ {allowed : Bool} {indent column m : Nat} {indents : List Nat} {x : List Char} {T ts : List Token},
      Indented indents indent → (∀ i, indents.head? = some i → i < column) → Follows indents m x →
      From true x m indents ((tokens false v).reverse ++ T) ts →
      From allowed (writeLeaf indent column v ++ (spaces m ++ x)) column indents T ts) : Lexed room v where
  afterMark hroom hhead hnext hrest := by
    rw [hmark, List.cons_append]
    exact From.space (h (indented_of_head hhead (by omega)) (lt_of_head hhead (by omega)) (hnext.follows hhead)
      hrest)
  below hroom hcolumn hhead hnext hrest := by
    rw [hbelow, List.cons_append]
    rw [hflat] at hrest
    exact From.space (h (indented_of_head hhead (by omega)) (lt_of_head hhead (by omega)) (hnext.follows hhead)
      hrest)

/-- Null, truth values and numbers are plain scalars. -/
theorem Lexed.of_form {v : Value} {t : Tag} (hv : Resolves v t) (hflat : tokens true v = tokens false v)
    (htokens : tokens false v = [.scalar true (plainForm v)])
    (hmark : ∀ inList n, writeAfterMark inList n v = ' ' :: writeLeaf (n + 2) (n + 2) v)
    (hbelow : ∀ listColumn n column, writeBelow listColumn n column v = ' ' :: writeLeaf (n + 2) column v)
    (hleaf : ∀ indent column, writeLeaf indent column v = writePlain indent column false (plainForm v) ++ ['\n']) :
    Lexed room v := by
  refine .of_leaf hflat hmark hbelow fun hindent hdepth hnext hrest => ?_
  rw [hleaf]
  rw [htokens] at hrest
  exact From.form hv hindent hdepth hnext hrest

theorem lexed_text {s : String} (h : ReadsBack s.toList) : Lexed room (.text s) :=
  .of_leaf rfl (fun _ _ => rfl) (fun _ _ _ => rfl) fun hindent hdepth hnext hrest =>
    From.text h hindent hdepth hnext hrest

theorem lexed_emptyList : Lexed room (.list []) := by
  refine .of_leaf rfl (fun _ _ => ?_) (fun _ _ _ => ?_) fun _ hdepth hnext hrest => ?_
  · rw [writeAfterMark]
    rfl
  · rw [writeBelow]
    rfl
  · exact From.emptyList hdepth hnext.starts hrest

theorem lexed_emptyDict : Lexed room (.dict []) := by
  refine .of_leaf rfl (fun _ _ => ?_) (fun _ _ _ => ?_) fun _ hdepth hnext hrest => ?_
  · rw [writeAfterMark]
    rfl
  · rw [writeBelow]
    rfl
  · exact From.emptyDict hdepth hnext.starts hrest

/-! ## Items -/

theorem startsWithGap_writeAfterMark {inList : Bool} {v : Value} {k : List Char} (h : v.Tree) :
    startsWithGap (writeAfterMark inList n v ++ k) = true := by
  cases h with
  | list | dict =>
    rw [writeAfterMark]
    rfl
  | _ => rfl

theorem startsWithGap_writeBelow {listColumn : Nat} {v : Value} {k : List Char} (h : v.Tree) :
    startsWithGap (writeBelow listColumn n column v ++ k) = true := by
  cases h with
  | list | dict =>
    rw [writeBelow]
    split <;> rfl
  | _ => rfl

/-- Further items stand at the column of the first. -/
theorem writeItems_cons (v : Value) (vs : List Value) :
    writeItems n true (v :: vs) = '-' :: (writeAfterMark true n v ++
      (if vs = [] then [] else spaces n ++ writeItems n true vs)) := by
  cases vs with
  | nil => simp [writeItems, indentation]
  | cons w ws => simp [writeItems, indentation]

theorem writeItems_further {vs : List Value} (hne : vs ≠ []) :
    writeItems n false vs = spaces n ++ writeItems n true vs := by
  obtain ⟨v, vs, rfl⟩ := List.exists_cons_of_ne_nil hne
  simp [writeItems, indentation]

/-- Items start with a mark. -/
theorem starts_writeItems {vs : List Value} (hne : vs ≠ []) {rest : List Char} :
    Starts (writeItems n true vs ++ rest) := by
  obtain ⟨v, vs, rfl⟩ := List.exists_cons_of_ne_nil hne
  rw [writeItems_cons]
  rintro c cs heq
  cases heq
  decide

/-- Items below each other, the first at the place where the lexer is. -/
theorem From.items {vs : List Value} (hne : vs ≠ []) (hroom : n + 2 * room + 2 < lineWidth)
    (hvs : ∀ v ∈ vs, v.Tree ∧ Lexed room v) (hdepth : ∀ i, indents.head? = some i → i ≤ n)
    (hnext : Next n m x)
    (h : From true x m (opened n indents) ((itemTokens vs).reverse ++ started .blockList n indents T) ts) :
    From true (writeItems n true vs ++ (spaces m ++ x)) n indents T ts := by
  induction vs generalizing indents T with
  | nil => exact absurd rfl hne
  | cons v vs ih =>
    rw [List.forall_mem_cons] at hvs
    obtain ⟨⟨htree, hv⟩, hvs⟩ := hvs
    obtain ⟨is, his⟩ := opened_eq_cons hdepth
    rw [writeItems_cons, List.cons_append, List.append_assoc]
    refine From.item (startsWithGap_writeAfterMark htree) hdepth ?_
    rw [his] at h ⊢
    cases vs with
    | nil =>
      refine hv.afterMark hroom rfl hnext ?_
      simpa [itemTokens] using h
    | cons w ws =>
      rw [if_neg (List.cons_ne_nil w ws), List.append_assoc]
      refine hv.afterMark hroom rfl ⟨starts_writeItems (List.cons_ne_nil w ws), fun hnil => ?_, Nat.le_refl n⟩ ?_
      · rw [writeItems_cons] at hnil
        cases hnil
      · -- the other items stand at the same column, in the block that the first has opened
        refine ih (List.cons_ne_nil w ws) hvs (fun i hi => ?_) ?_
        · cases hi
          exact Nat.le_refl n
        · rw [opened_self, started_self]
          simpa [itemTokens] using h

/-! ## Entries -/

theorem Finds.starts {written after rest k : List Char} {t : Token} {crossed : Bool}
    (h : Finds indents written after t rest crossed) : Starts (written ++ k) := by
  obtain ⟨c, as, rfl, hgap, hsign, -⟩ := h
  rintro d ds heq
  cases heq
  exact ⟨hgap, hsign⟩

namespace ReadableKey

variable {k : String} {cs : List Char}

/-- A key on the line of its value is one token before the colon. -/
theorem finds (hk : ReadableKey k) (h : simpleKey? (.text k) = some cs) {rest : List Char}
    (hrest : startsWithGap rest = true) :
    Finds indents cs (':' :: rest) (.scalar (style k.toList == .plain) k.toList) (':' :: rest) false := by
  obtain ⟨rfl, hbreaks, hlength⟩ := of_simpleKey_text h
  refine finds_writeInline_key hbreaks ?_ hk.back hrest
  rw [lineWidth]
  omega

/-- A key on the line of its value is on one line. -/
theorem onLine (h : simpleKey? (.text k) = some cs) : Cursor.OnLine cs := by
  have hshown := Shown.simpleKey h
  obtain ⟨rfl, hbreaks, hlength⟩ := of_simpleKey_text h
  intro c hc
  have hbreak := isBreak_of_mem_writeInline hbreaks (by rw [lineWidth]; omega) c hc
  refine ⟨isLineEnd_of_isShown (hshown c hc) hbreak, ?_⟩
  rintro rfl
  exact absurd (hshown _ hc) (by decide)

end ReadableKey

/-- An entry with a text as its key. -/
def writeEntry (n : Nat) (k : String) (v : Value) : List Char :=
  match simpleKey? (.text k) with
  | some cs => cs ++ ':' :: writeBelow n n (n + cs.length + 2) v
  | none => '?' :: (writeAfterMark false n (.text k) ++ (spaces n ++ ':' :: writeAfterMark false n v))

theorem writeEntries_further {es : List (Value × Value)} (hne : es ≠ []) :
    writeEntries n false es = spaces n ++ writeEntries n true es := by
  obtain ⟨⟨k, v⟩, es, rfl⟩ := List.exists_cons_of_ne_nil hne
  simp [writeEntries, indentation]

/-- Further entries stand at the column of the first. -/
theorem writeEntries_cons (k : String) (v : Value) (es : List (Value × Value)) :
    writeEntries n true ((.text k, v) :: es) = writeEntry n k v ++
      (if es = [] then [] else spaces n ++ writeEntries n true es) := by
  cases es with
  | nil =>
    have hlast : writeEntries n false [] = [] := by rw [writeEntries]
    rw [if_pos rfl, List.append_nil, writeEntries, writeEntry, hlast]
    cases simpleKey? (.text k) <;> simp [indentation]
  | cons e es =>
    rw [writeEntries, writeEntry, writeEntries_further (List.cons_ne_nil e es)]
    cases simpleKey? (.text k) <;> simp [indentation]

/-- An entry starts with a token. -/
theorem starts_writeEntry {k : String} {v : Value} {rest : List Char} (hk : ReadableKey k) :
    writeEntry n k v ≠ [] ∧ Starts (writeEntry n k v ++ rest) := by
  unfold writeEntry
  split
  · next cs hcs =>
    have hfinds := @ReadableKey.finds [] k cs hk hcs [] rfl
    refine ⟨by simp, ?_⟩
    rw [List.append_assoc]
    exact hfinds.starts
  · refine ⟨by simp, ?_⟩
    rintro c cs heq
    cases heq
    decide

/-- Entries start with a token. -/
theorem starts_writeEntries {es : List (Value × Value)} {rest : List Char} (hne : es ≠ [])
    (hkeys : ∀ e ∈ es, ∃ k, e.1 = .text k ∧ ReadableKey k) :
    writeEntries n true es ≠ [] ∧ Starts (writeEntries n true es ++ rest) := by
  obtain ⟨⟨key, v⟩, es, rfl⟩ := List.exists_cons_of_ne_nil hne
  obtain ⟨k, hkey, hk⟩ := hkeys (key, v) List.mem_cons_self
  obtain rfl : key = .text k := hkey
  rw [writeEntries_cons, List.append_assoc]
  exact ⟨fun hnil => (@starts_writeEntry n k v [] hk).1 (List.append_eq_nil_iff.1 hnil).1,
    (starts_writeEntry hk).2⟩

/-- An entry at the place where the lexer is. -/
theorem From.entry {k : String} {v : Value} (hroom : n + 2 * room + 2 < lineWidth) (hk : ReadableKey k)
    (htree : v.Tree) (hv : Lexed room v) (hdepth : ∀ i, indents.head? = some i → i ≤ n) (hnext : Next n m x)
    (h : From true x m (opened n indents) ((tokens (simpleKey? (.text k)).isSome v).reverse ++
      .value :: (tokens false (.text k)).reverse ++ .key :: started .blockDict n indents T) ts) :
    From true (writeEntry n k v ++ (spaces m ++ x)) n indents T ts := by
  obtain ⟨is, his⟩ := opened_eq_cons hdepth
  unfold writeEntry
  split
  · next cs hcs =>
    -- the key is on the line of its value
    have hrest : startsWithGap (writeBelow n n (n + cs.length + 2) v ++ (spaces m ++ x)) = true :=
      startsWithGap_writeBelow htree
    rw [List.append_assoc, List.cons_append]
    refine From.simpleKey hdepth (hk.finds hcs hrest) hrest (ReadableKey.onLine hcs) (hk.short cs hcs) ?_
    rw [his, hcs] at h
    rw [his]
    exact hv.below hroom (by omega) rfl hnext (by simpa [tokens] using h)
  · next hcs =>
    -- the key has a mark and a line of its own
    have hvalue : Starts (':' :: (writeAfterMark false n v ++ (spaces m ++ x))) := by
      rintro c cs heq
      cases heq
      decide
    rw [his, hcs] at h
    rw [List.cons_append, List.append_assoc, List.append_assoc, List.cons_append]
    refine From.key (startsWithGap_writeAfterMark (.text k)) hdepth ?_
    rw [his]
    refine (lexed_text hk.back).afterMark hroom rfl ⟨hvalue, (fun hnil => nomatch hnil), Nat.le_refl n⟩ ?_
    refine From.value (startsWithGap_writeAfterMark htree) ?_
    exact hv.afterMark hroom rfl hnext (by simpa [tokens] using h)

/-- Entries below each other, the first at the place where the lexer is. -/
theorem From.entries {es : List (Value × Value)} (hne : es ≠ []) (hroom : n + 2 * room + 2 < lineWidth)
    (hes : ∀ e ∈ es, (∃ k, e.1 = .text k ∧ ReadableKey k) ∧ e.2.Tree ∧ Lexed room e.2)
    (hdepth : ∀ i, indents.head? = some i → i ≤ n) (hnext : Next n m x)
    (h : From true x m (opened n indents) ((entryTokens es).reverse ++ started .blockDict n indents T) ts) :
    From true (writeEntries n true es ++ (spaces m ++ x)) n indents T ts := by
  induction es generalizing indents T with
  | nil => exact absurd rfl hne
  | cons e es ih =>
    rw [List.forall_mem_cons] at hes
    obtain ⟨key, v⟩ := e
    obtain ⟨⟨⟨k, hkey, hk⟩, htree, hv⟩, hes⟩ := hes
    obtain rfl : key = .text k := hkey
    rw [writeEntries_cons, List.append_assoc]
    cases es with
    | nil =>
      refine From.entry hroom hk htree hv hdepth hnext ?_
      simpa [entryTokens] using h
    | cons e' es' =>
      have hstarts := @starts_writeEntries n (e' :: es') (spaces m ++ x) (List.cons_ne_nil e' es')
        fun f hf => (hes f hf).1
      obtain ⟨is, his⟩ := opened_eq_cons hdepth
      rw [if_neg (List.cons_ne_nil e' es'), List.append_assoc]
      refine From.entry hroom hk htree hv hdepth ⟨hstarts.2, fun hnil => ?_, Nat.le_refl n⟩ ?_
      · exact absurd (List.append_eq_nil_iff.1 hnil).1 hstarts.1
      · rw [his] at h ⊢
        -- the other entries stand at the same column, in the block that the first has opened
        refine ih (List.cons_ne_nil e' es') hes (fun i hi => ?_) ?_
        · cases hi
          exact Nat.le_refl n
        · rw [opened_self, started_self]
          rw [entryTokens] at h
          simpa using h

/-! ## Lists and mappings -/

/-- A list stands two columns further right than a mark, but below a key it has the column of the key. -/
theorem lexed_list {vs : List Value} (hne : vs ≠ []) (hvs : ∀ v ∈ vs, v.Tree ∧ Lexed room v) :
    Lexed (room + 1) (.list vs) where
  afterMark {inList n m indents x T ts} hroom hhead hnext hrest := by
    have hdepth := lt_of_head hhead (show n < n + 2 by omega)
    have hcolumn := hnext.column
    have hempty : vs.isEmpty = false := by simpa using hne
    rw [writeAfterMark, hempty, if_neg Bool.false_ne_true, List.cons_append]
    refine From.space (From.items hne (by omega) hvs (fun i hi => Nat.le_of_lt (hdepth i hi))
      (hnext.mono (by omega)) ?_)
    rw [opened_of_lt hdepth, started_of_lt hdepth]
    refine From.pop hnext.starts (by omega) ?_
    simpa [tokens, hempty] using hrest
  below {n column m indents x T ts} hroom hcolumn hhead hnext hrest := by
    obtain ⟨is, rfl⟩ := List.head?_eq_some_iff.1 hhead
    have hempty : vs.isEmpty = false := by simpa using hne
    rw [writeBelow, hempty, if_neg Bool.false_ne_true, writeItems_further hne, List.cons_append, List.append_assoc]
    refine From.lineFeed (starts_writeItems hne) (From.items hne (by omega) hvs (fun i hi => ?_) hnext ?_)
    · cases hi
      exact Nat.le_refl n
    · rw [opened_self, started_self]
      simpa [tokens, hempty] using hrest

/-- A mapping stands two columns further right than a mark or its key. -/
theorem lexed_dict {es : List (Value × Value)} (hne : es ≠ [])
    (hes : ∀ e ∈ es, (∃ k, e.1 = .text k ∧ ReadableKey k) ∧ e.2.Tree ∧ Lexed room e.2) :
    Lexed (room + 1) (.dict es) := by
  have hempty : es.isEmpty = false := by simpa using hne
  -- the entries open a block, and the end of the value closes it
  have hentries : ∀ {n m : Nat} {indents : List Nat} {x : List Char} {T ts : List Token},
      n + 2 * (room + 1) + 2 < lineWidth → indents.head? = some n → Next n m x →
      From true x m indents ((tokens false (.dict es)).reverse ++ T) ts →
      From true (writeEntries (n + 2) true es ++ (spaces m ++ x)) (n + 2) indents T ts := by
    intro n m indents x T ts hroom hhead hnext hrest
    have hcolumn := hnext.column
    have hdepth := lt_of_head hhead (show n < n + 2 by omega)
    refine From.entries hne (by omega) hes (fun i hi => Nat.le_of_lt (hdepth i hi)) (hnext.mono (by omega)) ?_
    rw [opened_of_lt hdepth, started_of_lt hdepth]
    refine From.pop hnext.starts (by omega) ?_
    simpa [tokens, hempty] using hrest
  constructor
  · intro inList n m indents x T ts hroom hhead hnext hrest
    rw [writeAfterMark, hempty, if_neg Bool.false_ne_true, List.cons_append]
    exact From.space (hentries hroom hhead hnext hrest)
  · intro n column m indents x T ts hroom hcolumn hhead hnext hrest
    rw [writeBelow, hempty, if_neg Bool.false_ne_true, writeEntries_further hne, List.cons_append,
      List.append_assoc]
    refine From.lineFeed (starts_writeEntries hne fun e he => (hes e he).1).2 (hentries hroom hhead hnext ?_)
    simpa [tokens, hempty] using hrest

/-- The lexer finds every readable value where it stands. -/
theorem lexed {v : Value} (h : Readable room v) : Lexed room v := by
  induction h with
  | null => exact .of_form resolves_null rfl rfl (fun _ _ => rfl) (fun _ _ _ => rfl) (fun _ _ => rfl)
  | bool b => exact .of_form (resolves_bool b) rfl rfl (fun _ _ => rfl) (fun _ _ _ => rfl) (fun _ _ => rfl)
  | int h => exact .of_form (resolves_int h) rfl rfl (fun _ _ => rfl) (fun _ _ _ => rfl) (fun _ _ => rfl)
  | text h => exact lexed_text h
  | @list room items h ih =>
    by_cases hne : items = []
    · subst hne
      exact lexed_emptyList
    · exact lexed_list hne fun v hv => ⟨(h v hv).tree, ih v hv⟩
  | @dict room es hkeys hdistinct h ih =>
    by_cases hne : es = []
    · subst hne
      exact lexed_emptyDict
    · exact lexed_dict hne fun e he => ⟨hkeys e he, (h e he).tree, ih e he⟩

/-! ## Documents -/

/-- The mark of a document's end, if there is one. -/
def documentTail (marked : Bool) : List Char := if marked then "...\n".toList else []

/-- The tokens of the end of a document. -/
def tailTokens (marked : Bool) : List Token := if marked then [.documentEnd, .finish] else [.finish]

theorem writeDocument_eq (v : Value) :
    writeDocument v = writeRoot v ++ (spaces 0 ++ documentTail (endsOpen v || isPlainScalar v)) := rfl

/-- The end of a document ends all blocks. -/
theorem From.tail (marked : Bool) : From true (documentTail marked) 0 indents T
    (T.reverse ++ (List.replicate indents.length .blockEnd ++ tailTokens marked)) := by
  cases marked with
  | false =>
    have h := @From.finish [] 0 true indents T false rfl
    simpa [documentTail, tailTokens] using h
  | true =>
    have h := @From.documentEnd indents T
    simpa [documentTail, tailTokens] using h

/-- What comes after the value of a document. -/
theorem starts_documentTail (marked : Bool) : Starts (documentTail marked) := by
  cases marked with
  | false => exact fun c cs h => nomatch h
  | true =>
    rintro c cs heq
    cases heq
    decide

theorem next_documentTail (marked : Bool) : Next 0 0 (documentTail marked) :=
  ⟨starts_documentTail marked, fun _ => rfl, Nat.le_refl 0⟩

theorem follows_documentTail (marked : Bool) : Follows [] 0 (documentTail marked) where
  starts := starts_documentTail marked
  atEnd _ := rfl
  outside := by
    cases marked with
    | false => exact .inl rfl
    | true => exact .inr (.inr ⟨rfl, rfl⟩)

theorem indented_root : Indented [] 2 := ⟨rfl, by decide⟩

theorem From.root_form {v : Value} {t : Tag} {marked : Bool} (hv : Resolves v t)
    (htokens : tokens false v = [.scalar true (plainForm v)])
    (hroot : writeRoot v = writePlain 2 0 false (plainForm v) ++ ['\n']) :
    From true (writeRoot v ++ (spaces 0 ++ documentTail marked)) 0 [] [] (tokens false v ++ tailTokens marked) := by
  rw [hroot, htokens]
  exact From.form hv indented_root (fun i hi => nomatch hi) (follows_documentTail marked) (From.tail marked)

/-- The value of a document stands at the first column, in no block. -/
theorem From.root {v : Value} {marked : Bool} (h : Readable room v) (hroom : 2 * room < lineWidth) :
    From true (writeRoot v ++ (spaces 0 ++ documentTail marked)) 0 [] [] (tokens false v ++ tailTokens marked) := by
  cases h with
  | null => exact From.root_form resolves_null rfl rfl
  | bool b => exact From.root_form (resolves_bool b) rfl rfl
  | int h => exact From.root_form (resolves_int h) rfl rfl
  | text h =>
    exact From.text h indented_root (fun i hi => nomatch hi) (follows_documentTail marked) (From.tail marked)
  | @list room items h =>
    cases items with
    | nil => exact From.emptyList (fun i hi => nomatch hi) (starts_documentTail marked) (From.tail marked)
    | cons w ws =>
      refine From.items (List.cons_ne_nil w ws) (by omega)
        (fun v hv => ⟨(h v hv).tree, lexed (h v hv)⟩) (fun i hi => nomatch hi) (next_documentTail marked) ?_
      have htail := @From.tail [0] ((itemTokens (w :: ws)).reverse ++ [.blockList]) marked
      simpa [tokens, opened, started] using htail
  | @dict room es hkeys hdistinct h =>
    cases es with
    | nil => exact From.emptyDict (fun i hi => nomatch hi) (starts_documentTail marked) (From.tail marked)
    | cons e es =>
      refine From.entries (List.cons_ne_nil e es) (by omega)
        (fun f hf => ⟨hkeys f hf, (h f hf).tree, lexed (h f hf)⟩) (fun i hi => nomatch hi)
        (next_documentTail marked) ?_
      have htail := @From.tail [0] ((entryTokens (e :: es)).reverse ++ [.blockDict]) marked
      simpa [tokens, opened, started] using htail

/-- The tokens of a document are those of its value and of its end. -/
theorem ofText_writeDocument {v : Value} (h : Readable room v) (hroom : 2 * room < lineWidth) :
    Token.ofText (writeDocument v) =
      tokens false v ++ tailTokens (endsOpen v || isPlainScalar v) := by
  have hfrom : From true (writeDocument v) 0 [] []
      (tokens false v ++ tailTokens (endsOpen v || isPlainScalar v)) := by
    rw [writeDocument_eq]
    exact From.root h hroom
  rw [ofText_of_shown (Shown.writeDocument v)]
  exact (hfrom ⟨writeDocument v, 0, 0, 0⟩ rfl rfl).run (Nat.lt_succ_self _)

end VirtNet.Yaml
