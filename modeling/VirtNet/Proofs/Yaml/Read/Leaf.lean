import VirtNet.Proofs.Yaml.Read.PlainForm

/-!
# Leaves as tokens

A scalar or an empty collection, written up to the end of its line, is one scalar token or a pair of
brackets, whatever follows it in the document (`From.text`, `From.form`, `From.emptyList`,
`From.emptyDict`).
-/

namespace VirtNet.Yaml

open Lexer

variable {cs x : List Char} {indents : List Nat} {indent column m : Nat} {allowed : Bool}
  {tokens ts : List Token}

/-- What comes after a value: at column `m` a token or the end of the text, outside the innermost of the
open blocks. -/
structure Follows (indents : List Nat) (m : Nat) (x : List Char) : Prop where
  starts : Starts x
  atEnd : x = [] → m = 0
  outside : x = [] ∨ m < floorOf indents ∨ m = 0 ∧ atBorder x = true

/-- How far the further lines of a scalar are indented: beyond the innermost of the open blocks. -/
structure Indented (indents : List Nat) (indent : Nat) : Prop where
  eq : indent = max 1 (floorOf indents) + 1
  width : indent < lineWidth

/-- The lines of a literal block end in a break. -/
theorem writeLines_eq_concat {atStart : Bool} (h : cs = [] → atStart = false) :
    ∃ as b, writeLines indent atStart cs = as ++ [b] ∧ isBreak b = true := by
  induction cs generalizing atStart with
  | nil =>
    rw [h rfl]
    exact ⟨[], '\n', rfl, rfl⟩
  | cons c rest ih =>
    rw [writeLines]
    split
    · next hc =>
      by_cases hrest : rest = []
      · rw [hrest]
        exact ⟨[], c, rfl, hc⟩
      · obtain ⟨as, b, heq, hb⟩ := @ih true fun h => absurd h hrest
        exact ⟨c :: as, b, by rw [heq]; rfl, hb⟩
    · obtain ⟨as, b, heq, hb⟩ := @ih false fun _ => rfl
      split
      · exact ⟨List.replicate indent ' ' ++ c :: as, b, by rw [heq, List.append_assoc]; rfl, hb⟩
      · exact ⟨c :: as, b, by rw [heq]; rfl, hb⟩

namespace From

/-- A text that is written as a literal block. -/
theorem writeLiteral (hback : Block.Plain cs) (hne : cs ≠ []) (hindent : Indented indents indent)
    (hdepth : ∀ i, indents.head? = some i → i ≤ column) (hnext : Follows indents m x)
    (h : From true x m indents (.scalar false cs :: tokens) ts) :
    From allowed (Yaml.writeLiteral indent cs ++ (spaces m ++ x)) column indents tokens ts := by
  obtain ⟨rfl, -⟩ := hindent
  obtain ⟨as, b, heq, hb⟩ := @writeLines_eq_concat cs (max 1 (floorOf indents) + 1) true fun h => absurd h hne
  have hm : m < max 1 (floorOf indents) + 1 := by
    rcases hnext.outside with hx | hx | hx
    · have hzero := hnext.atEnd hx
      omega
    · omega
    · omega
  have hread := Block.read?_writeLiteral (fun c cs hx => (hnext.starts c cs hx).1) hm hback hne
  have hwritten : Yaml.writeLiteral (max 1 (floorOf indents) + 1) cs ++ (spaces m ++ x) =
      '|' :: (literalHints cs ++ '\n' :: (writeLines (max 1 (floorOf indents) + 1) true cs ++ (spaces m ++ x))) := by
    simp [Yaml.writeLiteral]
  have hlast : literalHints cs ++ '\n' :: (writeLines (max 1 (floorOf indents) + 1) true cs ++ (spaces m ++ x)) =
      (literalHints cs ++ '\n' :: as) ++ b :: (spaces m ++ x) := by
    simp [heq]
  rw [hwritten]
  exact literal hdepth hread hlast hb h

/-- A text. -/
theorem text {s : String} (hback : ReadsBack s.toList) (hindent : Indented indents indent)
    (hdepth : ∀ i, indents.head? = some i → i < column) (hnext : Follows indents m x)
    (h : From true x m indents (.scalar (style s.toList == .plain) s.toList :: tokens) ts) :
    From allowed (writeLeaf indent column (.text s) ++ (spaces m ++ x)) column indents tokens ts := by
  unfold writeLeaf
  dsimp only
  split
  · next hstyle =>
    have hliteral := of_style_literal hstyle
    have hnext' : '\u0085' ∉ s.toList := hback.resolve_left (by rw [hstyle]; decide)
    have hplain : Block.Plain s.toList := by
      intro c hc
      have hshown := hliteral.1
      simp only [Traits.allowsLiteral, Traits.of, Bool.not_eq_true', Bool.or_eq_false_iff, List.any_eq_false,
        Bool.not_eq_false] at hshown
      exact ⟨hshown.1.1 c hc, fun heq => hnext' (heq ▸ hc)⟩
    rw [hstyle] at h
    exact writeLiteral hplain (List.ne_nil_of_mem hliteral.2) hindent
      (fun i hi => Nat.le_of_lt (hdepth i hi)) hnext h
  · next hstyle =>
    have hfloor : floorOf indents ≤ indent := by
      rw [hindent.eq]
      omega
    have hpos : 0 < indent := by
      rw [hindent.eq]
      omega
    obtain ⟨r, crossed, hfinds, hend⟩ := @finds_writeInline_line s.toList indent column m indents x hstyle hback
      hpos hindent.width hfloor hnext.starts hnext.atEnd hnext.outside
    rw [List.append_assoc, List.singleton_append]
    exact scalar hnext.starts hdepth hfinds hend h

/-- Null, a truth value or a whole number. -/
theorem form {v : Value} {t : Tag} (hv : Resolves v t) (hindent : Indented indents indent)
    (hdepth : ∀ i, indents.head? = some i → i < column) (hnext : Follows indents m x)
    (h : From true x m indents (.scalar true (plainForm v) :: tokens) ts) :
    From allowed (writePlain indent column false (plainForm v) ++ ['\n'] ++ (spaces m ++ x)) column indents
      tokens ts := by
  have hfinds := @finds_writePlain (plainForm v) indent column indents '\n' (spaces m ++ x) x true hv.plain
    hv.nonempty (by rw [hindent.eq]; omega) (by rw [hindent.eq]; omega) (.inl rfl)
    (Plain.readAs_lineFeed (fun c cs hx => (hnext.starts c cs hx).1) hnext.atEnd hnext.outside)
  rw [List.append_assoc, List.singleton_append]
  exact scalar hnext.starts hdepth hfinds (.inr ⟨rfl, rfl⟩) h

/-- A list without items. -/
theorem emptyList (hdepth : ∀ i, indents.head? = some i → i < column) (hnext : Starts x)
    (h : From true x m indents (.closeList :: .openList :: tokens) ts) :
    From allowed (['[', ']', '\n'] ++ (spaces m ++ x)) column indents tokens ts :=
  brackets hnext hdepth (by decide) (by decide) (fun l _ => token_openList l) (fun l _ => token_closeList l) h

/-- A mapping without entries. -/
theorem emptyDict (hdepth : ∀ i, indents.head? = some i → i < column) (hnext : Starts x)
    (h : From true x m indents (.closeDict :: .openDict :: tokens) ts) :
    From allowed (['\x7b', '\x7d', '\n'] ++ (spaces m ++ x)) column indents tokens ts :=
  brackets hnext hdepth (by decide) (by decide) (fun l _ => token_openDict l) (fun l _ => token_closeDict l) h

end From

end VirtNet.Yaml
