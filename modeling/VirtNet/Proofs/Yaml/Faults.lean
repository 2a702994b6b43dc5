import VirtNet.Proofs.Yaml.Escapes
import VirtNet.Yaml.Reader

/-!
# Faults of a text

A text that is not read for a code point has an escape of it (`hasEscape_of_read`). The tokens of a text tell
of no other code points (`allTold_ofText`), the nodes are made of these tokens alone (`Node.reads`), and what
is made of the nodes has no fault that names a code point.
-/

namespace VirtNet.Yaml

open Outcome

variable {text : List Char} {n : Nat}

/-! ## Nodes -/

namespace Node

variable {s : Source} {handles : Handles}

/-- The faults among the tokens that are still to be read are told by the text. -/
def Fed (text : List Char) (s : Source) : Prop := AllTold text s.tokens

/-- Whatever is read fails for a fault that the text tells, or leaves tokens whose faults it tells. -/
abbrev Feeds {α : Type} (text : List Char) (x : Except Fault (α × Source)) : Prop :=
  Meets (Told text) (fun r => Fed text r.2) x

theorem Fed.peek (h : Fed text s) : Tells text s.peek := by
  unfold Source.peek
  split
  · exact .error told_malformed
  · next e rest hs => exact .error (h e (hs ▸ List.mem_cons_self))
  · exact .ok trivial

theorem Fed.next (h : Fed text s) : Fed text s.next := fun e he => h e (List.mem_of_mem_drop he)

theorem tells_anchor (s : Source) (name : List Char) : Tells text (s.anchor name) := by
  unfold Source.anchor
  split
  · exact .ok trivial
  · exact .error told_malformed

theorem Fed.register (h : Fed text s) (name : Option (List Char)) : Feeds text (s.register name) := by
  unfold Source.register
  split
  · exact .ok h
  · exact .ite (.error told_malformed) (.ok h)

theorem tells_fullTag (handle : Option (List Char)) (suffix : List Char) :
    Tells text (fullTag handles handle suffix) := by
  unfold fullTag
  split
  · exact .ok trivial
  · split
    · exact .ok trivial
    · exact .error told_malformed

theorem Fed.properties (h : Fed text s) : Feeds text (properties handles s) := by
  unfold Node.properties
  refine h.peek.bind fun t _ => ?_
  split
  · refine h.next.peek.bind fun t _ => ?_
    split
    · exact (tells_fullTag _ _).bind fun _ _ => .pure h.next.next
    · exact .pure h.next
  · refine h.next.peek.bind fun t _ => ?_
    split
    · exact (tells_fullTag _ _).bind fun _ _ => .pure h.next.next
    · exact (tells_fullTag _ _).bind fun _ _ => .pure h.next
  · exact .pure h

theorem tells_start (place : Place) (p : Properties) (t : Token) : Tells text (start place p t) := by
  unfold start
  split
  case h_7 => exact .ite (.error told_malformed) (.ok trivial)
  all_goals exact .ok trivial

/-- Whatever is read in at most `fuel` steps from tokens whose faults are told by the text fails for such a
fault, or leaves such tokens. -/
structure Reads (handles : Handles) (text : List Char) (fuel : Nat) : Prop where
  read : ∀ place s, Fed text s → Feeds text (read handles fuel place s)
  content : ∀ p first s, Fed text s → Feeds text (content handles fuel p first s)
  readUnless : ∀ ends place s, Fed text s → Feeds text (readUnless handles fuel ends place s)
  readValue : ∀ ends place s, Fed text s → Feeds text (readValue handles fuel ends place s)
  blockItems : ∀ s, Fed text s → Feeds text (blockItems handles fuel s)
  flatItems : ∀ s, Fed text s → Feeds text (flatItems handles fuel s)
  blockEntries : ∀ s, Fed text s → Feeds text (blockEntries handles fuel s)
  flowItems : ∀ first s, Fed text s → Feeds text (flowItems handles fuel first s)
  flowEntries : ∀ first s, Fed text s → Feeds text (flowEntries handles fuel first s)

section Reads

variable {fuel : Nat} (ih : Reads handles text fuel)

include ih

/-! What is read with one more step, of each kind. -/

theorem feeds_read (place : Place) (h : Fed text s) : Feeds text (read handles (fuel + 1) place s) := by
  rw [read]
  refine h.peek.bind fun t _ => ?_
  split
  · exact (tells_anchor _ _).bind fun _ _ => .pure h.next
  · refine h.properties.bind fun ⟨p, s'⟩ h' => ?_
    refine Fed.peek h' |>.bind fun t _ => ?_
    refine (tells_start _ _ _).bind fun first _ => ?_
    refine (Fed.register h' _).bind fun ⟨wrap, s''⟩ h'' => ?_
    exact (ih.content _ _ _ h'').bind fun r hr => .pure hr

theorem feeds_content (p : Properties) (first : Start) (h : Fed text s) :
    Feeds text (content handles (fuel + 1) p first s) := by
  unfold content
  dsimp only
  split
  · refine .ok ?_
    dsimp only
    split
    · exact h.next
    · exact h
  · exact (ih.flatItems _ h).map fun _ hr => hr
  · exact (ih.flowItems _ _ h.next).map fun _ hr => hr
  · exact (ih.flowEntries _ _ h.next).map fun _ hr => hr
  · exact (ih.blockItems _ h.next).map fun _ hr => hr
  · exact (ih.blockEntries _ h.next).map fun _ hr => hr

theorem feeds_readUnless (ends : Token → Bool) (place : Place) (h : Fed text s) :
    Feeds text (readUnless handles (fuel + 1) ends place s) := by
  rw [readUnless]
  refine h.peek.bind fun t _ => ?_
  exact .ite (.pure h) (ih.read _ _ h)

theorem feeds_readValue (ends : Token → Bool) (place : Place) (h : Fed text s) :
    Feeds text (readValue handles (fuel + 1) ends place s) := by
  rw [readValue]
  refine h.peek.bind fun t _ => ?_
  split
  · exact ih.readUnless _ _ _ h.next
  · exact .pure h

theorem feeds_blockItems (h : Fed text s) : Feeds text (blockItems handles (fuel + 1) s) := by
  rw [blockItems]
  refine h.peek.bind fun t _ => ?_
  split
  · refine (ih.readUnless _ _ _ h.next).bind fun r hr => ?_
    exact (ih.blockItems _ hr).bind fun r hr => .pure hr
  · exact .pure h.next
  · exact .error told_malformed

theorem feeds_flatItems (h : Fed text s) : Feeds text (flatItems handles (fuel + 1) s) := by
  rw [flatItems]
  refine h.peek.bind fun t _ => ?_
  split
  · refine (ih.readUnless _ _ _ h.next).bind fun r hr => ?_
    exact (ih.flatItems _ hr).bind fun r hr => .pure hr
  · exact .pure h

theorem feeds_blockEntries (h : Fed text s) : Feeds text (blockEntries handles (fuel + 1) s) := by
  rw [blockEntries]
  refine h.peek.bind fun t _ => ?_
  split
  · refine (ih.readUnless _ _ _ h.next).bind fun k hk => ?_
    refine (ih.readValue _ _ _ hk).bind fun v hv => ?_
    exact (ih.blockEntries _ hv).bind fun r hr => .pure hr
  · exact .pure h.next
  · exact .error told_malformed

theorem feeds_flowItems (first : Bool) (h : Fed text s) :
    Feeds text (flowItems handles (fuel + 1) first s) := by
  unfold flowItems
  extract_lets item
  have hitem : ∀ s, Fed text s → Feeds text (item s) := by
    intro s h
    refine h.peek.bind fun t _ => ?_
    split
    · exact .pure h.next
    · refine (ih.readUnless _ _ _ h.next).bind fun k hk => ?_
      refine (ih.readValue _ _ _ hk).bind fun v hv => ?_
      exact (ih.flowItems _ _ hv).bind fun r hr => .pure hr
    · refine (ih.read _ _ h).bind fun r hr => ?_
      exact (ih.flowItems _ _ hr).bind fun r hr => .pure hr
  refine h.peek.bind fun t _ => ?_
  split
  · exact .pure h.next
  · exact hitem _ h
  · exact hitem _ h.next
  · exact .error told_malformed

theorem feeds_flowEntries (first : Bool) (h : Fed text s) :
    Feeds text (flowEntries handles (fuel + 1) first s) := by
  unfold flowEntries
  extract_lets entry
  have hentry : ∀ s, Fed text s → Feeds text (entry s) := by
    intro s h
    refine h.peek.bind fun t _ => ?_
    split
    · exact .pure h.next
    · refine (ih.readUnless _ _ _ h.next).bind fun k hk => ?_
      refine (ih.readValue _ _ _ hk).bind fun v hv => ?_
      exact (ih.flowEntries _ _ hv).bind fun r hr => .pure hr
    · refine (ih.read _ _ h).bind fun r hr => ?_
      exact (ih.flowEntries _ _ hr).bind fun r hr => .pure hr
  refine h.peek.bind fun t _ => ?_
  split
  · exact .pure h.next
  · exact hentry _ h
  · exact hentry _ h.next
  · exact .error told_malformed

end Reads

/-- Nodes are made of the tokens of a text alone, in however many steps. -/
theorem reads (fuel : Nat) : Reads handles text fuel := by
  induction fuel with
  | zero =>
    constructor <;> intros <;> exact .error told_malformed
  | succ fuel ih =>
    exact {
      read := fun place _ => feeds_read ih place
      content := fun p first _ => feeds_content ih p first
      readUnless := fun ends place _ => feeds_readUnless ih ends place
      readValue := fun ends place _ => feeds_readValue ih ends place
      blockItems := fun _ => feeds_blockItems ih
      flatItems := fun _ => feeds_flatItems ih
      blockEntries := fun _ => feeds_blockEntries ih
      flowItems := fun first _ => feeds_flowItems ih first
      flowEntries := fun first _ => feeds_flowEntries ih first }

theorem meets_preamble {tokens : List Token} (h : AllTold text tokens) (p : Preamble) :
    Meets (Told text) (fun q => AllTold text q.2) (preamble p tokens) := by
  fun_induction preamble p tokens
  case case1 | case3 => exact .error told_malformed
  case case2 ih | case4 ih | case5 ih => exact ih fun e he => h e (List.mem_cons_of_mem _ he)
  case case6 => exact .ok h

theorem feeds_documentStart {tokens : List Token} (h : AllTold text tokens) :
    Feeds text (documentStart tokens) := by
  unfold documentStart
  refine (meets_preamble h {}).bind fun ⟨p, rest⟩ hrest => ?_
  have hfed : Fed text ⟨rest, []⟩ := hrest
  refine hfed.peek.bind fun t _ => ?_
  split
  · exact .pure hfed.next
  · exact .error told_malformed

theorem tells_onlyEnd (h : Fed text s) : Tells text (onlyEnd s) := by
  have hrest : AllTold text (s.tokens.dropWhile (· == .documentEnd)) :=
    fun e he => h e ((List.dropWhile_suffix _).subset he)
  unfold onlyEnd
  refine (Fed.peek (s := ⟨_, []⟩) hrest).bind fun t _ => ?_
  split
  · exact .pure trivial
  · exact (feeds_documentStart hrest).bind fun _ _ => .error told_malformed

/-- A fault of the tokens is told by the text if those among them are. -/
theorem tells_ofTokens {tokens : List Token} (h : AllTold text tokens) : Tells text (ofTokens tokens) := by
  have hfed : Fed text ⟨tokens, []⟩ := h
  unfold ofTokens
  refine hfed.peek.bind fun first _ => ?_
  extract_lets last body
  have hlast : ∀ r, Fed text r.2 → Tells text (last r) := fun _ hr =>
    (tells_onlyEnd hr).bind fun _ _ => .pure trivial
  have hbody : ∀ r, Fed text r.2 → Tells text (body r) := by
    intro r hr
    refine hr.peek.bind fun t _ => ?_
    exact .ite (hlast (absent, r.2) hr) (((reads _).read _ _ hr).bind hlast)
  refine .ite (.pure trivial) (.ite ?_ ?_)
  · exact (feeds_documentStart h).bind hbody
  · exact hbody (usualHandles, _) hfed

end Node

/-! ## Values -/

namespace Scalar

theorem tells_number {α : Type} (x : Option α) : Tells text (number x) := by
  cases x with
  | none => exact .error nofun
  | some a => exact .ok trivial

theorem tells_magnitude (cs : List Char) : Tells text (magnitude cs) := by
  unfold magnitude
  split
  · exact .error nofun
  all_goals exact .ok trivial

theorem tells_int (cs : List Char) : Tells text (int cs) := by
  refine (tells_magnitude cs).bind fun ⟨negative, cs⟩ _ => ?_
  refine Meets.bind (R := fun _ => True) ?_ fun _ _ => .pure trivial
  unfold unsignedInt
  split
  · exact .error nofun
  · exact .ok trivial
  all_goals exact tells_number _

theorem tells_sexagesimal (sum : Binary64) (unit : Int) (xs : List Binary64) :
    Tells text (sexagesimal sum unit xs) := by
  induction xs generalizing sum unit with
  | nil => exact .ok trivial
  | cons x rest ih => exact .ite (.error nofun) (ih _ _)

theorem tells_float (place : Nat) (cs : List Char) : Tells text (float place cs) := by
  have hunsigned : ∀ cs, Tells text (unsignedFloat cs) := fun cs =>
    .ite ((tells_number _).bind fun _ _ => tells_sexagesimal _ _ _) (tells_number _)
  refine (tells_magnitude _).bind fun ⟨negative, cs⟩ _ => ?_
  refine .ite (.pure trivial) (.ite (.pure trivial) ?_)
  exact (hunsigned _).bind fun _ _ => .pure trivial

theorem tells_timestamp (cs : List Char) : Tells text (timestamp cs) := by
  unfold timestamp
  split
  · exact .error nofun
  · dsimp only
    split
    · exact .ite (.ok trivial) (.error nofun)
    · exact .ite (.ok trivial) (.error nofun)

/-- A scalar has no fault that names a code point. -/
theorem tells_value (place : Nat) (tag : Tag) (cs : List Char) : Tells text (value place tag cs) := by
  unfold value
  split
  · exact .ok trivial
  · refine Meets.map (R := fun _ => True) ?_ fun _ _ => trivial
    unfold bool
    split
    · exact .ok trivial
    · exact .error nofun
  · exact (tells_int cs).map fun _ _ => trivial
  · exact (tells_float place cs).map fun _ _ => trivial
  · exact tells_timestamp cs
  · exact .ok trivial
  · refine Meets.map (R := fun _ => True) ?_ fun _ _ => trivial
    unfold bytes
    refine .ite ?_ (.error told_malformed)
    split
    · exact .ok trivial
    · exact .error told_malformed
  all_goals exact .error told_malformed

end Scalar

namespace Graph

theorem tells_merge (fuel : Nat) (gathered : List (Nat × Nat)) (n : Nat) (g : Graph) :
    Tells text (merge fuel gathered n g) := by
  induction fuel generalizing gathered n g with
  | zero => exact .error told_malformed
  | succ fuel ih =>
    unfold merge
    extract_lets one
    have hone : ∀ n g, Tells text (one n g) := by
      intro n g
      dsimp only [one]
      split
      · exact (ih _ _ _).bind fun _ _ => .pure trivial
      · exact .error told_malformed
    split
    · exact .ok trivial
    · extract_lets g
      split
      · refine Meets.bind (R := fun _ => True) (.foldlM (fun _ _ _ _ => ?_) trivial) fun _ _ => ih _ _ _
        exact (hone _ _).bind fun _ _ => .pure trivial
      · exact (hone _ _).bind fun _ _ => ih _ _ _

theorem tells_scalarText (g : Graph) (fuel n : Nat) : Tells text (g.scalarText fuel n) := by
  induction fuel generalizing n with
  | zero => exact .error nofun
  | succ fuel ih =>
    unfold scalarText
    split
    · exact .ok trivial
    · split
      · exact ih _
      · exact .error told_malformed
    · exact .error told_malformed

theorem tells_scalarValue (g : Graph) (n : Nat) (tag : Tag) : Tells text (g.scalarValue n tag) := by
  refine (tells_scalarText g _ n).bind fun cs _ => ?_
  split
  · exact .error nofun
  · exact Scalar.tells_value _ _ _

end Graph

namespace Making

theorem tells_visit (m : Making) (n : Nat) : Tells text (m.visit n) := by
  unfold visit
  split
  · exact .ok trivial
  · exact .error told_malformed
  · split
    case h_6 | h_7 | h_8 | h_9 => exact .error told_malformed
    case h_10 => exact (Graph.tells_scalarValue _ _ _).bind fun _ _ => .pure trivial
    all_goals exact .ok trivial

theorem tells_visitEntry (m : Making) (e : Nat × Nat) : Tells text (m.visitEntry e) := by
  refine (tells_visit m _).bind fun m _ => ?_
  split
  · exact tells_visit m _
  · exact .error told_malformed

theorem tells_couples (m : Making) (ns : List Nat) : Tells text (m.couples ns) := by
  have hcouple : ∀ (m : Making) n, Tells text (m.couple n) := by
    intro m n
    unfold couple
    split
    · exact (tells_visit m _).bind fun m _ => (tells_visit m _).bind fun _ _ => .pure trivial
    · exact .error told_malformed
  induction ns generalizing m with
  | nil => exact .ok trivial
  | cons n rest ih => exact (hcouple m n).bind fun r _ => (ih r.2).bind fun _ _ => .pure trivial

theorem tells_mergedEntries (m : Making) (n : Nat) : Tells text (m.mergedEntries n) :=
  (Graph.tells_merge _ _ _ _).bind fun _ _ =>
    (Meets.foldlM (fun m e _ _ => tells_visitEntry m e) trivial).bind fun _ _ => .pure trivial

theorem tells_fill (m : Making) (n : Nat) : Tells text (m.fill n) := by
  unfold fill
  split
  · exact (Meets.foldlM (fun m i _ _ => tells_visit m i) trivial).bind fun _ _ => .pure trivial
  · exact (tells_couples m _).bind fun _ _ => .pure trivial
  · exact (tells_couples m _).bind fun _ _ => .pure trivial
  · exact (tells_mergedEntries m n).bind fun _ _ => .pure trivial
  · exact (tells_mergedEntries m n).bind fun _ _ => .pure trivial
  · exact .error told_malformed

theorem tells_fillAll (fuel : Nat) (m : Making) : Tells text (fillAll fuel m) := by
  induction fuel generalizing m with
  | zero => exact .ok trivial
  | succ fuel ih =>
    unfold fillAll
    exact .ite (.ok trivial)
      ((Meets.foldlM (fun m n _ _ => tells_fill m n) trivial).bind fun m _ => ih m)

end Making

/-- A text that is not read for a code point has an escape of it. -/
theorem hasEscape_of_read {s : String} (h : read s = .error (.noCharacter n)) : HasEscape s.toList n := by
  have hread : Tells s.toList (read s) := by
    unfold read
    refine (Node.tells_ofTokens allTold_ofText).bind fun node _ => ?_
    split
    · exact .pure trivial
    · refine Meets.map (R := fun _ => True) ?_ fun _ _ => trivial
      exact (Making.tells_visit _ _).bind fun m _ => (Making.tells_fillAll _ m).bind fun _ _ => .pure trivial
  exact hread.of_error h n rfl

end VirtNet.Yaml
