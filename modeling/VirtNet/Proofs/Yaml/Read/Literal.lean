import VirtNet.Proofs.Yaml.Inline
import VirtNet.Proofs.Yaml.Read.Quoted
import VirtNet.Yaml.Token.Block

/-!
# Reading back literal blocks

A literal block is read back as the text that it was written for if every character of the text may be
shown and none is the next-line control (`read?_writeLiteral`). What its header says of the breaks at the
end is what makes them count as they did in the text (`finished`, `chomping`).
-/

namespace VirtNet.Yaml.Block

variable {cs x : List Char} {c : Char} {indent floor m : Nat}

/-- What a block stands for when its header says how the breaks at its end count. -/
def finished : Chomping → Reading → List Char
  | .strip, r => r.text
  | .clip, r => r.text ++ r.lastBreak
  | .keep, r => r.text ++ r.lastBreak ++ r.trailing

/-- How the breaks at the end of a text count. -/
def chomping (cs : List Char) : Chomping :=
  match cs.reverse with
  | [] => .clip
  | [c] => if isBreak c then .keep else .strip
  | c :: d :: _ => if !isBreak c then .strip else if isBreak d then .keep else .clip

/-- Text before a text in which not all is breaks does not change how the breaks at the end count. -/
theorem chomping_append {as : List Char} (h : ∃ c ∈ cs, isBreak c = false) :
    chomping (as ++ cs) = chomping cs := by
  obtain ⟨c, hc, hbreak⟩ := h
  rw [← List.mem_reverse] at hc
  rw [chomping, chomping, List.reverse_append]
  match cs.reverse, hc with
  | [d], hc =>
    obtain rfl := List.mem_singleton.1 hc
    cases as.reverse <;> simp [hbreak]
  | d :: e :: rest, _ => rfl

/-- The breaks at the end of a text of breaks all count. -/
theorem chomping_breaks (h : ∀ c ∈ cs, isBreak c = true) (hne : cs ≠ []) : chomping cs = .keep := by
  have hreverse : ∀ c ∈ cs.reverse, isBreak c = true := fun c hc => h c (List.mem_reverse.1 hc)
  rw [chomping]
  match hcs : cs.reverse, hreverse with
  | [], _ => exact absurd (List.reverse_eq_nil_iff.1 hcs) hne
  | [c], hall => simp [hall c (by simp)]
  | c :: d :: rest, hall => simp [hall c (by simp), hall d (by simp)]

/-- The breaks after a line all count if there is more than one. -/
theorem chomping_line_breaks {line bs : List Char} {b : Char} (hline : ∀ c ∈ line, isBreak c = false)
    (hne : line ≠ []) (hb : isBreak b = true) (hbs : ∀ c ∈ bs, isBreak c = true) :
    chomping (line ++ b :: bs) = if bs = [] then .clip else .keep := by
  cases bs with
  | nil =>
    rw [chomping, List.reverse_append]
    match hcs : line.reverse with
    | [] => exact absurd (List.reverse_eq_nil_iff.1 hcs) hne
    | c :: rest => simp [hb, hline c (by rw [← List.mem_reverse, hcs]; simp)]
  | cons d bs =>
    have hreverse : ∀ c ∈ (b :: d :: bs).reverse, isBreak c = true := by
      intro c hc
      rw [List.mem_reverse, List.mem_cons] at hc
      rcases hc with rfl | hc
      · exact hb
      · exact hbs c hc
    rw [chomping, List.reverse_append]
    match hcs : (b :: d :: bs).reverse, hreverse with
    | [], _ => simp at hcs
    | [c], _ => simpa using congrArg List.length hcs
    | c :: e :: rest, hall => simp [hall c (by simp), hall e (by simp)]

/-- After a line without a break there is none. -/
theorem chomping_line {line : List Char} (hline : ∀ c ∈ line, isBreak c = false) (hne : line ≠ []) :
    chomping line = .strip := by
  rw [chomping]
  match hcs : line.reverse with
  | [] => exact absurd (List.reverse_eq_nil_iff.1 hcs) hne
  | [c] => simp [hline c (by rw [← List.mem_reverse, hcs]; simp)]
  | c :: d :: rest => simp [hline c (by rw [← List.mem_reverse, hcs]; simp)]

theorem finished_after (k : Chomping) (as : List Char) (r : Reading) :
    finished k { r with text := as ++ r.text } = as ++ finished k r := by
  cases k <;> simp [finished]

/-! ## Lines -/

/-- A text of which every character may be shown and none is the next-line control. -/
def Plain (cs : List Char) : Prop := ∀ c ∈ cs, Traits.isShown c = true ∧ c ≠ '\u0085'

/-- An empty line is passed. -/
theorem lead_break (hc : isBreak c = true) (hnext : c ≠ '\u0085') (column : Nat) :
    lead indent column (c :: cs) = { lead indent 0 cs with breaks := c :: (lead indent 0 cs).breaks } := by
  have hspace : (c == ' ') = false := beq_eq_false_iff_ne.2 (ne_of_isBreak hc rfl)
  rw [lead]
  · simp [hspace, isLineEnd, hc, lineEndMeaning_of_isBreak hc hnext]
  · rintro rest rfl
    cases hc

/-- Empty lines are passed. -/
theorem lead_breaks {bs : List Char} (hplain : Plain bs) (hbs : ∀ b ∈ bs, isBreak b = true) :
    lead indent 0 (bs ++ cs) =
      { lead indent 0 cs with breaks := bs ++ (lead indent 0 cs).breaks } := by
  induction bs with
  | nil => rfl
  | cons b bs ih =>
    rw [Plain, List.forall_mem_cons] at hplain
    rw [List.forall_mem_cons] at hbs
    rw [List.cons_append, lead_break hbs.1 hplain.1.2, ih hplain.2 hbs.2]
    rfl

/-- An indentation is passed as far as it goes. -/
theorem lead_spaces {column : Nat} (hm : column + m ≤ indent) :
    lead indent column (spaces m ++ cs) = lead indent (column + m) cs := by
  induction m generalizing column with
  | zero => rfl
  | succ m ih =>
    rw [spaces, List.replicate_succ, List.cons_append, lead, if_pos (by simp; omega)]
    · rw [Nat.add_comm m 1, ← Nat.add_assoc]
      exact ih (by omega)
    · intro rest h
      cases h

/-- A line starts after its indentation. -/
theorem lead_line (hc : isLineEnd c = false) : lead indent indent (c :: cs) = ⟨[], indent, c :: cs⟩ := by
  rw [lead]
  · simp [hc]
  · rintro rest rfl
    cases hc

/-- What follows a block starts after its indentation. -/
theorem lead_next (hx : ∀ c cs, x = c :: cs → isGap c = false) (hm : m < indent) :
    lead indent 0 (spaces m ++ x) = ⟨[], m, x⟩ := by
  rw [lead_spaces (by omega), Nat.zero_add]
  cases x with
  | nil => rfl
  | cons c cs =>
    have hgap := hx c cs rfl
    rw [isGap, isSpace, Bool.or_eq_false_iff, Bool.or_eq_false_iff, Bool.or_eq_false_iff] at hgap
    rw [lead]
    · simp [hgap]
    · rintro rest rfl
      cases hgap.2

/-! ## Blocks -/

/-- Breaks are written as themselves. -/
theorem writeLines_breaks {bs : List Char} (hbs : ∀ b ∈ bs, isBreak b = true) :
    writeLines indent true (bs ++ cs) = bs ++ writeLines indent true cs := by
  induction bs with
  | nil => rfl
  | cons b bs ih =>
    rw [List.forall_mem_cons] at hbs
    rw [List.cons_append, writeLines, if_pos hbs.1, ih hbs.2]
    rfl

/-- Inside a line, what has no breaks is written as itself. -/
theorem writeLines_inside {line : List Char} (hline : ∀ c ∈ line, isBreak c = false) :
    writeLines indent false (line ++ cs) = line ++ writeLines indent false cs := by
  induction line with
  | nil => rfl
  | cons c line ih =>
    rw [List.forall_mem_cons] at hline
    rw [List.cons_append, writeLines, hline.1, ih hline.2]
    rfl

/-- A line is written after its indentation. -/
theorem writeLines_line {line : List Char} (hline : ∀ c ∈ line, isBreak c = false) (hne : line ≠ []) :
    writeLines indent true (line ++ cs) = spaces indent ++ (line ++ writeLines indent false cs) := by
  obtain ⟨c, line, rfl⟩ := List.exists_cons_of_ne_nil hne
  rw [List.forall_mem_cons] at hline
  rw [List.cons_append, writeLines, hline.1, writeLines_inside hline.2]
  rfl

/-- A text is empty lines only, or it has a first line after empty lines. -/
theorem breaks_or_line (cs : List Char) :
    (∀ c ∈ cs, isBreak c = true) ∨
      ∃ bs line rest, cs = bs ++ (line ++ rest) ∧ (∀ b ∈ bs, isBreak b = true) ∧
        (∀ c ∈ line, isBreak c = false) ∧ line ≠ [] ∧ ∀ b r, rest = b :: r → isBreak b = true := by
  induction cs with
  | nil => exact .inl fun c hc => nomatch hc
  | cons c cs ih =>
    by_cases hc : isBreak c = true
    · rcases ih with h | ⟨bs, line, rest, rfl, hbs, h⟩
      · exact .inl (List.forall_mem_cons.2 ⟨hc, h⟩)
      · exact .inr ⟨c :: bs, line, rest, rfl, List.forall_mem_cons.2 ⟨hc, hbs⟩, h⟩
    · refine .inr ⟨[], c :: cs.takeWhile (!isBreak ·), cs.dropWhile (!isBreak ·), ?_,
        fun _ hb => absurd hb List.not_mem_nil, ?_, by simp, fun b r hr => ?_⟩
      · rw [List.nil_append, List.cons_append, List.takeWhile_append_dropWhile]
      · rw [List.forall_mem_cons]
        refine ⟨Bool.eq_false_iff.2 hc, fun d hd => ?_⟩
        simpa using List.mem_takeWhile_imp hd
      · have hhead := List.head?_dropWhile_not (!isBreak ·) cs
        rw [hr] at hhead
        simpa using hhead

/-- A text line by line: empty lines, a line, its break, and so on. The breaks after the last line are kept
apart from those between lines, since they count by what the header says. -/
inductive ByLines : List Char → Prop
  | breaks {bs : List Char} (hbs : ∀ b ∈ bs, isBreak b = true) : ByLines bs
  | last {bs line : List Char} (hbs : ∀ b ∈ bs, isBreak b = true) (hline : ∀ c ∈ line, isBreak c = false)
      (hne : line ≠ []) : ByLines (bs ++ line)
  | closed {bs line ends : List Char} {b : Char} (hbs : ∀ b ∈ bs, isBreak b = true)
      (hline : ∀ c ∈ line, isBreak c = false) (hne : line ≠ []) (hb : isBreak b = true)
      (hends : ∀ b ∈ ends, isBreak b = true) : ByLines (bs ++ (line ++ b :: ends))
  | further {bs line rest : List Char} {b : Char} (hbs : ∀ b ∈ bs, isBreak b = true)
      (hline : ∀ c ∈ line, isBreak c = false) (hne : line ≠ []) (hb : isBreak b = true)
      (hmore : ∃ c ∈ rest, isBreak c = false) (h : ByLines rest) : ByLines (bs ++ (line ++ b :: rest))

theorem byLines (cs : List Char) : ByLines cs := by
  induction hn : cs.length using Nat.strong_induction_on generalizing cs with
  | h n ih =>
    subst hn
    rcases breaks_or_line cs with hbreaks | ⟨bs, line, rest, rfl, hbs, hline, hne, hrest⟩
    · exact .breaks hbreaks
    · cases rest with
      | nil =>
        rw [List.append_nil]
        exact .last hbs hline hne
      | cons b r =>
        have hb := hrest b r rfl
        by_cases hr : ∀ c ∈ r, isBreak c = true
        · exact .closed hbs hline hne hb hr
        · have hmore : ∃ c ∈ r, isBreak c = false := by simpa using hr
          refine .further hbs hline hne hb hmore (ih r.length ?_ r rfl)
          rw [List.length_append, List.length_append, List.length_cons]
          omega

/-- A line is read up to its break; what follows decides whether there are more. -/
theorem lines_line {bs line : List Char} {b : Char} (hline : ∀ c ∈ line, isLineEnd c = false)
    (hne : line ≠ []) (hb : isBreak b = true) (hnext : b ≠ '\u0085') (fuel : Nat) :
    lines false indent (fuel + 1) ⟨bs, indent, line ++ b :: cs⟩ =
      if (lead indent 0 cs).column = indent ∧ (lead indent 0 cs).rest ≠ [] then
        { lines false indent fuel (lead indent 0 cs) with
          text := bs ++ line ++ [b] ++ (lines false indent fuel (lead indent 0 cs)).text }
      else ⟨bs ++ line, [b], (lead indent 0 cs).breaks, (lead indent 0 cs).rest⟩ := by
  have hline' : ∀ c ∈ line, (!isLineEnd c) = true := fun c hc => by simp [hline c hc]
  have hend : isLineEnd b = true := by rw [isLineEnd, hb, Bool.or_true]
  have hbreak : lineBreak? (b :: cs) = some (b, cs) := by
    rw [lineBreak?]
    · rw [hend, lineEndMeaning_of_isBreak hb hnext]
      rfl
    · rintro rest rfl
      cases hb
  rw [lines]
  dsimp only
  rw [if_pos ⟨rfl, by simp [hne]⟩, List.takeWhile_append_of_pos hline', List.dropWhile_append_of_pos hline',
    List.takeWhile_cons_of_neg (by simp [hend]), List.dropWhile_cons_of_neg (by simp [hend]), List.append_nil,
    hbreak]
  rfl

/-- The first line of a block starts after the empty lines before it. -/
theorem lead_writeLines {bs line rest : List Char} (hplainBs : Plain bs) (hplain : Plain line)
    (hbs : ∀ b ∈ bs, isBreak b = true) (hline : ∀ c ∈ line, isBreak c = false) (hne : line ≠ []) :
    lead indent 0 (writeLines indent true (bs ++ (line ++ rest)) ++ cs) =
      ⟨bs, indent, line ++ (writeLines indent false rest ++ cs)⟩ := by
  obtain ⟨d, ds, rfl⟩ := List.exists_cons_of_ne_nil hne
  have hd : isLineEnd d = false := isLineEnd_of_isShown (hplain d (by simp)).1 (hline d (by simp))
  rw [writeLines_breaks hbs, List.append_assoc, lead_breaks hplainBs hbs, writeLines_line hline hne,
    List.append_assoc, lead_spaces (by omega), Nat.zero_add, List.append_assoc, List.cons_append,
    lead_line hd, List.append_nil]

/-- Breaks alone are passed up to what follows the block. -/
theorem lead_writeLines_breaks {bs : List Char} (hx : ∀ c cs, x = c :: cs → isGap c = false) (hm : m < indent)
    (hplain : Plain bs) (hbs : ∀ b ∈ bs, isBreak b = true) :
    lead indent 0 (writeLines indent true bs ++ (spaces m ++ x)) = ⟨bs, m, x⟩ := by
  have hwritten := @writeLines_breaks [] indent bs hbs
  rw [List.append_nil, writeLines, if_pos rfl, List.append_nil] at hwritten
  rw [hwritten, lead_breaks hplain hbs, lead_next hx hm, List.append_nil]

/-- Where there is a further line, a block goes on at its indentation. -/
theorem lead_writeLines_more {k : List Char} (hplain : Plain cs) (hmore : ∃ c ∈ cs, isBreak c = false) :
    (lead indent 0 (writeLines indent true cs ++ k)).column = indent ∧
      (lead indent 0 (writeLines indent true cs ++ k)).rest ≠ [] := by
  rcases breaks_or_line cs with hbreaks | ⟨bs, line, rest, rfl, hbs, hline, hne, -⟩
  · obtain ⟨c, hc, hbreak⟩ := hmore
    rw [hbreaks c hc] at hbreak
    cases hbreak
  · rw [lead_writeLines (fun c hc => hplain c (by simp [hc])) (fun c hc => hplain c (by simp [hc])) hbs hline hne]
    exact ⟨rfl, by simp [hne]⟩

/-- The lines of a block are read back. -/
theorem lines_writeLines (hx : ∀ c cs, x = c :: cs → isGap c = false) (hm : m < indent) {fuel : Nat}
    (hplain : Plain cs) (hfuel : cs.length < fuel) :
    finished (chomping cs)
        (lines false indent fuel (lead indent 0 (writeLines indent true cs ++ (spaces m ++ x)))) = cs ∧
      (lines false indent fuel (lead indent 0 (writeLines indent true cs ++ (spaces m ++ x)))).rest = x := by
  have hends : ∀ {line : List Char}, Plain line → (∀ c ∈ line, isBreak c = false) →
      ∀ c ∈ line, isLineEnd c = false := fun hplain hline c hc =>
    isLineEnd_of_isShown (hplain c hc).1 (hline c hc)
  induction byLines cs generalizing fuel with
  | @breaks bs hbs =>
    obtain ⟨fuel, rfl⟩ := Nat.exists_eq_add_of_le' (show 1 ≤ fuel by omega)
    rw [lead_writeLines_breaks hx hm hplain hbs, lines, if_neg (by dsimp only; omega)]
    refine ⟨?_, rfl⟩
    cases bs with
    | nil => rfl
    | cons b bs =>
      rw [chomping_breaks hbs (by simp)]
      rfl
  | @last bs line hbs hline hne =>
    obtain ⟨fuel, rfl⟩ := Nat.exists_eq_add_of_le' (show 1 ≤ fuel by omega)
    have hplainLine : Plain line := fun c hc => hplain c (by simp [hc])
    obtain ⟨c, hc⟩ := List.exists_mem_of_ne_nil line hne
    -- the line feed that is written after the line is none of the text
    have hread := @lines_line (spaces m ++ x) indent bs line '\n' (hends hplainLine hline) hne rfl (by decide) fuel
    rw [lead_next hx hm, if_neg (by dsimp only; omega)] at hread
    have hlead := @lead_writeLines (spaces m ++ x) indent bs line [] (fun c hc => hplain c (by simp [hc]))
      hplainLine hbs hline hne
    rw [List.append_nil, writeLines, if_neg (by decide), List.singleton_append] at hlead
    rw [hlead, hread, chomping_append ⟨c, hc, hline c hc⟩, chomping_line hline hne]
    exact ⟨rfl, rfl⟩
  | @closed bs line ends b hbs hline hne hb hbreaks =>
    obtain ⟨fuel, rfl⟩ := Nat.exists_eq_add_of_le' (show 1 ≤ fuel by omega)
    have hplainLine : Plain line := fun c hc => hplain c (by simp [hc])
    obtain ⟨c, hc⟩ := List.exists_mem_of_ne_nil line hne
    rw [lead_writeLines (fun c hc => hplain c (by simp [hc])) hplainLine hbs hline hne, writeLines, if_pos hb,
      List.cons_append, lines_line (hends hplainLine hline) hne hb (hplain b (by simp)).2,
      lead_writeLines_breaks hx hm (fun c hc => hplain c (by simp [hc])) hbreaks, if_neg (by dsimp only; omega),
      chomping_append ⟨c, by simp [hc], hline c hc⟩, chomping_line_breaks hline hne hb hbreaks]
    refine ⟨?_, rfl⟩
    split
    · next hnone => simp [finished, hnone]
    · simp [finished]
  | @further bs line rest b hbs hline hne hb hmore h ih =>
    obtain ⟨fuel, rfl⟩ := Nat.exists_eq_add_of_le' (show 1 ≤ fuel by omega)
    have hplainLine : Plain line := fun c hc => hplain c (by simp [hc])
    have hplainRest : Plain rest := fun c hc => hplain c (by simp [hc])
    have hlength : rest.length < fuel := by
      simp only [List.length_append, List.length_cons] at hfuel
      omega
    obtain ⟨ihtext, ihrest⟩ := ih hplainRest hlength
    have hchomping : chomping (bs ++ (line ++ b :: rest)) = chomping rest := by
      rw [← List.append_assoc, ← List.singleton_append, ← List.append_assoc, chomping_append hmore]
    rw [lead_writeLines (fun c hc => hplain c (by simp [hc])) hplainLine hbs hline hne, writeLines, if_pos hb,
      List.cons_append, lines_line (hends hplainLine hline) hne hb (hplain b (by simp)).2,
      if_pos (lead_writeLines_more hplainRest hmore), hchomping, finished_after, ihtext]
    exact ⟨by simp, ihrest⟩

/-- Without a mark the indentation is that of the first line. -/
theorem widest_spaces {column n : Nat} (hspace : c ≠ ' ') (hend : isLineEnd c = false) :
    widest column column (spaces n ++ c :: cs) = column + n := by
  induction n generalizing column with
  | zero =>
    rw [spaces, List.replicate_zero, List.nil_append, widest]
    · simp [hspace, hend]
    · rintro rest rfl
      cases hend
  | succ n ih =>
    rw [spaces, List.replicate_succ, List.cons_append, widest]
    · rw [if_pos (by decide), Nat.max_eq_right (by omega)]
      exact ih.trans (by omega)
    · rintro rest h
      cases h

/-- Whether the indentation of a text must be marked. -/
def needsMark (cs : List Char) : Bool := cs.head?.any fun c => c == ' ' || isBreak c

/-- The sign for how the breaks at the end of a block count. -/
def Chomping.sign : Chomping → List Char
  | .clip => []
  | .strip => ['-']
  | .keep => ['+']

theorem literalHints_eq (cs : List Char) :
    literalHints cs = (if needsMark cs then ['2'] else []) ++ (chomping cs).sign := by
  unfold literalHints chomping
  generalize cs.reverse = reversed
  dsimp only
  congr 1
  match reversed with
  | [] => rfl
  | [c] => cases hc : isBreak c <;> simp [hc, Chomping.sign]
  | c :: d :: rest => cases hc : isBreak c <;> cases hd : isBreak d <;> simp [hc, hd, Chomping.sign]

/-- The header of a literal block is read as what it was written for. -/
theorem header?_literalHints (rest : List Char) :
    header? (literalHints cs ++ '\n' :: rest) =
      some (⟨chomping cs, if needsMark cs then some 2 else none⟩, rest) := by
  rw [literalHints_eq]
  cases needsMark cs <;> cases chomping cs <;> rfl

theorem length_writeLines (atStart : Bool) : cs.length ≤ (writeLines indent atStart cs).length := by
  induction cs generalizing atStart with
  | nil => exact Nat.zero_le _
  | cons c rest ih =>
    rw [writeLines]
    split
    · exact Nat.succ_le_succ (ih true)
    · split
      · rw [List.length_append]
        exact Nat.le_trans (Nat.succ_le_succ (ih false)) (Nat.le_add_left _ _)
      · exact Nat.succ_le_succ (ih false)

/-- A literal block is read back. -/
theorem read?_writeLiteral (hx : ∀ c cs, x = c :: cs → isGap c = false) (hm : m < floor + 1)
    (hplain : Plain cs) (hne : cs ≠ []) :
    read? false floor
        (literalHints cs ++ '\n' :: (writeLines (floor + 1) true cs ++ (spaces m ++ x))) =
      some (cs, x) := by
  -- without a mark the indentation is that of the first line
  have hindent : needsMark cs = false →
      max floor (widest 0 0 (writeLines (floor + 1) true cs ++ (spaces m ++ x))) = floor + 1 := by
    intro hmark
    obtain ⟨c, rest, rfl⟩ := List.exists_cons_of_ne_nil hne
    simp only [needsMark, List.head?_cons, Option.any_some, Bool.or_eq_false_iff, beq_eq_false_iff_ne] at hmark
    have hend := isLineEnd_of_isShown (hplain c (by simp)).1 hmark.2
    rw [writeLines, if_neg (by simp [hmark.2]), if_pos rfl, List.append_assoc, List.cons_append]
    have hwidest := @widest_spaces (writeLines (floor + 1) false rest ++ (spaces m ++ x)) c 0 (floor + 1)
      hmark.1 hend
    rw [spaces] at hwidest
    rw [hwidest]
    omega
  -- the text is not longer than what is written, so the fuel is enough
  have hlength : cs.length < (writeLines (floor + 1) true cs ++ (spaces m ++ x)).length + 1 := by
    rw [List.length_append]
    have hwritten := @length_writeLines cs (floor + 1) true
    omega
  obtain ⟨htext, hrest⟩ := lines_writeLines hx hm hplain hlength
  rw [read?, header?_literalHints]
  simp only [Option.bind_eq_bind, Option.bind_some]
  cases hmark : needsMark cs with
  | true =>
    simp only [if_true, show floor + 2 - 1 = floor + 1 from rfl]
    generalize lines false (floor + 1) _ _ = r at htext hrest ⊢
    cases hk : chomping cs <;> rw [hk, finished] at htext <;> simp [htext, hrest]
  | false =>
    simp only [Bool.false_eq_true, if_false, hindent hmark]
    generalize lines false (floor + 1) _ _ = r at htext hrest ⊢
    cases hk : chomping cs <;> rw [hk, finished] at htext <;> simp [htext, hrest]

end VirtNet.Yaml.Block
