import VirtNet.Proofs.Yaml.Read.Plain
import VirtNet.Yaml.Cursor

/-!
# Places in a text

Passing characters and going on at a given end of the text come to the same (`Cursor.moveTo_append`).
Characters on one line take a column each (`Cursor.skip_of_onLine`); after a break the indentation of the
line gives the column (`Cursor.moveTo_of_break`).
-/

namespace VirtNet.Yaml.Cursor

variable {as bs cs x rest : List Char} {c : Char} {n : Nat}

variable {k : Cursor}

theorem rest_next (k : Cursor) : k.next.rest = k.rest.tail := by
  unfold next
  split
  · next h => rw [h]; rfl
  · next x rest h =>
    rw [h]
    split
    · rfl
    · split <;> rfl

theorem skip_add (m n : Nat) (k : Cursor) : k.skip (m + n) = (k.skip m).skip n := by
  induction m generalizing k with
  | zero => rw [Nat.zero_add]; rfl
  | succ m ih => rw [Nat.succ_add]; exact ih k.next

theorem rest_skip (h : k.rest = as ++ rest) : (k.skip as.length).rest = rest := by
  induction as generalizing k with
  | nil => exact h
  | cons a as ih =>
    apply ih
    rw [rest_next, h]
    rfl

/-- Going on where what follows some characters starts is passing these characters. -/
theorem moveTo_append (h : k.rest = as ++ rest) : k.moveTo rest = k.skip as.length := by
  rw [moveTo, h, List.length_append, Nat.add_sub_cancel]

theorem rest_moveTo (h : k.rest = as ++ rest) : (k.moveTo rest).rest = rest := by
  rw [moveTo_append h, rest_skip h]

/-- Going on in two steps is going on in one. -/
theorem moveTo_moveTo (h : k.rest = as ++ (bs ++ rest)) : (k.moveTo (bs ++ rest)).moveTo rest = k.moveTo rest := by
  have hsplit : k.rest = (as ++ bs) ++ rest := by rw [h, List.append_assoc]
  rw [moveTo_append (rest_moveTo h), moveTo_append h, moveTo_append hsplit, List.length_append, skip_add]

theorem moveTo_self (k : Cursor) : k.moveTo k.rest = k := by
  rw [moveTo, Nat.sub_self]
  rfl

/-- Characters that stand on one line, each in a column of its own. -/
def OnLine (cs : List Char) : Prop := ∀ c ∈ cs, isLineEnd c = false ∧ c ≠ byteOrderMark

theorem next_of_onLine (h : k.rest = c :: rest) (hc : isLineEnd c = false) (hmark : c ≠ byteOrderMark) :
    k.next = ⟨rest, k.index + 1, k.line, k.column + 1⟩ := by
  rw [isLineEnd, Bool.or_eq_false_iff] at hc
  unfold next
  rw [h]
  simp [hc, hmark]

/-- Characters on one line take as many columns as they are. -/
theorem skip_of_onLine (h : k.rest = as ++ rest) (has : OnLine as) :
    k.skip as.length = ⟨rest, k.index + as.length, k.line, k.column + as.length⟩ := by
  induction as generalizing k with
  | nil =>
    rw [List.nil_append] at h
    rw [← h]
    rfl
  | cons a as ih =>
    rw [OnLine, List.forall_mem_cons] at has
    have hnext := next_of_onLine h has.1.1 has.1.2
    show k.next.skip as.length = _
    rw [ih (by rw [hnext]; rfl) has.2, hnext]
    simp only [List.length_cons, mk.injEq, true_and]
    omega

theorem onLine_spaces (n : Nat) : OnLine (spaces n) := by
  intro c hc
  rw [(List.mem_replicate.1 hc).2]
  exact ⟨rfl, by decide⟩

theorem line_next_le (k : Cursor) : k.line ≤ k.next.line := by
  unfold next
  split
  · exact Nat.le_refl _
  · split
    · exact Nat.le_succ _
    · split <;> exact Nat.le_refl _

theorem line_skip_le (n : Nat) (k : Cursor) : k.line ≤ (k.skip n).line := by
  induction n generalizing k with
  | zero => exact Nat.le_refl _
  | succ n ih => exact Nat.le_trans (line_next_le k) (ih k.next)

/-- After a break the indentation of the line gives the column, and the line is a later one. -/
theorem moveTo_of_break (h : k.rest = as ++ c :: (spaces n ++ x)) (hc : isBreak c = true) :
    (k.moveTo x).column = n ∧ k.line < (k.moveTo x).line := by
  have hsplit : k.rest = (as ++ c :: spaces n) ++ x := by
    rw [h, List.append_assoc, List.cons_append]
  have hlength : (as ++ c :: spaces n).length = as.length + (1 + (spaces n).length) := by
    rw [List.length_append, List.length_cons, Nat.add_comm 1]
  have hfeed : (k.skip as.length).next =
      ⟨spaces n ++ x, (k.skip as.length).index + 1, (k.skip as.length).line + 1, 0⟩ := by
    unfold next
    rw [rest_skip h]
    dsimp only
    rw [hc]
    rfl
  have hspaces : (k.skip as.length).next.skip (spaces n).length = _ :=
    skip_of_onLine (by rw [hfeed]) (onLine_spaces n)
  have hline := line_skip_le as.length k
  rw [moveTo_append hsplit, hlength, skip_add, skip_add]
  show ((k.skip as.length).next.skip (spaces n).length).column = n ∧
    k.line < ((k.skip as.length).next.skip (spaces n).length).line
  rw [hspaces, hfeed]
  have hcolumn : (spaces n).length = n := List.length_replicate
  exact ⟨by dsimp only; omega, by dsimp only; omega⟩

end VirtNet.Yaml.Cursor
