import Mathlib.Data.List.DropRight
import VirtNet.Text.Blank

/-!
# Trimmed texts

Trimming is idempotent (`trimBy_trimBy`), so a text that was stripped once is a text that stripping
leaves alone. `trimBy_eq_self_iff` says which texts those are: neither end has a character to drop.
-/

namespace VirtNet.Text

variable {p : Char → Bool} {cs : List Char}

/-- Trimming the end leaves exactly the texts alone that do not end in a character to drop. -/
theorem trimEndBy_eq_self_iff :
    trimEndBy p cs = cs ↔ ∀ c, cs.getLast? = some c → p c = false := by
  have h : trimEndBy p cs = cs.rdropWhile p := rfl
  rw [h, List.rdropWhile_eq_self_iff]
  constructor
  · intro hl c hc
    have hne : cs ≠ [] := by
      rintro rfl
      simp at hc
    rw [List.getLast?_eq_some_getLast hne, Option.some.injEq] at hc
    simpa [hc] using hl hne
  · intro hc hne
    simpa using hc _ (List.getLast?_eq_some_getLast hne)

/-- Dropping from the front leaves exactly the texts alone that do not start with a character to
drop. -/
theorem dropWhile_eq_self_iff_head? :
    cs.dropWhile p = cs ↔ ∀ c, cs.head? = some c → p c = false := by
  cases cs with
  | nil => simp
  | cons c rest =>
    rw [List.dropWhile_eq_self_iff]
    simp

/-- Characters that `p` accepts are taken up to the first one that it refuses. -/
theorem span_append {rest : List Char} (hcs : ∀ c ∈ cs, p c = true)
    (hrest : ∀ c, rest.head? = some c → p c = false) :
    (cs ++ rest).takeWhile p = cs ∧ (cs ++ rest).dropWhile p = rest := by
  rw [List.takeWhile_append_of_pos hcs, List.dropWhile_append_of_pos hcs,
    dropWhile_eq_self_iff_head?.2 hrest]
  cases rest with
  | nil => simp
  | cons c rest => simp [hrest c rfl]

/-- Trimming leaves exactly the texts alone that have no character to drop at either end. -/
theorem trimBy_eq_self_iff :
    trimBy p cs = cs ↔
      (∀ c, cs.head? = some c → p c = false) ∧ ∀ c, cs.getLast? = some c → p c = false := by
  rw [← dropWhile_eq_self_iff_head?, ← trimEndBy_eq_self_iff]
  constructor
  · intro h
    -- Both steps only ever shorten the text, so neither did.
    have hpre : trimEndBy p (cs.dropWhile p) <+: cs.dropWhile p := List.rdropWhile_prefix p _
    have hsuf : cs.dropWhile p <:+ cs := List.dropWhile_suffix p
    have hlen : cs.length ≤ (cs.dropWhile p).length := by
      calc cs.length = (trimBy p cs).length := by rw [h]
        _ ≤ (cs.dropWhile p).length := hpre.length_le
    have hdrop : cs.dropWhile p = cs := hsuf.eq_of_length_le hlen
    refine ⟨hdrop, ?_⟩
    rwa [trimBy, hdrop] at h
  · rintro ⟨hdrop, hend⟩
    rw [trimBy, hdrop, hend]

/-- A trimmed text does not start with a character to drop. -/
theorem head?_trimBy {c : Char} (h : (trimBy p cs).head? = some c) : p c = false := by
  have hpre : trimBy p cs <+: cs.dropWhile p := List.rdropWhile_prefix p _
  have hhead : (cs.dropWhile p).head? = some c := by
    obtain ⟨t, ht⟩ := hpre
    rw [← ht]
    cases htrim : trimBy p cs with
    | nil => simp [htrim] at h
    | cons d rest => simpa [htrim] using h
  exact dropWhile_eq_self_iff_head?.1 (List.dropWhile_idempotent p cs) c hhead

/-- A trimmed text does not end in a character to drop. -/
theorem getLast?_trimBy {c : Char} (h : (trimBy p cs).getLast? = some c) : p c = false := by
  refine trimEndBy_eq_self_iff.1 ?_ c h
  exact List.rdropWhile_idempotent p (cs.dropWhile p)

/-- Trimming a second time changes nothing. -/
theorem trimBy_trimBy : trimBy p (trimBy p cs) = trimBy p cs :=
  trimBy_eq_self_iff.2 ⟨fun _ => head?_trimBy, fun _ => getLast?_trimBy⟩

/-- Stripping a second time changes nothing. -/
@[simp]
theorem strip_strip (s : String) : strip (strip s) = strip s := by
  simp only [strip, String.toList_ofList, trimBy_trimBy]

end VirtNet.Text
