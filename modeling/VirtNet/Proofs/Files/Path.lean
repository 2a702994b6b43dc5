import VirtNet.Files.Path
import VirtNet.Proofs.Text.Split

/-!
# Names in paths

A name of a file is its stem, then its suffix (`stem_append_suffix`). Written as a path it is the path of
that one name (`ofText_of_isName`), so it can be put after the path of a directory.
-/

namespace VirtNet.Path

variable {name : String} {p : Path}

/-- A text that is one name of a path. -/
structure IsName (name : String) : Prop where
  ne_empty : name ≠ ""
  ne_point : name ≠ "."
  noSlash : '/' ∉ name.toList

/-- A name is its stem, then its suffix. -/
theorem stem_append_suffix (name : String) : stem name ++ suffix name = name := by
  unfold stem suffix
  cases splitPoint? name.toList with
  | none => exact String.append_empty
  | some n => rw [← String.ofList_append, List.take_append_drop, String.ofList_toList]

theorem noSlash_stem (h : '/' ∉ name.toList) : '/' ∉ (stem name).toList := by
  rw [← stem_append_suffix name, String.toList_append, List.mem_append, not_or] at h
  exact h.1

/-! ## Paths of one name -/

/-- The path of a name in the directory of a path. -/
def child (p : Path) (name : String) : Path := ⟨p.root, p.names ++ [name]⟩

theorem join_name : p.join ⟨"", [name]⟩ = p.child name := rfl

theorem child_inj {name' : String} : p.child name = p.child name' ↔ name = name' := by
  simp [child]

/-- A name is written as the path of that name. -/
theorem ofText_of_isName (h : IsName name) : ofText name = ⟨"", [name]⟩ := by
  have hroot : rootOf name.toList = "" := by
    cases hcs : name.toList with
    | nil => rfl
    | cons c rest =>
      have hc : c ≠ '/' := by
        rintro rfl
        exact h.noSlash (hcs ▸ List.mem_cons_self)
      unfold rootOf
      split <;> simp_all
  rw [ofText, hroot, Text.fields_of_not_mem h.noSlash]
  simp [h.ne_empty, h.ne_point]

/-- A name is no path of a longer one in a directory. -/
theorem ofText_ne_child {more : String} (hslash : '/' ∉ name.toList) (hmore : more ≠ "") :
    ofText name ≠ p.child (name ++ more) := by
  intro h
  by_cases hpoint : name = "" ∨ name = "."
  · have hnil : (ofText name).names = [] := by
      rcases hpoint with rfl | rfl <;> decide
    rw [h, child] at hnil
    exact absurd hnil (List.append_ne_nil_of_right_ne_nil _ (List.cons_ne_nil _ _))
  · rw [not_or] at hpoint
    rw [ofText_of_isName ⟨hpoint.1, hpoint.2, hslash⟩, child, Path.mk.injEq] at h
    have hlast : [name].getLast? = (p.names ++ [name ++ more]).getLast? := congrArg _ h.2
    rw [List.getLast?_concat, List.getLast?_singleton, Option.some.injEq] at hlast
    have hsame : name ++ "" = name ++ more := String.append_empty.trans hlast
    exact hmore ((String.append_right_inj name).1 hsame).symm

end VirtNet.Path
