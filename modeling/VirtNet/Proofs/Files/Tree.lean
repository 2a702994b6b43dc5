import VirtNet.Files.Tree
import VirtNet.Proofs.Files.Path
import VirtNet.Proofs.Journal

/-!
# What paths lead to

In a tree whose names are names that files can have (`Named`), the path of a directory with a name after it
leads to what has that name in the directory (`lookForFile_join`), unless the path is too long. A directory
lists each name once (`nodup_namesIn`), among them all its files (`mem_namesIn_of_text?`).
-/

namespace VirtNet.FileTree

/-- A name that a file can have. -/
structure IsFileName (name : String) : Prop extends Path.IsName name where
  ne_points : name ≠ ".."
  size : name.utf8ByteSize ≤ maxNameSize

instance (name : String) : Decidable (IsFileName name) :=
  decidable_of_iff ((name ≠ "" ∧ name ≠ "." ∧ '/' ∉ name.toList) ∧ name ≠ ".." ∧
    name.utf8ByteSize ≤ maxNameSize)
    ⟨fun h => ⟨⟨h.1.1, h.1.2.1, h.1.2.2⟩, h.2.1, h.2.2⟩,
      fun h => ⟨⟨h.ne_empty, h.ne_point, h.noSlash⟩, h.ne_points, h.size⟩⟩

/-- All names in a tree are names that files can have. -/
def Named (t : FileTree) : Prop := ∀ e ∈ t.entries, ∀ name ∈ e.1, IsFileName name

/-- A path leads to the directory at a location. -/
structure LeadsTo (t : FileTree) (p : Path) (l : Location) : Prop where
  locate : t.locate p = .ok l
  isDirectory : t.isDirectory l = true

/-- A path is not too long to be followed. -/
def Fits (p : Path) : Prop := p.toText.utf8ByteSize ≤ maxPathSize

variable {t : FileTree} {p : Path} {l m : Location} {name : String}

/-! ## Following names -/

/-- Names are followed one after the other. -/
theorem follow_append (as bs : List String) :
    t.follow l (as ++ bs) = t.follow l as >>= fun m => t.follow m bs := by
  induction as generalizing l with
  | nil => rfl
  | cons a as ih =>
    rw [List.cons_append, follow, follow]
    split
    · rfl
    · split
      · rfl
      · exact ih

/-- A name after the path of a directory leads into the directory. -/
theorem locate_join (h : t.LeadsTo p l) (hname : IsFileName name) (hfits : Fits (p.child name)) :
    t.locate (p.child name) = .ok (l ++ [name]) := by
  have hfollow : t.follow (if p.root = "" then t.home else []) p.names = .ok l := by
    have hlocate := h.locate
    rw [locate] at hlocate
    split at hlocate
    · cases hlocate
    · exact hlocate
  rw [locate, if_neg (Nat.not_lt.2 hfits), Path.child]
  dsimp only
  rw [follow_append, hfollow, Outcome.ok_bind, follow, h.isDirectory, if_neg (by decide),
    if_neg (Nat.not_lt.2 hname.size), if_neg hname.ne_points]
  rfl

/-- A name after the path of a directory is that of a file when there is one in the directory. -/
theorem lookForFile_join (h : t.LeadsTo p l) (hname : IsFileName name)
    (hfits : Fits (p.child name)) :
    t.lookForFile (p.child name) = .ok (t.text? (l ++ [name])).isSome := by
  rw [lookForFile, look, hasFile, locate_join h hname hfits]

/-- A look for a file gives an answer when the path and the names in it are not too long. -/
theorem lookForFile_eq_ok {b : Bool} :
    t.lookForFile p = .ok b ↔ t.locate p ≠ .error .tooLong ∧ t.hasFile p = b := by
  rw [lookForFile, look]
  cases t.locate p with
  | ok l => simp
  | error e => cases e <;> simp

/-- A path that is too long cannot be looked for. -/
theorem lookForFile_of_not_fits (h : ¬ Fits p) : t.lookForFile p = .error .tooLong := by
  rw [lookForFile, look, locate, if_pos (Nat.not_le.1 h)]

/-- A text without slashes that is no longer than a name can be looked for. -/
theorem lookForFile_ofText (hslash : '/' ∉ name.toList) (hsize : name.utf8ByteSize ≤ maxNameSize) :
    t.lookForFile (.ofText name) = .ok (t.hasFile (.ofText name)) := by
  have hlocate : ∃ l, t.locate (.ofText name) = .ok l := by
    by_cases hpoint : name = "" ∨ name = "."
    · -- both are the path of the home directory
      have hpath : Path.ofText name = ⟨"", []⟩ := by
        rcases hpoint with rfl | rfl <;> decide
      rw [hpath]
      exact ⟨t.home, rfl⟩
    · rw [not_or] at hpoint
      have hpath : Path.ofText name = ⟨"", [name]⟩ := Path.ofText_of_isName ⟨hpoint.1, hpoint.2, hslash⟩
      have htext : (⟨"", [name]⟩ : Path).toText = name := by
        simp [Path.toText, Text.joinWith, Text.join]
      have hhome : t.isDirectory t.home = true := by
        simp [isDirectory]
      have hshort : name.utf8ByteSize ≤ maxPathSize := Nat.le_trans hsize (by decide)
      rw [hpath, locate, htext, if_neg (Nat.not_lt.2 hshort), if_pos rfl, follow, hhome,
        if_neg (by decide), if_neg (Nat.not_lt.2 hsize)]
      exact ⟨_, rfl⟩
  obtain ⟨l, hl⟩ := hlocate
  rw [lookForFile, look, hl]

/-- A directory is there. -/
theorem LeadsTo.lookForAny (h : t.LeadsTo p l) : t.lookForAny p = .ok true := by
  have hthere : t.hasDirectory p = true := by
    rw [hasDirectory, h.locate]
    exact h.isDirectory
  rw [FileTree.lookForAny, look, h.locate, hthere, Bool.or_true]

/-! ## Names in a directory -/

theorem LeadsTo.list (h : t.LeadsTo p l) : t.list p = .ok (t.namesIn l) := by
  rw [FileTree.list, h.locate, Outcome.ok_bind, h.isDirectory]
  rfl

/-- A directory has the names that entries have right after its location. -/
theorem mem_namesIn : name ∈ t.namesIn l ↔ ∃ e ∈ t.entries, l ++ [name] <+: e.1 := by
  have hentry : ∀ e : Location × Option String,
      (if l.isPrefixOf e.1 then e.1[l.length]? else none) = some name ↔ l ++ [name] <+: e.1 := by
    rintro ⟨location, text⟩
    constructor
    · intro h
      split at h
      · next hstart =>
        obtain ⟨rest, rfl⟩ := List.isPrefixOf_iff_prefix.1 hstart
        rw [List.getElem?_append_right (Nat.le_refl _), Nat.sub_self] at h
        obtain ⟨c, rest, rfl⟩ := List.exists_cons_of_ne_nil (l := rest) (by rintro rfl; cases h)
        obtain rfl : c = name := Option.some.inj h
        exact ⟨rest, by rw [List.append_assoc, List.singleton_append]⟩
      · cases h
    · rintro ⟨rest, rfl⟩
      rw [if_pos (List.isPrefixOf_iff_prefix.2 ⟨name :: rest, by simp⟩)]
      simp
  simp only [namesIn, List.mem_eraseDups, List.mem_filterMap, hentry]

/-- The files in a directory are among its names. -/
theorem mem_namesIn_of_text? (h : (t.text? (l ++ [name])).isSome = true) : name ∈ t.namesIn l := by
  obtain ⟨text, htext⟩ := Option.isSome_iff_exists.1 h
  obtain ⟨e, he, -⟩ := Option.bind_eq_some_iff.1 htext
  have hlocation := List.find?_some he
  rw [decide_eq_true_eq] at hlocation
  exact mem_namesIn.2 ⟨e, List.mem_of_find?_eq_some he, hlocation.1 ▸ List.prefix_rfl⟩

/-- The names in a directory are names that files can have. -/
theorem Named.isFileName (h : t.Named) (hname : name ∈ t.namesIn l) : IsFileName name := by
  obtain ⟨e, he, hstart⟩ := mem_namesIn.1 hname
  exact h e he name (hstart.subset (List.mem_append_right _ List.mem_cons_self))

/-- Erasing repetitions leaves none. -/
theorem nodup_eraseDups {α : Type} [DecidableEq α] (as : List α) : as.eraseDups.Nodup := by
  cases as with
  | nil => exact List.nodup_nil
  | cons a as =>
    rw [List.eraseDups_cons, List.nodup_cons, List.mem_eraseDups]
    exact ⟨by simp, nodup_eraseDups (as.filter fun b => !b == a)⟩
termination_by as.length
decreasing_by exact Nat.lt_succ_of_le (List.length_filter_le _ _)

/-- A directory lists each name once. -/
theorem nodup_namesIn : (t.namesIn l).Nodup := nodup_eraseDups _

end VirtNet.FileTree
