import Mathlib.Data.List.Nodup
import Mathlib.Data.List.TakeWhile
import VirtNet.Design.File
import VirtNet.Proofs.Files.Tree

/-!
# Designs of a directory

A directory lists the stems of its design files, sorted. A design is looked for as the path of a file first,
then in the directory with one suffix after the other (`find_stem`). So a design file of the directory is
the one that its stem finds exactly when no file has the stem as its path, and the paths in the directory
that are tried earlier can be looked up and are those of no files (`discover_found`).
-/

namespace VirtNet.Design

open FileTree

variable {files : FileTree} {directory path : Path} {l : Location} {name stem suffix : String}

/-- The name of a design file in a directory: that of a file with a suffix of design files. -/
structure IsDesignFile (files : FileTree) (l : Location) (name : String) : Prop where
  file : (files.text? (l ++ [name])).isSome = true
  suffix : Path.suffix name ∈ suffixes

/-- The suffixes that are tried before one. -/
def suffixesBefore (suffix : String) : List String := suffixes.takeWhile (· ≠ suffix)

/-! ## Listing -/

theorem isDesign_eq (h : files.LeadsTo directory l) (hname : IsFileName name)
    (hfits : Fits (directory.child name)) : isDesign files directory name =
      .ok ((files.text? (l ++ [name])).isSome && suffixes.contains (Path.suffix name)) := by
  rw [isDesign, Path.join_name, lookForFile_join h hname hfits]
  rfl

/-- Whether a name is that of a design file can be told when its path is not too long. -/
theorem exists_isDesign_eq_ok (h : files.LeadsTo directory l) (hname : IsFileName name) :
    (∃ b, isDesign files directory name = .ok b) ↔ Fits (directory.child name) := by
  constructor
  · rintro ⟨b, hb⟩
    by_contra hlong
    rw [isDesign, Path.join_name, lookForFile_of_not_fits hlong] at hb
    cases hb
  · exact fun hfits => ⟨_, isDesign_eq h hname hfits⟩

theorem isDesignFile_iff : IsDesignFile files l name ↔
    ((files.text? (l ++ [name])).isSome && suffixes.contains (Path.suffix name)) = true := by
  rw [Bool.and_eq_true, List.contains_iff_mem]
  exact ⟨fun h => ⟨h.file, h.suffix⟩, fun h => ⟨h.1, h.2⟩⟩

theorem discover_eq (h : files.LeadsTo directory l) : discover files directory =
    (files.namesIn l).filterM (isDesign files directory) >>= fun designs =>
      .ok ((designs.map Path.stem).mergeSort fun a b => a ≤ b) := by
  rw [discover, h.lookForAny, Outcome.ok_bind, if_pos rfl, h.list, Outcome.ok_bind]
  rfl

/-- A directory is listed exactly when the paths of its names are not too long. -/
theorem exists_discover_eq_ok (hnamed : files.Named) (h : files.LeadsTo directory l) :
    (∃ names, discover files directory = .ok names) ↔
      ∀ name ∈ files.namesIn l, Fits (directory.child name) := by
  have hnames : (∃ names, discover files directory = .ok names) ↔
      ∃ designs, (files.namesIn l).filterM (isDesign files directory) = .ok designs := by
    simp only [discover_eq h, Outcome.bind_eq_ok, Except.ok.injEq]
    exact ⟨fun ⟨_, designs, hdesigns, _⟩ => ⟨designs, hdesigns⟩,
      fun ⟨designs, hdesigns⟩ => ⟨_, designs, hdesigns, rfl⟩⟩
  rw [hnames, Outcome.exists_filterM_eq_ok]
  exact forall₂_congr fun name hname => exists_isDesign_eq_ok h (hnamed.isFileName hname)

/-- A directory lists the stems of its design files: each file gives one, and they are sorted. -/
theorem discover_eq_ok {names : List String} (hnamed : files.Named) (h : files.LeadsTo directory l)
    (hnames : discover files directory = .ok names) :
    ∃ designs : List String, designs.Nodup ∧ (∀ name, name ∈ designs ↔ IsDesignFile files l name) ∧
      names.Pairwise (· ≤ ·) ∧ names.Perm (designs.map Path.stem) := by
  have hfits := (exists_discover_eq_ok hnamed h).1 ⟨names, hnames⟩
  let isOne (name : String) : Bool :=
    (files.text? (l ++ [name])).isSome && suffixes.contains (Path.suffix name)
  have hfilter : (files.namesIn l).filterM (isDesign files directory) =
      .ok ((files.namesIn l).filter isOne) :=
    Outcome.filterM_eq_ok fun name hname => isDesign_eq h (hnamed.isFileName hname) (hfits name hname)
  rw [discover_eq h, hfilter, Outcome.ok_bind, Except.ok.injEq] at hnames
  subst hnames
  refine ⟨(files.namesIn l).filter isOne, nodup_namesIn.filter _, fun name => ?_, ?_,
    List.mergeSort_perm _ _⟩
  · rw [List.mem_filter, isDesignFile_iff]
    refine ⟨And.right, fun hone => ⟨mem_namesIn_of_text? ?_, hone⟩⟩
    exact (isDesignFile_iff.2 hone).file
  · have hle := @List.pairwise_mergeSort _ (fun a b : String => decide (a ≤ b))
      (by intro a b c; simpa using String.le_trans) (by intro a b; simpa using String.le_total a b)
      (((files.namesIn l).filter isOne).map Path.stem)
    simpa using hle

/-- The list with a single element `a` is the one without repetitions whose only member is `a`. -/
theorem eq_singleton_iff {α : Type} {as : List α} {a : α} (h : as.Nodup) :
    as = [a] ↔ ∀ b, b ∈ as ↔ b = a := by
  rw [← List.perm_singleton, List.perm_ext_iff_of_nodup h (List.nodup_singleton a)]
  simp only [List.mem_singleton]

/-- A stem is listed as often as there are design files with it, and once exactly when there is one. -/
theorem count_discover {names : List String} (hnamed : files.Named) (h : files.LeadsTo directory l)
    (hnames : discover files directory = .ok names) (stem : String) :
    (∃ designs : List String, designs.Nodup ∧
      (∀ name, name ∈ designs ↔ IsDesignFile files l name ∧ Path.stem name = stem) ∧
      names.count stem = designs.length) ∧
    (names.count stem = 1 ↔ ∃! name, IsDesignFile files l name ∧ Path.stem name = stem) := by
  obtain ⟨designs, hnodup, hdesigns, -, hperm⟩ := discover_eq_ok hnamed h hnames
  let owners := designs.filter fun name => Path.stem name = stem
  have howners : owners.Nodup := hnodup.filter _
  have hmem : ∀ name, name ∈ owners ↔ IsDesignFile files l name ∧ Path.stem name = stem := by
    intro name
    rw [List.mem_filter, hdesigns, decide_eq_true_eq]
  have hcount : names.count stem = owners.length := by
    rw [hperm.count_eq, List.count, List.countP_map, List.countP_eq_length_filter]
    rfl
  refine ⟨⟨owners, howners, hmem, hcount⟩, ?_⟩
  rw [hcount, List.length_eq_one_iff]
  refine exists_congr fun name => ?_
  rw [eq_singleton_iff howners]
  simp only [hmem]
  constructor
  · exact fun hall => ⟨(hall name).2 rfl, fun other => (hall other).1⟩
  · rintro ⟨hname, hunique⟩ other
    exact ⟨hunique other, fun heq => heq ▸ hname⟩

/-! ## Looking for a design -/

/-- What is found is the first candidate that is a file. -/
theorem find_eq_ok {design : String} : find files design directory = .ok path ↔
    ∃ before after, candidates design directory = before ++ path :: after ∧
      (∀ p ∈ before, files.lookForFile p = .ok false) ∧ files.lookForFile path = .ok true := by
  rw [← Outcome.findM?_eq_ok, find, Outcome.bind_eq_ok]
  constructor
  · rintro ⟨found, hfound, hresult⟩
    cases found with
    | none => cases hresult
    | some p =>
      cases hresult
      exact Outcome.mapError_eq_ok.1 hfound
  · intro h
    exact ⟨some path, Outcome.mapError_eq_ok.2 h, rfl⟩

/-- A file with a design as its path is what is found for the design. -/
theorem find_ofText {design : String} (h : files.lookForFile (.ofText design) = .ok true) :
    find files design directory = .ok (.ofText design) :=
  find_eq_ok.2 ⟨[], _, rfl, List.forall_mem_nil _, h⟩

/-- The candidates for a name without slashes: the name as a path, and the directory's paths of the name
with each suffix. -/
theorem candidates_eq (hslash : '/' ∉ stem.toList) : candidates stem directory =
    .ofText stem :: suffixes.map fun s => directory.child (stem ++ s) := by
  have hsuffixes : ∀ s ∈ suffixes, '/' ∉ s.toList ∧ 1 < s.toList.length := by decide
  rw [candidates, List.cons.injEq]
  refine ⟨rfl, List.map_congr_left fun s hs => ?_⟩
  obtain ⟨hs, hlong⟩ := hsuffixes s hs
  have hlength : 1 < (stem ++ s).toList.length := by
    rw [String.toList_append, List.length_append]
    omega
  have hname : Path.IsName (stem ++ s) := by
    have hne : ∀ t : String, t.toList.length ≤ 1 → stem ++ s ≠ t := by
      rintro t ht rfl
      exact absurd hlength (Nat.not_lt.2 ht)
    refine ⟨hne "" (by decide), hne "." (by decide), ?_⟩
    rw [String.toList_append, List.mem_append, not_or]
    exact ⟨hslash, hs⟩
  rw [Path.ofText_of_isName hname, Path.join_name]

/-- The suffixes before one are those that come first. -/
theorem suffixesBefore_eq {before after : List String} (h : suffixes = before ++ suffix :: after) :
    suffixesBefore suffix = before := by
  have hnodup : suffixes.Nodup := by decide
  have hbefore : ∀ s ∈ before, decide (s ≠ suffix) = true := by
    intro s hs
    rw [h] at hnodup
    have hne : s ∉ suffix :: after := List.disjoint_of_nodup_append hnodup hs
    exact decide_eq_true (List.ne_of_not_mem_cons hne)
  rw [suffixesBefore, h, List.takeWhile_append_of_pos hbefore, List.takeWhile_cons_of_neg (by simp),
    List.append_nil]

/-- The file of a stem and a suffix is found for the stem exactly when it is a file, no file has the stem as
its path, and none has the stem with a suffix that is tried earlier. -/
theorem find_stem (hslash : '/' ∉ stem.toList) (hsuffix : suffix ∈ suffixes) :
    find files stem directory = .ok (directory.child (stem ++ suffix)) ↔
      files.lookForFile (.ofText stem) = .ok false ∧
      (∀ s ∈ suffixesBefore suffix, files.lookForFile (directory.child (stem ++ s)) = .ok false) ∧
      files.lookForFile (directory.child (stem ++ suffix)) = .ok true := by
  have hnonempty : ∀ s ∈ suffixes, s ≠ "" := by decide
  rw [find_eq_ok, candidates_eq hslash]
  constructor
  · rintro ⟨before, after, heq, hbefore, hpath⟩
    cases before with
    | nil =>
      -- the path of the stem is none in the directory
      exact absurd (List.cons.inj heq).1 (Path.ofText_ne_child hslash (hnonempty suffix hsuffix))
    | cons p before =>
      obtain ⟨rfl, hmap⟩ := List.cons.inj heq
      obtain ⟨earlier, rest, hsplit, rfl, hrest⟩ := List.map_eq_append_iff.1 hmap
      obtain ⟨s, later, rfl, hs, -⟩ := List.map_eq_cons_iff.1 hrest
      obtain rfl : s = suffix := (String.append_right_inj stem).1 (Path.child_inj.1 hs)
      rw [List.forall_mem_cons, List.forall_mem_map] at hbefore
      rw [suffixesBefore_eq hsplit]
      exact ⟨hbefore.1, hbefore.2, hpath⟩
  · rintro ⟨hstem, hearlier, hpath⟩
    obtain ⟨earlier, later, hsplit⟩ := List.mem_iff_append.1 hsuffix
    rw [suffixesBefore_eq hsplit] at hearlier
    refine ⟨.ofText stem :: earlier.map fun s => directory.child (stem ++ s),
      later.map fun s => directory.child (stem ++ s), ?_, ?_, hpath⟩
    · rw [hsplit, List.map_append, List.map_cons]
      rfl
    · rw [List.forall_mem_cons, List.forall_mem_map]
      exact ⟨hstem, hearlier⟩

/-! ## Design files and their names -/

/-- The stem of a design file can be looked for. -/
theorem lookForFile_stem (h : IsFileName name) : files.lookForFile (.ofText (Path.stem name)) =
    .ok (files.hasFile (.ofText (Path.stem name))) := by
  have hsize := h.size
  rw [← Path.stem_append_suffix name, String.utf8ByteSize_append] at hsize
  exact lookForFile_ofText (Path.noSlash_stem h.noSlash) (Nat.le_of_add_right_le hsize)

/-- The names `names` list the design files in a directory. -/
structure Lists (files : FileTree) (l : Location) (names : List String) : Prop where
  sorted : names.Pairwise (· ≤ ·)
  /-- The stems of the design files are listed, and nothing else. -/
  mem : ∀ stem, stem ∈ names ↔ ∃ name, IsDesignFile files l name ∧ Path.stem name = stem
  /-- A stem is listed as often as there are design files with it. -/
  count : ∀ stem, ∃ designs : List String, designs.Nodup ∧
    (∀ name, name ∈ designs ↔ IsDesignFile files l name ∧ Path.stem name = stem) ∧
    names.count stem = designs.length
  /-- It is listed once exactly when there is one. -/
  once : ∀ stem, names.count stem = 1 ↔ ∃! name, IsDesignFile files l name ∧ Path.stem name = stem
  /-- Nothing is listed again exactly when no two design files have one stem. -/
  nodup : names.Nodup ↔ ∀ name name', IsDesignFile files l name → IsDesignFile files l name' →
    Path.stem name = Path.stem name' → name = name'

/-- What a directory lists lists its design files. -/
theorem lists_discover {names : List String} (hnamed : files.Named) (h : files.LeadsTo directory l)
    (hnames : discover files directory = .ok names) : Lists files l names := by
  obtain ⟨designs, hnodup, hdesigns, hsorted, hperm⟩ := discover_eq_ok hnamed h hnames
  refine {
    sorted := hsorted
    mem := fun stem => ?_
    count := fun stem => (count_discover hnamed h hnames stem).1
    once := fun stem => (count_discover hnamed h hnames stem).2
    nodup := ?_ }
  · rw [hperm.mem_iff, List.mem_map]
    exact exists_congr fun name => and_congr_left fun _ => hdesigns name
  · rw [hperm.nodup_iff, List.nodup_map_iff_inj_on hnodup]
    constructor
    · intro hinj name name' hname hname'
      exact hinj name ((hdesigns name).2 hname) name' ((hdesigns name').2 hname')
    · intro hinj name hname name' hname'
      exact hinj name name' ((hdesigns name).1 hname) ((hdesigns name').1 hname')

/-- A look at the path finds no file there, and does not fail because the path, or a name in it, is too
long. -/
def Passed (files : FileTree) (path : Path) : Prop :=
  files.locate path ≠ .error .tooLong ∧ files.hasFile path = false

/-- In a tree of files, for any directory:

* the designs are listed exactly when the path of no name in the directory is too long;
* what is listed is sorted, and is the stem of each design file, as often as there are design files with it;
* the path of a design file leads to it, and is what its stem finds exactly when no file has the stem as its
  path and every path in the directory of the stem with a suffix that is tried earlier is passed, as that of
  no file and as none that is too long, provided that the path of the design file is not too long itself;
* if a file has the stem as its path, that is what is found. -/
theorem discover_found (hnamed : files.Named) (h : files.LeadsTo directory l) :
    ((∃ names, discover files directory = .ok names) ↔
      ∀ name ∈ files.namesIn l, Fits (directory.child name)) ∧
    (∀ names, discover files directory = .ok names → Lists files l names) ∧
    ∀ name, IsDesignFile files l name →
      (Fits (directory.child name) → files.locate (directory.child name) = .ok (l ++ [name])) ∧
      (find files (Path.stem name) directory = .ok (directory.child name) ↔
        files.hasFile (.ofText (Path.stem name)) = false ∧
        (∀ s ∈ suffixesBefore (Path.suffix name), Passed files (directory.child (Path.stem name ++ s))) ∧
        Fits (directory.child name)) ∧
      (files.hasFile (.ofText (Path.stem name)) = true →
        find files (Path.stem name) directory = .ok (.ofText (Path.stem name))) := by
  refine ⟨exists_discover_eq_ok hnamed h, fun names => lists_discover hnamed h, fun name hdesign => ?_⟩
  have hname := hnamed.isFileName (mem_namesIn_of_text? hdesign.file)
  have hstem : files.lookForFile (.ofText (Path.stem name)) =
      .ok (files.hasFile (.ofText (Path.stem name))) := lookForFile_stem hname
  have hwhole : Path.stem name ++ Path.suffix name = name := Path.stem_append_suffix name
  have hslash : '/' ∉ (Path.stem name).toList := Path.noSlash_stem hname.noSlash
  -- the path of the file leads to it, if it fits
  have hfile : files.lookForFile (directory.child name) = .ok true ↔ Fits (directory.child name) := by
    by_cases hfits : Fits (directory.child name)
    · rw [lookForFile_join h hname hfits, hdesign.file]
      exact iff_of_true rfl hfits
    · rw [lookForFile_of_not_fits hfits]
      exact iff_of_false (by rintro ⟨⟩) hfits
  refine ⟨locate_join h hname, ?_, fun hpath => find_ofText (by rw [hstem, hpath])⟩
  have hfind : find files (Path.stem name) directory =
      .ok (directory.child (Path.stem name ++ Path.suffix name)) ↔ _ := find_stem hslash hdesign.suffix
  rw [hwhole, hstem, hfile, Except.ok.injEq] at hfind
  simpa only [lookForFile_eq_ok, Passed] using hfind

/-- Three designs: a file beside the directory has the name of the first as its path, the second is there
with both suffixes, and the third with the later one. -/
def threeDesigns : FileTree where
  entries := [
    (["home", "a"], some "devices:\n- id: beside\n"),
    (["home", "designs", "a.yaml"], some "devices:\n- id: inside\n"),
    (["home", "designs", "b.yaml"], some "devices: []\n"),
    (["home", "designs", "b.yml"], some "devices: []\n"),
    (["home", "designs", "c.yml"], some "devices: []\n")]
  home := ["home"]

/-- The designs are listed, the second more than once; it is found with the first suffix, and the third after
that suffix is passed. -/
theorem discover_found_threeDesigns : threeDesigns.Named ∧
    threeDesigns.LeadsTo usualDirectory ["home", "designs"] ∧
    ∃ names, discover threeDesigns usualDirectory = .ok names ∧ "a" ∈ names ∧ ¬ names.Nodup ∧
      find threeDesigns "b" usualDirectory = .ok (usualDirectory.child "b.yaml") ∧
      find threeDesigns "c" usualDirectory = .ok (usualDirectory.child "c.yml") := by
  have hnamed : threeDesigns.Named := by
    unfold Named
    decide +kernel
  have hleads : threeDesigns.LeadsTo usualDirectory ["home", "designs"] :=
    ⟨by decide +kernel, by decide +kernel⟩
  have hfits : ∀ name ∈ threeDesigns.namesIn ["home", "designs"], Fits (usualDirectory.child name) := by
    unfold Fits
    decide +kernel
  have hdesign : ∀ name ∈ ["a.yaml", "b.yaml", "b.yml", "c.yml"],
      IsDesignFile threeDesigns ["home", "designs"] name := by
    intro name hname
    rw [isDesignFile_iff]
    revert hname name
    decide +kernel
  obtain ⟨hlisted, hlist, hfind⟩ := discover_found hnamed hleads
  obtain ⟨names, hnames⟩ := hlisted.2 hfits
  have hlists : Lists threeDesigns ["home", "designs"] names := hlist names hnames
  refine ⟨hnamed, hleads, names, hnames, ?_, ?_, ?_, ?_⟩
  · exact (hlists.mem "a").2 ⟨"a.yaml", hdesign "a.yaml" (by decide), by decide +kernel⟩
  · intro h
    have hsame := hlists.nodup.1 h "b.yaml" "b.yml" (hdesign _ (by decide)) (hdesign _ (by decide))
      (by decide +kernel)
    exact absurd hsame (by decide)
  · have hearlier : suffixesBefore (Path.suffix "b.yaml") = [] := by decide +kernel
    have hfirst := ((hfind "b.yaml" (hdesign _ (by decide))).2.1).2
      ⟨by decide +kernel, by rw [hearlier]; exact List.forall_mem_nil _, hfits "b.yaml" (by decide +kernel)⟩
    rwa [show Path.stem "b.yaml" = "b" by decide +kernel] at hfirst
  · have hearlier : suffixesBefore (Path.suffix "c.yml") = [".yaml"] := by decide +kernel
    have hpassed : Passed threeDesigns (usualDirectory.child (Path.stem "c.yml" ++ ".yaml")) :=
      lookForFile_eq_ok.1 (by decide +kernel)
    have hlater := ((hfind "c.yml" (hdesign _ (by decide))).2.1).2
      ⟨by decide +kernel, by rw [hearlier]; exact List.forall_mem_singleton.2 hpassed,
        hfits "c.yml" (by decide +kernel)⟩
    rwa [show Path.stem "c.yml" = "c" by decide +kernel] at hlater

/-- A design that has two files is listed twice and found as the first of them; a design with a name that is
the path of another file is found as that. -/
theorem discover_repeated :
    discover threeDesigns usualDirectory = .ok ["a", "b", "b", "c"] ∧
    IsDesignFile threeDesigns ["home", "designs"] "a.yaml" ∧
    find threeDesigns "a" usualDirectory = .ok (.ofText "a") ∧
    IsDesignFile threeDesigns ["home", "designs"] "b.yml" ∧
    find threeDesigns "b" usualDirectory = .ok (usualDirectory.child "b.yaml") := by
  have hthere : threeDesigns.lookForAny usualDirectory = .ok true := by decide +kernel
  have hlist : threeDesigns.list usualDirectory = .ok ["a.yaml", "b.yaml", "b.yml", "c.yml"] := by
    decide +kernel
  have hfilter : ["a.yaml", "b.yaml", "b.yml", "c.yml"].filterM (isDesign threeDesigns usualDirectory) =
      .ok ["a.yaml", "b.yaml", "b.yml", "c.yml"] := by decide +kernel
  have hstems : ["a.yaml", "b.yaml", "b.yml", "c.yml"].map Path.stem = ["a", "b", "b", "c"] := by
    decide +kernel
  have hsorted : (["a.yaml", "b.yaml", "b.yml", "c.yml"].map Path.stem).mergeSort
      (fun a b => decide (a ≤ b)) = ["a", "b", "b", "c"] := by
    rw [hstems]
    exact List.mergeSort_of_pairwise (by decide +kernel)
  refine ⟨?_, ⟨by decide +kernel, by decide +kernel⟩, by decide +kernel,
    ⟨by decide +kernel, by decide +kernel⟩, by decide +kernel⟩
  rw [discover, hthere, Outcome.ok_bind, if_pos rfl, hlist, Outcome.ok_bind, hfilter, Outcome.ok_bind,
    hsorted]
  rfl

end VirtNet.Design
