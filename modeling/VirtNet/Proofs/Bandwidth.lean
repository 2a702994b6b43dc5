import VirtNet.Bandwidth
import VirtNet.Proofs.Text.Numeral

/-!
# The labels that are accepted

A label is a decimal number, at most one blank, and the name of a unit (`IsLabel`), blanks around it aside.
There is a bandwidth for these texts and for no others (`megabits_grammar`). The reading looks for the parts
of a label one after the other and never goes back; `split?_eq_some` says that it finds them wherever they
are. The number among them can be read however many digits it has (`unsigned?_of_isNumber`), so a text is
refused for its form or for its unit, and for nothing else.
-/

namespace VirtNet

/-- One or more decimal digits of any script. -/
structure Text.IsDigits (ds : List Char) : Prop where
  ne_nil : ds ≠ []
  digits : ∀ c ∈ ds, Text.isDigit c = true

/-! ## Numerals -/

namespace Binary64

variable {ds rest : List Char}

/-- A digit with no low line after it is taken by itself. -/
theorem spanDigits_cons {c : Char} (hc : Text.isDigit c = true) (hrest : rest.head? ≠ some '_') :
    spanDigits (c :: rest) =
      ((Text.decimalDigit? c).getD 0 :: (spanDigits rest).1, (spanDigits rest).2) := by
  obtain ⟨d, hd⟩ := Option.isSome_iff_exists.1 hc
  rw [spanDigits, hd]
  dsimp only
  split
  · exact absurd rfl hrest
  · rfl

/-- Digits are taken up to a character after them that is neither a digit nor a low line. -/
theorem spanDigits_append (hds : ∀ c ∈ ds, Text.isDigit c = true)
    (hrest : ∀ c, rest.head? = some c → Text.isDigit c = false ∧ c ≠ '_') :
    spanDigits (ds ++ rest) = (ds.map fun c => (Text.decimalDigit? c).getD 0, rest) := by
  induction ds with
  | nil =>
    cases rest with
    | nil => rfl
    | cons c rest =>
      have hc : Text.decimalDigit? c = none := by simpa [Text.isDigit] using (hrest c rfl).1
      rw [List.nil_append, spanDigits, hc]
      rfl
  | cons d ds ih =>
    rw [List.forall_mem_cons] at hds
    -- a low line would join the digit to the next one, but none follows
    have hline : (ds ++ rest).head? ≠ some '_' := by
      cases ds with
      | nil => exact fun h => (hrest _ h).2 rfl
      | cons e ds =>
        intro h
        have hdigit : Text.isDigit e = true := hds.2 e List.mem_cons_self
        rw [Option.some.inj h] at hdigit
        exact absurd hdigit (by decide)
    rw [List.cons_append, spanDigits_cons hds.1 hline, ih hds.2, List.map_cons]

/-- Digits without a point are a numeral. -/
theorem unsigned?_whole (hds : Text.IsDigits ds) (negative : Bool) :
    unsigned? negative ds = some (ofDecimal negative (Text.digitsValue ds) ds.length 0) := by
  have hspan := @spanDigits_append ds [] hds.digits (by simp)
  rw [List.append_nil] at hspan
  rw [unsigned?, hspan]
  simp [hds.ne_nil, exponent?, List.foldl_map, Text.digitsValue]

/-- Digits around a point are a numeral: each digit after the point is worth a tenth of its place. -/
theorem unsigned?_fraction {fs : List Char} (hds : Text.IsDigits ds) (hfs : Text.IsDigits fs)
    (negative : Bool) :
    unsigned? negative (ds ++ '.' :: fs) = some
      (ofDecimal negative (Text.digitsValue (ds ++ fs)) (ds ++ fs).length (-(fs.length : Int))) := by
  have hpoint : ∀ c, ('.' :: fs).head? = some c → Text.isDigit c = false ∧ c ≠ '_' := by
    rintro c ⟨⟩
    decide
  have hspan := @spanDigits_append fs [] hfs.digits (by simp)
  rw [List.append_nil] at hspan
  rw [unsigned?, spanDigits_append hds.digits hpoint]
  simp [hspan, hds.ne_nil, exponent?, ← List.map_append, List.foldl_map, Text.digitsValue]

end Binary64

namespace Bandwidth

variable {label : String} {cs number unit : List Char}

/-! ## The grammar -/

/-- A decimal number: digits, and after them nothing, or a point and more digits. -/
inductive IsNumber : List Char → Prop
  | whole {ds : List Char} (digits : Text.IsDigits ds) : IsNumber ds
  | fraction {ds fs : List Char} (digits : Text.IsDigits ds) (part : Text.IsDigits fs) :
      IsNumber (ds ++ '.' :: fs)

/-- At most one blank. -/
inductive IsGap : List Char → Prop
  | none : IsGap []
  | blank {c : Char} (blank : Text.isBlank c = true) : IsGap [c]

/-- The names of the units. -/
def unitNames : List String := ["bps", "Kbps", "Mbps", "Gbps", "Tbps"]

/-- A label: a decimal number, at most one blank, and the name of a unit. -/
def IsLabel (s : String) : Prop :=
  ∃ number gap unit, IsNumber number ∧ IsGap gap ∧ unit ∈ unitNames ∧
    s.toList = number ++ (gap ++ unit.toList)

/-- The parts of a text that has the form of a label: a number and a word, with at most one blank between
them. -/
structure Parts (cs number unit : List Char) : Prop where
  isNumber : IsNumber number
  ne_nil : unit ≠ []
  letters : ∀ c ∈ unit, isUnitLetter c = true
  text : ∃ gap, IsGap gap ∧ cs = number ++ (gap ++ unit)

/-- However many digits a number has, it can be read. -/
theorem unsigned?_of_isNumber (h : IsNumber number) : ∃ x, Binary64.unsigned? false number = some x := by
  cases h with
  | whole hds => exact ⟨_, Binary64.unsigned?_whole hds false⟩
  | fraction hds hfs => exact ⟨_, Binary64.unsigned?_fraction hds hfs false⟩

/-! ## Finding the parts -/

/-- The fraction at the front of a text is nothing, or a point and digits. -/
theorem append_of_spanFraction {fraction rest : List Char} (h : spanFraction cs = (fraction, rest)) :
    cs = fraction ++ rest ∧ (fraction = [] ∨ ∃ fs, Text.IsDigits fs ∧ fraction = '.' :: fs) := by
  unfold spanFraction at h
  split at h
  · next tail =>
    dsimp only at h
    split at h
    · cases h
      exact ⟨rfl, .inl rfl⟩
    · next hne =>
      cases h
      refine ⟨?_, .inr ⟨_, ⟨by simpa using hne, fun c => List.mem_takeWhile_imp⟩, rfl⟩⟩
      rw [List.cons_append, List.takeWhile_append_dropWhile]
  · cases h
    exact ⟨rfl, .inl rfl⟩

/-- No point in front, no fraction. -/
theorem spanFraction_of_head {rest : List Char} (h : rest.head? ≠ some '.') :
    spanFraction rest = ([], rest) := by
  unfold spanFraction
  split
  · exact absurd rfl h
  · rfl

/-- A fraction is taken to its last digit. -/
theorem spanFraction_append {fs rest : List Char} (hfs : Text.IsDigits fs)
    (hrest : ∀ c, rest.head? = some c → Text.isDigit c = false) :
    spanFraction ('.' :: (fs ++ rest)) = ('.' :: fs, rest) := by
  obtain ⟨htake, hdrop⟩ := Text.span_append hfs.digits hrest
  rw [spanFraction, htake, hdrop, if_neg (by simpa using hfs.ne_nil)]

/-- What follows at most one blank. -/
def afterGap : List Char → List Char
  | [] => []
  | c :: rest => if Text.isBlank c then rest else c :: rest

theorem afterGap_append {gap : List Char} (hgap : IsGap gap)
    (hunit : ∀ c, unit.head? = some c → Text.isBlank c = false) : afterGap (gap ++ unit) = unit := by
  cases hgap with
  | none =>
    cases unit with
    | nil => rfl
    | cons c rest => simp [afterGap, hunit c rfl]
  | blank hblank => simp [afterGap, hblank]

theorem exists_gap (cs : List Char) : ∃ gap, IsGap gap ∧ cs = gap ++ afterGap cs := by
  cases cs with
  | nil => exact ⟨[], .none, rfl⟩
  | cons c rest =>
    rw [afterGap]
    split
    · next hblank => exact ⟨[c], .blank hblank, rfl⟩
    · exact ⟨[], .none, rfl⟩

/-- The reading of a label: digits, a fraction, a gap, and a word that takes the rest. -/
theorem split?_eq {fraction rest : List Char}
    (h : spanFraction (cs.dropWhile Text.isDigit) = (fraction, rest)) :
    split? cs =
      if (cs.takeWhile Text.isDigit).isEmpty then none
      else if !(afterGap rest).isEmpty && (afterGap rest).all isUnitLetter then
        some (cs.takeWhile Text.isDigit ++ fraction, afterGap rest)
      else none := by
  unfold split?
  dsimp only
  rw [h]
  cases rest with
  | nil => rfl
  | cons c rest => rfl

/-- What is found in a text are its parts. -/
theorem parts_of_split? (h : split? cs = some (number, unit)) : Parts cs number unit := by
  obtain ⟨⟨fraction, rest⟩, hspan⟩ : ∃ found, spanFraction (cs.dropWhile Text.isDigit) = found := ⟨_, rfl⟩
  obtain ⟨htail, hfraction⟩ := append_of_spanFraction hspan
  obtain ⟨gap, hgap, hrest⟩ := exists_gap rest
  rw [split?_eq hspan] at h
  split_ifs at h with hne hword
  cases h
  rw [List.isEmpty_iff] at hne
  rw [Bool.and_eq_true, Bool.not_eq_true', List.isEmpty_eq_false_iff, List.all_eq_true] at hword
  have hdigits : Text.IsDigits (cs.takeWhile Text.isDigit) := ⟨hne, fun c => List.mem_takeWhile_imp⟩
  refine ⟨?_, hword.1, hword.2, gap, hgap, ?_⟩
  · rcases hfraction with rfl | ⟨fs, hfs, rfl⟩
    · rw [List.append_nil]
      exact .whole hdigits
    · exact .fraction hdigits hfs
  · rw [List.append_assoc, ← hrest, ← htail, List.takeWhile_append_dropWhile]

/-- A letter of a unit is neither a digit, nor blank, nor a point. -/
theorem unitLetter_ends {c : Char} (h : isUnitLetter c = true) :
    Text.isDigit c = false ∧ Text.isBlank c = false ∧ c ≠ '.' := by
  refine ⟨Text.isDigit_of_isAlpha h, Text.isBlank_of_isAlpha h, ?_⟩
  rintro rfl
  exact absurd h (by decide)

/-- A number ends where the gap or the word after it begins. -/
theorem endsNumber_of_gap {gap : List Char} (hgap : IsGap gap)
    (hletters : ∀ c ∈ unit, isUnitLetter c = true) :
    ∀ c, (gap ++ unit).head? = some c → Text.isDigit c = false ∧ c ≠ '.' := by
  intro c hc
  cases hgap with
  | none =>
    have hletter := unitLetter_ends (hletters c (List.mem_of_head? hc))
    exact ⟨hletter.1, hletter.2.2⟩
  | blank hblank =>
    cases hc
    refine ⟨Bool.eq_false_iff.2 fun hdigit => ?_, ?_⟩
    · rw [Text.isBlank_of_isDigit hdigit] at hblank
      cases hblank
    · rintro rfl
      exact absurd hblank (by decide)

/-- The parts of a text are found. -/
theorem split?_of_parts (h : Parts cs number unit) : split? cs = some (number, unit) := by
  obtain ⟨hnumber, hne, hletters, gap, hgap, rfl⟩ := h
  have hends := endsNumber_of_gap hgap hletters
  have hunit : afterGap (gap ++ unit) = unit :=
    afterGap_append hgap fun c hc => (unitLetter_ends (hletters c (List.mem_of_head? hc))).2.1
  have hword : (!unit.isEmpty && unit.all isUnitLetter) = true := by
    rw [Bool.and_eq_true, Bool.not_eq_true', List.isEmpty_eq_false_iff, List.all_eq_true]
    exact ⟨hne, hletters⟩
  cases hnumber with
  | whole hds =>
    -- what follows the digits does not start with a point
    obtain ⟨htake, hdrop⟩ := Text.span_append hds.digits fun c hc => (hends c hc).1
    have hspan := spanFraction_of_head fun hc => (hends _ hc).2 rfl
    rw [← hdrop] at hspan
    rw [split?_eq hspan, htake, hdrop, hunit, if_neg (by simpa using hds.ne_nil), if_pos hword,
      List.append_nil]
  | @fraction ds fs hds hfs =>
    -- the point ends the digits before it, and the gap or the word those after it
    have hpoint : ∀ c, ('.' :: (fs ++ (gap ++ unit))).head? = some c → Text.isDigit c = false := by
      rintro c ⟨⟩
      decide
    obtain ⟨htake, hdrop⟩ := Text.span_append hds.digits hpoint
    have hspan := spanFraction_append hfs fun c hc => (hends c hc).1
    rw [← hdrop] at hspan
    rw [List.append_assoc, List.cons_append, split?_eq hspan, htake, hunit,
      if_neg (by simpa using hds.ne_nil), if_pos hword]

/-- The parts that are found in a text are those that it has. -/
theorem split?_eq_some : split? cs = some (number, unit) ↔ Parts cs number unit :=
  ⟨parts_of_split?, split?_of_parts⟩

/-- Nothing is found in a text that has no parts. -/
theorem split?_eq_none : split? cs = none ↔ ∀ number unit, ¬ Parts cs number unit := by
  rw [Option.eq_none_iff_forall_ne_some]
  constructor
  · intro h number unit hparts
    exact h _ (split?_of_parts hparts)
  · rintro h ⟨number, unit⟩ hsplit
    exact h _ _ (parts_of_split? hsplit)

/-! ## Units -/

/-- The names of the units are words of letters. -/
theorem word_of_mem_unitNames {name : String} (h : name ∈ unitNames) :
    name.toList ≠ [] ∧ ∀ c ∈ name.toList, isUnitLetter c = true := by
  have hall : unitNames.all (fun name => !name.toList.isEmpty && name.toList.all isUnitLetter) = true := by
    decide
  simpa using List.all_eq_true.1 hall name h

theorem isLabel_iff {s : String} :
    IsLabel s ↔ ∃ number unit, unit ∈ unitNames ∧ Parts s.toList number unit.toList := by
  constructor
  · rintro ⟨number, gap, unit, hnumber, hgap, hunit, hs⟩
    obtain ⟨hne, hletters⟩ := word_of_mem_unitNames hunit
    exact ⟨number, unit, hunit, hnumber, hne, hletters, gap, hgap, hs⟩
  · rintro ⟨number, unit, hunit, hnumber, -, -, gap, hgap, hs⟩
    exact ⟨number, gap, unit, hnumber, hgap, hunit, hs⟩

/-- A unit is found by its name. -/
theorem find?_units_eq_some {found : String × Binary64} :
    units.find? (fun (name, _) => name.toList = unit) = some found ↔
      found ∈ units ∧ found.1.toList = unit := by
  constructor
  · intro h
    exact ⟨List.mem_of_find?_eq_some h, by simpa using List.find?_some h⟩
  · rintro ⟨hmem, rfl⟩
    simp only [units, List.mem_cons, List.not_mem_nil, or_false] at hmem
    rcases hmem with rfl | rfl | rfl | rfl | rfl
    all_goals rfl

theorem mem_unitNames {name : String} : name ∈ unitNames ↔ ∃ factor, (name, factor) ∈ units := by
  have hnames : units.map Prod.fst = unitNames := rfl
  rw [← hnames, List.mem_map]
  constructor
  · rintro ⟨⟨name, factor⟩, hmem, rfl⟩
    exact ⟨factor, hmem⟩
  · rintro ⟨factor, hmem⟩
    exact ⟨_, hmem, rfl⟩

theorem find?_units_eq_none :
    units.find? (fun (name, _) => name.toList = unit) = none ↔ String.ofList unit ∉ unitNames := by
  rw [List.find?_eq_none, mem_unitNames]
  constructor
  · rintro h ⟨factor, hmem⟩
    exact h _ hmem (by simp)
  · rintro h ⟨name, factor⟩ hmem hname
    refine h ⟨factor, ?_⟩
    rwa [← of_decide_eq_true hname, String.ofList_toList]

/-! ## Bandwidths -/

/-- There is a bandwidth where the word of a label is the name of a unit: the number times the unit. -/
theorem megabits_eq_ok {x : Binary64} : megabits label = .ok x ↔
    ∃ number unit value factor, Parts (Text.strip label).toList number unit.toList ∧
      (unit, factor) ∈ units ∧ Binary64.unsigned? false number = some value ∧ x = value.mul factor := by
  rw [Text.strip, String.toList_ofList]
  unfold megabits
  constructor
  · intro h
    split at h
    · cases h
    · next number unit hsplit =>
      split at h
      · cases h
      · next name factor hfind =>
        obtain ⟨hunit, rfl⟩ := find?_units_eq_some.1 hfind
        have hparts := split?_eq_some.1 hsplit
        obtain ⟨value, hvalue⟩ := unsigned?_of_isNumber hparts.isNumber
        rw [hvalue, Option.getD_some] at h
        exact ⟨number, name, value, factor, hparts, hunit, hvalue, (Except.ok.inj h).symm⟩
  · rintro ⟨number, unit, value, factor, hparts, hunit, hvalue, rfl⟩
    rw [split?_eq_some.2 hparts]
    dsimp only
    rw [find?_units_eq_some.2 ⟨hunit, rfl⟩, hvalue]
    rfl

/-- A label is refused for its form if it has no parts, or else for a word that is no unit. -/
theorem megabits_eq_error {e : LabelError} : megabits label = .error e ↔
    (∀ number unit, ¬ Parts (Text.strip label).toList number unit) ∧ e = .badFormat label ∨
      ∃ number unit, Parts (Text.strip label).toList number unit ∧ String.ofList unit ∉ unitNames ∧
        e = .unknownUnit (String.ofList unit) := by
  rw [Text.strip, String.toList_ofList]
  unfold megabits
  constructor
  · intro h
    split at h
    · next hnone => exact .inl ⟨split?_eq_none.1 hnone, (Except.error.inj h).symm⟩
    · next number unit hsplit =>
      split at h
      · next hfind =>
        exact .inr ⟨number, unit, split?_eq_some.1 hsplit, find?_units_eq_none.1 hfind,
          (Except.error.inj h).symm⟩
      · cases h
  · rintro (⟨hparts, rfl⟩ | ⟨number, unit, hparts, hunit, rfl⟩)
    · rw [split?_eq_none.2 hparts]
    · rw [split?_eq_some.2 hparts]
      dsimp only
      rw [find?_units_eq_none.2 hunit]

/-- There is a bandwidth for the texts that are labels, and for no others. -/
theorem exists_megabits_iff : (∃ x, megabits label = .ok x) ↔ IsLabel (Text.strip label) := by
  rw [isLabel_iff]
  constructor
  · rintro ⟨x, hx⟩
    obtain ⟨number, unit, value, factor, hparts, hunit, -⟩ := megabits_eq_ok.1 hx
    exact ⟨number, unit, mem_unitNames.2 ⟨factor, hunit⟩, hparts⟩
  · rintro ⟨number, unit, hunit, hparts⟩
    obtain ⟨factor, hmem⟩ := mem_unitNames.1 hunit
    obtain ⟨value, hvalue⟩ := unsigned?_of_isNumber hparts.isNumber
    exact ⟨_, megabits_eq_ok.2 ⟨number, unit, value, factor, hparts, hmem, hvalue, rfl⟩⟩

/-- The labels are given by a grammar, whatever blanks stand around them:

* there is a bandwidth for a text exactly when it is a label, and every other text is refused;
* the bandwidth is the number of the label, as it is read, times its unit;
* a text is refused for its form, or for a word in the place of the unit that is the name of none. -/
theorem megabits_grammar (label : String) :
    ((∃ x, megabits label = .ok x) ↔ IsLabel (Text.strip label)) ∧
      ((∃ e, megabits label = .error e) ↔ ¬ IsLabel (Text.strip label)) ∧
      (∀ x, megabits label = .ok x ↔
        ∃ number unit value factor, Parts (Text.strip label).toList number unit.toList ∧
          (unit, factor) ∈ units ∧ Binary64.unsigned? false number = some value ∧
          x = value.mul factor) ∧
      ∀ e, megabits label = .error e ↔
        (∀ number unit, ¬ Parts (Text.strip label).toList number unit) ∧ e = .badFormat label ∨
          ∃ number unit, Parts (Text.strip label).toList number unit ∧
            String.ofList unit ∉ unitNames ∧ e = .unknownUnit (String.ofList unit) := by
  refine ⟨exists_megabits_iff, ?_, fun x => megabits_eq_ok, fun e => megabits_eq_error⟩
  rw [← exists_megabits_iff]
  cases megabits label with
  | ok x => simp
  | error e => simp

/-- The letter case of a unit counts, and so does a second blank in front of it. -/
example : megabits " 10 mbps" = .error (.unknownUnit "mbps") ∧
    megabits "10  Mbps" = .error (.badFormat "10  Mbps") := by
  decide +kernel

end Bandwidth

end VirtNet
