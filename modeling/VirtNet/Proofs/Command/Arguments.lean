import VirtNet.Command.Arguments

/-!
# Options and operands

Options are taken from the arguments one by one (`parse?_of_given`, `parse?_of_open`), so what comes after
the options of the program does not change how these are read (`parse?_front`), and arguments from which
an option was dropped are read as before but for that option (`parse?_without`).
-/

namespace VirtNet.Arguments

variable {forms : List OptionForm}

/-! ## One argument -/

section Steps

variable {mixed : Bool} {arg value key : String} {rest : List String} {given : List (String × String)}

theorem parse?_of_given (hend : arg ≠ "--") (hoption : isOption arg = true)
    (hgroup : group? forms arg.toList = some ⟨given, none⟩) :
    parse? forms mixed (arg :: rest) = (parse? forms mixed rest).map (withOptions given) := by
  rw [parse?, if_neg hend, if_pos hoption, hgroup]

theorem parse?_of_open (hend : arg ≠ "--") (hoption : isOption arg = true)
    (hgroup : group? forms arg.toList = some ⟨given, some key⟩) :
    parse? forms mixed (arg :: value :: rest) =
      (parse? forms mixed rest).map (withOptions (given ++ [(key, value)])) := by
  rw [parse?, if_neg hend, if_pos hoption, hgroup]

theorem parse?_of_operand (hend : arg ≠ "--") (hoption : ¬ isOption arg = true) :
    parse? forms true (arg :: rest) =
      (parse? forms true rest).map fun a => { a with operands := arg :: a.operands } := by
  rw [parse?, if_neg hend, if_neg hoption, if_pos rfl]

end Steps

/-- A name as an operand. After two hyphens it is one even if it looks like an option. -/
def operand (name : String) : List String := if isOption name then ["--", name] else [name]

/-- A name is an operand, whatever options there are. -/
theorem parse?_operand {name : String} : parse? forms true (operand name) = some { operands := [name] } := by
  have hend : isOption "--" = true := rfl
  unfold operand
  split
  · rw [parse?, if_pos rfl]
  · next hname =>
    have hne : name ≠ "--" := by
      rintro rfl
      exact hname hend
    rw [parse?_of_operand hne hname]
    rfl

/-- A long option takes the argument after it as its value. -/
theorem parse?_option {key value : String} {rest : List String} {mixed : Bool} (hne : key ≠ "--")
    (hoption : isOption key = true) (hgroup : group? forms key.toList = some ⟨[], some key⟩) :
    parse? forms mixed (key :: value :: rest) =
      (parse? forms mixed rest).map (withOptions [(key, value)]) :=
  parse?_of_open hne hoption hgroup

/-! ## Options in front -/

/-- What options were added in front of. -/
theorem map_withOptions_eq_some {x : Option Arguments} {front given : List (String × String)}
    {operands : List String} :
    x.map (withOptions front) = some ⟨given, operands⟩ ↔
      ∃ rest, x = some ⟨rest, operands⟩ ∧ front ++ rest = given := by
  cases x with
  | none => simp
  | some a =>
    constructor
    · rintro ⟨⟩
      exact ⟨a.options, rfl, rfl⟩
    · rintro ⟨rest, ⟨⟩, rfl⟩
      rfl

/-- Options that stand before one operand stand before any operands that begin with it. -/
theorem parse?_front {words : List String} {command : String} :
    ∀ {front : List String} {given : List (String × String)},
      parse? forms false (front ++ [command]) = some ⟨given, [command]⟩ →
      parse? forms false (front ++ command :: words) = some ⟨given, command :: words⟩
  | [], given, h => by
    rw [List.nil_append, parse?] at h ⊢
    split at h
    · cases h
    · next hend =>
      rw [if_neg hend]
      split at h
      · split at h <;> cases h
      · -- options end at the first operand, and the command is it
        next hoption =>
        rw [if_neg hoption]
        cases h
        rfl
  | arg :: rest, given, h => by
    rw [List.cons_append, parse?] at h ⊢
    split at h
    · next hend =>
      -- everything after two hyphens is an operand, so the command comes at once
      rw [if_pos hend]
      have hrest : rest ++ [command] = [command] := congrArg Arguments.operands (Option.some.inj h)
      obtain rfl : rest = [] := by simpa using hrest
      cases h
      rfl
    · next hend =>
      rw [if_neg hend]
      split at h
      · next hoption =>
        rw [if_pos hoption]
        split at h
        · cases h
        · obtain ⟨more, hmore, rfl⟩ := map_withOptions_eq_some.1 h
          exact map_withOptions_eq_some.2 ⟨more, parse?_front hmore, rfl⟩
        · cases rest with
          | nil => cases h
          | cons value rest =>
            obtain ⟨more, hmore, rfl⟩ := map_withOptions_eq_some.1 h
            exact map_withOptions_eq_some.2 ⟨more, parse?_front hmore, rfl⟩
      · -- an operand in front of the command would be the first
        next hoption =>
        have hoperands := congrArg Arguments.operands (Option.some.inj h)
        simp at hoperands

/-! ## Arguments without an option -/

/-- The arguments without an option and its values. -/
def without (forms : List OptionForm) (name : String) : List String → List String
  | [] => []
  | arg :: rest =>
    if arg = "--" then arg :: rest
    else if isOption arg then
      match group? forms arg.toList with
      | none => arg :: rest
      | some ⟨given, none⟩ =>
        if given.any (·.1 == name) then without forms name rest else arg :: without forms name rest
      | some ⟨_, some key⟩ =>
        match rest with
        | [] => [arg]
        | value :: rest =>
          if key = name then without forms name rest else arg :: value :: without forms name rest
    else arg :: without forms name rest

/-- What remains of the options without one of them. -/
def drop (name : String) (a : Arguments) : Arguments :=
  { a with options := a.options.filter (·.1 ≠ name) }

/-- Every option that has a letter takes a value, so that no two are written together. -/
def LettersTakeValues (forms : List OptionForm) : Prop :=
  ∀ form ∈ forms, form.letter.isSome = true → form.takesValue = true

instance : DecidablePred LettersTakeValues := fun forms =>
  inferInstanceAs (Decidable (∀ form ∈ forms, form.letter.isSome = true → form.takesValue = true))

/-- An argument that starts with a hyphen gives one option or begins one. -/
theorem group?_single (hforms : LettersTakeValues forms) {arg : String} {g : Group}
    (harg : isOption arg = true) (h : group? forms arg.toList = some g) :
    (∃ o, g = ⟨[o], none⟩) ∨ ∃ key, g = ⟨[], some key⟩ := by
  -- every letter takes a value: the rest of the argument, or the next argument
  have hletters : ∀ {c cs}, letters? forms (c :: cs) = some g →
      (∃ o, g = ⟨[o], none⟩) ∨ ∃ key, g = ⟨[], some key⟩ := by
    intro c cs h
    rw [letters?] at h
    split at h
    · cases h
    · next form hform =>
      have hletter : form.letter = some c := by simpa using List.find?_some hform
      rw [if_pos (hforms form (List.mem_of_find?_eq_some hform) (by rw [hletter]; rfl))] at h
      split at h
      · exact .inr ⟨_, (Option.some.inj h).symm⟩
      · exact .inl ⟨_, (Option.some.inj h).symm⟩
  unfold group? at h
  dsimp only at h
  split at h
  · split at h
    · exact .inl ⟨_, (Option.some.inj h).symm⟩
    · cases h
  · split at h
    · exact .inr ⟨_, (Option.some.inj h).symm⟩
    · exact .inl ⟨_, (Option.some.inj h).symm⟩
  · split at h
    · cases h
    · -- an option has a character after its hyphen
      unfold isOption at harg
      split at harg
      · next hcs =>
        rw [hcs] at h
        exact hletters h
      · cases harg

/-- Without an option, the arguments give what they gave but for the option. -/
theorem parse?_without (hforms : LettersTakeValues forms) {name : String} {words : List String}
    {a : Arguments} (h : parse? forms true words = some a) :
    parse? forms true (without forms name words) = some (a.drop name) := by
  -- an argument that is kept is read as before, and one that is dropped gave the option alone, since no
  -- two options share an argument
  fun_induction without forms name words generalizing a with
  | case1 =>
    cases h
    rfl
  | case2 rest =>
    rw [parse?, if_pos rfl] at h ⊢
    cases h
    rfl
  | case3 arg rest hend hoption hgroup =>
    rw [parse?, if_neg hend, if_pos hoption, hgroup] at h
    cases h
  | case4 arg rest hend hoption given hgroup hnamed ih =>
    rw [parse?_of_given hend hoption hgroup, Option.map_eq_some_iff] at h
    obtain ⟨b, hb, rfl⟩ := h
    obtain ⟨o, ⟨⟩⟩ | ⟨key, ⟨⟩⟩ := group?_single hforms hoption hgroup
    have ho : o.1 = name := by simpa using hnamed
    simp [ih hb, withOptions, drop, ho]
  | case5 arg rest hend hoption given hgroup hnamed ih =>
    rw [parse?_of_given hend hoption hgroup, Option.map_eq_some_iff] at h
    obtain ⟨b, hb, rfl⟩ := h
    obtain ⟨o, ⟨⟩⟩ | ⟨key, ⟨⟩⟩ := group?_single hforms hoption hgroup
    have ho : o.1 ≠ name := by simpa using hnamed
    simp [parse?_of_given hend hoption hgroup, ih hb, withOptions, drop, ho]
  | case6 arg hend hoption given key hgroup =>
    rw [parse?, if_neg hend, if_pos hoption, hgroup] at h
    cases h
  | case7 arg hend hoption given value rest hgroup ih =>
    rw [parse?_of_open hend hoption hgroup, Option.map_eq_some_iff] at h
    obtain ⟨b, hb, rfl⟩ := h
    obtain ⟨o, ⟨⟩⟩ | ⟨key, ⟨⟩⟩ := group?_single hforms hoption hgroup
    simp [ih hb, withOptions, drop]
  | case8 arg hend hoption given key hgroup value rest hne ih =>
    rw [parse?_of_open hend hoption hgroup, Option.map_eq_some_iff] at h
    obtain ⟨b, hb, rfl⟩ := h
    obtain ⟨o, ⟨⟩⟩ | ⟨key, ⟨⟩⟩ := group?_single hforms hoption hgroup
    simp [parse?_of_open hend hoption hgroup, ih hb, withOptions, drop, hne]
  | case9 arg rest hend hoption ih =>
    rw [parse?_of_operand hend hoption, Option.map_eq_some_iff] at h
    obtain ⟨b, hb, rfl⟩ := h
    simp [parse?_of_operand hend hoption, ih hb, drop]

section Drop

variable {a : Arguments} {key name : String}

/-- Dropping an option changes the value of no other. -/
theorem value?_drop_of_ne (h : key ≠ name) : (a.drop name).value? key = a.value? key := by
  rw [value?, value?, drop, ← List.filter_reverse]
  generalize a.options.reverse = options
  -- what is dropped stands under another key, so lookup passes over it anyway
  induction options with
  | nil => rfl
  | cons o options ih =>
    by_cases ho : o.1 = name
    · have hkey : (key == o.1) = false := beq_false_of_ne (ho ▸ h)
      rw [List.filter_cons_of_neg (by simpa using ho), ih, List.lookup_cons, hkey]
    · rw [List.filter_cons_of_pos (by simpa using ho), List.lookup_cons, List.lookup_cons, ih]

/-- An option that is dropped has no value. -/
theorem value?_drop_self : (a.drop name).value? name = none := by
  rw [value?, drop, ← List.filter_reverse, List.lookup_eq_none_iff]
  intro o ho
  have hne : o.1 ≠ name := by simpa using (List.mem_filter.1 ho).2
  simpa using Ne.symm hne

end Drop

end VirtNet.Arguments
