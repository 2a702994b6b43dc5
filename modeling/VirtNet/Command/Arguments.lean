import VirtNet.Text.Split

/-!
# Command line arguments

Options with and without a value among the arguments of a command. A long option takes its value after
an equals sign or as the next argument; short options can be written together, and what follows one
with a value is the value. After two hyphens everything is an operand.
-/

namespace VirtNet

/-- An option of a command. -/
structure OptionForm where
  /-- The name with two hyphens. -/
  name : String
  /-- The letter after a single hyphen, if there is one. -/
  letter : Option Char := none
  takesValue : Bool := true
deriving DecidableEq, Repr

/-- The arguments of a command, sorted out. -/
structure Arguments where
  /-- The options that were given, by name and in order; an option without a value has an empty one. -/
  options : List (String × String) := []
  operands : List String := []
deriving DecidableEq, Repr

namespace Arguments

/-- The value of an option; of several the last. -/
def value? (a : Arguments) (name : String) : Option String := a.options.reverse.lookup name

/-- Whether an option was given. -/
def has (a : Arguments) (name : String) : Bool := (a.value? name).isSome

/-- Adds options in front. -/
def withOptions (given : List (String × String)) (a : Arguments) : Arguments :=
  { a with options := given ++ a.options }

/-- What an argument that starts with a hyphen says: the options it gives, and the option whose value is
the next argument. -/
structure Group where
  given : List (String × String)
  open? : Option String
deriving DecidableEq, Repr

/-- Short options written together. -/
def letters? (forms : List OptionForm) : List Char → Option Group
  | [] => some ⟨[], none⟩
  | c :: rest =>
    match forms.find? (·.letter == some c) with
    | none => none
    | some form =>
      if form.takesValue then
        if rest.isEmpty then some ⟨[], some form.name⟩
        else some ⟨[(form.name, String.ofList rest)], none⟩
      else (letters? forms rest).map fun g => { g with given := (form.name, "") :: g.given }

/-- The name of a long option and the value after an equals sign. -/
def splitValue (cs : List Char) : String × Option String :=
  let name := String.ofList (cs.takeWhile (· ≠ '='))
  match cs.dropWhile (· ≠ '=') with
  | [] => (name, none)
  | _ :: value => (name, some (String.ofList value))

/-- What an argument that starts with a hyphen says. -/
def group? (forms : List OptionForm) (cs : List Char) : Option Group :=
  let (name, value) := splitValue cs
  match forms.find? (·.name == name), value with
  | some form, some v => if form.takesValue then some ⟨[(form.name, v)], none⟩ else none
  | some form, none =>
    if form.takesValue then some ⟨[], some form.name⟩ else some ⟨[(form.name, "")], none⟩
  | none, _ =>
    match cs with
    | '-' :: '-' :: _ => none
    | cs => letters? forms (cs.drop 1)

/-- Whether an argument is an option: a hyphen and something after it. -/
def isOption (arg : String) : Bool :=
  match arg.toList with
  | '-' :: _ :: _ => true
  | _ => false

/-- Sorts out arguments. Where options are not `mixed` with operands, everything from the first operand
on is one. -/
def parse? (forms : List OptionForm) (mixed : Bool) : List String → Option Arguments
  | [] => some {}
  | arg :: rest =>
    if arg = "--" then some { operands := rest }
    else if isOption arg then
      match group? forms arg.toList with
      | none => none
      | some ⟨given, none⟩ => (parse? forms mixed rest).map (withOptions given)
      | some ⟨given, some name⟩ =>
        match rest with
        | [] => none
        | value :: rest => (parse? forms mixed rest).map (withOptions (given ++ [(name, value)]))
    else if mixed then
      (parse? forms mixed rest).map fun a => { a with operands := arg :: a.operands }
    else some { operands := arg :: rest }

end Arguments

end VirtNet
