/-!
# Computations that keep a journal

A computation that writes notes and may fail. Notes written before a failure are kept, so a run is
always a list of notes and an outcome. The statements say that the outcome alone is computed as in
`Except`: notes never influence it. Who listens from some level on hears the notes up to the first one
without a text.
-/

namespace VirtNet

/-- How much a note matters, from the least. -/
inductive Level
  | debug
  | info
  | warning
  | error
deriving DecidableEq, Repr

/-- The position of a level, from the least. -/
def Level.rank : Level → Nat
  | debug => 0
  | info => 1
  | warning => 2
  | error => 3

/-- The activity that a note is about. -/
inductive Topic
  | registry
  | analysis
  | assignment
  | attachment
  | userData
  | compilation
deriving DecidableEq, Repr

/-- One entry of the journal. -/
structure Note where
  level : Level
  topic : Topic
  /-- What the note says. A note that names a number too long to be written says nothing. -/
  text : Option String
deriving DecidableEq, Repr

/-- Whether a note matters at least as much as `least`. -/
def Note.isFrom (least : Level) (n : Note) : Bool := least.rank ≤ n.level.rank

/-- A computation with its notes, in order, and its outcome. -/
structure Journal (ε α : Type) where
  notes : List Note
  outcome : Except ε α

namespace Journal

variable {ε ε' α β : Type}

/-- A result without notes. -/
def ok (a : α) : Journal ε α := ⟨[], .ok a⟩

/-- A failure without notes. -/
def fail (e : ε) : Journal ε α := ⟨[], .error e⟩

/-- An entry. -/
def write (n : Note) : Journal ε Unit := ⟨[n], .ok ()⟩

/-- A single note. -/
def note (level : Level) (topic : Topic) (text : String) : Journal ε Unit :=
  write ⟨level, topic, some text⟩

/-- One computation, then another that may use its result. -/
def andThen (x : Journal ε α) (f : α → Journal ε β) : Journal ε β :=
  match x.outcome with
  | .ok a => ⟨x.notes ++ (f a).notes, (f a).outcome⟩
  | .error e => ⟨x.notes, .error e⟩

instance : Monad (Journal ε) where
  pure := ok
  bind := andThen

instance : MonadExceptOf ε (Journal ε) where
  throw := fail
  tryCatch x handle :=
    match x.outcome with
    | .ok _ => x
    | .error e => ⟨x.notes ++ (handle e).notes, (handle e).outcome⟩

/-- An outcome without notes. -/
def ofExcept (x : Except ε α) : Journal ε α := ⟨[], x⟩

/-- The same computation with its failures named otherwise. -/
def mapError (f : ε → ε') (x : Journal ε α) : Journal ε' α := ⟨x.notes, x.outcome.mapError f⟩

/-- The notes that are heard from a level on. -/
def heard (least : Level) (x : Journal ε α) : List Note :=
  (x.notes.filter (·.isFrom least)).takeWhile (·.text.isSome)

/-- Whether every note from a level on is heard. -/
def isAudible (least : Level) (x : Journal ε α) : Bool :=
  (x.notes.filter (·.isFrom least)).all (·.text.isSome)

@[simp]
theorem outcome_pure (a : α) : (pure a : Journal ε α).outcome = .ok a := rfl

@[simp]
theorem outcome_throw (e : ε) : (throw e : Journal ε α).outcome = .error e := rfl

@[simp]
theorem outcome_write (n : Note) : (write n : Journal ε Unit).outcome = .ok () := rfl

@[simp]
theorem outcome_note (level : Level) (topic : Topic) (text : String) :
    (note level topic text : Journal ε Unit).outcome = .ok () := rfl

@[simp]
theorem outcome_ofExcept (x : Except ε α) : (ofExcept x).outcome = x := rfl

@[simp]
theorem outcome_mapError (f : ε → ε') (x : Journal ε α) :
    (x.mapError f).outcome = x.outcome.mapError f := rfl

/-- Outcomes compose as they do without notes. -/
@[simp]
theorem outcome_bind (x : Journal ε α) (f : α → Journal ε β) :
    (x >>= f).outcome = x.outcome >>= fun a => (f a).outcome := by
  show (andThen x f).outcome = _
  unfold andThen
  cases h : x.outcome <;> rfl

end Journal

end VirtNet
