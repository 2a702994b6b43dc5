import VirtNet.Design.Basic

/-!
# Histories of a registry

What is asked of a registry, one change after the other. A change that is refused leaves the registry
as it was, and a written design that is refused leaves the records before its fault. The registries
that can arise are those that some history leaves. `attempt?` tells a change that is made in full from
one that is refused.
-/

namespace VirtNet

/-- A change that is asked of a registry. -/
inductive Change
  /-- To take a device in. -/
  | addDevice (draft : Device.Draft)
  /-- To take a connection in. -/
  | addConnection (draft : Connection.Draft)
  /-- To remove a device. -/
  | deleteDevice (id : String)
  /-- To remove everything. -/
  | clear
  /-- To take a written design in. -/
  | load (design : Value)

/-- The registry that a reading leaves: all of the design, or the records before the fault. -/
def Design.left : Except Design.Halted Registry → Registry
  | .ok r => r
  | .error h => h.registry

namespace Registry

/-- The registry that an outcome leaves, `r` being the one before. A refusal carries no registry: an addition
makes all its checks before its first change, and a removal is never refused. -/
def kept {ε α : Type} (r : Registry) : Except ε (Registry × α) → Registry
  | .ok (r', _) => r'
  | .error _ => r

/-- The registry after a change was asked of it. -/
def apply (r : Registry) : Change → Registry
  | .addDevice draft => r.kept (r.addDevice draft).outcome
  | .addConnection draft => r.kept (r.addConnection draft).outcome
  | .deleteDevice id =>
    r.kept (r.deleteDevice id : Journal RegistryError (Registry × Nat × Nat)).outcome
  | .clear => empty
  | .load design => Design.left (Design.readInto r design).outcome

/-- The registry that a history leaves, the oldest change first. -/
def after (history : List Change) : Registry := history.foldl apply empty

/-- The registry after a change that is made in full; there is none if the change is refused. -/
def attempt? (r : Registry) : Change → Option Registry
  | .addDevice draft => (r.addDevice draft).outcome.toOption.map Prod.fst
  | .addConnection draft => (r.addConnection draft).outcome.toOption.map Prod.fst
  | .deleteDevice id =>
    (r.deleteDevice id : Journal RegistryError (Registry × Nat × Nat)).outcome.toOption.map Prod.fst
  | .clear => some empty
  | .load design => (Design.readInto r design).outcome.toOption

/-- The registry after changes that are all made in full, the oldest first. -/
def attemptAll? (r : Registry) (changes : List Change) : Option Registry :=
  changes.foldlM attempt? r

end Registry

end VirtNet
