import VirtNet.Value.Basic

/-!
# Induction over values

A property that passes from the parts of each value to the value holds of all values. The parts of a
collection are values in lists, so that the induction that comes with the type has cases for these too;
`inductionOn` has one case for each kind of value.
-/

namespace VirtNet.Value

/-- A property of values holds of all if it passes from the parts of a value to the value. -/
theorem inductionOn {P : Value → Prop} (null : P null) (bool : ∀ b, P (bool b)) (int : ∀ n, P (int n))
    (float : ∀ x, P (float x)) (text : ∀ s, P (text s)) (bytes : ∀ bs, P (bytes bs))
    (date : ∀ d, P (date d)) (moment : ∀ m, P (moment m))
    (list : ∀ items, (∀ v ∈ items, P v) → P (list items))
    (pair : ∀ a b, P a → P b → P (pair a b)) (set : ∀ ms, (∀ v ∈ ms, P v) → P (set ms))
    (dict : ∀ es, (∀ e ∈ es, P e.1 ∧ P e.2) → P (dict es))
    (numbered : ∀ n v, P v → P (numbered n v)) (again : ∀ n, P (again n)) (v : Value) : P v :=
  -- the property for lists and entries is the one for all that is in them
  @Value.rec P (fun vs => ∀ v ∈ vs, P v) (fun es => ∀ e ∈ es, P e.1 ∧ P e.2)
    (fun e => P e.1 ∧ P e.2)
    null bool int float text bytes date moment list pair set dict numbered again
    (fun _ hv => nomatch hv)
    (fun _ _ hhead htail => List.forall_mem_cons.2 ⟨hhead, htail⟩)
    (fun _ he => nomatch he)
    (fun _ _ hhead htail => List.forall_mem_cons.2 ⟨hhead, htail⟩)
    (fun _ _ hkey hvalue => ⟨hkey, hvalue⟩)
    v

end VirtNet.Value
