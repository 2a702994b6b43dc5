import VirtNet.Proofs.Address
import VirtNet.Proofs.Journal
import VirtNet.Segment

/-!
# Derivation of a segment

The base of a segment comes from an address or from the segment's number (`base_formed`). A derivation
gives the segment that `formed` describes, or fails where it is strict and the addresses lie in different
networks; it never gives anything else (`outcome_derive`).
-/

namespace VirtNet.Segment

variable {number : Nat} {members : List String} {candidates : List (Option String)}
  {connection : Option Connection}

/-- Segments with different numbers have different names. -/
theorem nameOf_inj {m n : Nat} : nameOf m = nameOf n ↔ m = n := by
  have hname : ∀ k, nameOf k = "net" ++ k.repr := fun _ => rfl
  rw [hname, hname, String.append_right_inj, Address.repr_inj]

/-- Fallback bases with different numbers are different. -/
theorem fallbackBase_inj {m n : Nat} : fallbackBase m = fallbackBase n ↔ m = n := by
  have hfallback : ∀ k, fallbackBase k = Address.host "192.168" k := fun _ => rfl
  rw [hfallback, hfallback, Address.host_inj]

/-- Different bases have different subnets. -/
theorem subnetOf_inj {b b' : String} : subnetOf b = subnetOf b' ↔ b = b' :=
  String.append_left_inj ".0/24"

/-! ## Forming -/

/-- The subnet is that of the base. -/
theorem subnet_formed : (formed number members candidates connection).subnet =
    subnetOf (formed number members candidates connection).base := rfl

/-- The base is that of the address it was detected from, or the fallback. -/
theorem base_formed : (formed number members candidates connection).base =
    ((formed number members candidates connection).detectedFrom.map Address.base).getD
      (fallbackBase number) := rfl

/-- The address that decides the subnet is one. -/
theorem isValid_of_detectedFrom {ip : String}
    (h : (formed number members candidates connection).detectedFrom = some ip) :
    Address.isValid ip = true := by
  have hmem : ip ∈ (present candidates).filter Address.isValid := List.mem_of_head? h
  exact (List.mem_filter.1 hmem).2

/-- The base of every segment is a base. -/
theorem isBase_formed : Address.IsBase (formed number members candidates connection).base := by
  rw [base_formed]
  cases hip : (formed number members candidates connection).detectedFrom with
  | none => exact Address.isBase_fallback number
  | some ip => exact Address.isBase_base (isValid_of_detectedFrom hip)

/-- Every address among the candidates lies in the network of a consistent segment. -/
theorem base_of_consistent {ip : String}
    (h : (formed number members candidates connection).consistent = true)
    (hip : some ip ∈ candidates) (hvalid : Address.isValid ip = true) :
    Address.base ip = (formed number members candidates connection).base := by
  have hne : ip.isEmpty = false := by simpa using Address.ne_empty_of_isValid hvalid
  have hpresent : ip ∈ present candidates :=
    List.mem_filterMap.2 ⟨some ip, hip, by simp [Option.filter, hne]⟩
  have hconsidered : ip ∈ (present candidates).filter Address.isValid :=
    List.mem_filter.2 ⟨hpresent, hvalid⟩
  exact beq_iff_eq.1 (List.all_eq_true.1 h ip hconsidered)

/-- A segment without an address has the subnet of another number's segment exactly when that one was
detected from an address in the network of the first one's number. -/
theorem subnet_eq_iff_of_automatic {m n : Nat} {p q : List String} {xs ys : List (Option String)}
    {c d : Option Connection} (hmn : m ≠ n) (hauto : (formed m p xs c).detectedFrom = none) :
    (formed m p xs c).subnet = (formed n q ys d).subnet ↔
      ∃ ip, (formed n q ys d).detectedFrom = some ip ∧ Address.base ip = fallbackBase m := by
  have hbase : (formed m p xs c).base = fallbackBase m := by rw [base_formed, hauto]; rfl
  rw [subnet_formed, subnet_formed, subnetOf_inj, hbase, base_formed]
  cases hip : (formed n q ys d).detectedFrom with
  | none =>
    -- two fallbacks have two numbers
    have hne : fallbackBase m ≠ fallbackBase n := fun h => hmn (fallbackBase_inj.1 h)
    simp [hne]
  | some ip => simp [eq_comm]

/-- The refusal of a segment with addresses in different networks. -/
def mismatch (s : Segment) : AnalysisError := .subnetMismatch s.label s.subnet s.addresses

/-- The outcome of a derivation. -/
theorem outcome_derive (strict : Bool) :
    (derive strict number members candidates connection).outcome =
      let s := formed number members candidates connection
      if !s.consistent && strict then .error s.mismatch else .ok s := by
  unfold derive
  dsimp only
  generalize formed number members candidates connection = s
  cases s.consistent <;> cases strict <;> cases s.detectedFrom <;> rfl

end VirtNet.Segment
