import VirtNet.Proofs.Analysis.Plans

/-!
# Subnets that are chosen automatically

A segment that no address decides takes the network of its number. Numbers are not used twice, so two
such segments never meet; but an address of the design can lie in the network of any number, and nothing
looks for one. `automatic_subnet_eq_iff` says which segments have an automatic subnet as theirs: exactly
those that were detected from an address in it.
-/

namespace VirtNet.Analysis

variable {devices : List Device} {ps : List Segment.Plan} {a : Analysis}

/-- The segment at a position is formed of the plan there, with the number after the position. -/
theorem Follows.exists_plan_at (h : Follows devices ps a) {k : Nat} {e : String × Segment}
    (he : a.segments.entries[k]? = some e) :
    ∃ p, ps[k]? = some p ∧ e = (Segment.nameOf (k + 1), Segment.ofPlan (k + 1) p) := by
  rw [h.segments, getElem?_planned] at he
  obtain ⟨p, hp, hpair⟩ := Option.map_eq_some_iff.1 he
  exact ⟨p, hp, hpair.symm⟩

/-- Whatever a registry went through and whatever the mode, a segment with an automatic subnet has the
subnet of another segment exactly when that one was detected from an address in the network of the first
one's number. -/
theorem automatic_subnet_eq_iff (history : List Change) (mode : Value) (strict : Bool)
    (ha : (analyze mode strict (Registry.after history).devices
      (Registry.after history).connections).outcome = .ok a)
    {i j : Nat} {e f : String × Segment} (he : a.segments.entries[i]? = some e)
    (hf : a.segments.entries[j]? = some f) (hij : i ≠ j) (hauto : e.2.detectedFrom = none) :
    e.2.subnet = f.2.subnet ↔
      ∃ ip, f.2.detectedFrom = some ip ∧ Address.base ip = Segment.fallbackBase (i + 1) := by
  have hr : (Registry.after history).WellFormed := Registry.wellFormed_after history
  obtain ⟨m, -, hfollows⟩ := analyze_follows hr ha
  obtain ⟨p, -, rfl⟩ := hfollows.exists_plan_at he
  obtain ⟨q, -, rfl⟩ := hfollows.exists_plan_at hf
  have hnumbers : i + 1 ≠ j + 1 := by omega
  exact Segment.subnet_eq_iff_of_automatic hnumbers hauto

/-- The subnets of an analysis, each with the address that it was detected from. -/
def subnets (a : Analysis) : List (String × Option String) :=
  a.segments.entries.map fun e => (e.2.subnet, e.2.detectedFrom)

theorem exists_entry_of_subnets {k : Nat} {subnet : String} {ip : Option String}
    (h : (subnets a)[k]? = some (subnet, ip)) :
    ∃ e, a.segments.entries[k]? = some e ∧ e.2.subnet = subnet ∧ e.2.detectedFrom = ip := by
  rw [subnets, List.getElem?_map] at h
  obtain ⟨e, he, hpair⟩ := Option.map_eq_some_iff.1 h
  cases hpair
  exact ⟨e, he, rfl, rfl⟩

/-- A router connected to two hosts, the first of which has an address in the network of the second
segment's number. -/
def addressInFallback : List Change := [
  .addDevice { id := .text "a", type := .text "vm", ip := .text "192.168.2.5" },
  .addDevice { id := .text "R", type := .text "router" },
  .addDevice { id := .text "b", type := .text "vm" },
  .addConnection { source := "R", target := "a" },
  .addConnection { source := "R", target := "b" }]

/-- The analysis of the design: the second segment is given the subnet that the first one has from the
address. -/
theorem subnets_addressInFallback : ∃ a,
    (analyze (.text "connection") true (Registry.after addressInFallback).devices
      (Registry.after addressInFallback).connections).outcome = .ok a ∧
    subnets a = [("192.168.2.0/24", some "192.168.2.5"), ("192.168.2.0/24", none)] :=
  Outcome.exists_of_any_toOption (by decide +kernel)

/-- The case of the two segments. -/
theorem automatic_subnet_addressInFallback : ∃ a e f,
    (analyze (.text "connection") true (Registry.after addressInFallback).devices
      (Registry.after addressInFallback).connections).outcome = .ok a ∧
    a.segments.entries[1]? = some e ∧ a.segments.entries[0]? = some f ∧
    e.2.detectedFrom = none ∧ e.2.subnet = f.2.subnet := by
  have hrun : ∃ a, (analyze (.text "connection") true (Registry.after addressInFallback).devices
      (Registry.after addressInFallback).connections).outcome = .ok a ∧
      (subnets a)[1]? = some ("192.168.2.0/24", none) ∧
        (subnets a)[0]? = some ("192.168.2.0/24", some "192.168.2.5") :=
    Outcome.exists_of_any_toOption (by decide +kernel)
  obtain ⟨a, ha, hsecond, hfirst⟩ := hrun
  obtain ⟨e, he, -, hauto⟩ := exists_entry_of_subnets hsecond
  obtain ⟨f, hf, -, hip⟩ := exists_entry_of_subnets hfirst
  have hbase : Address.base "192.168.2.5" = Segment.fallbackBase 2 := by decide +kernel
  have hiff := automatic_subnet_eq_iff addressInFallback (.text "connection") true ha he hf (by decide)
    hauto
  exact ⟨a, e, f, ha, he, hf, hauto, hiff.2 ⟨"192.168.2.5", hip, hbase⟩⟩

end VirtNet.Analysis
