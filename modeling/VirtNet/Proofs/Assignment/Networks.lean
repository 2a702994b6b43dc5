import VirtNet.Proofs.Address.Network
import VirtNet.Proofs.Analysis.Star
import VirtNet.Proofs.Assignment.Drawn

/-!
# Which segments are real networks

The base of a segment is that of a real /24 network when an address decides it, and otherwise as long as
the number of the segment is an octet; an address that is chosen on a segment is one exactly when the
network is real (`networks_real_iff`). There are never more than three types of devices, so only the
analysis by connections gets to larger numbers. It does for every size of design: `analyze_star` gives a
star of any number of hosts, each of its segments automatic.
-/

namespace VirtNet

/-- A segment is a real network when it was detected from an address or its number is an octet. -/
theorem Segment.isNetwork_formed {number : Nat} {members : List String}
    {candidates : List (Option String)} {connection : Option Connection} :
    Address.IsNetwork (formed number members candidates connection).base ↔
      (formed number members candidates connection).detectedFrom.isSome = true ∨ number ≤ 255 := by
  rw [base_formed]
  cases hip : (formed number members candidates connection).detectedFrom with
  | none => simp [Address.isNetwork_fallback]
  | some ip => simp [Address.isNetwork_base (isValid_of_detectedFrom hip)]

/-- The base of every segment is written with digits and dots. -/
theorem Segment.numeric_formed {number : Nat} {members : List String}
    {candidates : List (Option String)} {connection : Option Connection} :
    Address.Numeric (formed number members candidates connection).base := by
  rw [base_formed]
  cases hip : (formed number members candidates connection).detectedFrom with
  | none => exact Address.numeric_fallback number
  | some ip => exact Address.numeric_base (isValid_of_detectedFrom hip)

namespace Assignment

variable {a : Analysis}

/-! ## The networks of a design -/

/-- An address that is chosen on a segment is one exactly when the network is real. -/
theorem Drawn.isValid_iff {ds : List Device} {id : String} {x : Assignment} {s : Segment}
    {sa : SegmentAddresses} {y : Resolved} (h : Drawn ds a id x s sa y) (hfilled : Filled ds s sa)
    (hs : Address.IsBase s.base) (hauto : x.isCustom = false) :
    Address.isValid x.ip = true ↔ Address.IsNetwork s.base := by
  rw [h.isCustom] at hauto
  obtain ⟨n, hn, hip⟩ := hfilled.chosen id y h.member hauto
  have hoctet : n ≤ 255 := hn.trans (by decide)
  rw [h.ip, hip, Address.isValid_host hs hoctet]

/-- Whatever a registry went through and whatever the mode: the subnet of a segment is that of its base,
which belongs to a real network when the segment was detected from an address or its number is an octet,
and only then; an address that is chosen on a segment is one exactly when the network is real; and in
every mode but that by connections all networks are real. -/
theorem networks_real_iff (history : List Change) (mode : Value) (strict : Bool)
    (ha : (Analysis.analyze mode strict (Registry.after history).devices
      (Registry.after history).connections).outcome = .ok a) :
    (∀ k e, a.segments.entries[k]? = some e → e.2.subnet = Segment.subnetOf e.2.base ∧
      (Address.IsNetwork e.2.base ↔ e.2.detectedFrom.isSome = true ∨ k + 1 ≤ 255)) ∧
    (∀ assigned, (assign (Registry.after history).devices a).outcome = .ok assigned →
      ∀ e ∈ assigned.entries, ∀ x ∈ e.2, x.isCustom = false →
        ∃ s, a.segments.get? x.network = some s ∧
          (Address.isValid x.ip = true ↔ Address.IsNetwork s.base)) ∧
    (mode ≠ .text "connection" → ∀ e ∈ a.segments.entries, Address.IsNetwork e.2.base) := by
  have hr : (Registry.after history).WellFormed := Registry.wellFormed_after history
  obtain ⟨m, hmode, hfollows⟩ := Analysis.analyze_follows hr ha
  refine ⟨?_, ?_, ?_⟩
  · intro k e he
    obtain ⟨p, -, rfl⟩ := hfollows.exists_plan_at he
    exact ⟨rfl, Segment.isNetwork_formed⟩
  · intro assigned hassigned e he x hx hauto
    obtain ⟨s, sa, y, hdrawn⟩ := assign_drawn hassigned he hx
    have hfilled := onSegment_filled hr hfollows hdrawn.segment hdrawn.addresses
    obtain ⟨p, k, -, -, rfl⟩ := hfollows.exists_plan hdrawn.segment
    exact ⟨_, hdrawn.segment, hdrawn.isValid_iff hfilled Segment.isBase_formed hauto⟩
  · intro hne e he
    -- there are at most three segments, so that their numbers are octets
    have hother : m ≠ .connection := fun h => hne (Analysis.ofValue_eq_connection (h ▸ hmode))
    have hplans : (Analysis.plans m (Registry.after history).devices
        (Registry.after history).connections).length ≤ 3 :=
      Analysis.length_plans_le hother hr.devices.known
    obtain ⟨k, hk⟩ := List.getElem?_of_mem he
    obtain ⟨p, hp, rfl⟩ := hfollows.exists_plan_at hk
    obtain ⟨hlt, -⟩ := List.getElem?_eq_some_iff.1 hp
    have hoctet : k + 1 ≤ 255 := by omega
    exact Segment.isNetwork_formed.2 (.inr hoctet)

/-- In a star of 256 hosts, the network of the last number is not real, and those before it are. -/
theorem networks_real_star : ∃ a e f,
    (Analysis.analyze (.text "connection") false (Registry.after (Analysis.star 256)).devices
      (Registry.after (Analysis.star 256)).connections).outcome = .ok a ∧
    a.segments.entries[255]? = some e ∧ a.segments.entries[254]? = some f ∧
    ¬ Address.IsNetwork e.2.base ∧ Address.IsNetwork f.2.base := by
  obtain ⟨a, ha, hsegments⟩ := Analysis.analyze_star 256
  obtain ⟨e, he, hnone, -⟩ := hsegments 255 (by decide)
  obtain ⟨f, hf, -, -⟩ := hsegments 254 (by decide)
  obtain ⟨hiff, -, -⟩ := networks_real_iff (Analysis.star 256) (.text "connection") false ha
  refine ⟨a, e, f, ha, he, hf, ?_, ?_⟩
  · rw [(hiff 255 e he).2, hnone]
    decide
  · rw [(hiff 254 f hf).2]
    exact .inr (by decide)

/-- The last segment of that star has the number 256 in the place of an octet. -/
theorem analyze_star_beyond : ∃ a e,
    (Analysis.analyze (.text "connection") false (Registry.after (Analysis.star 256)).devices
      (Registry.after (Analysis.star 256)).connections).outcome = .ok a ∧
    a.segments.entries[255]? = some e ∧ e.2.base = "192.168.256" ∧
    ¬ Address.IsNetwork "192.168.256" := by
  obtain ⟨a, ha, hsegments⟩ := Analysis.analyze_star 256
  obtain ⟨e, he, -, hbase⟩ := hsegments 255 (by decide)
  have hfallback : Segment.fallbackBase 256 = "192.168.256" := by decide +kernel
  refine ⟨a, e, ha, he, hbase.trans hfallback, ?_⟩
  rw [← hfallback, Address.isNetwork_fallback]
  decide

end Assignment

end VirtNet
