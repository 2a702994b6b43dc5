import VirtNet.Proofs.Analysis.Subnets
import VirtNet.Proofs.Analysis.Verdict
import VirtNet.Proofs.Assignment.Drawn

/-!
# What a strict analysis promises

A strict analysis refuses a segment with candidates from different networks. Static addresses and the
addresses of connections are candidates; the address that a router keeps towards a peer is given to it
as well, but is none. So after a strict analysis all addresses lie in the networks of their segments
exactly when the kept ones do (`strict_inSubnet_iff`). A segment without a connection gives no kept
address, so that in the other modes the promise holds.
-/

namespace VirtNet.Assignment

open Segment (Plan)

variable {r : Registry} {p : Plan} {k : Nat} {d : Device} {a : Analysis} {ip : String}

/-- The address and the gateway of an assignment lie in the network of its segment. -/
def InSubnet (a : Analysis) (x : Assignment) : Prop :=
  ∃ s, a.segments.get? x.network = some s ∧ Address.base x.ip = s.base ∧
    Address.base x.gateway = s.base

/-- The addresses that routers keep towards the peer of the segment's connection lie in its network. -/
def KeptInSegment (ds : List Device) (s : Segment) : Prop :=
  ∀ c, s.connection = some c → ∀ d ∈ ds, ∀ ip, KeptAt d c ip → Address.base ip = s.base

/-! ## Given addresses -/

/-- The static address of an end of a connection is among the candidates for its segment. -/
theorem ip_mem_linkPlan (hn : (r.devices.map Device.id).Nodup) (hd : d ∈ r.devices) {c : Connection}
    (hmem : d.id ∈ (Analysis.linkPlan r.devices c).members) :
    d.ip ∈ (Analysis.linkPlan r.devices c).candidates := by
  have hstatic : Analysis.staticOf r.devices d.id = d.ip := by
    rw [Analysis.staticOf, Analysis.deviceOf?_of_mem hn hd, Option.bind_some]
  simp only [Analysis.linkPlan, List.mem_cons, List.not_mem_nil, or_false] at hmem ⊢
  rw [← hstatic]
  rcases hmem with hid | hid
  · rw [hid]
    exact .inr (.inr (.inl rfl))
  · rw [hid]
    exact .inr (.inr (.inr rfl))

/-- A given address is a candidate for the segment, or one that a router keeps. -/
theorem Given.mem_candidates (h : r.WellFormed) (hp : Analysis.Covers r p) (hd : d ∈ r.devices)
    (hgiven : Given (Segment.ofPlan k p) d ip) :
    some ip ∈ p.candidates ∨ ∃ c, p.connection = some c ∧ KeptAt d c ip := by
  cases hgiven with
  | static hmem hrouter hip =>
    left
    rw [← hip]
    cases hp with
    | link c hc hlink =>
      subst hlink
      exact ip_mem_linkPlan h.devices.ids_nodup hd hmem
    | pool _ hcovered => exact hcovered d hd hmem hrouter
  | linked c hc hend =>
    left
    cases hp with
    | link c' hmem hlink =>
      subst hlink
      obtain rfl : c' = c := Option.some.inj hc
      rcases hend with ⟨-, hip⟩ | ⟨-, hip⟩
      · simp [Analysis.linkPlan, hip]
      · simp [Analysis.linkPlan, hip]
    | pool hnone _ =>
      -- a pool of devices stands for no connection
      have hsome : p.connection = some c := hc
      rw [hnone] at hsome
      cases hsome
  | stored c hc hkept => exact .inr ⟨c, hc, hkept⟩

/-! ## Segments of a strict analysis -/

variable {sa : SegmentAddresses}

/-- The addresses on a consistent segment lie in its network if the kept ones do. -/
theorem Filled.base_ip (hfilled : Filled r.devices (Segment.ofPlan k p) sa) (h : r.WellFormed)
    (hp : Analysis.Covers r p) (hconsistent : (Segment.ofPlan k p).consistent = true)
    (hkept : KeptInSegment r.devices (Segment.ofPlan k p)) {id : String} {y : Resolved}
    (hy : sa.byDevice.get? id = some y) : Address.base y.ip = (Segment.ofPlan k p).base := by
  cases hcustom : y.isCustom with
  | false =>
    obtain ⟨n, -, hip⟩ := hfilled.chosen id y hy hcustom
    rw [hip]
    exact Address.base_host Segment.isBase_formed
  | true =>
    obtain ⟨d, hd, -, hgiven⟩ := hfilled.given id y hy hcustom
    have hproper : Address.Proper y.ip := hgiven.proper h hd fun c hc => hp.connection_mem hc
    rcases hgiven.mem_candidates h hp hd with hcandidate | ⟨c, hc, hat⟩
    · exact Segment.base_of_consistent hconsistent hcandidate hproper.1
    · exact hkept c hc d hd y.ip hat

/-- So does the gateway. -/
theorem Filled.base_gateway (hfilled : Filled r.devices (Segment.ofPlan k p) sa) (h : r.WellFormed)
    (hp : Analysis.Covers r p) (hconsistent : (Segment.ofPlan k p).consistent = true)
    (hkept : KeptInSegment r.devices (Segment.ofPlan k p)) :
    Address.base sa.gateway = (Segment.ofPlan k p).base := by
  rcases hfilled.gateway with hfirst | ⟨id, y, hy, hmember⟩
  · rw [hfirst]
    exact Address.base_host Segment.isBase_formed
  · rw [hmember]
    exact hfilled.base_ip h hp hconsistent hkept hy

/-! ## The promise -/

variable {mode : NetworkMode} {assigned : OrderedMap (List Assignment)}

/-- After a strict analysis, an assignment lies in the network of its segment if the kept addresses of
that segment do. -/
theorem inSubnet_of_kept (h : r.WellFormed)
    (ha : Analysis.Follows r.devices (Analysis.plans mode r.devices r.connections) a)
    (hconsistent : a.Consistent)
    (hkept : ∀ e ∈ a.segments.entries, KeptInSegment r.devices e.2)
    (hassigned : (assign r.devices a).outcome = .ok assigned) {e : String × List Assignment}
    (he : e ∈ assigned.entries) {x : Assignment} (hx : x ∈ e.2) : InSubnet a x := by
  obtain ⟨s, sa, y, hdrawn⟩ := assign_drawn hassigned he hx
  have hmem := OrderedMap.get?_eq_some_iff.1 hdrawn.segment
  have hfilled := onSegment_filled h ha hdrawn.segment hdrawn.addresses
  have hcons : s.consistent = true := hconsistent _ hmem
  have hkeeps : KeptInSegment r.devices s := hkept _ hmem
  refine ⟨s, hdrawn.segment, ?_⟩
  obtain ⟨p, k, hpk, -, rfl⟩ := ha.exists_plan hdrawn.segment
  have hp := Analysis.plans_cover h (List.fst_mem_of_mem_zipIdx hpk)
  rw [hdrawn.ip, hdrawn.gateway]
  exact ⟨hfilled.base_ip h hp hcons hkeeps hdrawn.member, hfilled.base_gateway h hp hcons hkeeps⟩

/-- A router that keeps an address towards the peer of its connection is assigned that address on the
connection's segment. -/
theorem exists_on_of_kept (h : r.WellFormed)
    (ha : Analysis.Follows r.devices (Analysis.plans mode r.devices r.connections) a)
    (hassigned : (assign r.devices a).outcome = .ok assigned) {name : String} {s : Segment}
    (hs : a.segments.get? name = some s) {c : Connection} (hc : s.connection = some c)
    (hd : d ∈ r.devices) (hkept : KeptAt d c ip) : ∃ x, On assigned d.id name x ∧ x.ip = ip := by
  obtain ⟨p, k, hpk, rfl, rfl⟩ := ha.exists_plan hs
  have hplan : p.connection = some c := hc
  cases Analysis.plans_cover h (List.fst_mem_of_mem_zipIdx hpk) with
  | pool hnone _ =>
    rw [hnone] at hplan
    cases hplan
  | link c' hmem hlink =>
    subst hlink
    obtain rfl : c' = c := Option.some.inj hplan
    obtain ⟨x, hx⟩ := exists_on h ha hassigned hpk (Analysis.mem_linkPlan.2 hkept.touches)
    obtain ⟨sa, y, hdrawn⟩ := hx.drawn hassigned hs
    -- a kept address is not empty, so that the router is given one
    have hproper : Address.Proper ip := hkept.proper (h.devices.addresses d hd)
    have hne : ip ≠ "" := Address.ne_empty_of_isValid hproper.1
    obtain ⟨_, _, -, -, _, _, _, _, _, _, hends⟩ := onSegment_ends h ha hmem hpk hdrawn.addresses
    obtain ⟨y', hy', hcustom⟩ := hends.isCustom_of_kept h.devices hd hkept hne
    obtain rfl : y = y' := Option.some.inj (hdrawn.member.symm.trans hy')
    -- and what it is given at the connection is the kept one
    have hfilled := onSegment_filled h ha hs hdrawn.addresses
    obtain ⟨d', hd', hid, hgiven⟩ := hfilled.given d.id y hy' hcustom
    obtain rfl : d' = d := h.devices.eq_of_id hd' hd hid
    have hip : y.ip = ip := hgiven.eq_kept h hmem rfl hd' hkept
    exact ⟨x, hx, hdrawn.ip.trans hip⟩

/-- If all assignments lie in the networks of their segments, so do the kept addresses. -/
theorem kept_of_inSubnet (h : r.WellFormed)
    (ha : Analysis.Follows r.devices (Analysis.plans mode r.devices r.connections) a)
    (hassigned : (assign r.devices a).outcome = .ok assigned)
    (hin : ∀ e ∈ assigned.entries, ∀ x ∈ e.2, InSubnet a x) {name : String} {s : Segment}
    (hs : a.segments.get? name = some s) : KeptInSegment r.devices s := by
  intro c hc d hd ip hkept
  obtain ⟨x, ⟨xs, hxs, hx, rfl⟩, hip⟩ := exists_on_of_kept h ha hassigned hs hc hd hkept
  obtain ⟨s', hs', hbase, -⟩ := hin (d.id, xs) (OrderedMap.get?_eq_some_iff.1 hxs) x hx
  obtain rfl : s = s' := Option.some.inj (hs.symm.trans hs')
  rw [← hip, hbase]

/-- Whatever a registry went through and whatever the mode, after a strict analysis all addresses and
gateways lie in the networks of their segments exactly when the addresses that routers keep towards the
peers of their connections do; in every mode but that by connections they always do. -/
theorem strict_inSubnet_iff (history : List Change) (mode : Value)
    (ha : (Analysis.analyze mode true (Registry.after history).devices
      (Registry.after history).connections).outcome = .ok a)
    (hassigned : (assign (Registry.after history).devices a).outcome = .ok assigned) :
    ((∀ e ∈ assigned.entries, ∀ x ∈ e.2, InSubnet a x) ↔
      ∀ e ∈ a.segments.entries, KeptInSegment (Registry.after history).devices e.2) ∧
    (mode ≠ .text "connection" → ∀ e ∈ assigned.entries, ∀ x ∈ e.2, InSubnet a x) := by
  have hr : (Registry.after history).WellFormed := Registry.wellFormed_after history
  obtain ⟨m, hmode, hfollows⟩ := Analysis.analyze_follows hr ha
  have hconsistent : a.Consistent := Analysis.analyze_consistent ha
  refine ⟨⟨?_, ?_⟩, ?_⟩
  · intro hin e he
    exact kept_of_inSubnet hr hfollows hassigned hin (OrderedMap.get?_eq_some_iff.2 he)
  · intro hkept e he x hx
    exact inSubnet_of_kept hr hfollows hconsistent hkept hassigned he hx
  · intro hne e he x hx
    refine inSubnet_of_kept hr hfollows hconsistent ?_ hassigned he hx
    -- no segment stands for a connection
    intro e' he' c hc
    have hs : a.segments.get? e'.1 = some e'.2 := OrderedMap.get?_eq_some_iff.2 he'
    obtain ⟨p, k, hpk, -, hsegment⟩ := hfollows.exists_plan hs
    have hother : m ≠ .connection := fun h => hne (Analysis.ofValue_eq_connection (h ▸ hmode))
    have hnone : p.connection = none :=
      Analysis.connection_of_mem_plans hother (List.fst_mem_of_mem_zipIdx hpk)
    rw [hsegment, Segment.ofPlan] at hc
    have hsome : p.connection = some c := hc
    rw [hnone] at hsome
    cases hsome

/-- A host with an address, and a router that keeps an address of another network towards it. -/
def keptElsewhere : List Change := [
  .addDevice {
    id := .text "R"
    type := .text "router"
    interfaceIps := .dict [(.text "to_a", .text "10.9.9.1")] },
  .addDevice { id := .text "a", type := .text "vm", ip := .text "10.0.0.7" },
  .addConnection { source := "R", target := "a" }]

/-- With one segment for all, the design keeps the promise. -/
theorem strict_inSubnet_keptElsewhere : ∃ a assigned,
    (Analysis.analyze (.text "shared") true (Registry.after keptElsewhere).devices
      (Registry.after keptElsewhere).connections).outcome = .ok a ∧
    (assign (Registry.after keptElsewhere).devices a).outcome = .ok assigned ∧
    addressesOf assigned "R" = [("net1", "10.0.0.1", false)] ∧
    ∀ e ∈ assigned.entries, ∀ x ∈ e.2, InSubnet a x := by
  obtain ⟨a, assigned, ha, hassigned, hrouter⟩ := exists_assigned (P := fun _ assigned =>
    addressesOf assigned "R" = [("net1", "10.0.0.1", false)]) keptElsewhere (.text "shared") true
    (by decide +kernel)
  have hmode : Value.text "shared" ≠ .text "connection" := by simp
  exact ⟨a, assigned, ha, hassigned, hrouter,
    (strict_inSubnet_iff keptElsewhere (.text "shared") ha hassigned).2 hmode⟩

/-- By connections it does not: the strict analysis accepts the segment, and the router's address and
both gateways are in another network. -/
theorem strict_analysis_keptElsewhere : ∃ a assigned,
    (Analysis.analyze (.text "connection") true (Registry.after keptElsewhere).devices
      (Registry.after keptElsewhere).connections).outcome = .ok a ∧
    (assign (Registry.after keptElsewhere).devices a).outcome = .ok assigned ∧
    Analysis.subnets a = [("10.0.0.0/24", some "10.0.0.7")] ∧
    addressesOf assigned "R" = [("net1", "10.9.9.1", true)] ∧
    gatewaysOf assigned "R" = [("net1", "10.9.9.1")] ∧
    gatewaysOf assigned "a" = [("net1", "10.9.9.1")] :=
  exists_assigned keptElsewhere (.text "connection") true (by decide +kernel)

end VirtNet.Assignment
