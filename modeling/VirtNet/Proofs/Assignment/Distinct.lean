import VirtNet.Proofs.Address.Network
import VirtNet.Proofs.Assignment.Drawn

/-!
# Members of a segment have different addresses

Every member of a segment has an assignment on it, and two members have different addresses there
(`members_distinct`). The exception is a connection whose two ends are both given their address. Two
assignments on a segment are drawn from the same addresses of that segment, which differ as texts; as
none of them has a blank around it (`Filled.strip_ip`), they differ as addresses too.
-/

namespace VirtNet.Assignment

variable {r : Registry} {s : Segment} {d : Device} {a : Analysis} {ip : String}

/-- No address on a segment of a registry has blanks around it. -/
theorem Filled.strip_ip {sa : SegmentAddresses} (hfilled : Filled r.devices s sa) (h : r.WellFormed)
    (hbase : Address.IsBase s.base) (hs : ∀ c, s.connection = some c → c ∈ r.connections) {id : String}
    {x : Resolved} (hx : sa.byDevice.get? id = some x) : Text.strip x.ip = x.ip := by
  cases hcustom : x.isCustom with
  | false =>
    obtain ⟨n, -, hip⟩ := hfilled.chosen id x hx hcustom
    rw [hip]
    exact Address.strip_host hbase
  | true =>
    obtain ⟨d, hd, -, hgiven⟩ := hfilled.given id x hx hcustom
    have hproper : Address.Proper x.ip := hgiven.proper h hd hs
    exact hproper.2

/-- Each member of a segment has an assignment on it, and two different members have the same address
there only at the two ends of a connection, where both are given theirs. -/
def MembersDistinct (a : Analysis) (assigned : OrderedMap (List Assignment)) : Prop :=
  ∀ e ∈ a.segments.entries,
    (∀ id ∈ e.2.members, ∃ x, On assigned id e.1 x) ∧
    ∀ i ∈ e.2.members, ∀ j ∈ e.2.members, i ≠ j →
      ∀ x y, On assigned i e.1 x → On assigned j e.1 y → Address.Same x.ip y.ip →
        x.isCustom = true ∧ y.isCustom = true ∧ e.2.connection.isSome = true

/-- Whatever a registry went through and whatever the mode, when the addresses are assigned the members
of each segment have different ones. -/
theorem members_distinct (history : List Change) (mode : Value) (strict : Bool)
    (ha : (Analysis.analyze mode strict (Registry.after history).devices
      (Registry.after history).connections).outcome = .ok a)
    {assigned : OrderedMap (List Assignment)}
    (hassigned : (assign (Registry.after history).devices a).outcome = .ok assigned) :
    MembersDistinct a assigned := by
  have hr : (Registry.after history).WellFormed := Registry.wellFormed_after history
  obtain ⟨m, -, hfollows⟩ := Analysis.analyze_follows hr ha
  rintro ⟨name, s⟩ he
  have hs : a.segments.get? name = some s := OrderedMap.get?_eq_some_iff.2 he
  obtain ⟨p, k, hpk, rfl, rfl⟩ := hfollows.exists_plan hs
  have hp := List.fst_mem_of_mem_zipIdx hpk
  refine ⟨?_, ?_⟩
  · intro id hid
    exact exists_on hr hfollows hassigned hpk hid
  · intro i _ j _ hij x y hx hy hsame
    obtain ⟨sa, u, hu⟩ := hx.drawn hassigned hs
    obtain ⟨sa', v, hv⟩ := hy.drawn hassigned hs
    -- both are drawn from the same addresses
    obtain rfl : sa = sa' := Except.ok.inj (hu.addresses.symm.trans hv.addresses)
    have hfilled := onSegment_filled hr hfollows hs hu.addresses
    have hconnection : ∀ c, (Segment.ofPlan k p).connection = some c →
        c ∈ (Registry.after history).connections :=
      fun c hc => (Analysis.plans_cover hr hp).connection_mem hc
    have hustrip := hfilled.strip_ip hr Segment.isBase_formed hconnection hu.member
    have hvstrip := hfilled.strip_ip hr Segment.isBase_formed hconnection hv.member
    rw [hu.ip, hv.ip] at hsame
    -- without blanks, one address is one text
    have hip : u.ip = v.ip := hsame.eq hustrip hvstrip
    rw [hu.isCustom, hv.isCustom]
    exact hfilled.distinct i j u v hu.member hv.member hij hip

/-- Two routers that are given one address at the connection between them, and two hosts at the second
router, the first with the address that the router would have there. -/
def oneAddress : List Change := [
  .addDevice { id := .text "R", type := .text "router" },
  .addDevice { id := .text "Q", type := .text "router" },
  .addDevice { id := .text "a", type := .text "vm", ip := .text "10.0.1.1" },
  .addDevice { id := .text "b", type := .text "vm" },
  .addConnection {
    source := "R"
    target := "Q"
    sourceIp := .text "10.0.0.1"
    targetIp := .text "10.0.0.1" },
  .addConnection { source := "Q", target := "a" },
  .addConnection { source := "Q", target := "b" }]

/-- The case of the routers that are given one address, which they have. -/
theorem members_distinct_oneAddress : ∃ a assigned,
    (Analysis.analyze (.text "connection") true (Registry.after oneAddress).devices
      (Registry.after oneAddress).connections).outcome = .ok a ∧
    (assign (Registry.after oneAddress).devices a).outcome = .ok assigned ∧
    MembersDistinct a assigned ∧
    addressesOf assigned "R" = [("net1", "10.0.0.1", true)] ∧
    addressesOf assigned "Q" = [("net1", "10.0.0.1", true), ("net2", "10.0.1.2", false),
      ("net3", "192.168.3.1", false)] ∧
    addressesOf assigned "a" = [("net2", "10.0.1.1", true)] := by
  obtain ⟨a, assigned, ha, hassigned, haddresses⟩ := exists_assigned (P := fun _ assigned =>
    addressesOf assigned "R" = [("net1", "10.0.0.1", true)] ∧
    addressesOf assigned "Q" = [("net1", "10.0.0.1", true), ("net2", "10.0.1.2", false),
      ("net3", "192.168.3.1", false)] ∧
    addressesOf assigned "a" = [("net2", "10.0.1.1", true)]) oneAddress (.text "connection") true
    (by decide +kernel)
  exact ⟨a, assigned, ha, hassigned, members_distinct oneAddress (.text "connection") true ha hassigned,
    haddresses⟩

end VirtNet.Assignment
