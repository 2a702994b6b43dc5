import VirtNet.Proofs.Assignment.Drawn

/-!
# Which address wins at a connection

At a connection an explicit address wins over the default for the kind of device and peer (`byPriority`).
The two ends have the addresses that this rule gives them, told apart where they are equal and one of them
is a default (`byConnection_priority`). This holds of every design whose devices have known types and ids
of their own and whose connections join different devices, be it that of a registry or not.
-/

namespace VirtNet.Assignment

/-! ## The rule -/

/-- The explicit address of the device `d` towards `e`: for a router the one of its own side of the
connection, else the one that it keeps for `e`; for any other device its static address, on its first
segment. -/
def explicit? (d e : Device) (own : Option String) (first : Bool) : Option String :=
  if d.isRouter then (given? own).or (given? (d.interfaceIps.get? ("to_" ++ e.id)))
  else if first then given? d.ip
  else none

/-- The host number of the device `d` towards `e`, if it has no explicit address. -/
def defaultHost (d e : Device) : Nat := if d.isRouter then 1 else if e.isRouter then 10 else 11

/-- The address of the device `d` towards `e` on the segment `s`. -/
def byPriority (s : Segment) (d e : Device) (own : Option String) (first : Bool) : Resolved :=
  match explicit? d e own first with
  | some ip => ⟨ip, true⟩
  | none => ⟨Address.host s.base (defaultHost d e), false⟩

/-- Whether the segment `name` is the first one of a device. -/
def isFirst (a : Analysis) (d : Device) (name : String) : Bool :=
  (a.networks.get? d.id).bind List.head? == some name

/-- The device `id` is assigned the address `r` on the segment `name`. -/
def Gets (assigned : OrderedMap (List Assignment)) (id name : String) (r : Resolved) : Prop :=
  (∃ x, On assigned id name x) ∧ ∀ x, On assigned id name x → x.ip = r.ip ∧ x.isCustom = r.isCustom

/-- The device `d` is assigned the address `r` towards `e` on the segment `name`. It counts as given exactly
where there is an explicit address, which is never changed. -/
structure Addressed (a : Analysis) (assigned : OrderedMap (List Assignment)) (name : String)
    (d e : Device) (own : Option String) (r : Resolved) : Prop where
  gets : Gets assigned d.id name r
  isCustom : r.isCustom = (explicit? d e own (isFirst a d name)).isSome
  kept : ∀ ip, explicit? d e own (isFirst a d name) = some ip → r.ip = ip

/-- The ends `source` and `target` of the connection `c` are assigned the addresses `x` and `y` on its
segment `s`, whose name is `name`: the addresses by the rule, told apart. -/
structure LinkAddressed (ds : List Device) (a : Analysis) (assigned : OrderedMap (List Assignment))
    (name : String) (s : Segment) (c : Connection) (source target : Device) (x y : Resolved) : Prop where
  source_mem : source ∈ ds
  target_mem : target ∈ ds
  source_id : source.id = c.source
  target_id : target.id = c.target
  source_address : Addressed a assigned name source target c.sourceIp x
  target_address : Addressed a assigned name target source c.targetIp y
  apart : Apart s (byPriority s source target c.sourceIp (isFirst a source name))
    (byPriority s target source c.targetIp (isFirst a target name)) x y

variable {ds : List Device} {d e source target : Device} {s : Segment} {c : Connection} {a : Analysis}
  {i : Nat} {name : String} {own : Option String} {first : Bool} {x y x' y' : Resolved}

theorem isCustom_byPriority : (byPriority s d e own first).isCustom = (explicit? d e own first).isSome := by
  unfold byPriority
  cases explicit? d e own first <;> rfl

theorem ip_byPriority {ip : String} (h : explicit? d e own first = some ip) :
    (byPriority s d e own first).ip = ip := by
  rw [byPriority, h]

/-- A default has one of the first host numbers. -/
theorem startsAt_byPriority : StartsAt s (byPriority s d e own first) := by
  unfold byPriority
  cases explicit? d e own first with
  | some ip => exact nofun
  | none =>
    intro _
    refine ⟨defaultHost d e, ?_, rfl⟩
    unfold defaultHost
    split_ifs <;> omega

/-- Telling two addresses apart makes neither of them count as given that did not. -/
theorem Apart.isCustom (h : Apart s x y x' y') :
    x'.isCustom = x.isCustom ∧ y'.isCustom = y.isCustom := by
  cases h with
  | differ _ => exact ⟨rfl, rfl⟩
  | given _ _ _ => exact ⟨rfl, rfl⟩
  | target n _ hauto _ _ => exact ⟨rfl, hauto.symm⟩
  | source n _ _ hauto _ _ => exact ⟨hauto.symm, rfl⟩

/-- A device whose address by the rule stays as it is, if it is an explicit one, is addressed by the rule. -/
theorem addressed_of_kept {assigned : OrderedMap (List Assignment)} {r : Resolved}
    (hgets : Gets assigned d.id name r)
    (hcustom : r.isCustom = (byPriority s d e own (isFirst a d name)).isCustom)
    (hkept : (byPriority s d e own (isFirst a d name)).isCustom = true →
      r = byPriority s d e own (isFirst a d name)) : Addressed a assigned name d e own r where
  gets := hgets
  isCustom := hcustom.trans isCustom_byPriority
  kept := by
    intro ip hip
    have hsome : (byPriority s d e own (isFirst a d name)).isCustom = true := by
      rw [isCustom_byPriority, hip, Option.isSome_some]
    rw [hkept hsome, ip_byPriority hip]

/-! ## The model follows the rule -/

/-- An end of a connection has the address by the rule: with the peer at the other end, and its own side's
address as the only one of the connection that is its own. -/
theorem endpointAddress_eq_byPriority (hknown : d.type.isKnown = true) (hpeer : c.peerOf d.id = e.id)
    (hown : (if c.source = d.id then given? c.sourceIp else none).or
      (if c.target = d.id then given? c.targetIp else none) = given? own) :
    endpointAddress d e c s i = .ok (byPriority s d e own (i == 0)) := by
  have hrouter : d.isRouter = true → routerAddress d c s = byPriority s d e own (i == 0) := by
    intro hd
    have hkey : Device.interfaceKey (c.peerOf d.id) = "to_" ++ e.id := by rw [hpeer]; rfl
    -- both sides of the connection are asked before the kept addresses, but only one is the device's own
    rw [routerAddress, byPriority, explicit?, defaultHost, if_pos hd, if_pos hd, hkey,
      ← Option.or_assoc, hown]
    cases (given? own).or (given? (d.interfaceIps.get? ("to_" ++ e.id))) <;> rfl
  have hhost : d.isRouter = false → hostAddress d e s i = byPriority s d e own (i == 0) := by
    intro hd
    have hnot : ¬ d.isRouter = true := Bool.eq_false_iff.1 hd
    unfold hostAddress byPriority explicit? defaultHost
    rw [if_neg hnot, if_neg hnot]
    -- the static address is asked for at the first position alone
    cases i with
    | succ i => cases e.isRouter <;> rfl
    | zero => cases given? d.ip <;> cases e.isRouter <;> rfl
  unfold endpointAddress
  cases htype : d.type with
  | router => exact congrArg _ (hrouter (by simp [Device.isRouter, htype]))
  | vm | switch => exact congrArg _ (hhost (by simp [Device.isRouter, htype]))
  | other word =>
    rw [htype] at hknown
    cases hknown

/-- The address at the source. -/
theorem endpointAddress_source (hknown : source.type.isKnown = true) (hne : c.source ≠ c.target)
    (hsource : source.id = c.source) (htarget : target.id = c.target) :
    endpointAddress source target c s i = .ok (byPriority s source target c.sourceIp (i == 0)) := by
  refine endpointAddress_eq_byPriority hknown ?_ ?_
  · rw [Connection.peerOf, if_pos hsource, htarget]
  · rw [hsource, if_pos rfl, if_neg hne.symm, Option.or_none]

/-- The address at the target. -/
theorem endpointAddress_target (hknown : target.type.isKnown = true) (hne : c.source ≠ c.target)
    (hsource : source.id = c.source) (htarget : target.id = c.target) :
    endpointAddress target source c s i = .ok (byPriority s target source c.targetIp (i == 0)) := by
  refine endpointAddress_eq_byPriority hknown ?_ ?_
  · rw [Connection.peerOf, if_neg (htarget ▸ hne.symm), hsource]
  · rw [htarget, if_neg hne, if_pos rfl, Option.none_or]

/-- The first segment of a device is the one at the first position. -/
theorem isFirst_of_indexOf (hi : indexOf a d.id name = .ok i) : isFirst a d name = (i == 0) := by
  rw [Bool.eq_iff_iff, isFirst, beq_iff_eq, beq_iff_eq, eq_zero_iff_of_indexOf hi]

/-- The segment of a connection between known devices has their addresses by the rule, told apart. -/
theorem onConnection_byPriority (hds : Registry.KnownDevices ds) (hne : c.source ≠ c.target)
    (hs : Address.IsBase s.base) (hsource : source ∈ ds) (htarget : target ∈ ds)
    (hsid : source.id = c.source) (htid : target.id = c.target) {i j : Nat}
    (hi : indexOf a c.source s.name = .ok i) (hj : indexOf a c.target s.name = .ok j) :
    ∃ sa x y, (onConnection ds a s c).outcome = .ok sa ∧ sa.byDevice.get? c.source = some x ∧
      sa.byDevice.get? c.target = some y ∧
      Apart s (byPriority s source target c.sourceIp (isFirst a source s.name))
        (byPriority s target source c.targetIp (isFirst a target s.name)) x y := by
  rw [← hsid] at hi
  rw [← htid] at hj
  have hx := @endpointAddress_source source target s c i (hds.known source hsource) hne hsid htid
  have hy := @endpointAddress_target source target s c j (hds.known target htarget) hne hsid htid
  rw [← isFirst_of_indexOf hi] at hx
  rw [← isFirst_of_indexOf hj] at hy
  obtain ⟨x, y, hseparate, hapart⟩ := @separate_apart source target s _ _ hs
    (@startsAt_byPriority source target s c.sourceIp (isFirst a source s.name))
    (@startsAt_byPriority target source s c.targetIp (isFirst a target s.name))
  have hdevice : device ds c.source = .ok source := hsid ▸ device_of_mem hds.ids_nodup hsource
  have hdevice' : device ds c.target = .ok target := htid ▸ device_of_mem hds.ids_nodup htarget
  rw [← hsid, ← htid] at hne
  exact ⟨_, x, y, outcome_onConnection hdevice hdevice' hi hj hx hy hseparate,
    (get?_ofList_pair hne).2 (.inl ⟨hsid.symm, rfl⟩), (get?_ofList_pair hne).2 (.inr ⟨htid.symm, rfl⟩),
    hapart⟩

/-! ## The assignments -/

section Assignments

variable {kept : List Connection} {assigned : OrderedMap (List Assignment)}

/-- What a device that is on a segment has among the addresses of the segment is what it is assigned. -/
theorem gets_of_member {sa : SegmentAddresses} {r : Resolved}
    (hassigned : (assign ds a).outcome = .ok assigned) (hs : a.segments.get? name = some s)
    (hsa : (onSegment ds a s).outcome = .ok sa) (hr : sa.byDevice.get? d.id = some r)
    (hon : ∃ x, On assigned d.id name x) : Gets assigned d.id name r := by
  refine ⟨hon, fun x hx => ?_⟩
  obtain ⟨sa', r', hdrawn⟩ := hx.drawn hassigned hs
  obtain rfl : sa = sa' := Except.ok.inj (hsa.symm.trans hdrawn.addresses)
  obtain rfl : r = r' := Option.some.inj (hr.symm.trans hdrawn.member)
  exact ⟨hdrawn.ip, hdrawn.isCustom⟩

/-- In an assignment of an analysis by connections, the ends of every connection that is left are addressed
by the rule. -/
theorem linkAddressed_of_ofLinks (hds : Registry.KnownDevices ds)
    (hkept : ∀ c ∈ kept, Registry.Connects ds c) (h : Analysis.OfLinks ds kept a)
    (hassigned : (assign ds a).outcome = .ok assigned) (hs : a.segments.get? name = some s) :
    ∃ c ∈ kept, s.connection = some c ∧ s.members = [c.source, c.target] ∧
      ∃ source target x y, LinkAddressed ds a assigned name s c source target x y := by
  obtain ⟨c, k, hck, hentry, ⟨i, hi⟩, j, hj⟩ := exists_link hkept h (OrderedMap.get?_eq_some_iff.1 hs)
  obtain ⟨rfl, rfl⟩ := Prod.mk.inj hentry
  have hc : c ∈ kept := List.fst_mem_of_mem_zipIdx hck
  obtain ⟨hne, ⟨source, hsource, hsid⟩, target, htarget, htid⟩ := hkept c hc
  obtain ⟨sa, x, y, hsa, hx, hy, hapart⟩ :=
    @onConnection_byPriority ds source target (Analysis.linkSegment ds k c) c a hds hne
      Segment.isBase_formed hsource htarget hsid htid i j hi hj
  -- both ends list the segment, so they have assignments on it
  have hon : ∀ d ∈ ds, Registry.touches d.id c = true → ∃ x, On assigned d.id (Segment.nameOf k) x :=
    fun d hd htouches => exists_on_of_mem hassigned hds.ids_nodup hd (h.networks d hd)
      (mem_linkNames.2 ⟨(c, k), hck, htouches, rfl⟩)
  have hxon := hon source hsource (by simp [Registry.touches, hsid])
  have hyon := hon target htarget (by simp [Registry.touches, htid])
  refine ⟨c, hc, rfl, rfl, source, target, x, y, hsource, htarget, hsid, htid, ?_, ?_, hapart⟩
  · exact addressed_of_kept (gets_of_member hassigned hs hsa (hsid ▸ hx) hxon) hapart.isCustom.1
      fun hgiven => hapart.separated.source (.inl hgiven)
  · exact addressed_of_kept (gets_of_member hassigned hs hsa (htid ▸ hy) hyon) hapart.isCustom.2
      fun hgiven => hapart.separated.target (.inl hgiven)

end Assignments

/-- For all devices of known types with ids of their own and all connections between different devices, the
lenient analysis by connections succeeds, and any analysis by connections can be assigned. Each segment is
that of one of the connections, and the two ends have the addresses by the rule, told apart. -/
theorem byConnection_priority (ds : List Device) (cs : List Connection) (hds : Registry.KnownDevices ds)
    (hloops : ∀ c ∈ cs, c.source ≠ c.target) :
    (∃ a, (Analysis.byConnection false ds cs).outcome = .ok a) ∧
    ∀ strict a, (Analysis.byConnection strict ds cs).outcome = .ok a →
      ∃ assigned, (assign ds a).outcome = .ok assigned ∧ ∀ name s, a.segments.get? name = some s →
        ∃ c ∈ cs, s.connection = some c ∧ s.members = [c.source, c.target] ∧
          ∃ source target x y, LinkAddressed ds a assigned name s c source target x y := by
  refine ⟨Analysis.exists_byConnection _ _, ?_⟩
  intro strict a ha
  have hofLinks := Analysis.ofLinks_of_byConnection hds.ids_nodup hloops ha
  have hkept : ∀ c ∈ Analysis.links (cs.filter (Analysis.endsKnown ds)), Registry.Connects ds c :=
    fun c hc => (Analysis.connects_of_mem_links hloops hc).2
  obtain ⟨assigned, hassigned, -⟩ := exists_assign_ofLinks hds hkept hofLinks
  refine ⟨assigned, hassigned, ?_⟩
  intro name s hs
  obtain ⟨c, hc, hrest⟩ := linkAddressed_of_ofLinks hds hkept hofLinks hassigned hs
  exact ⟨c, (Analysis.connects_of_mem_links hloops hc).1, hrest⟩

/-- A device with the given id, type, static address and interface addresses. -/
def plainDevice (id : String) (type : DeviceType) (ip : Option String)
    (interfaceIps : List (String × String)) : Device :=
  ⟨id, type, none, none, none, ip, .ofList interfaceIps⟩

/-- Two hosts and two routers, with explicit addresses at the host numbers of defaults. -/
def clashingDevices : List Device := [
  plainDevice "a" .vm (some "10.0.0.11") [],
  plainDevice "b" .vm none [],
  plainDevice "R" .router none [("to_a", "10.0.2.7"), ("to_b", "192.168.3.10")],
  plainDevice "S" .router none []]

/-- Connections between the two hosts, between the two routers, from a host to a device that is not there, and
between hosts and a router, in this order. -/
def clashingConnections : List Connection := [
  ⟨"a", "b", none, none, none⟩,
  ⟨"R", "S", some "10.0.1.1", none, none⟩,
  ⟨"b", "ghost", none, none, none⟩,
  ⟨"b", "R", none, none, none⟩,
  ⟨"R", "a", some "10.0.3.9", none, none⟩]

/-- Defaults make way for explicit addresses: `b` and `S` move as targets, and `b` as the source towards
`R`. The address of the connection from `R` to `a` comes before the one that `R` keeps for `a`, and `a` has
its static address on its first segment alone. -/
theorem byConnection_priority_clashing : ∃ (a : Analysis) (assigned : OrderedMap (List Assignment)),
    (addressesOf assigned "a" = [("net1", "10.0.0.11", true), ("net4", "10.0.3.10", false)] ∧
      addressesOf assigned "b" = [("net1", "10.0.0.12", false), ("net3", "192.168.3.11", false)] ∧
      addressesOf assigned "R" = [("net2", "10.0.1.1", true), ("net3", "192.168.3.10", true),
        ("net4", "10.0.3.9", true)] ∧
      addressesOf assigned "S" = [("net2", "10.0.1.2", false)]) ∧
    ∀ name s, a.segments.get? name = some s →
      ∃ c ∈ clashingConnections, s.connection = some c ∧ s.members = [c.source, c.target] ∧
        ∃ source target x y, LinkAddressed clashingDevices a assigned name s c source target x y := by
  have hds : Registry.KnownDevices clashingDevices := ⟨by decide, by decide⟩
  obtain ⟨⟨a, ha⟩, hall⟩ := byConnection_priority clashingDevices clashingConnections hds (by decide)
  obtain ⟨assigned, hassigned, hlinks⟩ := hall false a ha
  have hrun : ((Analysis.byConnection false clashingDevices clashingConnections).outcome.toOption.any
      fun a => (assign clashingDevices a).outcome.toOption.any fun assigned => decide
        (addressesOf assigned "a" = [("net1", "10.0.0.11", true), ("net4", "10.0.3.10", false)] ∧
          addressesOf assigned "b" = [("net1", "10.0.0.12", false), ("net3", "192.168.3.11", false)] ∧
          addressesOf assigned "R" = [("net2", "10.0.1.1", true), ("net3", "192.168.3.10", true),
            ("net4", "10.0.3.9", true)] ∧
          addressesOf assigned "S" = [("net2", "10.0.1.2", false)])) = true := by
    decide +kernel
  rw [ha, Except.toOption, Option.any_some, hassigned, Except.toOption, Option.any_some,
    decide_eq_true_eq] at hrun
  exact ⟨a, assigned, hrun, hlinks⟩

end VirtNet.Assignment
