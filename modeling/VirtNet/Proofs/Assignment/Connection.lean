import VirtNet.Assignment
import VirtNet.Proofs.Address
import VirtNet.Proofs.Analysis.Links

/-!
# Addresses at the ends of a connection

The addresses at a connection between two known devices are always found (`onConnection_ends`), and
each is either given or has one of a few host numbers in the segment's own network (`Placed`). So no
segment of a connection runs out of host numbers. When the two are the same, at most one of them moves, by
one host number and only if it was chosen (`Apart`), so that they stay the same only if both are given
(`Separated`).
-/

namespace VirtNet

namespace Assignment

/-- The host numbers that a device is first given at a connection when no address is given. -/
def firstHosts (d : Device) : List Nat := if d.isRouter then [1] else [10, 11]

/-- The host numbers that can be chosen for a device at a connection. -/
def linkHosts (d : Device) : List Nat := if d.isRouter then [1, 2] else [10, 11, 12]

/-- An address of a device on the segment at position `i` of its list. A chosen address has one of
some host numbers in the segment's network, and only on its first segment is a device that is no
router given an address. -/
structure Placed (hosts : List Nat) (d : Device) (s : Segment) (i : Nat) (r : Resolved) : Prop where
  chosen : r.isCustom = false → ∃ h ∈ hosts, r.ip = Address.host s.base (h : Nat)
  given : r.isCustom = true → d.isRouter = false → i = 0

variable {d e source target : Device} {s : Segment} {c : Connection} {i j : Nat}
  {x y r : Resolved}

theorem succ_mem_linkHosts {h : Nat} (hh : h ∈ firstHosts d) : h + 1 ∈ linkHosts d := by
  unfold firstHosts at hh
  unfold linkHosts
  split at hh <;> simp_all

theorem firstHosts_subset : firstHosts d ⊆ linkHosts d := by
  unfold firstHosts linkHosts
  split <;> simp

theorem le_of_mem_linkHosts {h : Nat} (hh : h ∈ linkHosts d) : h ≤ 12 := by
  unfold linkHosts at hh
  split at hh <;> simp at hh <;> omega

/-- With more host numbers to choose from, an address is still placed. -/
theorem Placed.mono {hosts hosts' : List Nat} (h : Placed hosts d s i r) (hs : hosts ⊆ hosts') :
    Placed hosts' d s i r where
  chosen := by
    intro hr
    obtain ⟨n, hn, hip⟩ := h.chosen hr
    exact ⟨n, hs hn, hip⟩
  given := h.given

/-- A host number that is chosen places a device. -/
theorem Placed.auto {hosts : List Nat} {h : Nat} (hh : h ∈ hosts) :
    Placed hosts d s i (.auto s (h : Nat)) where
  chosen _ := ⟨h, hh, rfl⟩
  given hr := by cases hr

/-- An address that is given to a router places it. -/
theorem Placed.ofRouter {hosts : List Nat} {ip : String} (hd : d.isRouter = true) :
    Placed hosts d s i ⟨ip, true⟩ where
  chosen hr := by cases hr
  given _ hr := by simp [hd] at hr

/-- A router is given an address or has the first host number. -/
theorem routerAddress_placed (hd : d.isRouter = true) :
    Placed (firstHosts d) d s i (routerAddress d c s) := by
  unfold routerAddress
  dsimp only
  split
  · exact .ofRouter hd
  · have hmem : routerHost ∈ firstHosts d := by simp [firstHosts, hd, routerHost]
    exact .auto hmem

/-- A device that is no router is given its static address on its first segment alone. -/
theorem hostAddress_placed (hd : d.isRouter = false) :
    Placed (firstHosts d) d s i (hostAddress d e s i) := by
  have hrouted : routedHost ∈ firstHosts d := by simp [firstHosts, hd, routedHost]
  have hunrouted : unroutedHost ∈ firstHosts d := by simp [firstHosts, hd, unroutedHost]
  unfold hostAddress
  split
  · refine ⟨?_, fun _ _ => rfl⟩
    intro hr
    cases hr
  · split
    · exact .auto hrouted
    · exact .auto hunrouted

/-- A device of a known type has an address at every connection. -/
theorem endpointAddress_placed (hd : d.type.isKnown = true) :
    ∃ r, endpointAddress d e c s i = .ok r ∧ Placed (firstHosts d) d s i r := by
  unfold endpointAddress
  cases ht : d.type with
  | router => exact ⟨_, rfl, routerAddress_placed (by simp [Device.isRouter, ht])⟩
  | vm => exact ⟨_, rfl, hostAddress_placed (by simp [Device.isRouter, ht])⟩
  | switch => exact ⟨_, rfl, hostAddress_placed (by simp [Device.isRouter, ht])⟩
  | other word =>
    rw [ht] at hd
    cases hd

/-- The host number after one of a segment's own addresses. -/
theorem nextAfter_host (hs : Address.IsBase s.base) {h : Nat} (hh : h < maxHost) :
    nextAfter s (Address.host s.base (h : Nat)) = .ok (.auto s (h + 1 : Nat)) := by
  unfold nextAfter maxHost at *
  rw [Address.hostNumber_host hs (by omega)]
  dsimp only
  rw [if_neg (by omega)]
  rfl

/-- The addresses `x` and `y` of the source and the target became `x'` and `y'` when they were told apart. -/
inductive Apart (s : Segment) (x y : Resolved) : Resolved → Resolved → Prop
  /-- Addresses that differ are left as they are. -/
  | differ (hip : x.ip ≠ y.ip) : Apart s x y x y
  /-- Of two equal addresses the target's moves up by one host number, if it was chosen. -/
  | target (n : Nat) (hip : x.ip = y.ip) (hauto : y.isCustom = false) (hn : n ≤ 11)
      (hhost : y.ip = Address.host s.base n) : Apart s x y x ⟨Address.host s.base (n + 1 : Nat), false⟩
  /-- If the target's is given, the source's moves up. -/
  | source (n : Nat) (hip : x.ip = y.ip) (hgiven : y.isCustom = true) (hauto : x.isCustom = false)
      (hn : n ≤ 11) (hhost : x.ip = Address.host s.base n) :
      Apart s x y ⟨Address.host s.base (n + 1 : Nat), false⟩ y
  /-- Equal addresses that are both given stay equal. -/
  | given (hip : x.ip = y.ip) (hx : x.isCustom = true) (hy : y.isCustom = true) : Apart s x y x y

/-- An address that is given or has one of the first host numbers. -/
def StartsAt (s : Segment) (x : Resolved) : Prop :=
  x.isCustom = false → ∃ n : Nat, n ≤ 11 ∧ x.ip = Address.host s.base n

/-- Two ends can always be told apart, unless both addresses are given. -/
theorem separate_apart (hs : Address.IsBase s.base) (hx : StartsAt s x) (hy : StartsAt s y) :
    ∃ x' y', (separate s source target x y).outcome = .ok (x', y') ∧ Apart s x y x' y' := by
  unfold separate
  by_cases hip : x.ip = y.ip
  · rw [if_neg (not_not.2 hip)]
    -- the second side moves if it was chosen, else the first
    cases hyc : y.isCustom with
    | false =>
      obtain ⟨n, hn, hhost⟩ := hy hyc
      refine ⟨x, .auto s (n + 1 : Nat), ?_, .target n hip hyc hn hhost⟩
      rw [if_pos (by simp), hip, hhost, Journal.outcome_bind, Journal.outcome_ofExcept,
        nextAfter_host hs (Nat.lt_of_le_of_lt hn (by decide))]
      rfl
    | true =>
      cases hxc : x.isCustom with
      | false =>
        obtain ⟨n, hn, hhost⟩ := hx hxc
        refine ⟨.auto s (n + 1 : Nat), y, ?_, .source n hip hyc hxc hn hhost⟩
        rw [if_neg (by simp), if_pos (by simp), ← hip, hhost, Journal.outcome_bind,
          Journal.outcome_ofExcept, nextAfter_host hs (Nat.lt_of_le_of_lt hn (by decide))]
        rfl
      | true => exact ⟨x, y, rfl, .given hip hxc hyc⟩
  · rw [if_pos hip]
    exact ⟨x, y, rfl, .differ hip⟩

/-- The addresses `x` and `y` of two ends became `x'` and `y'` when they were told apart: they differ
unless both are given, and a given address is kept. -/
structure Separated (x y x' y' : Resolved) : Prop where
  differ : x'.ip = y'.ip → x'.isCustom = true ∧ y'.isCustom = true
  source : x.isCustom = true ∨ x'.isCustom = true → x' = x
  target : y.isCustom = true ∨ y'.isCustom = true → y' = y

variable {x' y' : Resolved}

/-- No address has two host numbers. -/
theorem host_succ_ne {base : String} {n : Nat} : Address.host base (n + 1 : Nat) ≠ Address.host base n :=
  fun h => Nat.succ_ne_self n (Address.host_inj.1 h)

theorem Apart.separated (h : Apart s x y x' y') : Separated x y x' y' := by
  cases h with
  | differ hip => exact ⟨fun h => absurd h hip, fun _ => rfl, fun _ => rfl⟩
  | given _ hx hy => exact ⟨fun _ => ⟨hx, hy⟩, fun _ => rfl, fun _ => rfl⟩
  | target n hip hauto _ hhost =>
    refine ⟨fun h => ?_, fun _ => rfl, fun hcustom => ?_⟩
    · exact absurd (h.symm.trans (hip.trans hhost)) host_succ_ne
    · simp [hauto] at hcustom
  | source n hip _ hauto _ hhost =>
    refine ⟨fun h => ?_, fun hcustom => ?_, fun _ => rfl⟩
    · exact absurd (h.trans (hip.symm.trans hhost)) host_succ_ne
    · simp [hauto] at hcustom

/-- An address that is placed by one of the first numbers starts there. -/
theorem Placed.startsAt (h : Placed (firstHosts d) d s i r) : StartsAt s r := by
  intro hauto
  obtain ⟨n, hn, hip⟩ := h.chosen hauto
  have hle : n + 1 ≤ 12 := le_of_mem_linkHosts (succ_mem_linkHosts hn)
  exact ⟨n, by omega, hip⟩

/-- A chosen address that moves up by one stays among those of its device. -/
theorem Placed.succ {n : Nat} (h : Placed (firstHosts d) d s i r) (hauto : r.isCustom = false)
    (hhost : r.ip = Address.host s.base n) :
    Placed (linkHosts d) d s i ⟨Address.host s.base (n + 1 : Nat), false⟩ := by
  obtain ⟨m, hm, hip⟩ := h.chosen hauto
  obtain rfl : m = n := Address.host_inj.1 (hip.symm.trans hhost)
  exact .auto (succ_mem_linkHosts hm)

/-- Telling the ends apart keeps both placed. -/
theorem Apart.placed (h : Apart s x y x' y') (hx : Placed (firstHosts source) source s i x)
    (hy : Placed (firstHosts target) target s j y) :
    Placed (linkHosts source) source s i x' ∧ Placed (linkHosts target) target s j y' := by
  have hx' := hx.mono firstHosts_subset
  have hy' := hy.mono firstHosts_subset
  cases h with
  | differ _ => exact ⟨hx', hy'⟩
  | given _ _ _ => exact ⟨hx', hy'⟩
  | target n _ hauto _ hhost => exact ⟨hx', hy.succ hauto hhost⟩
  | source n _ _ hauto _ hhost => exact ⟨hx.succ hauto hhost, hy'⟩

/-- Two ends that are placed are told apart, and stay placed. -/
theorem separate_placed (hs : Address.IsBase s.base) (hx : Placed (firstHosts source) source s i x)
    (hy : Placed (firstHosts target) target s j y) :
    ∃ x' y', (separate s source target x y).outcome = .ok (x', y') ∧ Separated x y x' y' ∧
      Placed (linkHosts source) source s i x' ∧ Placed (linkHosts target) target s j y' := by
  obtain ⟨x', y', hok, hapart⟩ := separate_apart hs hx.startsAt hy.startsAt
  exact ⟨x', y', hok, hapart.separated, hapart.placed hx hy⟩

variable {ds : List Device} {a : Analysis}

/-- A device is found under its id. -/
theorem device_of_mem (hn : (ds.map Device.id).Nodup) (hd : d ∈ ds) : device ds d.id = .ok d := by
  rw [device, Analysis.deviceOf?_of_mem hn hd]

/-- The addresses at a connection are those of its two ends, told apart, and the gateway is that of a router
among them. -/
theorem outcome_onConnection (hsource : device ds c.source = .ok source)
    (htarget : device ds c.target = .ok target) (hi : indexOf a source.id s.name = .ok i)
    (hj : indexOf a target.id s.name = .ok j) (hx : endpointAddress source target c s i = .ok x)
    (hy : endpointAddress target source c s j = .ok y)
    (hseparate : (separate s source target x y).outcome = .ok (x', y')) :
    (onConnection ds a s c).outcome = .ok ⟨.ofList [(source.id, x'), (target.id, y')],
      if source.isRouter then x'.ip else if target.isRouter then y'.ip
        else Address.host s.base routerHost⟩ := by
  simp only [onConnection, hsource, htarget, hi, hj, hx, hy, hseparate, Journal.outcome_bind,
    Journal.outcome_ofExcept, Outcome.ok_bind, Journal.outcome_pure]

/-- How the addresses `sa` at a connection come about: the ends have the addresses `x` and `y`, which
become `x'` and `y'` when they are told apart. -/
structure Ends (ds : List Device) (s : Segment) (c : Connection) (i j : Nat) (source target : Device)
    (x y x' y' : Resolved) (sa : SegmentAddresses) : Prop where
  source_mem : source ∈ ds
  target_mem : target ∈ ds
  source_id : source.id = c.source
  target_id : target.id = c.target
  source_address : endpointAddress source target c s i = .ok x
  target_address : endpointAddress target source c s j = .ok y
  separated : Separated x y x' y'
  source_placed : Placed (linkHosts source) source s i x'
  target_placed : Placed (linkHosts target) target s j y'
  get? : ∀ id r, sa.byDevice.get? id = some r ↔ id = c.source ∧ r = x' ∨ id = c.target ∧ r = y'
  gateway : sa.gateway = if source.isRouter then x'.ip else if target.isRouter then y'.ip
    else Address.host s.base routerHost

/-- What is found among the addresses of two different ends. -/
theorem get?_ofList_pair {k l id : String} (hne : k ≠ l) :
    (OrderedMap.ofList [(k, x), (l, y)]).get? id = some r ↔ id = k ∧ r = x ∨ id = l ∧ r = y := by
  have hnodup : ([(k, x), (l, y)].map Prod.fst).Nodup := by simpa using hne
  rw [OrderedMap.get?_ofList hnodup]
  simp

/-- The two ends of a connection between known devices have addresses on its segment. -/
theorem onConnection_ends (hds : Registry.KnownDevices ds) (hc : Registry.Connects ds c)
    (hs : Address.IsBase s.base) (hi : indexOf a c.source s.name = .ok i)
    (hj : indexOf a c.target s.name = .ok j) :
    ∃ sa, (onConnection ds a s c).outcome = .ok sa ∧
      ∃ source target x y x' y', Ends ds s c i j source target x y x' y' sa := by
  obtain ⟨hne, ⟨source, hsource, hsid⟩, target, htarget, htid⟩ := hc
  rw [← hsid] at hi hne
  rw [← htid] at hj hne
  have hdevice : device ds c.source = .ok source := hsid ▸ device_of_mem hds.ids_nodup hsource
  have hdevice' : device ds c.target = .ok target := htid ▸ device_of_mem hds.ids_nodup htarget
  obtain ⟨x, hx, hxplaced⟩ := @endpointAddress_placed source target s c i (hds.known source hsource)
  obtain ⟨y, hy, hyplaced⟩ := @endpointAddress_placed target source s c j (hds.known target htarget)
  obtain ⟨x', y', hseparate, hseparated, hx', hy'⟩ := separate_placed hs hxplaced hyplaced
  refine ⟨_, outcome_onConnection hdevice hdevice' hi hj hx hy hseparate, source, target, x, y, x', y',
    hsource, htarget, hsid, htid, hx, hy, hseparated, hx', hy', ?_, rfl⟩
  intro id r
  rw [← hsid, ← htid]
  exact get?_ofList_pair hne

/-- Each end of a connection has a placed address. -/
theorem Ends.placed {sa : SegmentAddresses}
    (h : Ends ds s c i j source target x y x' y' sa) (hds : Registry.KnownDevices ds) (hd : d ∈ ds)
    (htouches : Registry.touches d.id c = true) (hi : indexOf a c.source s.name = .ok i)
    (hj : indexOf a c.target s.name = .ok j) : ∃ k r, indexOf a d.id s.name = .ok k ∧
      sa.byDevice.get? d.id = some r ∧ Placed (linkHosts d) d s k r := by
  -- ids are distinct, so a device with the id of an end is that end
  simp only [Registry.touches, Bool.or_eq_true, beq_iff_eq] at htouches
  rcases htouches with hid | hid
  · have hsame : source = d := hds.eq_of_id h.source_mem hd (h.source_id.trans hid)
    subst hsame
    exact ⟨i, x', hid ▸ hi, (h.get? _ _).2 (.inl ⟨hid.symm, rfl⟩), h.source_placed⟩
  · have hsame : target = d := hds.eq_of_id h.target_mem hd (h.target_id.trans hid)
    subst hsame
    exact ⟨j, y', hid ▸ hj, (h.get? _ _).2 (.inr ⟨hid.symm, rfl⟩), h.target_placed⟩

end Assignment

end VirtNet
