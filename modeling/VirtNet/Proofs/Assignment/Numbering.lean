import Mathlib.Logic.Relation
import Mathlib.Order.Bounds.Basic
import VirtNet.Proofs.Assignment.Failure
import VirtNet.Proofs.Assignment.Gateway

/-!
# Numbering by the plain rule

Pooled segments are numbered with two cursors, one for routers and one for other devices, over one list
of addresses in use. The plain rule (`Numbers`) has no cursors: each member in turn gets the smallest
number of its class whose address is not in use. The two agree (`pooled_byRule`), because every address
between the start of a class and its cursor is in use (`Cursors`), whichever class it was given to. So the
numbering fails exactly where the rule finds no number for a member (`RunsOut`).
-/

namespace VirtNet.Assignment

/-! ## The plain rule -/

/-- The number that a device's class starts from. -/
def firstHost (d : Device) : Nat := if d.isRouter then 1 else 10

/-- The device can get the number `n` while the addresses `used` are in use. -/
structure Open (s : Segment) (used : List String) (d : Device) (n : Nat) : Prop where
  first : firstHost d ≤ n
  last : n ≤ 254
  free : Address.host s.base n ∉ used

/-- The devices get the numbers, one after the other: each gets the smallest one that is open to it, whose
address then is in use. -/
inductive Numbers (s : Segment) : (used : List String) → List Device → List Nat → Prop
  | nil (used : List String) : Numbers s used [] []
  | cons {used : List String} {d : Device} {n : Nat} {ds : List Device} {ns : List Nat}
      (hn : IsLeast {k | Open s used d k} n) (h : Numbers s (Address.host s.base n :: used) ds ns) :
      Numbers s used (d :: ds) (n :: ns)

/-- At the turn of one of the devices, no number is open to it. -/
inductive RunsOut (s : Segment) : (used : List String) → List Device → Prop
  | here {used : List String} {d : Device} {ds : List Device} (hnone : ∀ n, ¬ Open s used d n) :
      RunsOut s used (d :: ds)
  | later {used : List String} {d : Device} {n : Nat} {ds : List Device}
      (hn : IsLeast {k | Open s used d k} n) (h : RunsOut s (Address.host s.base n :: used) ds) :
      RunsOut s used (d :: ds)

/-- One pass of the search for a number: `n` is one that a device can have, but its address is in use. -/
structure Passes (base : String) (taken : List String) (n m : Nat) : Prop where
  last : n ≤ 254
  used : Address.host base n ∈ taken
  next : m = n + 1

variable {ds ms rest : List Device} {d e : Device} {s : Segment} {a : Analysis} {p q : Pool}
  {used taken : List String} {n m host : Nat} {ns : List Nat} {name : String}

/-- The rule does not both find numbers for all devices and run out of them. -/
theorem Numbers.not_runsOut (h : Numbers s used ds ns) : ¬ RunsOut s used ds := by
  induction h with
  | nil => exact nofun
  | cons hn _ ih =>
    intro hout
    cases hout with
    | here hnone => exact hnone _ hn.1
    | later hm hout =>
      obtain rfl := hn.unique hm
      exact ih hout

/-! ## The search -/

/-- A search goes on from `host` to `m` if the addresses of all numbers between them are in use. -/
theorem reflTransGen_passes {base : String} {taken : List String} {host m : Nat} (hm : host ≤ m)
    (hused : ∀ k : Nat, host ≤ k → k < m → k ≤ 254 ∧ Address.host base k ∈ taken) :
    Relation.ReflTransGen (Passes base taken) host m := by
  induction m, hm using Nat.le_induction with
  | base => exact .refl
  | succ m hm ih =>
    obtain ⟨hlast, hmem⟩ := hused m hm (Nat.lt_succ_self m)
    exact (ih fun k hk hkm => hused k hk (Nat.lt_succ_of_lt hkm)).tail ⟨hlast, hmem, rfl⟩

/-- A search that starts at the number `host` comes to a number where it stops: past the last one, or at
one whose address is free, which is allocated. -/
theorem exists_passes (s : Segment) (taken : List String) (host : Nat) :
    ∃ m, Relation.ReflTransGen (Passes s.base taken) host m ∧ (∀ k, ¬ Passes s.base taken m k) ∧
      allocate s taken host = if m ≤ 254 then .ok (m, Address.host s.base m)
        else .error (.exhausted s.subnet s.name) := by
  cases hallocate : allocate s taken host with
  | ok found =>
    obtain ⟨n, ip⟩ := found
    obtain ⟨hn, rfl⟩ := allocate_eq_ok.1 hallocate
    have hlast : n ≤ 254 := hn.last
    refine ⟨n, reflTransGen_passes hn.start fun k hk hkn => ⟨by omega, hn.passed k hk hkn⟩, ?_, ?_⟩
    · exact fun k hpass => hn.free hpass.used
    · rw [if_pos hlast]
  | error e =>
    obtain ⟨rfl, hfull⟩ := allocate_eq_error.1 hallocate
    -- the search goes on to the number after the last, or stays where it starts if that is beyond
    have hbeyond : 254 < max host 255 := by omega
    refine ⟨max host 255, reflTransGen_passes (le_max_left _ _) fun k hk hkm => ?_, ?_, ?_⟩
    · have hlast : k ≤ 254 := by omega
      exact ⟨hlast, hfull k hk hlast⟩
    · exact fun k hpass => absurd hpass.last (Nat.not_le.2 hbeyond)
    · rw [if_neg (Nat.not_le.2 hbeyond)]

/-! ## The cursors -/

/-- Every address between the start of a class and its cursor is in use. -/
structure Cursors (s : Segment) (p : Pool) : Prop where
  start : ∀ d : Device, firstHost d ≤ p.cursor d
  used : ∀ (d : Device) (n : Nat), firstHost d ≤ n → n < p.cursor d → Address.host s.base n ∈ p.taken

/-- At the start the cursors stand where the classes start, and there is nothing in between. -/
theorem Cursors.startPool {byDevice : OrderedMap Resolved} : Cursors s (startPool byDevice) where
  start _ := le_rfl
  used _ _ hfirst hbelow := absurd hbelow (Nat.not_lt.2 hfirst)

/-- Nothing between the start of a class and its cursor is open, so a search from the cursor finds what
is smallest from the start. -/
theorem Cursors.isLeast (h : Cursors s p) (hn : FirstFree s.base p.taken (p.cursor d) n) :
    IsLeast {k | Open s p.taken d k} n := by
  refine ⟨⟨(h.start d).trans hn.start, hn.last, hn.free⟩, ?_⟩
  intro m hm
  by_contra hlt
  rcases Nat.lt_or_ge m (p.cursor d) with hbelow | hpast
  · exact hm.free (h.used d m hm.first hbelow)
  · exact hm.free (hn.passed m hpast (Nat.lt_of_not_le hlt))

/-- If a search from the cursor finds nothing, no number is open. -/
theorem Cursors.not_open (h : Cursors s p)
    (hfull : ∀ k : Nat, p.cursor d ≤ k → k ≤ maxHost → Address.host s.base k ∈ p.taken) :
    ¬ Open s p.taken d n := by
  intro hn
  rcases Nat.lt_or_ge n (p.cursor d) with hbelow | hpast
  · exact hn.free (h.used d n hn.first hbelow)
  · exact hn.free (hfull n hpast hn.last)

/-- The cursor of a class stands past the number that the class has got last. -/
theorem cursor_give : (p.give s d n).cursor e = if e.isRouter = d.isRouter then n + 1 else p.cursor e := by
  unfold Pool.cursor Pool.give
  cases e.isRouter <;> cases d.isRouter <;> rfl

/-- Giving out the number that a search from the cursor finds keeps the invariant: the search passed only
addresses in use, and the address that it stopped at is in use from now on. -/
theorem Cursors.give (h : Cursors s p) (hn : FirstFree s.base p.taken (p.cursor d) n) :
    Cursors s (p.give s d n) := by
  have hclass : ∀ e : Device, e.isRouter = d.isRouter →
      p.cursor e = p.cursor d ∧ firstHost e = firstHost d := by
    intro e he
    unfold Pool.cursor firstHost
    rw [he]
    exact ⟨rfl, rfl⟩
  refine ⟨fun e => ?_, fun e k hfirst hbelow => ?_⟩
  · rw [cursor_give]
    split
    · next he =>
      calc firstHost e = firstHost d := (hclass e he).2
        _ ≤ p.cursor d := h.start d
        _ ≤ n := hn.start
        _ ≤ n + 1 := Nat.le_succ n
    · exact h.start e
  · have htaken : (p.give s d n).taken = Address.host s.base n :: p.taken := rfl
    rw [cursor_give] at hbelow
    rw [htaken, List.mem_cons]
    split at hbelow
    · next he =>
      rcases Nat.lt_trichotomy k n with hlt | rfl | hgt
      · -- `k` was passed by an earlier search of the class or by this one
        rcases Nat.lt_or_ge k (p.cursor d) with hearlier | hpast
        · exact .inr (h.used d k ((hclass e he).2 ▸ hfirst) hearlier)
        · exact .inr (hn.passed k hpast hlt)
      · exact .inl rfl
      · omega
    · exact .inr (h.used e k hfirst hbelow)

/-! ## The members of a segment -/

/-- The members of a segment, as devices. -/
def membersOf (ds : List Device) (s : Segment) : List Device :=
  s.members.filterMap (Analysis.deviceOf? ds)

/-- Where all members are devices, none is left out. -/
theorem map_id_membersOf (h : ∀ id ∈ s.members, ∃ d ∈ ds, d.id = id) :
    (membersOf ds s).map Device.id = s.members := by
  rw [membersOf, List.map_filterMap]
  calc s.members.filterMap (fun id => (Analysis.deviceOf? ds id).map Device.id)
      = s.members.filterMap some := by
        refine List.filterMap_congr fun id hid => ?_
        obtain ⟨d, hd⟩ := Option.isSome_iff_exists.1 (Analysis.isSome_deviceOf?_iff.2 (h id hid))
        rw [hd, Option.map_some, (Analysis.deviceOf?_eq_some hd).2]
    _ = s.members := List.filterMap_some

/-- The static address that a device keeps on a pooled segment, if it keeps one. -/
def keeps? (d : Device) : Option String := if d.isRouter then none else given? d.ip

/-- The devices that keep no address and get numbers. -/
def toNumber (ms : List Device) : List Device := ms.filter fun d => (keeps? d).isNone

/-- The entries of the devices that keep their static addresses. -/
def keptEntries (ms : List Device) : List (String × Resolved) :=
  ms.filterMap fun d => (keeps? d).map fun ip => (d.id, ⟨ip, true⟩)

/-- The entries of devices with host numbers. -/
def numberedEntries (s : Segment) (ms : List Device) (ns : List Nat) : List (String × Resolved) :=
  List.zipWith (fun d n => (d.id, ⟨Address.host s.base (n : Nat), false⟩)) ms ns

/-- How the numbering of the devices `rest` ends that begins with the pool `p`: by the rule. -/
inductive ByRule (s : Segment) (p : Pool) (rest : List Device) : Except AssignmentError Pool → Prop
  | numbered (q : Pool) (ns : List Nat) (hns : Numbers s p.taken rest ns)
      (hentries : q.byDevice.entries = p.byDevice.entries ++ numberedEntries s rest ns) :
      ByRule s p rest (.ok q)
  | exhausted (h : RunsOut s p.taken rest) : ByRule s p rest (.error (.exhausted s.subnet s.name))

/-- The entries after a device has got a number. -/
theorem entries_give (hnew : p.byDevice.get? d.id = none) : (p.give s d n).byDevice.entries =
    p.byDevice.entries ++ [(d.id, ⟨Address.host s.base n, false⟩)] := by
  refine OrderedMap.entries_insert_of_not_mem fun hmem => ?_
  have hsome := OrderedMap.isSome_get?_iff.2 hmem
  rw [hnew] at hsome
  cases hsome

/-- The loop over the members numbers those that have no address by the rule. -/
theorem foldlM_number (hms : ∀ d ∈ ms, Analysis.deviceOf? ds d.id = some d)
    (hn : (ms.map Device.id).Nodup) (h : Cursors s p) :
    ByRule s p (ms.filter fun d => (p.byDevice.get? d.id).isNone)
      ((ms.map Device.id).foldlM (number ds s) p) := by
  -- every turn keeps the cursors' invariant, which makes what it finds the least that is open
  induction ms generalizing p with
  | nil => exact .numbered p [] (.nil _) (List.append_nil _).symm
  | cons d ms ih =>
    obtain ⟨hid, hn⟩ := List.nodup_cons.1 hn
    have hds : ∀ e ∈ ms, Analysis.deviceOf? ds e.id = some e := fun e he =>
      hms e (List.mem_cons_of_mem d he)
    rw [List.map_cons, List.foldlM_cons]
    have hstep := @step_number ds s p d.id
    generalize number ds s p d.id = r at hstep
    cases hstep with
    | unknown _ hnone =>
      rw [hms d List.mem_cons_self] at hnone
      cases hnone
    | keep r hr =>
      -- the rule passes over the member as the loop does
      rw [List.filter_cons_of_neg (by simp [hr]), Outcome.ok_bind]
      exact ih hds hn h
    | full e hnew he hfull =>
      obtain rfl := Option.some.inj ((hms d List.mem_cons_self).symm.trans he)
      rw [List.filter_cons_of_pos (by simp [hnew])]
      exact .exhausted (.here fun n => h.not_open hfull)
    | give e n hnew he hfree =>
      obtain rfl := Option.some.inj ((hms d List.mem_cons_self).symm.trans he)
      -- the members to come have other ids, and have an address or none as before
      have hrest : (ms.filter fun e => (p.byDevice.get? e.id).isNone) =
          ms.filter fun e => ((p.give s d n).byDevice.get? e.id).isNone := by
        refine List.filter_congr fun e he => ?_
        have hne : d.id ≠ e.id := fun hsame => hid (hsame ▸ List.mem_map_of_mem he)
        rw [Pool.give, OrderedMap.get?_insert_of_ne hne]
      rw [List.filter_cons_of_pos (by simp [hnew]), hrest, Outcome.ok_bind]
      have hleast := h.isLeast hfree
      have hrun := ih hds hn (h.give hfree)
      generalize (ms.map Device.id).foldlM (number ds s) (p.give s d n) = r at hrun
      cases hrun with
      | exhausted hout => exact .exhausted (.later hleast hout)
      | numbered q ns hns hentries =>
        refine .numbered q (n :: ns) (.cons hleast hns) ?_
        rw [hentries, entries_give hnew, List.append_assoc]
        rfl

/-! ## Pooled segments -/

/-- Numbering a pooled segment follows the plain rule. -/
structure Ruled (ds : List Device) (a : Analysis) (s : Segment) : Prop where
  /-- The members are devices. -/
  members : (membersOf ds s).map Device.id = s.members
  /-- The segment is one that is pooled. -/
  pooled : (onSegment ds a s).outcome = pooled ds a s
  /-- Each member that is no router keeps its static address, and the others get numbers by the rule, no
  static address being open to them. -/
  filled : ∀ sa, Assignment.pooled ds a s = .ok sa → ∃ ns,
    Numbers s ((membersOf ds s).filterMap keeps?) (toNumber (membersOf ds s)) ns ∧
      sa.byDevice.entries =
        keptEntries (membersOf ds s) ++ numberedEntries s (toNumber (membersOf ds s)) ns
  /-- Nothing fails but at the turn of a member that the rule finds no number for. -/
  exhausted : ∀ e, Assignment.pooled ds a s = .error e ↔ e = .exhausted s.subnet s.name ∧
    RunsOut s ((membersOf ds s).filterMap keeps?) (toNumber (membersOf ds s))

/-- The addresses that are reserved are those that members keep. -/
theorem reserved_map : reserved (ms.map fun d => (d.id, keeps? d)) = keptEntries ms :=
  List.filterMap_map

theorem map_ip_keptEntries : ((keptEntries ms).map Prod.snd).map Resolved.ip = ms.filterMap keeps? := by
  rw [keptEntries, List.map_filterMap, List.map_filterMap]
  refine List.filterMap_congr fun d _ => ?_
  cases keeps? d <;> rfl

theorem map_fst_keptEntries_sublist : ((keptEntries ms).map Prod.fst).Sublist (ms.map Device.id) := by
  have hids : (keptEntries ms).map Prod.fst = (ms.filter fun d => (keeps? d).isSome).map Device.id := by
    rw [keptEntries, List.map_filterMap, ← List.filterMap_eq_filter, List.map_filterMap]
    refine List.filterMap_congr fun d _ => ?_
    cases hkeeps : keeps? d <;> simp [hkeeps, Option.guard]
  rw [hids]
  exact List.filter_sublist.map Device.id

/-- The static address that is looked up for a member is the one that it keeps. -/
theorem static?_eq_keeps? (hd : Analysis.deviceOf? ds d.id = some d) {i : Nat}
    (hi : indexOf a d.id s.name = .ok i) (hfirst : d.isRouter = false → i = 0) :
    static? ds a s d.id = .ok (keeps? d) := by
  have hdevice : device ds d.id = .ok d := by rw [device, hd]
  rw [static?, hdevice, Outcome.ok_bind, hi, Outcome.ok_bind, keeps?]
  cases hrouter : d.isRouter with
  | true => rfl
  | false =>
    rw [hfirst hrouter]
    rfl

section Pooled

variable (hms : ∀ d ∈ ms, Analysis.deviceOf? ds d.id = some d) (hn : (ms.map Device.id).Nodup)
  (hmembers : s.members = ms.map Device.id)
  (hindex : ∀ d ∈ ms, ∃ i, indexOf a d.id s.name = .ok i ∧ (d.isRouter = false → i = 0))

include hms hmembers hindex

/-- The static addresses of the members are looked up one by one. -/
theorem mapM_static? : (s.members.mapM fun id => do return (id, ← static? ds a s id)) =
    .ok (ms.map fun d => (d.id, keeps? d)) := by
  rw [hmembers, Outcome.mapM_eq_ok, List.forall₂_map_left_iff, List.forall₂_map_right_iff,
    List.forall₂_same]
  intro d hd
  obtain ⟨i, hi, hfirst⟩ := hindex d hd
  rw [static?_eq_keeps? (hms d hd) hi hfirst]
  rfl

/-- A pooled segment is filled by the loop over its members, from their static addresses on. -/
theorem pooled_eq_bind : pooled ds a s =
    (ms.map Device.id).foldlM (number ds s) (startPool (.ofList (keptEntries ms))) >>= fun p =>
      .ok ⟨p.byDevice, p.gateway.getD (Address.host s.base routerHost)⟩ := by
  rw [pooled, mapM_static? hms hmembers hindex, Outcome.ok_bind, ← reserved_map, ← hmembers]
  rfl

include hn

/-- The members without an address at the start are those that keep none. -/
theorem toNumber_eq_filter : toNumber ms =
    ms.filter fun d => ((OrderedMap.ofList (keptEntries ms)).get? d.id).isNone := by
  refine List.filter_congr fun d hd => ?_
  obtain ⟨ip, hip, hget⟩ := get?_reserved (hmembers ▸ hn) (mapM_static? hms hmembers hindex)
    (hmembers ▸ List.mem_map_of_mem hd)
  obtain ⟨i, hi, hfirst⟩ := hindex d hd
  obtain rfl := Except.ok.inj ((static?_eq_keeps? (hms d hd) hi hfirst).symm.trans hip)
  rw [← reserved_map, hget, Option.isNone_map]

/-- A pooled segment is numbered by the rule. -/
theorem pooled_byRule :
    (∀ sa, pooled ds a s = .ok sa → ∃ ns,
      Numbers s (ms.filterMap keeps?) (toNumber ms) ns ∧
        sa.byDevice.entries = keptEntries ms ++ numberedEntries s (toNumber ms) ns) ∧
    ∀ e, pooled ds a s = .error e ↔ e = .exhausted s.subnet s.name ∧
      RunsOut s (ms.filterMap keeps?) (toNumber ms) := by
  have hentries : (OrderedMap.ofList (keptEntries ms)).entries = keptEntries ms :=
    OrderedMap.entries_ofList (hn.sublist map_fst_keptEntries_sublist)
  have htaken : (startPool (.ofList (keptEntries ms))).taken = ms.filterMap keeps? := by
    rw [startPool, OrderedMap.values, hentries, map_ip_keptEntries]
  -- at the start the addresses in use are those that are kept
  have hrun := foldlM_number hms hn (@Cursors.startPool s (.ofList (keptEntries ms)))
  rw [startPool, ← toNumber_eq_filter hms hn hmembers hindex, ← startPool] at hrun
  rw [pooled_eq_bind hms hmembers hindex]
  generalize (ms.map Device.id).foldlM (number ds s) (startPool (.ofList (keptEntries ms))) = r at hrun
  cases hrun with
  | numbered q ns hns hq =>
    rw [htaken] at hns
    refine ⟨fun sa hsa => ⟨ns, hns, ?_⟩, fun e => ⟨nofun, fun hout => ?_⟩⟩
    · cases hsa
      rw [hq, startPool, hentries]
    · exact absurd hout.2 hns.not_runsOut
  | exhausted hout =>
    rw [htaken] at hout
    refine ⟨nofun, fun e => ⟨fun he => ?_, ?_⟩⟩
    · exact ⟨(Except.error.inj he).symm, hout⟩
    · rintro ⟨rfl, -⟩
      rfl

end Pooled

/-! ## The segments of an analysis -/

section Segments

variable {reg : Registry} {mode : NetworkMode}

/-- In the modes that pool devices, a device that is no router is on one segment, which is its first. -/
theorem eq_zero_of_pooling (h : reg.WellFormed)
    (ha : Analysis.Follows reg.devices (Analysis.plans mode reg.devices reg.connections) a)
    (hmode : mode ≠ .connection) (hd : d ∈ reg.devices) (hhost : d.isRouter = false)
    (hname : name ∈ Analysis.plannedNames d.id (Analysis.plans mode reg.devices reg.connections))
    {i : Nat} (hi : indexOf a d.id name = .ok i) : i = 0 := by
  have hone : ∀ other ∈ Analysis.plannedNames d.id (Analysis.plans mode reg.devices reg.connections),
      other = name :=
    fun other hother => Analysis.eq_of_mem_plannedNames h hmode hd hhost hother hname
  -- the first of its segments is one of them, so it is this one
  rw [eq_zero_iff_of_indexOf hi, ha.networks d hd, Option.bind_some]
  cases hnames : Analysis.plannedNames d.id (Analysis.plans mode reg.devices reg.connections) with
  | nil =>
    rw [hnames] at hname
    cases hname
  | cons first rest => exact congrArg some (hone first (hnames ▸ List.mem_cons_self))

/-- The segments of a registry are numbered by the rule, unless they stand for connections. -/
theorem ruled_of_follows (h : reg.WellFormed)
    (ha : Analysis.Follows reg.devices (Analysis.plans mode reg.devices reg.connections) a)
    (hmode : mode ≠ .connection) (hs : a.segments.get? name = some s) : Ruled reg.devices a s := by
  obtain ⟨p, k, hpk, hname, rfl⟩ := ha.exists_plan hs
  have hp := List.fst_mem_of_mem_zipIdx hpk
  have hmembers : (membersOf reg.devices (Segment.ofPlan k p)).map Device.id = p.members :=
    map_id_membersOf (Analysis.plans_members h hp)
  have hdevice : ∀ d ∈ membersOf reg.devices (Segment.ofPlan k p),
      Analysis.deviceOf? reg.devices d.id = some d := by
    intro d hd
    obtain ⟨id, -, hfound⟩ := List.mem_filterMap.1 hd
    obtain ⟨-, rfl⟩ := Analysis.deviceOf?_eq_some hfound
    exact hfound
  -- every member has the segment in its list, a host as the first one
  have hindex : ∀ d ∈ membersOf reg.devices (Segment.ofPlan k p),
      ∃ i, indexOf a d.id (Segment.ofPlan k p).name = .ok i ∧ (d.isRouter = false → i = 0) := by
    intro d hd
    have hmem : d ∈ reg.devices := (Analysis.deviceOf?_eq_some (hdevice d hd)).1
    have hid : d.id ∈ p.members := hmembers ▸ List.mem_map_of_mem hd
    have hnames := (Analysis.nameOf_mem_plannedNames hpk).2 hid
    obtain ⟨i, hi⟩ := exists_indexOf (ha.networks d hmem) hnames
    exact ⟨i, hi, fun hhost => eq_zero_of_pooling h ha hmode hmem hhost hnames hi⟩
  have hnodup : ((membersOf reg.devices (Segment.ofPlan k p)).map Device.id).Nodup :=
    hmembers ▸ Analysis.plans_members_nodup h hp
  obtain ⟨hfilled, hexhausted⟩ := pooled_byRule hdevice hnodup hmembers.symm hindex
  refine ⟨hmembers, ?_, hfilled, hexhausted⟩
  have hnone : (Segment.ofPlan k p).connection = none := Analysis.connection_of_mem_plans hmode hp
  rw [onSegment, hnone]
  rfl

/-- Whatever a registry went through, in an analysis in a mode that pools devices every segment is numbered
by the plain rule, and the search for a number always ends. -/
theorem assign_ruled (history : List Change) (strict : Bool) {mode : NetworkMode}
    (hmode : mode ≠ .connection) {a : Analysis}
    (ha : (Analysis.inMode mode strict (Registry.after history).devices
      (Registry.after history).connections).outcome = .ok a) :
    (∀ name s, a.segments.get? name = some s → Ruled (Registry.after history).devices a s) ∧
      ∀ (s : Segment) (taken : List String) (host : Nat),
        ∃ m, Relation.ReflTransGen (Passes s.base taken) host m ∧ (∀ k, ¬ Passes s.base taken m k) ∧
          allocate s taken host = if m ≤ 254 then .ok (m, Address.host s.base m)
            else .error (.exhausted s.subnet s.name) := by
  have h : (Registry.after history).WellFormed := Registry.wellFormed_after history
  refine ⟨fun name s hs => ?_, exists_passes⟩
  exact ruled_of_follows h (Analysis.inMode_follows h ha) hmode hs

/-- A router and three hosts, two of them with the addresses that the numbering of routers and that of
other devices start from. -/
def crowdedStart : List Change := [
  .addDevice { id := .text "R", type := .text "router" },
  .addDevice { id := .text "a", type := .text "vm", ip := .text "10.0.0.1" },
  .addDevice { id := .text "b", type := .text "vm", ip := .text "10.0.0.10" },
  .addDevice { id := .text "c", type := .text "switch" }]

/-- On one segment, the router and the last host get the numbers after the static addresses. -/
theorem assign_ruled_crowdedStart : ∃ (a : Analysis) (s : Segment) (sa : SegmentAddresses),
    a.segments.get? "net1" = some s ∧ Ruled (Registry.after crowdedStart).devices a s ∧
      pooled (Registry.after crowdedStart).devices a s = .ok sa ∧ sa.byDevice.entries =
        [("a", ⟨"10.0.0.1", true⟩), ("b", ⟨"10.0.0.10", true⟩), ("R", ⟨"10.0.0.2", false⟩),
          ("c", ⟨"10.0.0.11", false⟩)] := by
  have hrun : ((Analysis.inMode .shared false (Registry.after crowdedStart).devices
      (Registry.after crowdedStart).connections).outcome.toOption.any fun a =>
        decide (((a.segments.get? "net1").any fun s =>
          decide (((pooled (Registry.after crowdedStart).devices a s).toOption.any fun sa =>
            decide (sa.byDevice.entries = [("a", ⟨"10.0.0.1", true⟩), ("b", ⟨"10.0.0.10", true⟩),
              ("R", ⟨"10.0.0.2", false⟩), ("c", ⟨"10.0.0.11", false⟩)])) = true)) = true)) = true := by
    decide +kernel
  obtain ⟨a, ha, hrun⟩ := Outcome.exists_of_any_toOption hrun
  obtain ⟨s, hs, hrun⟩ := (Option.any_eq_true _ _).1 hrun
  obtain ⟨sa, hsa, hentries⟩ := Outcome.exists_of_any_toOption (of_decide_eq_true hrun)
  have hruled := (assign_ruled crowdedStart false (by decide : NetworkMode.shared ≠ .connection) ha).1
  exact ⟨a, s, sa, hs, hruled "net1" s hs, hsa, hentries⟩

end Segments

end VirtNet.Assignment
