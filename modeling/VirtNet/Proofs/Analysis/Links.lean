import VirtNet.Analysis
import VirtNet.Proofs.Registry.WellFormed
import VirtNet.Proofs.Segment

/-!
# The analysis by connections

The analysis goes through the connections and passes over those whose two ids, joined by a hyphen, it
has met before in either direction, and over those with an end that is no device's id. `links` is the list
of the connections that are left where all ends are known, and `ofLinks_of_byConnection` says that the
analysis is exactly one segment for each of them, in order, and for each device the segments of those that
touch it; nothing but the ids and the ends is asked of the design. The proof is a loop invariant (`Linked`).
-/

namespace VirtNet

/-- Whether one of the two keys of `d` is one of the two keys of `c`. -/
def Connection.looksLike (c d : Connection) : Bool :=
  [c.key, c.reverseKey].contains d.key || [c.key, c.reverseKey].contains d.reverseKey

/-- Devices with ids of their own, each of one of the three types. -/
structure Registry.KnownDevices (ds : List Device) : Prop where
  ids_nodup : (ds.map Device.id).Nodup
  known : ∀ d ∈ ds, d.type.isKnown = true

theorem Registry.SoundDevices.knownDevices {ds : List Device} (h : SoundDevices ds) :
    KnownDevices ds :=
  ⟨h.ids_nodup, h.known⟩

/-- Devices with the same id are the same. -/
theorem Registry.KnownDevices.eq_of_id {ds : List Device} (h : KnownDevices ds) {d e : Device}
    (hd : d ∈ ds) (he : e ∈ ds) (hid : d.id = e.id) : d = e :=
  List.inj_on_of_nodup_map h.ids_nodup hd he hid

/-- A connection between two different devices. -/
structure Registry.Connects (ds : List Device) (c : Connection) : Prop where
  ne : c.source ≠ c.target
  source : ∃ d ∈ ds, d.id = c.source
  target : ∃ d ∈ ds, d.id = c.target

theorem Registry.JoinsKnown.connects {ds : List Device} {c : Connection} (h : JoinsKnown ds c) :
    Connects ds c := by
  obtain ⟨hne, source, hsource, target, htarget, hsid, htid, -⟩ := h
  exact ⟨hne, ⟨source, hsource, hsid⟩, ⟨target, htarget, htid⟩⟩

namespace Analysis

/-- The connections that are left after one more, given those left before it. -/
def retain (kept : List Connection) (c : Connection) : List Connection :=
  if kept.any (·.looksLike c) then kept else kept ++ [c]

/-- The connections without those that look like one left before them. -/
def links (cs : List Connection) : List Connection := cs.foldl retain []

/-- The static address of the device with an id. -/
def staticOf (devices : List Device) (id : String) : Option String :=
  (deviceOf? devices id).bind Device.ip

/-- The segment of a connection. -/
def linkSegment (devices : List Device) (number : Nat) (c : Connection) : Segment :=
  Segment.formed number [c.source, c.target]
    [c.sourceIp, c.targetIp, staticOf devices c.source, staticOf devices c.target] (some c)

/-- The segments of connections, numbered from 1. -/
def linkSegments (devices : List Device) (kept : List Connection) : List (String × Segment) :=
  (kept.zipIdx 1).map fun p => (Segment.nameOf p.2, linkSegment devices p.2 p.1)

/-- The names of the segments that a device is on. -/
def linkNames (id : String) (kept : List Connection) : List String :=
  ((kept.zipIdx 1).filter fun p => Registry.touches id p.1).map fun p => Segment.nameOf p.2

variable {devices : List Device} {kept cs : List Connection} {c : Connection} {st st' : LinkState}

/-! ## Devices by id -/

/-- Some device is found under exactly the ids of the devices. -/
theorem isSome_deviceOf?_iff {id : String} :
    (deviceOf? devices id).isSome ↔ ∃ d ∈ devices, d.id = id := by
  simp [deviceOf?, List.find?_isSome]

/-- What is found under an id is a device with that id. -/
theorem deviceOf?_eq_some {id : String} {d : Device} (h : deviceOf? devices id = some d) :
    d ∈ devices ∧ d.id = id := by
  refine ⟨List.mem_reverse.1 (List.mem_of_find?_eq_some h), ?_⟩
  simpa using List.find?_some h

/-- Where ids are distinct, each device is found under its id. -/
theorem deviceOf?_of_mem (hn : (devices.map Device.id).Nodup) {d : Device} (hd : d ∈ devices) :
    deviceOf? devices d.id = some d := by
  obtain ⟨e, he⟩ := Option.isSome_iff_exists.1 (isSome_deviceOf?_iff.2 ⟨d, hd, rfl⟩)
  obtain ⟨hmem, hid⟩ := deviceOf?_eq_some he
  rw [he, List.inj_on_of_nodup_map hn hmem hd hid]

/-! ## The connections that are left -/

/-- What is left is left over from the list. -/
theorem foldl_retain_sublist : (cs.foldl retain kept).Sublist (kept ++ cs) := by
  induction cs generalizing kept with
  | nil => simp
  | cons c cs ih =>
    rw [List.foldl_cons]
    refine ih.trans ?_
    unfold retain
    split
    · exact (List.sublist_append_left kept [c]).append (List.Sublist.refl cs) |>.trans (by simp)
    · simp

/-- A connection that is left is one of the list. -/
theorem mem_of_mem_links (h : c ∈ links cs) : c ∈ cs := by
  have hsub : (links cs).Sublist cs := foldl_retain_sublist
  exact hsub.subset h

/-- The connections that are left are all of them where no two look alike. -/
theorem foldl_retain_eq_append_iff :
    cs.foldl retain kept = kept ++ cs ↔
      (∀ d ∈ kept, ∀ c ∈ cs, d.looksLike c = false) ∧
        cs.Pairwise fun c d => c.looksLike d = false := by
  induction cs generalizing kept with
  | nil => simp
  | cons c cs ih =>
    rw [List.foldl_cons, retain]
    split
    · next hc =>
      -- `c` is passed over, so the result is shorter than the list
      obtain ⟨d, hd, hlike⟩ := List.any_eq_true.1 hc
      have hlen : (cs.foldl retain kept).length ≤ (kept ++ cs).length :=
        foldl_retain_sublist.length_le
      constructor
      · intro h
        rw [h, List.length_append, List.length_append, List.length_cons] at hlen
        omega
      · intro h
        simp [h.1 d hd c List.mem_cons_self] at hlike
    · next hc =>
      have hnone : ∀ d ∈ kept, d.looksLike c = false := by simpa using hc
      rw [show kept ++ c :: cs = kept ++ [c] ++ cs by simp, ih]
      constructor
      · rintro ⟨hkept, hcs⟩
        refine ⟨?_, List.pairwise_cons.2 ⟨hkept c (by simp), hcs⟩⟩
        intro d hd e he
        rcases List.mem_cons.1 he with rfl | he
        · exact hnone d hd
        · exact hkept d (List.mem_append_left _ hd) e he
      · rintro ⟨hkept, hcs⟩
        obtain ⟨hc, hcs⟩ := List.pairwise_cons.1 hcs
        refine ⟨?_, hcs⟩
        intro d hd e he
        rcases List.mem_append.1 hd with hd | hd
        · exact hkept d hd e (List.mem_cons_of_mem _ he)
        · rw [List.mem_singleton.1 hd]
          exact hc e he

/-- All connections are left where no two look alike. -/
theorem links_eq_self_iff : links cs = cs ↔ cs.Pairwise fun c d => c.looksLike d = false := by
  have h := @foldl_retain_eq_append_iff [] cs
  rw [List.nil_append] at h
  rw [links, h]
  simp

/-! ## One connection -/

/-- How far the analysis has come after it gave a connection its segment. -/
def LinkState.withLink (devices : List Device) (st : LinkState) (c : Connection) : LinkState :=
  let s := linkSegment devices st.next c
  { next := st.next + 1
    seen := c.key :: c.reverseKey :: st.seen
    analysis := ((st.analysis.addSegment s).attach s.name c.source).attach s.name c.target }

/-- A connection with a key that was met before is passed over. -/
theorem addLink_of_seen {strict : Bool} (h : c.key ∈ st.seen ∨ c.reverseKey ∈ st.seen) :
    (addLink strict devices st c).outcome = .ok st := by
  have hseen : (st.seen.contains c.key || st.seen.contains c.reverseKey) = true := by
    simpa using h
  unfold addLink
  rw [if_pos hseen]
  rfl

/-- A connection with an end that is no device's id is passed over. -/
theorem addLink_of_unknown {strict : Bool}
    (h : ¬ ((deviceOf? devices c.source).isSome ∧ (deviceOf? devices c.target).isSome)) :
    (addLink strict devices st c).outcome = .ok st := by
  unfold addLink
  split
  · rfl
  · cases hsource : deviceOf? devices c.source <;> cases htarget : deviceOf? devices c.target
    · rfl
    · rfl
    · rfl
    · exact absurd (by simp [hsource, htarget]) h

/-- Any other connection is given its segment, unless its addresses lie in different networks and the
analysis is strict. -/
theorem outcome_addLink {strict : Bool} (hsource : (deviceOf? devices c.source).isSome)
    (htarget : (deviceOf? devices c.target).isSome)
    (h : ¬ (c.key ∈ st.seen ∨ c.reverseKey ∈ st.seen)) :
    (addLink strict devices st c).outcome =
      if !(linkSegment devices st.next c).consistent && strict then
        .error (linkSegment devices st.next c).mismatch
      else .ok (st.withLink devices c) := by
  obtain ⟨source, hsource⟩ := Option.isSome_iff_exists.1 hsource
  obtain ⟨target, htarget⟩ := Option.isSome_iff_exists.1 htarget
  have hseen : ¬ (st.seen.contains c.key || st.seen.contains c.reverseKey) = true := by
    simpa using h
  have hlink : linkSegment devices st.next c =
      Segment.formed st.next [c.source, c.target] [c.sourceIp, c.targetIp, source.ip, target.ip]
        (some c) := by
    simp [linkSegment, staticOf, hsource, htarget]
  unfold addLink
  rw [if_neg hseen, hsource, htarget]
  simp only [Journal.outcome_bind, Journal.outcome_pure, Segment.outcome_derive]
  rw [LinkState.withLink, hlink]
  split <;> rfl

/-- A connection between known devices whose keys are new is given its segment, or refused. -/
theorem addLink_eq_ok {strict : Bool} (hc : Registry.Connects devices c)
    (h : ¬ (c.key ∈ st.seen ∨ c.reverseKey ∈ st.seen)) :
    (addLink strict devices st c).outcome = .ok st' ↔
      (strict = true → (linkSegment devices st.next c).consistent = true) ∧
        st.withLink devices c = st' := by
  rw [outcome_addLink (isSome_deviceOf?_iff.2 hc.source) (isSome_deviceOf?_iff.2 hc.target) h]
  cases strict <;> cases (linkSegment devices st.next c).consistent <;> simp

/-! ## The loop -/

/-- How far the analysis has come when `kept` are the connections that were given segments. -/
structure Linked (devices : List Device) (kept : List Connection) (st : LinkState) : Prop where
  next : st.next = kept.length + 1
  seen : ∀ key, key ∈ st.seen ↔ ∃ c ∈ kept, key = c.key ∨ key = c.reverseKey
  segments : st.analysis.segments.entries = linkSegments devices kept
  networks : ∀ d ∈ devices, st.analysis.networks.get? d.id = some (linkNames d.id kept)

theorem linkSegments_append : linkSegments devices (kept ++ [c]) =
    linkSegments devices kept ++
      [(Segment.nameOf (kept.length + 1), linkSegment devices (kept.length + 1) c)] := by
  simp [linkSegments, List.zipIdx_append, Nat.add_comm]

theorem linkNames_append {id : String} : linkNames id (kept ++ [c]) =
    linkNames id kept ++
      if Registry.touches id c then [Segment.nameOf (kept.length + 1)] else [] := by
  cases h : Registry.touches id c <;> simp [linkNames, List.zipIdx_append, h, Nat.add_comm]

/-- The name of a segment that is still to come is new. -/
theorem nameOf_not_mem_linkSegments {n : Nat} (hn : kept.length < n) :
    Segment.nameOf n ∉ (linkSegments devices kept).map Prod.fst := by
  intro h
  simp only [linkSegments, List.map_map, List.mem_map, Function.comp_apply] at h
  obtain ⟨⟨d, k⟩, hk, hname⟩ := h
  have hlt : k < 1 + kept.length := (List.mem_zipIdx hk).2.1
  have hkn : k = n := Segment.nameOf_inj.1 hname
  omega

/-- Before the first connection nothing is done. -/
theorem Linked.start (hn : (devices.map Device.id).Nodup) :
    Linked devices [] ⟨1, [], Analysis.start devices⟩ where
  next := rfl
  seen := by simp
  segments := rfl
  networks := by
    intro d hd
    have hkeys : ((devices.map fun d => (d.id, ([] : List String))).map Prod.fst).Nodup := by
      rw [List.map_map]
      exact hn
    exact (OrderedMap.get?_ofList hkeys).2 (List.mem_map.2 ⟨d, hd, rfl⟩)

/-- A connection is left out unless neither of its keys was met. -/
theorem Linked.any_looksLike_iff (h : Linked devices kept st) :
    kept.any (·.looksLike c) = true ↔ c.key ∈ st.seen ∨ c.reverseKey ∈ st.seen := by
  simp only [List.any_eq_true, h.seen, Connection.looksLike, Bool.or_eq_true, List.contains_iff_mem,
    List.mem_cons, List.not_mem_nil, or_false]
  constructor
  · rintro ⟨d, hd, hkey | hkey⟩
    · exact .inl ⟨d, hd, hkey⟩
    · exact .inr ⟨d, hd, hkey⟩
  · rintro (⟨d, hd, hkey⟩ | ⟨d, hd, hkey⟩)
    · exact ⟨d, hd, .inl hkey⟩
    · exact ⟨d, hd, .inr hkey⟩

/-- Giving a connection its segment. -/
theorem Linked.withLink (h : Linked devices kept st) (hc : c.source ≠ c.target) :
    Linked devices (kept ++ [c]) (st.withLink devices c) where
  next := by simp [LinkState.withLink, h.next]
  seen := by
    intro key
    simp only [LinkState.withLink, List.mem_cons, h.seen, List.mem_append, List.not_mem_nil, or_false]
    grind
  segments := by
    have hnew : Segment.nameOf (kept.length + 1) ∉ st.analysis.segments.keys := by
      rw [OrderedMap.keys, h.segments]
      exact nameOf_not_mem_linkSegments (Nat.lt_succ_self _)
    rw [linkSegments_append, ← h.segments, ← OrderedMap.entries_insert_of_not_mem hnew, ← h.next]
    rfl
  networks := by
    intro d hd
    have hnames : (st.withLink devices c).analysis.networks =
        (st.analysis.networks.modify c.source (· ++ [Segment.nameOf (kept.length + 1)])).modify
          c.target (· ++ [Segment.nameOf (kept.length + 1)]) := by
      rw [← h.next]
      rfl
    rw [hnames, OrderedMap.get?_modify, OrderedMap.get?_modify, h.networks d hd, linkNames_append]
    -- the ends differ, so a device gets the name at most once
    by_cases hs : c.source = d.id
    · have ht : c.target ≠ d.id := fun e => hc (hs.trans e.symm)
      simp [Registry.touches, hs, ht]
    · by_cases ht : c.target = d.id <;> simp [Registry.touches, hs, ht]

/-- One turn of the loop. -/
theorem Linked.addLink {strict : Bool} (h : Linked devices kept st)
    (hc : Registry.Connects devices c)
    (hok : (Analysis.addLink strict devices st c).outcome = .ok st') :
    Linked devices (retain kept c) st' := by
  by_cases hseen : c.key ∈ st.seen ∨ c.reverseKey ∈ st.seen
  · rw [addLink_of_seen hseen] at hok
    cases hok
    rw [retain, if_pos (h.any_looksLike_iff.2 hseen)]
    exact h
  · obtain ⟨-, rfl⟩ := (addLink_eq_ok hc hseen).1 hok
    rw [retain, if_neg fun e => hseen (h.any_looksLike_iff.1 e)]
    exact h.withLink hc.ne

/-- The whole loop. -/
theorem Linked.run {strict : Bool} (h : Linked devices kept st)
    (hcs : ∀ c ∈ cs, Registry.Connects devices c)
    (hok : (cs.foldlM (Analysis.addLink strict devices) st).outcome = .ok st') :
    Linked devices (cs.foldl retain kept) st' :=
  Journal.foldlM_keeps_along (fun _ _ c _ hc h hturn => h.addLink (hcs c hc) hturn) h hok

/-- A lenient loop never stops. -/
theorem lenient_run : ∃ st', (cs.foldlM (addLink false devices) st).outcome = .ok st' := by
  induction cs generalizing st with
  | nil => exact ⟨st, rfl⟩
  | cons c cs ih =>
    have hstep : ∃ mid, (addLink false devices st c).outcome = .ok mid := by
      by_cases hseen : c.key ∈ st.seen ∨ c.reverseKey ∈ st.seen
      · exact ⟨st, addLink_of_seen hseen⟩
      · by_cases hends : (deviceOf? devices c.source).isSome ∧ (deviceOf? devices c.target).isSome
        · refine ⟨st.withLink devices c, ?_⟩
          rw [outcome_addLink hends.1 hends.2 hseen, Bool.and_false]
          rfl
        · exact ⟨st, addLink_of_unknown hends⟩
    obtain ⟨mid, hmid⟩ := hstep
    rw [List.foldlM_cons, Journal.outcome_bind, hmid]
    exact ih

/-- Whether both ends of a connection are ids of devices. -/
def endsKnown (devices : List Device) (c : Connection) : Bool :=
  (deviceOf? devices c.source).isSome && (deviceOf? devices c.target).isSome

theorem endsKnown_iff : endsKnown devices c = true ↔
    (∃ d ∈ devices, d.id = c.source) ∧ ∃ d ∈ devices, d.id = c.target := by
  rw [endsKnown, Bool.and_eq_true, isSome_deviceOf?_iff, isSome_deviceOf?_iff]

/-- The connections with an unknown end might as well not be there. -/
theorem outcome_foldlM_addLink {strict : Bool} :
    (cs.foldlM (addLink strict devices) st).outcome =
      ((cs.filter (endsKnown devices)).foldlM (addLink strict devices) st).outcome := by
  induction cs generalizing st with
  | nil => rfl
  | cons c cs ih =>
    cases hc : endsKnown devices c with
    | true =>
      rw [List.filter_cons_of_pos hc, List.foldlM_cons, List.foldlM_cons, Journal.outcome_bind,
        Journal.outcome_bind]
      cases (addLink strict devices st c).outcome with
      | error e => rfl
      | ok mid => exact ih
    | false =>
      -- such a turn only writes to the log
      have hunknown : ¬ ((deviceOf? devices c.source).isSome ∧ (deviceOf? devices c.target).isSome) := by
        rw [← Bool.and_eq_true]
        exact Bool.eq_false_iff.1 hc
      rw [List.filter_cons_of_neg (Bool.eq_false_iff.1 hc), List.foldlM_cons, Journal.outcome_bind,
        addLink_of_unknown hunknown]
      exact ih

/-! ## The analysis -/

/-- An analysis that has one segment for each of the connections `kept`, in their order. -/
structure OfLinks (devices : List Device) (kept : List Connection) (a : Analysis) : Prop where
  segments : a.segments.entries = linkSegments devices kept
  networks : ∀ d ∈ devices, a.networks.get? d.id = some (linkNames d.id kept)

/-- A lenient analysis by connections succeeds. -/
theorem exists_byConnection (devices : List Device) (cs : List Connection) :
    ∃ a, (byConnection false devices cs).outcome = .ok a := by
  obtain ⟨st, hst⟩ := @lenient_run devices cs ⟨1, [], start devices⟩
  refine ⟨st.analysis, ?_⟩
  unfold byConnection
  rw [Journal.outcome_bind, hst]
  rfl

/-- The connections between different devices that are left among those with known ends. -/
theorem connects_of_mem_links (hloops : ∀ c ∈ cs, c.source ≠ c.target)
    (hc : c ∈ links (cs.filter (endsKnown devices))) : c ∈ cs ∧ Registry.Connects devices c := by
  obtain ⟨hmem, hends⟩ := List.mem_filter.1 (mem_of_mem_links hc)
  obtain ⟨hsource, htarget⟩ := endsKnown_iff.1 hends
  exact ⟨hmem, hloops c hmem, hsource, htarget⟩

/-- The analysis by connections of devices with ids of their own has one segment for each connection that
is left among those with known ends, if none joins a device to itself. -/
theorem ofLinks_of_byConnection (hn : (devices.map Device.id).Nodup)
    (hloops : ∀ c ∈ cs, c.source ≠ c.target) {strict : Bool} {a : Analysis}
    (hok : (byConnection strict devices cs).outcome = .ok a) :
    OfLinks devices (links (cs.filter (endsKnown devices))) a := by
  unfold byConnection at hok
  rw [Journal.bind_eq_ok] at hok
  obtain ⟨st, hst, ha⟩ := hok
  rw [outcome_foldlM_addLink] at hst
  have hconnects : ∀ c ∈ cs.filter (endsKnown devices), Registry.Connects devices c := by
    intro c hc
    obtain ⟨hmem, hends⟩ := List.mem_filter.1 hc
    exact ⟨hloops c hmem, (endsKnown_iff.1 hends).1, (endsKnown_iff.1 hends).2⟩
  have hlinked := (Linked.start hn).run hconnects hst
  cases ha
  exact ⟨hlinked.segments, hlinked.networks⟩

/-! ## The analysis of a registry -/

/-- The analysis of a registry by connections has one segment for each connection that is left. -/
theorem byConnection_ofLinks {r : Registry} (h : r.WellFormed) {strict : Bool} {a : Analysis}
    (hok : (byConnection strict r.devices r.connections).outcome = .ok a) :
    OfLinks r.devices (links r.connections) a := by
  have hends : ∀ c ∈ r.connections, Registry.Connects r.devices c := fun c hc =>
    (h.connections.ends c hc).connects
  have hall : r.connections.filter (endsKnown r.devices) = r.connections := by
    rw [List.filter_eq_self]
    exact fun c hc => endsKnown_iff.2 ⟨(hends c hc).source, (hends c hc).target⟩
  have hofLinks := ofLinks_of_byConnection h.devices.ids_nodup (fun c hc => (hends c hc).ne) hok
  rwa [hall] at hofLinks

/-! ## One segment for each connection -/

/-- An analysis in which the k-th segment is named for k and carries the k-th connection, and every
device is on as many segments as it has connections. -/
structure OneSegmentEach (devices : List Device) (cs : List Connection) (a : Analysis) : Prop where
  segments : a.segments.entries.map (fun e => (e.1, e.2.name, e.2.connection)) =
    (cs.zipIdx 1).map fun p => (Segment.nameOf p.2, Segment.nameOf p.2, some p.1)
  networks : ∀ d ∈ devices, ∃ names, a.networks.get? d.id = some names ∧
    names.length = cs.countP (Registry.touches d.id)

/-- A device is on one segment for each connection that touches it. -/
theorem length_linkNames (id : String) :
    (linkNames id kept).length = kept.countP (Registry.touches id) := by
  rw [linkNames, List.length_map, ← List.countP_eq_length_filter]
  calc (kept.zipIdx 1).countP (fun p => Registry.touches id p.1)
      = ((kept.zipIdx 1).map Prod.fst).countP (Registry.touches id) := by
        rw [List.countP_map]
        rfl
    _ = kept.countP (Registry.touches id) := by rw [List.zipIdx_map_fst]

theorem map_linkSegments :
    (linkSegments devices kept).map (fun e => (e.1, e.2.name, e.2.connection)) =
      (kept.zipIdx 1).map fun p => (Segment.nameOf p.2, Segment.nameOf p.2, some p.1) := by
  rw [linkSegments, List.map_map]
  rfl

/-- There is one segment for each connection exactly when every connection is left. -/
theorem OfLinks.oneSegmentEach_iff {a : Analysis} (h : OfLinks devices (links cs) a) :
    OneSegmentEach devices cs a ↔ links cs = cs := by
  constructor
  · intro ho
    -- what is left is part of the connections and, by its segments, as long
    have hlen := congrArg List.length ho.segments
    rw [h.segments, map_linkSegments, List.length_map, List.length_map, List.length_zipIdx,
      List.length_zipIdx] at hlen
    have hsub : (links cs).Sublist cs := foldl_retain_sublist
    exact hsub.eq_of_length hlen
  · intro hall
    rw [hall] at h
    refine ⟨by rw [h.segments, map_linkSegments], ?_⟩
    intro d hd
    exact ⟨_, h.networks d hd, length_linkNames d.id⟩

/-- Two ids without a hyphen, joined by one, can be told apart from any other two. -/
theorem append_hyphen_inj {a b a' b' : String} (ha : '-' ∉ a.toList) (hb : '-' ∉ b.toList) :
    a ++ "-" ++ b = a' ++ "-" ++ b' ↔ a = a' ∧ b = b' := by
  constructor
  · intro h
    have hl : a.toList ++ '-' :: b.toList = a'.toList ++ '-' :: b'.toList := by
      simpa using congrArg String.toList h
    obtain ⟨hleft, -, hright⟩ := (List.append_cons_inj_of_notMem ha hb).1 hl
    exact ⟨String.toList_inj.1 hleft, String.toList_inj.1 hright⟩
  · rintro ⟨rfl, rfl⟩
    rfl

/-- A connection between devices without a hyphen in their ids looks like another only when the two
join the same pair. -/
theorem joins_of_looksLike {c d : Connection} (hsource : '-' ∉ d.source.toList)
    (htarget : '-' ∉ d.target.toList) (h : c.looksLike d = true) :
    d.joins c.source c.target = true := by
  simp only [Connection.looksLike, Connection.key, Connection.reverseKey, Bool.or_eq_true,
    List.contains_iff_mem, List.mem_cons, List.not_mem_nil, or_false] at h
  rw [append_hyphen_inj hsource htarget, append_hyphen_inj hsource htarget,
    append_hyphen_inj htarget hsource, append_hyphen_inj htarget hsource] at h
  simp only [Connection.joins, Bool.or_eq_true, Bool.and_eq_true, beq_iff_eq]
  tauto

/-- Whatever a registry went through, its lenient analysis by connections succeeds, and any analysis by
connections has one segment for each connection exactly when no two connections look alike: when no two
have the same two ids around a hyphen, read from either side. If no id has a hyphen in it, none do. -/
theorem byConnection_one_segment_each_iff (history : List Change) :
    let r := Registry.after history
    (∃ a, (byConnection false r.devices r.connections).outcome = .ok a) ∧
    (∀ strict a, (byConnection strict r.devices r.connections).outcome = .ok a →
      (OneSegmentEach r.devices r.connections a ↔
        r.connections.Pairwise fun c d => c.looksLike d = false)) ∧
    ((∀ d ∈ r.devices, '-' ∉ d.id.toList) →
      r.connections.Pairwise fun c d => c.looksLike d = false) := by
  intro r
  have h : r.WellFormed := Registry.wellFormed_after history
  refine ⟨exists_byConnection _ _, ?_, ?_⟩
  · intro strict a hok
    rw [(byConnection_ofLinks h hok).oneSegmentEach_iff, links_eq_self_iff]
  · intro hplain
    -- connections that look alike would join the same pair, which the registry refuses
    refine h.connections.pairs.imp_of_mem ?_
    intro c d _ hd hpair
    obtain ⟨-, s, hs, t, ht, hsid, htid, -⟩ := h.connections.ends d hd
    have hsource : '-' ∉ d.source.toList := hsid ▸ hplain s hs
    have htarget : '-' ∉ d.target.toList := htid ▸ hplain t ht
    rw [← Bool.not_eq_true] at hpair ⊢
    exact fun hlike => hpair (joins_of_looksLike hsource htarget hlike)

/-- A design with two connections that look alike: `a-b` to `c` and `a` to `b-c`. -/
def hyphenated : List Change := [
  .addDevice { id := .text "a-b", type := .text "router" },
  .addDevice { id := .text "c", type := .text "vm" },
  .addDevice { id := .text "a", type := .text "router" },
  .addDevice { id := .text "b-c", type := .text "vm" },
  .addConnection { source := "a-b", target := "c" },
  .addConnection { source := "a", target := "b-c" }]

/-- The registry takes both connections in, and the analysis drops the second. -/
theorem byConnection_hyphenated :
    let r := Registry.after hyphenated
    r.connections.map Connection.key = ["a-b-c", "a-b-c"] ∧
    ((byConnection false r.devices r.connections).outcome.toOption.map fun a =>
      (a.segments.keys, a.networks.entries)) =
        some (["net1"], [("a-b", ["net1"]), ("c", ["net1"]), ("a", []), ("b-c", [])]) := by
  decide +kernel

end Analysis

end VirtNet
