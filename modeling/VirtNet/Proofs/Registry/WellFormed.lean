import Mathlib.Data.List.Pairwise
import VirtNet.Proofs.OrderedMap
import VirtNet.Proofs.Registry.Induction

/-!
# What every registry satisfies

`WellFormed` gathers what holds of the devices and connections of every registry that a history leaves
(`wellFormed_after`): ids and static addresses are proper and distinct, interface addresses are kept for
routers alone, connections join two known devices, once per pair, and the address that a connection has
at a router is the one that the router keeps towards the peer.

The clauses on devices alone (`SoundDevices`) survive whatever keeps ids, types and static addresses.
The clauses on connections (`SoundConnections`) lean on each other: an address that is recorded for one
connection cannot overwrite that of another, because no two connections join the same pair, and an
address that is dropped with a device belonged to no connection that stays.
-/

namespace VirtNet

/-- A text that is an address and has no blanks around it. -/
def Address.Proper (ip : String) : Prop := Address.isValid ip = true ∧ Text.strip ip = ip

/-- The keys of interfaces towards different peers are different. -/
theorem Device.interfaceKey_inj {a b : String} :
    Device.interfaceKey a = Device.interfaceKey b ↔ a = b :=
  String.append_right_inj "to_"

namespace Registry

/-- The static address and the interface addresses of a device are proper, and only a router has
interface addresses. -/
structure SoundAddresses (d : Device) : Prop where
  static : ∀ ip, d.ip = some ip → Address.Proper ip
  of_router : d.isRouter = false → d.interfaceIps = .empty
  interfaces : ∀ e ∈ d.interfaceIps.entries, Address.Proper e.2

/-- The clauses on the devices of a registry. -/
structure SoundDevices (ds : List Device) : Prop where
  /-- Ids are neither empty nor padded. -/
  ids : ∀ d ∈ ds, d.id ≠ "" ∧ Text.strip d.id = d.id
  /-- No two devices have the same id. -/
  ids_nodup : (ds.map Device.id).Nodup
  /-- Types are among the three. -/
  known : ∀ d ∈ ds, d.type.isKnown = true
  /-- No two devices have the same static address. -/
  statics_nodup : (ds.filterMap Device.ip).Nodup
  addresses : ∀ d ∈ ds, SoundAddresses d

/-- The device `id` is a router that keeps the proper address `ip` towards `peer`. -/
def Keeps (ds : List Device) (id peer ip : String) : Prop :=
  Address.Proper ip ∧ ∃ d ∈ ds, d.id = id ∧ d.isRouter = true ∧
    d.interfaceIps.get? (Device.interfaceKey peer) = some ip

/-- The ends of a connection are two known and different devices that are not both virtual machines. -/
def JoinsKnown (ds : List Device) (c : Connection) : Prop :=
  c.source ≠ c.target ∧ ∃ s ∈ ds, ∃ t ∈ ds,
    s.id = c.source ∧ t.id = c.target ∧ ¬ (s.type = .vm ∧ t.type = .vm)

/-- The clauses on the connections of a registry with the devices `ds`. -/
structure SoundConnections (ds : List Device) (cs : List Connection) : Prop where
  ends : ∀ c ∈ cs, JoinsKnown ds c
  /-- No two connections join the same pair. -/
  pairs : cs.Pairwise fun c e => e.joins c.source c.target = false
  /-- The address at the from side is the one that the router there keeps towards the to side. -/
  sourceIps : ∀ c ∈ cs, ∀ ip, c.sourceIp = some ip → Keeps ds c.source c.target ip
  /-- The address at the to side is the one that the router there keeps towards the from side. -/
  targetIps : ∀ c ∈ cs, ∀ ip, c.targetIp = some ip → Keeps ds c.target c.source ip
  /-- Bandwidth labels can be read. -/
  speeds : ∀ c ∈ cs, ∀ label, c.speed = some label → ∃ x, Bandwidth.megabits label = .ok x

/-- What every registry satisfies. -/
structure WellFormed (r : Registry) : Prop where
  devices : SoundDevices r.devices
  connections : SoundConnections r.devices r.connections

variable {r : Registry} {ds ds' : List Device}

/-! ## Devices -/

theorem SoundDevices.nil : SoundDevices [] where
  ids := by simp
  ids_nodup := by simp
  known := by simp
  statics_nodup := by simp
  addresses := by simp

/-- Devices that are left after others went are sound. -/
theorem SoundDevices.sublist (h : SoundDevices ds) (hs : ds'.Sublist ds) : SoundDevices ds' where
  ids d hd := h.ids d (hs.subset hd)
  ids_nodup := h.ids_nodup.sublist (hs.map Device.id)
  known d hd := h.known d (hs.subset hd)
  statics_nodup := h.statics_nodup.sublist (hs.filterMap Device.ip)
  addresses d hd := h.addresses d (hs.subset hd)

/-- Changing the interface addresses of sound devices, and nothing else, leaves them sound if the new
addresses are. -/
theorem SoundDevices.map (h : SoundDevices ds) {f : Device → Device}
    (hid : ∀ d, (f d).id = d.id) (htype : ∀ d, (f d).type = d.type) (hip : ∀ d, (f d).ip = d.ip)
    (haddresses : ∀ d ∈ ds, SoundAddresses (f d)) : SoundDevices (ds.map f) where
  ids := by
    intro e he
    obtain ⟨d, hd, rfl⟩ := List.mem_map.1 he
    rw [hid]
    exact h.ids d hd
  ids_nodup := by
    have hsame : Device.id ∘ f = Device.id := funext hid
    rw [List.map_map, hsame]
    exact h.ids_nodup
  known := by
    intro e he
    obtain ⟨d, hd, rfl⟩ := List.mem_map.1 he
    rw [htype]
    exact h.known d hd
  statics_nodup := by
    have hsame : Device.ip ∘ f = Device.ip := funext hip
    rw [List.filterMap_map, hsame]
    exact h.statics_nodup
  addresses := by
    intro e he
    obtain ⟨d, hd, rfl⟩ := List.mem_map.1 he
    exact haddresses d hd

/-- Adding interface addresses that are drafted keeps the addresses of a map proper. -/
theorem addInterfaces_proper {es : List (Value × Value)} {m m' : OrderedMap String}
    (hm : ∀ e ∈ m.entries, Address.Proper e.2) (h : addInterfaces m es = .ok m') :
    ∀ e ∈ m'.entries, Address.Proper e.2 := by
  induction es generalizing m with
  | nil =>
    cases h
    exact hm
  | cons kv rest ih =>
    obtain ⟨k, v⟩ := kv
    simp only [addInterfaces] at h
    cases hc : v.cleaned? with
    | none =>
      simp only [hc] at h
      exact ih hm h
    | some ip =>
      simp only [hc] at h
      split at h
      · next hv =>
        refine ih (fun e he => ?_) h
        rcases OrderedMap.mem_entries_insert.1 he with rfl | ⟨-, he⟩
        · exact ⟨hv, (Value.cleaned?_eq_some hc).2⟩
        · exact hm e he
      · cases h

/-- The addresses of a device that is taken in are sound. -/
theorem Accepts.addresses {draft : Device.Draft} {d : Device} (h : r.Accepts draft d) :
    SoundAddresses d := by
  have hinterfaces := h.interfaces
  unfold draftedInterfaces at hinterfaces
  refine ⟨fun ip hip => ?_, fun hr => ?_, ?_⟩
  · rw [h.ip] at hip
    exact ⟨(h.ip_free ip (h.ip.trans hip)).1, (Value.cleaned?_eq_some hip).2⟩
  · have hne : d.type ≠ .router := by simpa [Device.isRouter] using hr
    simp only [hne, false_and, if_false, Except.ok.injEq] at hinterfaces
    exact hinterfaces.symm
  · split at hinterfaces
    · split at hinterfaces
      · exact addInterfaces_proper (by simp) hinterfaces
      · cases hinterfaces
    · rw [Except.ok.injEq] at hinterfaces
      simp [← hinterfaces]

/-- A device that is taken in leaves the devices sound. -/
theorem SoundDevices.append (h : SoundDevices r.devices) {draft : Device.Draft} {d : Device}
    (hd : r.Accepts draft d) : SoundDevices (r.devices ++ [d]) where
  ids := by
    intro e he
    rcases List.mem_append.1 he with he | he
    · exact h.ids e he
    · rw [List.mem_singleton.1 he]
      exact Value.cleaned?_eq_some hd.id
  ids_nodup := by
    rw [List.map_append, List.map_singleton, List.nodup_append]
    refine ⟨h.ids_nodup, by simp, ?_⟩
    intro a ha b hb
    obtain ⟨e, he, rfl⟩ := List.mem_map.1 ha
    rw [List.mem_singleton.1 hb]
    exact hd.unused e he
  known := by
    intro e he
    rcases List.mem_append.1 he with he | he
    · exact h.known e he
    · rw [List.mem_singleton.1 he]
      exact hd.known
  statics_nodup := by
    rw [List.filterMap_append, List.nodup_append]
    refine ⟨h.statics_nodup, ?_, ?_⟩
    · cases hip : d.ip <;> simp [hip]
    · intro a ha b hb
      obtain ⟨e, he, hea⟩ := List.mem_filterMap.1 ha
      obtain ⟨e', he', hdb⟩ := List.mem_filterMap.1 hb
      rw [List.mem_singleton.1 he'] at hdb
      rintro rfl
      exact (hd.ip_free a hdb).2 e he hea
  addresses := by
    intro e he
    rcases List.mem_append.1 he with he | he
    · exact h.addresses e he
    · rw [List.mem_singleton.1 he]
      exact hd.addresses

/-! ## Interfaces

Recording an address at a device and dropping one change its interface addresses alone. -/

section

variable (id peer : String) (ip : Option String) (c : Connection) (d : Device)

@[simp]
theorem withInterface_id : (withInterface id peer ip d).id = d.id := by
  cases ip <;> simp only [withInterface, setInterface]
  split <;> rfl

@[simp]
theorem withInterface_type : (withInterface id peer ip d).type = d.type := by
  cases ip <;> simp only [withInterface, setInterface]
  split <;> rfl

@[simp]
theorem withInterface_ip : (withInterface id peer ip d).ip = d.ip := by
  cases ip <;> simp only [withInterface, setInterface]
  split <;> rfl

@[simp]
theorem withLink_id : (withLink c d).id = d.id := by simp [withLink]

@[simp]
theorem withLink_type : (withLink c d).type = d.type := by simp [withLink]

@[simp]
theorem withLink_ip : (withLink c d).ip = d.ip := by simp [withLink]

@[simp]
theorem withLink_isRouter : (withLink c d).isRouter = d.isRouter := by simp [Device.isRouter]

end

/-- The address that was recorded is found under its key. -/
theorem get?_withInterface_self {id : String} {d : Device} (h : d.id = id) (peer ip : String) :
    (withInterface id peer (some ip) d).interfaceIps.get? (Device.interfaceKey peer) = some ip := by
  simp [withInterface, setInterface, h]

/-- Recording an address changes no other device and no address towards another peer. -/
theorem get?_withInterface_of_ne {id peer peer' : String} {ip : Option String} {d : Device}
    (h : d.id = id → peer' ≠ peer) :
    (withInterface id peer ip d).interfaceIps.get? (Device.interfaceKey peer') =
      d.interfaceIps.get? (Device.interfaceKey peer') := by
  cases ip with
  | none => rfl
  | some ip =>
    simp only [withInterface, setInterface]
    split
    · next hid =>
      have hne : Device.interfaceKey peer ≠ Device.interfaceKey peer' := by
        rw [Ne, Device.interfaceKey_inj]
        exact (h hid).symm
      exact OrderedMap.get?_insert_of_ne hne
    · rfl

/-- Recording a proper address at a router leaves the addresses of a device sound. -/
theorem SoundAddresses.withInterface {id peer : String} {ip : Option String} {d : Device}
    (h : SoundAddresses d)
    (hip : ∀ a, ip = some a → d.id = id → Address.Proper a ∧ d.isRouter = true) :
    SoundAddresses (withInterface id peer ip d) := by
  cases ip with
  | none => exact h
  | some a =>
    simp only [Registry.withInterface, setInterface]
    split
    · next hid =>
      obtain ⟨hproper, hrouter⟩ := hip a rfl hid
      refine ⟨h.static, fun hr => ?_, fun e he => ?_⟩
      · rw [Device.isRouter] at hr hrouter
        rw [hrouter] at hr
        cases hr
      · rcases OrderedMap.mem_entries_insert.1 he with rfl | ⟨-, he⟩
        · exact hproper
        · exact h.interfaces e he
    · exact h

/-- Dropping an address leaves the addresses of a device sound. -/
theorem SoundAddresses.dropInterface {d : Device} (h : SoundAddresses d) (peer : String) :
    SoundAddresses (dropInterface peer d) where
  static := h.static
  of_router hr := by
    have hempty : d.interfaceIps = .empty := h.of_router hr
    apply OrderedMap.ext
    simp [Registry.dropInterface, hempty, OrderedMap.erase]
  interfaces e he := h.interfaces e (OrderedMap.mem_entries_erase.1 he).2

/-- Dropping an address towards one peer changes no address towards another. -/
theorem get?_dropInterface_of_ne {peer peer' : String} {d : Device} (h : peer ≠ peer') :
    (dropInterface peer d).interfaceIps.get? (Device.interfaceKey peer') =
      d.interfaceIps.get? (Device.interfaceKey peer') := by
  have hne : Device.interfaceKey peer ≠ Device.interfaceKey peer' := by
    rwa [Ne, Device.interfaceKey_inj]
  simp [dropInterface, OrderedMap.get?_erase, hne]

/-! ## Connections -/

theorem SoundConnections.nil : SoundConnections ds [] where
  ends := by simp
  pairs := by simp
  sourceIps := by simp
  targetIps := by simp
  speeds := by simp

/-- Of sound connections those are sound that are left after others went and whose ends and recorded
addresses are still there. -/
theorem SoundConnections.sublist {cs cs' : List Connection} (h : SoundConnections ds cs)
    (hs : cs'.Sublist cs) (hends : ∀ c ∈ cs', JoinsKnown ds' c)
    (hsource : ∀ c ∈ cs', ∀ ip, Keeps ds c.source c.target ip → Keeps ds' c.source c.target ip)
    (htarget : ∀ c ∈ cs', ∀ ip, Keeps ds c.target c.source ip → Keeps ds' c.target c.source ip) :
    SoundConnections ds' cs' where
  ends := hends
  pairs := h.pairs.sublist hs
  sourceIps c hc ip hip := hsource c hc ip (h.sourceIps c (hs.subset hc) ip hip)
  targetIps c hc ip hip := htarget c hc ip (h.targetIps c (hs.subset hc) ip hip)
  speeds c hc := h.speeds c (hs.subset hc)

/-- A connection joins a pair in one direction or the other. -/
theorem joins_eq_true_iff {c : Connection} {a b : String} :
    c.joins a b = true ↔ c.source = a ∧ c.target = b ∨ c.source = b ∧ c.target = a := by
  simp [Connection.joins]

/-- Of two connections either each joins the pair of the other or none does. -/
theorem joins_comm (c e : Connection) :
    c.joins e.source e.target = e.joins c.source c.target := by
  rw [Bool.eq_iff_iff, joins_eq_true_iff, joins_eq_true_iff]
  constructor
  · rintro (⟨hs, ht⟩ | ⟨hs, ht⟩)
    · exact Or.inl ⟨hs.symm, ht.symm⟩
    · exact Or.inr ⟨ht.symm, hs.symm⟩
  · rintro (⟨hs, ht⟩ | ⟨hs, ht⟩)
    · exact Or.inl ⟨hs.symm, ht.symm⟩
    · exact Or.inr ⟨ht.symm, hs.symm⟩

/-- A further connection keeps connections sound if it joins a new pair of known devices and its
addresses are recorded. -/
theorem SoundConnections.append {cs : List Connection} (h : SoundConnections ds cs) {c : Connection}
    (hends : JoinsKnown ds c) (hfresh : ∀ e ∈ cs, e.joins c.source c.target = false)
    (hsource : ∀ ip, c.sourceIp = some ip → Keeps ds c.source c.target ip)
    (htarget : ∀ ip, c.targetIp = some ip → Keeps ds c.target c.source ip)
    (hspeed : ∀ label, c.speed = some label → ∃ x, Bandwidth.megabits label = .ok x) :
    SoundConnections ds (cs ++ [c]) where
  ends := by
    intro e he
    rcases List.mem_append.1 he with he | he
    · exact h.ends e he
    · rwa [List.mem_singleton.1 he]
  pairs := by
    rw [List.pairwise_append]
    refine ⟨h.pairs, List.pairwise_singleton _ _, ?_⟩
    intro e he c' hc'
    rw [List.mem_singleton.1 hc', joins_comm]
    exact hfresh e he
  sourceIps := by
    intro e he
    rcases List.mem_append.1 he with he | he
    · exact h.sourceIps e he
    · rwa [List.mem_singleton.1 he]
  targetIps := by
    intro e he
    rcases List.mem_append.1 he with he | he
    · exact h.targetIps e he
    · rwa [List.mem_singleton.1 he]
  speeds := by
    intro e he
    rcases List.mem_append.1 he with he | he
    · exact h.speeds e he
    · rwa [List.mem_singleton.1 he]

/-! ## Taking a connection in -/

section

variable {draft : Connection.Draft} {s t : Device} {c : Connection}

/-- An end takes only proper addresses, and only if it is a router. -/
theorem TakesAddress.proper {d : Device} {v : Value} {ip : Option String} (h : TakesAddress d v ip)
    {a : String} (ha : ip = some a) : Address.Proper a ∧ d.isRouter = true := by
  have hvalid : Address.isValid a = true := h.valid a ha
  have heq := h.eq
  rw [ha] at heq
  split at heq
  · next hr => exact ⟨⟨hvalid, (Value.cleaned?_eq_some heq.symm).2⟩, hr⟩
  · cases heq

/-- The ends of a connection that is taken in are devices of the registry. -/
theorem Links.mem (h : r.Links draft s t c) :
    (s ∈ r.devices ∧ s.id = c.source) ∧ t ∈ r.devices ∧ t.id = c.target :=
  ⟨⟨(device?_eq_some h.source).1, h.source_eq.symm⟩, (device?_eq_some h.target).1,
    h.target_eq.symm⟩

/-- The ends of a connection that is taken in differ. -/
theorem Links.ne (h : r.Links draft s t c) : c.source ≠ c.target := by
  rw [h.source_eq, h.target_eq]
  exact h.distinct

/-- No connection of the registry joins the ends of the one that is taken in. -/
theorem Links.fresh_ends (h : r.Links draft s t c) :
    ∀ e ∈ r.connections, e.joins c.source c.target = false := by
  rw [h.source_eq, h.target_eq, (device?_eq_some h.source).2, (device?_eq_some h.target).2]
  exact h.fresh

/-- Recording the addresses of a connection changes no address towards another pair. -/
theorem get?_withLink_of_ne {d : Device} {peer : String} (hs : d.id = c.source → peer ≠ c.target)
    (ht : d.id = c.target → peer ≠ c.source) :
    (withLink c d).interfaceIps.get? (Device.interfaceKey peer) =
      d.interfaceIps.get? (Device.interfaceKey peer) := by
  rw [withLink, get?_withInterface_of_ne (by simpa using ht), get?_withInterface_of_ne hs]

/-- Recording the addresses of a connection keeps every address towards another pair. -/
theorem Keeps.withLink {id peer ip : String} (h : Keeps ds id peer ip)
    (hs : id = c.source → peer ≠ c.target) (ht : id = c.target → peer ≠ c.source) :
    Keeps (ds.map (withLink c)) id peer ip := by
  obtain ⟨hproper, d, hd, rfl, hr, hget⟩ := h
  refine ⟨hproper, Registry.withLink c d, List.mem_map_of_mem hd, by simp, by simpa using hr, ?_⟩
  rw [get?_withLink_of_ne hs ht, hget]

/-- Recording the addresses of a connection keeps the ends of every connection known. -/
theorem JoinsKnown.withLink {e : Connection} (h : JoinsKnown ds e) :
    JoinsKnown (ds.map (withLink c)) e := by
  obtain ⟨hne, s, hs, t, ht, hse, hte, hvm⟩ := h
  exact ⟨hne, Registry.withLink c s, List.mem_map_of_mem hs, Registry.withLink c t,
    List.mem_map_of_mem ht, by simpa using hse, by simpa using hte, by simpa using hvm⟩

/-- The address of a connection at the from side is recorded there. -/
theorem Links.keeps_source (h : r.Links draft s t c) {ip : String} (hip : c.sourceIp = some ip) :
    Keeps (r.devices.map (withLink c)) c.source c.target ip := by
  obtain ⟨⟨hs, hsid⟩, -⟩ := h.mem
  obtain ⟨hproper, hr⟩ := h.sourceIp.proper hip
  refine ⟨hproper, withLink c s, List.mem_map_of_mem hs, by simpa using hsid, by simpa using hr, ?_⟩
  have hne : (withInterface c.source c.target c.sourceIp s).id = c.target → c.target ≠ c.source :=
    fun _ => h.ne.symm
  rw [withLink, get?_withInterface_of_ne hne, hip, get?_withInterface_self hsid]

/-- The address of a connection at the to side is recorded there. -/
theorem Links.keeps_target (h : r.Links draft s t c) {ip : String} (hip : c.targetIp = some ip) :
    Keeps (r.devices.map (withLink c)) c.target c.source ip := by
  obtain ⟨-, ht, htid⟩ := h.mem
  obtain ⟨hproper, hr⟩ := h.targetIp.proper hip
  refine ⟨hproper, withLink c t, List.mem_map_of_mem ht, by simpa using htid, by simpa using hr, ?_⟩
  have hid : (withInterface c.source c.target c.sourceIp t).id = c.target := by simpa using htid
  rw [withLink, hip, get?_withInterface_self hid]

/-- Devices with the same id are the same. -/
theorem SoundDevices.eq_of_id (h : SoundDevices ds) {d e : Device} (hd : d ∈ ds) (he : e ∈ ds)
    (hid : d.id = e.id) : d = e :=
  List.inj_on_of_nodup_map h.ids_nodup hd he hid

/-- Lookup finds the device with an id. -/
theorem SoundDevices.device? {cs : List Connection} (h : SoundDevices ds) {d : Device}
    (hd : d ∈ ds) : Registry.device? ⟨ds, cs⟩ d.id = some d := by
  cases hfound : Registry.device? ⟨ds, cs⟩ d.id with
  | none => exact absurd rfl (device?_eq_none.1 hfound d hd)
  | some e =>
    obtain ⟨he, hid⟩ := device?_eq_some hfound
    rw [h.eq_of_id he hd hid]

/-- Static addresses are distinct, so a device is known by its own. -/
theorem SoundDevices.eq_of_ip (h : SoundDevices ds) {d e : Device} (hd : d ∈ ds) (he : e ∈ ds)
    {ip : String} (hdip : d.ip = some ip) (heip : e.ip = some ip) : d = e := by
  by_contra hne
  have hpairs := List.pairwise_filterMap.1 h.statics_nodup
  have hsymm : Std.Symm fun x y : Device => ∀ b, x.ip = some b → ∀ c, y.ip = some c → b ≠ c :=
    ⟨fun x y hxy b hb c hc => (hxy c hc b hb).symm⟩
  have hdiffer := hpairs.forall hd he hne
  exact hdiffer ip hdip ip heip rfl

/-- A connection that is taken in leaves a registry well formed. -/
theorem WellFormed.joined (h : r.WellFormed) (hc : r.Links draft s t c) : (r.joined c).WellFormed where
  devices := by
    refine h.devices.map (withLink_id c) (withLink_type c) (withLink_ip c) fun d hd => ?_
    obtain ⟨⟨hs, hsid⟩, ht, htid⟩ := hc.mem
    refine SoundAddresses.withInterface (SoundAddresses.withInterface (h.devices.addresses d hd) ?_) ?_
    · intro a ha hid
      rw [h.devices.eq_of_id hd hs (hid.trans hsid.symm)]
      exact hc.sourceIp.proper ha
    · intro a ha hid
      rw [withInterface_id] at hid
      have hdt : d = t := h.devices.eq_of_id hd ht (hid.trans htid.symm)
      have hr := hc.targetIp.proper ha
      rwa [Device.isRouter, withInterface_type, ← Device.isRouter, hdt]
  connections := by
    have hold : SoundConnections (r.devices.map (withLink c)) r.connections := by
      refine h.connections.sublist (List.Sublist.refl _) ?_ ?_ ?_
      · exact fun e he => (h.connections.ends e he).withLink
      -- An old connection with an overwritten address would join the pair of the new one.
      · intro e he ip hk
        have hj := hc.fresh_ends e he
        rw [← Bool.not_eq_true, joins_eq_true_iff] at hj
        exact hk.withLink (fun hs ht => hj (Or.inl ⟨hs, ht⟩)) fun ht hs => hj (Or.inr ⟨ht, hs⟩)
      · intro e he ip hk
        have hj := hc.fresh_ends e he
        rw [← Bool.not_eq_true, joins_eq_true_iff] at hj
        exact hk.withLink (fun hs ht => hj (Or.inr ⟨ht, hs⟩)) fun ht hs => hj (Or.inl ⟨hs, ht⟩)
    have hends : JoinsKnown r.devices c := by
      obtain ⟨⟨hs, hsid⟩, ht, htid⟩ := hc.mem
      exact ⟨hc.ne, s, hs, t, ht, hsid, htid, hc.not_machines⟩
    exact hold.append hends.withLink hc.fresh_ends (fun _ => hc.keeps_source)
      (fun _ => hc.keeps_target) hc.speed_read

end

/-! ## The other changes -/

theorem WellFormed.empty : Registry.empty.WellFormed := ⟨.nil, .nil⟩

/-- A device that is taken in leaves a registry well formed. -/
theorem WellFormed.accepted (h : r.WellFormed) {draft : Device.Draft} {d : Device}
    (hd : r.Accepts draft d) : WellFormed ⟨r.devices ++ [d], r.connections⟩ where
  devices := h.devices.append hd
  connections := by
    have hkeeps : ∀ {id peer ip}, Keeps r.devices id peer ip → Keeps (r.devices ++ [d]) id peer ip := by
      rintro id peer ip ⟨hproper, e, he, hrest⟩
      exact ⟨hproper, e, List.mem_append_left _ he, hrest⟩
    refine h.connections.sublist (List.Sublist.refl _) ?_ (fun _ _ _ => hkeeps) fun _ _ _ => hkeeps
    intro c hc
    obtain ⟨hne, s, hs, t, ht, hrest⟩ := h.connections.ends c hc
    exact ⟨hne, s, List.mem_append_left _ hs, t, List.mem_append_left _ ht, hrest⟩

/-- A device other than the one removed stays, less its address towards that one. -/
theorem mem_without {id : String} {d : Device} (hd : d ∈ r.devices) (hne : d.id ≠ id) :
    dropInterface id d ∈ (r.without id).devices := by
  refine List.mem_map_of_mem (List.mem_filter.2 ⟨hd, ?_⟩)
  simpa using hne

/-- A connection that stays has neither end at the device removed. -/
theorem ne_of_mem_without {id : String} {c : Connection} (hc : c ∈ (r.without id).connections) :
    c ∈ r.connections ∧ c.source ≠ id ∧ c.target ≠ id := by
  obtain ⟨hmem, htouch⟩ := List.mem_filter.1 hc
  refine ⟨hmem, ?_⟩
  simpa [touches] using htouch

/-- The removal of a device keeps every address of another device towards a third one. -/
theorem Keeps.without {id peer ip removed : String} (h : Keeps r.devices id peer ip)
    (hid : id ≠ removed) (hpeer : peer ≠ removed) :
    Keeps (r.without removed).devices id peer ip := by
  obtain ⟨hproper, d, hd, rfl, hr, hget⟩ := h
  refine ⟨hproper, dropInterface removed d, mem_without hd hid, rfl, hr, ?_⟩
  rw [get?_dropInterface_of_ne hpeer.symm, hget]

/-- The removal of a device leaves a registry well formed. -/
theorem WellFormed.without (h : r.WellFormed) (id : String) : (r.without id).WellFormed where
  devices := by
    have hrest : SoundDevices (r.devices.filter (·.id != id)) := h.devices.sublist List.filter_sublist
    exact hrest.map (fun _ => rfl) (fun _ => rfl) (fun _ => rfl)
      fun d hd => (hrest.addresses d hd).dropInterface id
  connections := by
    refine h.connections.sublist List.filter_sublist ?_ ?_ ?_
    · intro c hc
      obtain ⟨hmem, hsource, htarget⟩ := ne_of_mem_without hc
      obtain ⟨hne, s, hs, t, ht, hsid, htid, hvm⟩ := h.connections.ends c hmem
      exact ⟨hne, dropInterface id s, mem_without hs (hsid ▸ hsource), dropInterface id t,
        mem_without ht (htid ▸ htarget), hsid, htid, hvm⟩
    · intro c hc ip hk
      obtain ⟨-, hsource, htarget⟩ := ne_of_mem_without hc
      exact hk.without hsource htarget
    · intro c hc ip hk
      obtain ⟨-, hsource, htarget⟩ := ne_of_mem_without hc
      exact hk.without htarget hsource

/-- Every registry that a history leaves is well formed. -/
theorem wellFormed_after (history : List Change) : (after history).WellFormed :=
  after_induction WellFormed.empty (fun _ _ _ h hd => h.accepted hd)
    (fun _ _ _ _ _ h hc => h.joined hc) (fun _ id h => h.without id) history

/-- The address that a router keeps towards a peer, read off the one device with its id. -/
theorem Keeps.of_id (h : SoundDevices ds) {id peer ip : String} (hk : Keeps ds id peer ip) {d : Device}
    (hd : d ∈ ds) (hid : d.id = id) :
    d.isRouter = true ∧ Address.Proper ip ∧
      d.interfaceIps.get? (Device.interfaceKey peer) = some ip := by
  obtain ⟨hproper, e, he, heid, hr, hget⟩ := hk
  rw [h.eq_of_id hd he (hid.trans heid.symm)]
  exact ⟨hr, hproper, hget⟩

/-- In every registry that a history leaves: ids are neither empty nor padded, and distinct; static
addresses are addresses, and distinct; interface addresses are addresses, and only routers have them;
a connection joins two different known devices that are not both virtual machines, and no two
connections join the same pair; the address of a connection at an end is an address, the end is a
router, and it is the address that this router keeps towards the peer; and every bandwidth label can be
read. -/
theorem records_sound_after (history : List Change) :
    let r := after history
    (∀ d ∈ r.devices, d.id ≠ "" ∧ Text.strip d.id = d.id) ∧
      (r.devices.map Device.id).Nodup ∧
      (∀ d ∈ r.devices, ∀ ip, d.ip = some ip → Address.Proper ip) ∧
      (r.devices.filterMap Device.ip).Nodup ∧
      (∀ d ∈ r.devices, d.isRouter = false → d.interfaceIps = .empty) ∧
      (∀ d ∈ r.devices, ∀ e ∈ d.interfaceIps.entries, Address.Proper e.2) ∧
      (∀ c ∈ r.connections, c.source ≠ c.target ∧ ∃ s ∈ r.devices, ∃ t ∈ r.devices,
        s.id = c.source ∧ t.id = c.target ∧ ¬ (s.type = .vm ∧ t.type = .vm)) ∧
      (r.connections.Pairwise fun c e => e.joins c.source c.target = false) ∧
      (∀ c ∈ r.connections, ∀ d ∈ r.devices, d.id = c.source → ∀ ip, c.sourceIp = some ip →
        d.isRouter = true ∧ Address.Proper ip ∧
          d.interfaceIps.get? (Device.interfaceKey c.target) = some ip) ∧
      (∀ c ∈ r.connections, ∀ d ∈ r.devices, d.id = c.target → ∀ ip, c.targetIp = some ip →
        d.isRouter = true ∧ Address.Proper ip ∧
          d.interfaceIps.get? (Device.interfaceKey c.source) = some ip) ∧
      ∀ c ∈ r.connections, ∀ label, c.speed = some label → ∃ x, Bandwidth.megabits label = .ok x := by
  obtain ⟨hd, hc⟩ := wellFormed_after history
  refine ⟨hd.ids, hd.ids_nodup, fun d h => (hd.addresses d h).static, hd.statics_nodup,
    fun d h => (hd.addresses d h).of_router, fun d h => (hd.addresses d h).interfaces, hc.ends, hc.pairs,
    ?_, ?_, hc.speeds⟩
  · intro c hmem d hdm hid ip hip
    exact (hc.sourceIps c hmem ip hip).of_id hd hdm hid
  · intro c hmem d hdm hid ip hip
    exact (hc.targetIps c hmem ip hip).of_id hd hdm hid

end Registry

end VirtNet
