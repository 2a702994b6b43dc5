import VirtNet.Proofs.Journal
import VirtNet.Proofs.Text.Trim
import VirtNet.Registry.History

/-!
# What a registry takes in

When a registry takes a draft in and what the draft becomes, said once for devices
(`accept_eq_ok`) and once for connections (`link_eq_ok`). The right sides, `Accepts` and `Links`, list
the conditions on a draft by name, so that a proof about a change names the condition that it needs and
opens no check. `addDevice_eq_ok` and `addConnection_eq_ok` add what the registry becomes.
-/

namespace VirtNet

/-- A cleaned text is neither empty nor padded. -/
theorem Value.cleaned?_eq_some {v : Value} {s : String} (h : v.cleaned? = some s) :
    s ≠ "" ∧ Text.strip s = s := by
  unfold cleaned? at h
  split at h
  · cases h
  · simp only [Option.ite_none_left_eq_some, Option.some.injEq] at h
    obtain ⟨hne, rfl⟩ := h
    exact ⟨by simpa using hne, Text.strip_strip _⟩

/-- A text that is neither empty nor padded survives a cleaning. -/
theorem Value.cleaned?_text {s : String} (hne : s ≠ "") (hs : Text.strip s = s) :
    (Value.text s).cleaned? = some s := by
  have htext : (Value.text s).toText = s := rfl
  have hfull : s.isEmpty = false := by simpa using hne
  unfold cleaned?
  simp [htext, hs, hfull]

namespace Registry

variable {r r' : Registry}

/-- Lookup finds a device of the registry with the id asked for. -/
theorem device?_eq_some {id : String} {d : Device} (h : r.device? id = some d) :
    d ∈ r.devices ∧ d.id = id := by
  unfold device? at h
  exact ⟨List.mem_of_find?_eq_some h, by simpa using List.find?_some h⟩

/-- Lookup finds nothing when no device has the id. -/
theorem device?_eq_none {id : String} : r.device? id = none ↔ ∀ d ∈ r.devices, d.id ≠ id := by
  simp [device?]

/-! ## Devices -/

/-- The registry `r` takes a draft in as the device `d`. -/
structure Accepts (r : Registry) (draft : Device.Draft) (d : Device) : Prop where
  /-- The id is the cleaned one, and there is one. -/
  id : draft.id.cleaned? = some d.id
  /-- The type is the one that the draft names. -/
  type : d.type = DeviceType.ofWord draft.type.toText
  /-- It is one of the three types. -/
  known : d.type.isKnown = true
  /-- No device has the id. -/
  unused : ∀ e ∈ r.devices, e.id ≠ d.id
  /-- The static address is the cleaned one, if there is one. -/
  ip : d.ip = draft.ip.cleaned?
  /-- A static address is an address that no device has. -/
  ip_free : ∀ ip, d.ip = some ip → Address.isValid ip = true ∧ ∀ e ∈ r.devices, e.ip ≠ some ip
  /-- The interface addresses pass their checks. -/
  interfaces : draftedInterfaces d.type draft.interfaceIps = .ok d.interfaceIps
  cpu : d.cpu = draft.cpu.cleaned?
  memory : d.memory = draft.memory.cleaned?
  storage : d.storage = draft.storage.cleaned?

theorem draftedId_eq_ok {v : Value} {id : String} :
    draftedId v = .ok id ↔ v.cleaned? = some id := by
  unfold draftedId
  cases v.cleaned? <;> simp

theorem draftedType_eq_ok {v : Value} {type : DeviceType} :
    draftedType v = .ok type ↔ type = DeviceType.ofWord v.toText ∧ type.isKnown = true := by
  unfold draftedType
  by_cases hk : (DeviceType.ofWord v.toText).isKnown = true
  · simp only [hk, if_true, Except.ok.injEq]
    constructor
    · rintro rfl
      exact ⟨rfl, hk⟩
    · rintro ⟨rfl, -⟩
      rfl
  · simp only [hk, if_false, Bool.false_eq_true]
    constructor
    · intro h
      cases hw : v.toText? <;> simp [hw] at h
    · rintro ⟨rfl, hk'⟩
      exact absurd hk' hk

/-- A drafted static address is taken as it was cleaned, if it is an address that is free. -/
theorem draftedAddress_eq_ok {v : Value} {ip : Option String} :
    r.draftedAddress v = .ok ip ↔
      ip = v.cleaned? ∧
        ∀ a, ip = some a → Address.isValid a = true ∧ ∀ d ∈ r.devices, d.ip ≠ some a := by
  unfold draftedAddress
  cases hc : v.cleaned? with
  | none =>
    simp only [Except.ok.injEq]
    constructor
    · rintro rfl
      exact ⟨rfl, by simp⟩
    · rintro ⟨rfl, -⟩
      rfl
  | some a =>
    by_cases hv : Address.isValid a = true
    · cases hf : r.devices.find? (·.ip == some a) with
      | none =>
        have hfree : ∀ d ∈ r.devices, d.ip ≠ some a := by simpa using hf
        simp only [hv, hf, if_true, Except.ok.injEq]
        constructor
        · rintro rfl
          refine ⟨rfl, fun b hb => ?_⟩
          cases hb
          exact ⟨hv, hfree⟩
        · rintro ⟨rfl, -⟩
          rfl
      | some owner =>
        have howner : owner.ip = some a := by simpa using List.find?_some hf
        have hmem : owner ∈ r.devices := List.mem_of_find?_eq_some hf
        simp only [hv, hf, if_true, reduceCtorEq, false_iff, not_and]
        rintro rfl h
        exact (h a rfl).2 owner hmem howner
    · simp only [hv, if_false, Bool.false_eq_true, reduceCtorEq, false_iff, not_and]
      rintro rfl h
      exact hv (h a rfl).1

/-- A draft is taken in exactly under the conditions of `Accepts`. -/
theorem accept_eq_ok {draft : Device.Draft} {d : Device} :
    r.accept draft = .ok d ↔ r.Accepts draft d := by
  unfold accept
  simp only [Outcome.bind_eq_ok, draftedId_eq_ok, draftedType_eq_ok]
  constructor
  · rintro ⟨id, hid, type, ⟨htype, hknown⟩, h⟩
    split at h
    · cases h
    · next hnone =>
      simp only [Outcome.bind_eq_ok, draftedAddress_eq_ok] at h
      obtain ⟨ip, ⟨hip, hfree⟩, interfaces, hinterfaces, ⟨⟩⟩ := h
      have hunused : r.device? id = none := by simpa using hnone
      exact {
        id := hid
        type := htype
        known := hknown
        unused := device?_eq_none.1 hunused
        ip := hip
        ip_free := hfree
        interfaces := hinterfaces
        cpu := rfl
        memory := rfl
        storage := rfl }
  · intro h
    refine ⟨d.id, h.id, d.type, ⟨h.type, h.known⟩, ?_⟩
    rw [device?_eq_none.2 h.unused]
    simp only [Option.isSome_none, Bool.false_eq_true, if_false, Outcome.bind_eq_ok]
    refine ⟨d.ip, draftedAddress_eq_ok.2 ⟨h.ip, h.ip_free⟩, d.interfaceIps, h.interfaces, ?_⟩
    rw [← h.cpu, ← h.memory, ← h.storage]
    rfl

/-- A device that is taken in goes to the end and changes nothing else. -/
theorem addDevice_eq_ok {draft : Device.Draft} {d : Device} :
    (r.addDevice draft).outcome = .ok (r', d) ↔
      r.Accepts draft d ∧ r' = ⟨r.devices ++ [d], r.connections⟩ := by
  simp only [addDevice, Journal.outcome_bind, Journal.outcome_ofExcept, Journal.outcome_note,
    Journal.outcome_pure, Outcome.bind_eq_ok, accept_eq_ok]
  constructor
  · rintro ⟨e, he, -, -, ⟨⟩⟩
    exact ⟨he, rfl⟩
  · rintro ⟨hd, rfl⟩
    exact ⟨d, hd, (), trivial, rfl⟩

/-- The checks on a drafted device come before the change: a device is refused by them and by nothing after
them. -/
theorem addDevice_eq_error {draft : Device.Draft} {e : RegistryError} :
    (r.addDevice draft).outcome = .error e ↔ r.accept draft = .error e := by
  simp only [addDevice, Journal.outcome_bind, Journal.outcome_ofExcept, Journal.outcome_note,
    Journal.outcome_pure, Outcome.bind_eq_error, reduceCtorEq, and_false, exists_false, or_false]

/-! ## Connections -/

/-- What an end of a connection takes of a drafted address: an address, and that only if the end is a
router. -/
structure TakesAddress (d : Device) (v : Value) (ip : Option String) : Prop where
  /-- The address is the cleaned one at a router and none elsewhere. -/
  eq : ip = if d.isRouter then v.cleaned? else none
  /-- It is an address. -/
  valid : ∀ a, ip = some a → Address.isValid a = true

/-- The registry `r` takes a draft in as the connection `c`, from the device `s` to the device `t`. -/
structure Links (r : Registry) (draft : Connection.Draft) (s t : Device) (c : Connection) :
    Prop where
  /-- The ends are the devices that the draft names. -/
  source : r.device? draft.source = some s
  target : r.device? draft.target = some t
  source_eq : c.source = s.id
  target_eq : c.target = t.id
  /-- They are different devices. -/
  distinct : s.id ≠ t.id
  /-- They are not both virtual machines. -/
  not_machines : ¬ (s.type = .vm ∧ t.type = .vm)
  /-- No connection joins them. -/
  fresh : ∀ e ∈ r.connections, e.joins draft.source draft.target = false
  /-- The bandwidth label is the cleaned one, if there is one. -/
  speed : c.speed = draft.speed.cleaned?
  /-- A bandwidth label can be read. -/
  speed_read : ∀ label, c.speed = some label → ∃ x, Bandwidth.megabits label = .ok x
  sourceIp : TakesAddress s draft.sourceIp c.sourceIp
  targetIp : TakesAddress t draft.targetIp c.targetIp

theorem draftedEnds_eq_ok {draft : Connection.Draft} {s t : Device} :
    r.draftedEnds draft = .ok (s, t) ↔
      r.device? draft.source = some s ∧ r.device? draft.target = some t ∧ s.id ≠ t.id ∧
        ¬ (s.type = .vm ∧ t.type = .vm) ∧
          ∀ e ∈ r.connections, e.joins draft.source draft.target = false := by
  unfold draftedEnds
  cases hs : r.device? draft.source with
  | none => simp
  | some s' =>
    cases ht : r.device? draft.target with
    | none => simp
    | some t' =>
      simp only [Option.some.injEq]
      -- Each refusal contradicts one condition on the right; past them both sides name the ends.
      split
      · next hid =>
        simp only [reduceCtorEq, false_iff]
        rintro ⟨rfl, rfl, hne, -⟩
        exact hne hid
      · next hid =>
        split
        · next hvm =>
          simp only [reduceCtorEq, false_iff]
          rintro ⟨rfl, rfl, -, hne, -⟩
          exact hne hvm
        · next hvm =>
          split
          · next hany =>
            simp only [reduceCtorEq, false_iff]
            rintro ⟨-, -, -, -, hfresh⟩
            obtain ⟨e, he, hj⟩ := List.any_eq_true.1 hany
            rw [hfresh e he] at hj
            cases hj
          · next hany =>
            have hfresh : ∀ e ∈ r.connections, e.joins draft.source draft.target = false := by
              simpa using hany
            simp only [Except.ok.injEq, Prod.mk.injEq]
            constructor
            · rintro ⟨rfl, rfl⟩
              exact ⟨rfl, rfl, hid, hvm, hfresh⟩
            · rintro ⟨rfl, rfl, -⟩
              exact ⟨rfl, rfl⟩

theorem draftedSpeed_eq_ok {v : Value} {speed : Option String} :
    draftedSpeed v = .ok speed ↔
      speed = v.cleaned? ∧ ∀ label, speed = some label → ∃ x, Bandwidth.megabits label = .ok x := by
  unfold draftedSpeed
  cases hc : v.cleaned? with
  | none =>
    simp only [Except.ok.injEq]
    constructor
    · rintro rfl
      exact ⟨rfl, by simp⟩
    · rintro ⟨rfl, -⟩
      rfl
  | some label =>
    cases hm : Bandwidth.megabits label with
    | error reason =>
      simp only [hm, reduceCtorEq, false_iff, not_and]
      rintro rfl h
      obtain ⟨x, hx⟩ := h label rfl
      rw [hm] at hx
      cases hx
    | ok x =>
      simp only [hm, Except.ok.injEq]
      constructor
      · rintro rfl
        refine ⟨rfl, fun label' hl => ?_⟩
        cases hl
        exact ⟨x, hm⟩
      · rintro ⟨rfl, -⟩
        rfl

theorem draftedEndAddress_eq_ok {d : Device} {v : Value} {ip : Option String} :
    (draftedEndAddress d v).outcome = .ok ip ↔ TakesAddress d v ip := by
  unfold draftedEndAddress
  cases hc : v.cleaned? with
  | none =>
    simp only [Journal.outcome_pure, Except.ok.injEq]
    constructor
    · rintro rfl
      exact ⟨by simp [hc], by simp⟩
    · intro h
      simpa [hc] using h.eq.symm
  | some a =>
    by_cases hr : d.isRouter = true
    · by_cases hv : Address.isValid a = true
      · simp only [hr, hv, if_true, Journal.outcome_pure, Except.ok.injEq]
        constructor
        · rintro rfl
          refine ⟨by simp [hc, hr], fun b hb => ?_⟩
          cases hb
          exact hv
        · intro h
          simpa [hc, hr] using h.eq.symm
      · simp only [hr, hv, if_true, if_false, Bool.false_eq_true, Journal.outcome_throw, reduceCtorEq,
          false_iff]
        intro h
        have hip : ip = some a := by simpa [hc, hr] using h.eq
        exact hv (h.valid a hip)
    · simp only [hr, if_false, Bool.false_eq_true, Journal.outcome_bind, Journal.outcome_note,
        Journal.outcome_pure]
      constructor
      · rintro ⟨⟩
        exact ⟨by simp [hr], by simp⟩
      · intro h
        have hip : ip = none := by simpa [hr] using h.eq
        rw [hip]
        rfl

/-- A draft is taken in exactly under the conditions of `Links`. -/
theorem link_eq_ok {draft : Connection.Draft} {c : Connection} :
    (r.link draft).outcome = .ok c ↔ ∃ s t, r.Links draft s t c := by
  simp only [link, Journal.outcome_bind, Journal.outcome_ofExcept, Journal.outcome_pure,
    Outcome.bind_eq_ok, Prod.exists, draftedEnds_eq_ok, draftedSpeed_eq_ok, draftedEndAddress_eq_ok]
  constructor
  · rintro ⟨s, t, ⟨hs, ht, hd, hm, hf⟩, speed, ⟨hspeed, hread⟩, sourceIp, hsip, targetIp, htip, ⟨⟩⟩
    exact ⟨s, t, {
      source := hs
      target := ht
      source_eq := rfl
      target_eq := rfl
      distinct := hd
      not_machines := hm
      fresh := hf
      speed := hspeed
      speed_read := hread
      sourceIp := hsip
      targetIp := htip }⟩
  · rintro ⟨s, t, h⟩
    refine ⟨s, t, ⟨h.source, h.target, h.distinct, h.not_machines, h.fresh⟩, c.speed,
      ⟨h.speed, h.speed_read⟩, c.sourceIp, h.sourceIp, c.targetIp, h.targetIp, ?_⟩
    rw [← h.source_eq, ← h.target_eq]

/-- A device after an address towards `peer` was recorded at the device `id`. -/
def withInterface (id peer : String) (ip : Option String) (d : Device) : Device :=
  match ip with
  | none => d
  | some ip => setInterface id peer ip d

@[simp]
theorem outcome_recordInterface (id peer : String) (ip : Option String) (ds : List Device) :
    (recordInterface id peer ip ds).outcome = .ok (ds.map (withInterface id peer ip)) := by
  cases ip with
  | none =>
    have hsame : withInterface id peer none = fun d => d := rfl
    simp [recordInterface, hsame]
  | some ip => rfl

/-- A device after the addresses of a connection were recorded at its ends. -/
def withLink (c : Connection) (d : Device) : Device :=
  withInterface c.target c.source c.targetIp (withInterface c.source c.target c.sourceIp d)

/-- The registry after a connection was taken in. -/
def joined (r : Registry) (c : Connection) : Registry where
  devices := r.devices.map (withLink c)
  connections := r.connections ++ [c]

/-- A connection that is taken in goes to the end, and its addresses are recorded at its ends. -/
theorem addConnection_eq_ok {draft : Connection.Draft} {c : Connection} :
    (r.addConnection draft).outcome = .ok (r', c) ↔
      (∃ s t, r.Links draft s t c) ∧ r' = r.joined c := by
  have hjoined : r.joined c =
      ⟨(r.devices.map (withInterface c.source c.target c.sourceIp)).map
        (withInterface c.target c.source c.targetIp), r.connections ++ [c]⟩ := by
    rw [List.map_map]
    rfl
  simp only [addConnection, Journal.outcome_bind, outcome_recordInterface, Journal.outcome_note,
    Journal.outcome_pure, Outcome.bind_eq_ok, link_eq_ok, hjoined]
  constructor
  · rintro ⟨e, he, -, ⟨⟩, -, ⟨⟩, -, -, ⟨⟩⟩
    exact ⟨he, rfl⟩
  · rintro ⟨hc, rfl⟩
    exact ⟨c, hc, _, rfl, _, rfl, (), trivial, rfl⟩

/-- The checks on a drafted connection come before the changes: a connection is refused by them and by
nothing after them. -/
theorem addConnection_eq_error {draft : Connection.Draft} {e : RegistryError} :
    (r.addConnection draft).outcome = .error e ↔ (r.link draft).outcome = .error e := by
  simp only [addConnection, Journal.outcome_bind, outcome_recordInterface, Journal.outcome_note,
    Journal.outcome_pure, Outcome.bind_eq_error, reduceCtorEq, and_false, exists_false, or_false]

/-! ## Changes that are made in full -/

theorem toOption_map_eq_some {ε α β : Type} {x : Except ε α} {f : α → β} {b : β} :
    x.toOption.map f = some b ↔ ∃ a, x = .ok a ∧ f a = b := by
  cases x <;> simp [Except.toOption]

/-- What a computation that succeeded leaves is kept. -/
theorem kept_eq_of_toOption {ε α : Type} {x : Except ε (Registry × α)}
    (h : x.toOption.map Prod.fst = some r') : r.kept x = r' := by
  obtain ⟨⟨r₁, a⟩, rfl, hr₁⟩ := toOption_map_eq_some.1 h
  exact hr₁

/-- A change that is made in full leaves what it would leave in a history. -/
theorem apply_of_attempt? {change : Change} (h : r.attempt? change = some r') : r.apply change = r' := by
  cases change with
  | addDevice draft => exact kept_eq_of_toOption h
  | addConnection draft => exact kept_eq_of_toOption h
  | deleteDevice id => exact Option.some.inj h
  | clear => exact Option.some.inj h
  | load design =>
    simp only [attempt?] at h
    simp only [apply]
    cases hread : (Design.readInto r design).outcome with
    | error e =>
      rw [hread] at h
      cases h
    | ok r₁ =>
      rw [hread] at h
      exact Option.some.inj h

theorem attempt?_addDevice {draft : Device.Draft} :
    r.attempt? (.addDevice draft) = some r' ↔
      ∃ d, r.Accepts draft d ∧ r' = ⟨r.devices ++ [d], r.connections⟩ := by
  simp only [attempt?, toOption_map_eq_some, Prod.exists, addDevice_eq_ok]
  constructor
  · rintro ⟨_, d, ⟨hd, rfl⟩, rfl⟩
    exact ⟨d, hd, rfl⟩
  · rintro ⟨d, hd, rfl⟩
    exact ⟨_, d, ⟨hd, rfl⟩, rfl⟩

theorem attempt?_addConnection {draft : Connection.Draft} :
    r.attempt? (.addConnection draft) = some r' ↔
      ∃ c s t, r.Links draft s t c ∧ r' = r.joined c := by
  simp only [attempt?, toOption_map_eq_some, Prod.exists, addConnection_eq_ok]
  constructor
  · rintro ⟨_, c, ⟨⟨s, t, hc⟩, rfl⟩, rfl⟩
    exact ⟨c, s, t, hc, rfl⟩
  · rintro ⟨c, s, t, hc, rfl⟩
    exact ⟨_, c, ⟨⟨s, t, hc⟩, rfl⟩, rfl⟩

theorem attempt?_deleteDevice {id : String} : r.attempt? (.deleteDevice id) = some (r.without id) := rfl

end Registry

end VirtNet
