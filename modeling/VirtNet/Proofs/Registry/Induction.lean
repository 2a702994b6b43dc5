import VirtNet.Proofs.Registry.Acceptance

/-!
# Induction over histories

What holds of the empty registry, and is kept when a device is taken in, when a connection is taken in
and when a device is removed, holds of every registry that a history leaves (`after_induction`). The
other changes need no case of their own: a refused record changes nothing, and a written design adds
its records one by one, up to its first fault. Where it matters which devices can be taken in at all, they
are those that the history offers (`after_induction_offered`).
-/

namespace VirtNet

variable {P : Registry → Prop} {D : Device.Draft → Prop}

/-- A change offers a draft of a device: it asks for the device, or for a design with a record of it. -/
inductive Change.Offers (draft : Device.Draft) : Change → Prop
  | device : Offers draft (.addDevice draft)
  | record {design v : Value} {fields : List (Value × Value)} {records : List Value} {place : Nat}
      (opened : design.opened = .dict fields)
      (listed : Design.listUnder? "devices" fields = some records) (mem : v ∈ records)
      (drafted : Design.deviceDraft place v = .ok draft) : Offers draft (.load design)

namespace Design

/-- Written devices are added one by one, so that what one device keeps a list of them keeps. -/
theorem addDevices_keeps
    (device : ∀ r draft d, D draft → P r → r.Accepts draft d → P ⟨r.devices ++ [d], r.connections⟩)
    (vs : List Value) (drafted : ∀ v ∈ vs, ∀ place draft, deviceDraft place v = .ok draft → D draft)
    (r : Registry) (place : Nat) (h : P r) : P (left (addDevices r place vs).outcome) := by
  induction vs generalizing r place with
  | nil => exact h
  | cons v rest ih =>
    rw [List.forall_mem_cons] at drafted
    simp only [addDevices, Journal.outcome_bind, Journal.outcome_mapError, Journal.outcome_ofExcept]
    cases hd : deviceDraft place v with
    | error e => exact h
    | ok draft =>
      cases ha : (r.addDevice draft).outcome with
      | error e => simpa [ha, left] using h
      | ok added =>
        obtain ⟨r', d⟩ := added
        obtain ⟨hacc, rfl⟩ := Registry.addDevice_eq_ok.1 ha
        simpa [ha] using ih drafted.2 _ _ (device r draft d (drafted.1 _ _ hd) h hacc)

/-- Written connections are added one by one, so that what one connection keeps a list of them
keeps. -/
theorem addConnections_keeps
    (connection : ∀ r draft s t c, P r → r.Links draft s t c → P (r.joined c))
    (vs : List Value) (r : Registry) (place : Nat) (h : P r) :
    P (left (addConnections r place vs).outcome) := by
  induction vs generalizing r place with
  | nil => exact h
  | cons v rest ih =>
    simp only [addConnections, Journal.outcome_bind, Journal.outcome_mapError,
      Journal.outcome_ofExcept]
    cases hd : connectionDraft place v with
    | error e => exact h
    | ok draft =>
      cases ha : (r.addConnection draft).outcome with
      | error e => simpa [ha, left] using h
      | ok added =>
        obtain ⟨r', c⟩ := added
        obtain ⟨⟨s, t, hlink⟩, rfl⟩ := Registry.addConnection_eq_ok.1 ha
        simpa [ha] using ih _ _ (connection r draft s t c h hlink)

/-- What one device and one connection keep a written design keeps, even if it is refused half way. -/
theorem readInto_keeps {data : Value} (offered : ∀ draft, (Change.load data).Offers draft → D draft)
    (device : ∀ r draft d, D draft → P r → r.Accepts draft d → P ⟨r.devices ++ [d], r.connections⟩)
    (connection : ∀ r draft s t c, P r → r.Links draft s t c → P (r.joined c))
    {r : Registry} (h : P r) : P (left (readInto r data).outcome) := by
  unfold readInto
  split
  · next fields hopen =>
    split
    · next devices connections hd hc =>
      have hdevices := addDevices_keeps device devices
        (fun v hv place draft hdraft => offered draft (.record hopen hd hv hdraft)) r 1 h
      rw [Journal.outcome_bind]
      cases hadd : (addDevices r 1 devices).outcome with
      | error e => simpa [hadd] using hdevices
      | ok r' =>
        rw [hadd] at hdevices
        exact addConnections_keeps connection connections r' 1 hdevices
    · exact h
  · exact h

end Design

namespace Registry

/-- Induction over histories: the four cases are those in which a registry changes. A device that is taken
in is one that a change of the history offers. -/
theorem after_induction_offered {history : List Change} (empty : P empty)
    (device : ∀ r draft d, (∃ change ∈ history, change.Offers draft) → P r → r.Accepts draft d →
      P ⟨r.devices ++ [d], r.connections⟩)
    (connection : ∀ r draft s t c, P r → r.Links draft s t c → P (r.joined c))
    (removal : ∀ r id, P r → P (r.without id)) : P (after history) := by
  have step : ∀ change ∈ history, ∀ r, P r → P (r.apply change) := by
    intro change hchange r h
    cases change with
    | addDevice draft =>
      simp only [apply]
      cases ha : (r.addDevice draft).outcome with
      | error e => exact h
      | ok added =>
        obtain ⟨r', d⟩ := added
        obtain ⟨hacc, rfl⟩ := addDevice_eq_ok.1 ha
        exact device r draft d ⟨_, hchange, .device⟩ h hacc
    | addConnection draft =>
      simp only [apply]
      cases ha : (r.addConnection draft).outcome with
      | error e => exact h
      | ok added =>
        obtain ⟨r', c⟩ := added
        obtain ⟨⟨s, t, hlink⟩, rfl⟩ := addConnection_eq_ok.1 ha
        exact connection r draft s t c h hlink
    | deleteDevice id => exact removal r id h
    | clear => exact empty
    | load design =>
      exact Design.readInto_keeps (fun draft hoffer => ⟨_, hchange, hoffer⟩) device connection h
  exact List.foldlRecOn history apply empty fun r h change hmem => step change hmem r h

/-- Induction over histories where every device can be taken in. -/
theorem after_induction (empty : P empty)
    (device : ∀ r draft d, P r → r.Accepts draft d → P ⟨r.devices ++ [d], r.connections⟩)
    (connection : ∀ r draft s t c, P r → r.Links draft s t c → P (r.joined c))
    (removal : ∀ r id, P r → P (r.without id)) (history : List Change) : P (after history) :=
  after_induction_offered empty (fun r draft d _ => device r draft d) connection removal

end Registry

end VirtNet
