import VirtNet.Proofs.Address
import VirtNet.Proofs.Registry.WellFormed

/-!
# Texts are kept as they were cleaned

The descriptions of devices and the labels of connections are cleaned when they come, and nothing changes
them later. So in every registry that a history leaves, a text that is there is neither empty nor padded
(`tidyTexts_after`), and a further cleaning would leave it as it is.
-/

namespace VirtNet

/-- A text, if there is one, is neither empty nor padded. -/
def Text.Tidy (text : Option String) : Prop := ∀ s, text = some s → s ≠ "" ∧ Text.strip s = s

/-- A proper address, if there is one, is tidy. -/
theorem Address.Proper.tidy {ip : Option String} (h : ∀ a, ip = some a → Address.Proper a) :
    Text.Tidy ip := fun a ha => ⟨Address.ne_empty_of_isValid (h a ha).1, (h a ha).2⟩

/-- What was cleaned is tidy. -/
theorem Value.tidy_cleaned? (v : Value) : Text.Tidy v.cleaned? := fun _ => Value.cleaned?_eq_some

namespace Registry

variable {r : Registry} {d : Device} {c : Connection}

/-- The descriptions of a device are tidy. -/
structure TidyDevice (d : Device) : Prop where
  cpu : Text.Tidy d.cpu
  memory : Text.Tidy d.memory
  storage : Text.Tidy d.storage

/-- The descriptions of the devices and the labels of the connections are tidy. -/
structure TidyTexts (r : Registry) : Prop where
  devices : ∀ d ∈ r.devices, TidyDevice d
  speeds : ∀ c ∈ r.connections, Text.Tidy c.speed

/-- Descriptions stay tidy whatever becomes of the interface addresses. -/
theorem TidyDevice.withInterfaces (h : TidyDevice d) (m : OrderedMap String) :
    TidyDevice { d with interfaceIps := m } :=
  ⟨h.cpu, h.memory, h.storage⟩

/-- The descriptions of a device that is taken in are tidy. -/
theorem Accepts.tidyDevice {draft : Device.Draft} (h : r.Accepts draft d) : TidyDevice d where
  cpu := h.cpu ▸ Value.tidy_cleaned? draft.cpu
  memory := h.memory ▸ Value.tidy_cleaned? draft.memory
  storage := h.storage ▸ Value.tidy_cleaned? draft.storage

/-- A connection that is taken in changes nothing but interface addresses at a device. -/
theorem exists_withLink_eq (c : Connection) (d : Device) :
    ∃ m, withLink c d = { d with interfaceIps := m } := by
  have hinterface : ∀ (id peer : String) (ip : Option String) (d : Device),
      ∃ m, withInterface id peer ip d = { d with interfaceIps := m } := by
    intro id peer ip d
    cases ip with
    | none => exact ⟨d.interfaceIps, rfl⟩
    | some ip =>
      unfold withInterface setInterface
      by_cases hid : d.id = id
      · exact ⟨_, if_pos hid⟩
      · exact ⟨d.interfaceIps, if_neg hid⟩
  obtain ⟨m, hm⟩ := hinterface c.source c.target c.sourceIp d
  obtain ⟨m', hm'⟩ := hinterface c.target c.source c.targetIp { d with interfaceIps := m }
  refine ⟨m', ?_⟩
  rw [withLink, hm, hm']

/-- The texts in every registry that a history leaves are tidy: they were cleaned when they came. -/
theorem tidyTexts_after (history : List Change) : (after history).TidyTexts := by
  refine after_induction (P := TidyTexts) ?empty ?device ?connection ?removal history
  case empty => exact ⟨by simp [empty], by simp [empty]⟩
  case device =>
    intro r draft d h hd
    refine ⟨?_, h.speeds⟩
    intro e he
    rcases List.mem_append.1 he with he | he
    · exact h.devices e he
    · rw [List.mem_singleton.1 he]
      exact hd.tidyDevice
  case connection =>
    intro r draft s t c h hc
    refine ⟨?_, ?_⟩
    · intro e he
      obtain ⟨d, hd, rfl⟩ := List.mem_map.1 he
      obtain ⟨m, hm⟩ := exists_withLink_eq c d
      rw [hm]
      exact (h.devices d hd).withInterfaces m
    · intro e he
      rcases List.mem_append.1 he with he | he
      · exact h.speeds e he
      · rw [List.mem_singleton.1 he, hc.speed]
        exact Value.tidy_cleaned? draft.speed
  case removal =>
    intro r id h
    refine ⟨?_, fun c hc => h.speeds c (List.mem_filter.1 hc).1⟩
    intro e he
    obtain ⟨d, hd, rfl⟩ := List.mem_map.1 he
    exact (h.devices d (List.mem_filter.1 hd).1).withInterfaces _

end Registry

end VirtNet
