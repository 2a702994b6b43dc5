import VirtNet.Proofs.Journal
import VirtNet.Settings.File

/-!
# Settings that are read

A document that counts as false gives the default settings, and a mapping what its fields give. The limit to
the user data that a document or a file of settings gives is a whole number.
-/

namespace VirtNet.Settings

variable {secrets : Secrets} {fields : List (Value × Value)} {data : Value} {s : Settings}

theorem ofDocument_of_not_truthy (h : data.truthy = false) : ofDocument secrets data = .ok {} := by
  rw [ofDocument, h]

theorem ofDocument_of_truthy (htruthy : data.truthy = true) (h : data.opened = .dict fields) :
    ofDocument secrets data = ofFields secrets fields := by
  rw [ofDocument, htruthy, h]

theorem exists_limit_of_ofFields (h : ofFields secrets fields = .ok s) :
    ∃ most, s.userDataLimit = .int most := by
  simp only [ofFields, Outcome.bind_eq_ok] at h
  obtain ⟨_, -, _, -, _, -, _, -, _, -, _, -, _, -, most, -, _, -, _, -, _, -, _, -, _, -, _, -, h⟩ := h
  split at h
  · cases h
    exact ⟨most, rfl⟩
  · cases h

theorem exists_limit_of_ofDocument (h : ofDocument secrets data = .ok s) :
    ∃ most, s.userDataLimit = .int most := by
  unfold ofDocument at h
  split at h
  · cases h
    exact ⟨2048, rfl⟩
  · exact exists_limit_of_ofFields h
  · cases h

theorem exists_limit_of_load {files : FileTree} {asked named : Option Path}
    (h : load files secrets asked named = .ok s) : ∃ most, s.userDataLimit = .int most := by
  simp only [load, ofFile, Outcome.bind_eq_ok] at h
  obtain ⟨there, -, h⟩ := h
  split at h
  · obtain ⟨text, -, h⟩ := Outcome.bind_eq_ok.1 h
    split at h
    · exact exists_limit_of_ofDocument (Outcome.mapError_eq_ok.1 h)
    · cases h
    · cases h
  · split at h
    · cases h
    · cases h
      exact ⟨2048, rfl⟩

end VirtNet.Settings
