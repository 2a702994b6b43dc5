import VirtNet.Proofs.Analysis.Plans

/-!
# Segments under their names

An analysis keeps its segments under keys, and a segment has a name of its own. Whatever the mode, the
two are the same (`analyze_ownNames`), so that no two segments of an analysis have the same name.
-/

namespace VirtNet.Analysis

/-- Every segment is kept under its own name. -/
def OwnNames (a : Analysis) : Prop := ∀ e ∈ a.segments.entries, e.2.name = e.1

variable {a : Analysis} {devices : List Device} {strict : Bool}

/-- Segments that are kept under their own names have different names. -/
theorem OwnNames.nodup (h : a.OwnNames) : (a.segments.values.map Segment.name).Nodup := by
  -- the names are the keys of a map
  have hkeys : a.segments.values.map Segment.name = a.segments.keys := by
    rw [OrderedMap.values, OrderedMap.keys, List.map_map]
    exact List.map_congr_left h
  rw [hkeys]
  exact a.segments.nodup

/-- Planned segments are named as they are numbered. -/
theorem Follows.ownNames {ps : List Segment.Plan} (h : Follows devices ps a) : a.OwnNames := by
  intro e he
  rw [h.segments] at he
  obtain ⟨p, k, -, rfl⟩ := mem_planned.1 he
  rfl

/-- An analysis of a registry, whatever its mode, keeps every segment under its own name. -/
theorem analyze_ownNames {r : Registry} (h : r.WellFormed) {mode : Value}
    (hok : (analyze mode strict r.devices r.connections).outcome = .ok a) : a.OwnNames := by
  obtain ⟨m, -, hfollows⟩ := analyze_follows h hok
  exact hfollows.ownNames

end VirtNet.Analysis
