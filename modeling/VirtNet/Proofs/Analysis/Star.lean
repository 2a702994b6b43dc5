import VirtNet.Proofs.Analysis.Subnets

/-!
# Designs of any size

A star is a router with a number of hosts, each connected to it, none with an address. A registry takes
a star of any size in (`after_star`), and its analysis by connections has one automatic segment for each
host (`analyze_star`). So nothing bounds the numbers of segments.
-/

namespace VirtNet.Analysis

open Registry (after)

/-- The changes that make a star with `n` hosts. The hosts are named by their numbers, and each is
connected when it has come. -/
def star : (n : Nat) → List Change
  | 0 => [.addDevice { id := .text "R", type := .text "router" }]
  | n + 1 => star n ++ [
    .addDevice { id := .text n.repr, type := .text "vm" },
    .addConnection { source := "R", target := n.repr }]

/-- The router of a star. -/
def hub : Device := ⟨"R", .router, none, none, none, none, .empty⟩

/-- A host of a star. -/
def leaf (i : Nat) : Device := ⟨i.repr, .vm, none, none, none, none, .empty⟩

/-- The connection of a host of a star. -/
def spoke (i : Nat) : Connection := ⟨"R", i.repr, none, none, none⟩

/-- A star with `n` hosts. -/
def starOf (n : Nat) : Registry where
  devices := hub :: (List.range n).map leaf
  connections := (List.range n).map spoke

variable {n : Nat}

/-! ## The registry of a star -/

/-- No host has the name of the router. -/
theorem repr_ne_hub : n.repr ≠ "R" := by
  intro h
  have hdigit : 'R'.isDigit = true := @Address.isDigit_of_mem_repr n 'R' (by rw [h]; decide)
  cases hdigit

/-- The name of a host is clean. -/
theorem cleaned?_repr : (Value.text n.repr).cleaned? = some n.repr := by
  have hblank : ∀ c ∈ n.repr.toList, Text.isBlank c = false := fun c hc =>
    Address.isBlank_of_isDigit (Address.isDigit_of_mem_repr hc)
  have htrim : Text.trimBy Text.isBlank n.repr.toList = n.repr.toList :=
    Text.trimBy_eq_self_iff.2 ⟨fun c hc => hblank c (List.mem_of_head? hc),
      fun c hc => hblank c (List.mem_of_getLast? hc)⟩
  have hstrip : Text.strip n.repr = n.repr := by rw [Text.strip, htrim, String.ofList_toList]
  have hne : n.repr ≠ "" := by
    rw [Ne, ← String.toList_eq_nil_iff, Nat.toList_repr]
    exact Nat.toDigits_ne_nil
  exact Value.cleaned?_text hne hstrip

/-- A further host. -/
theorem accepts_leaf : (starOf n).Accepts { id := .text n.repr, type := .text "vm" } (leaf n) where
  id := cleaned?_repr
  type := rfl
  known := rfl
  unused := by
    intro e he
    rcases List.mem_cons.1 he with rfl | he
    · exact repr_ne_hub.symm
    · obtain ⟨i, hi, rfl⟩ := List.mem_map.1 he
      have hlt : i < n := List.mem_range.1 hi
      intro hname
      have hin : i = n := Address.repr_inj.1 hname
      omega
  ip := rfl
  ip_free := by
    intro ip hip
    cases hip
  interfaces := rfl
  cpu := rfl
  memory := rfl
  storage := rfl

/-- The star when a further host has come and is not connected yet. -/
def withLeaf (n : Nat) : Registry := ⟨(starOf n).devices ++ [leaf n], (starOf n).connections⟩

/-- The connection of a further host. -/
theorem links_spoke : (withLeaf n).Links { source := "R", target := n.repr } hub (leaf n) (spoke n) where
  source := rfl
  target := by
    have hnone : (starOf n).devices.find? (·.id == n.repr) = none :=
      Registry.device?_eq_none.2 accepts_leaf.unused
    unfold Registry.device? withLeaf
    rw [List.find?_append, hnone]
    simp [leaf]
  source_eq := rfl
  target_eq := rfl
  distinct := repr_ne_hub.symm
  not_machines := by
    rintro ⟨hvm, -⟩
    cases hvm
  fresh := by
    intro e he
    -- the leaves so far have smaller numbers, and none of them is the hub
    obtain ⟨i, hi, rfl⟩ := List.mem_map.1 he
    have hlt : i < n := List.mem_range.1 hi
    have hne : i.repr ≠ n.repr := fun h => by
      have hin : i = n := Address.repr_inj.1 h
      omega
    simp [Connection.joins, spoke, hne, repr_ne_hub]
  speed := rfl
  speed_read := by
    intro label hlabel
    cases hlabel
  sourceIp := ⟨rfl, by intro ip hip; cases hip⟩
  targetIp := ⟨rfl, by intro ip hip; cases hip⟩

/-- A registry takes a star of any size in. -/
theorem after_star : after (star n) = starOf n := by
  induction n with
  | zero => decide +kernel
  | succ n ih =>
    have hleaf : ((starOf n).addDevice { id := .text n.repr, type := .text "vm" }).outcome =
        .ok (withLeaf n, leaf n) := Registry.addDevice_eq_ok.2 ⟨accepts_leaf, rfl⟩
    have hspoke : ((withLeaf n).addConnection { source := "R", target := n.repr }).outcome =
        .ok ((withLeaf n).joined (spoke n), spoke n) :=
      Registry.addConnection_eq_ok.2 ⟨⟨_, _, links_spoke⟩, rfl⟩
    have hjoined : (withLeaf n).joined (spoke n) = starOf (n + 1) := by
      have hsame : Registry.withLink (spoke n) = fun d => d := rfl
      simp [Registry.joined, withLeaf, starOf, hsame, List.range_succ]
    -- neither the host nor its connection is refused
    rw [star, after, List.foldl_append]
    show [_, _].foldl Registry.apply (after (star n)) = starOf (n + 1)
    rw [ih, List.foldl_cons, List.foldl_cons, List.foldl_nil, Registry.apply, Registry.apply, hleaf]
    simp only [Registry.kept]
    rw [hspoke]
    exact hjoined

/-! ## The analysis of a star -/

/-- No two connections of a star look alike. -/
theorem links_starOf : links (starOf n).connections = (starOf n).connections := by
  rw [links_eq_self_iff, starOf, List.pairwise_map]
  refine List.pairwise_lt_range.imp ?_
  intro i j hij
  rw [← Bool.not_eq_true]
  intro hlike
  have hsource : '-' ∉ "R".toList := by decide
  have htarget : '-' ∉ j.repr.toList := by
    intro h
    cases Address.isDigit_of_mem_repr h
  have hjoins := @joins_of_looksLike (spoke i) (spoke j) hsource htarget hlike
  have hsame : j.repr = i.repr := by simpa [Connection.joins, spoke, repr_ne_hub] using hjoins
  have hji : j = i := Address.repr_inj.1 hsame
  omega

/-- No device of a star has an address. -/
theorem staticOf_starOf (id : String) : staticOf (starOf n).devices id = none := by
  unfold staticOf
  cases hd : deviceOf? (starOf n).devices id with
  | none => rfl
  | some d =>
    obtain ⟨hmem, -⟩ := deviceOf?_eq_some hd
    rcases List.mem_cons.1 hmem with rfl | hleaf
    · rfl
    · obtain ⟨i, -, rfl⟩ := List.mem_map.1 hleaf
      rfl

/-- The analysis of a star by connections has an automatic segment for each number up to its size. -/
theorem analyze_star (n : Nat) : ∃ a,
    (analyze (.text "connection") false (after (star n)).devices
      (after (star n)).connections).outcome = .ok a ∧
    ∀ k < n, ∃ e, a.segments.entries[k]? = some e ∧ e.2.detectedFrom = none ∧
      e.2.base = Segment.fallbackBase (k + 1) := by
  have hr : (after (star n)).WellFormed := Registry.wellFormed_after (star n)
  obtain ⟨a, ha⟩ := exists_byConnection (after (star n)).devices (after (star n)).connections
  have hmode : NetworkMode.ofValue (.text "connection") = .ok .connection := by decide
  refine ⟨a, analyze_eq_ok.2 ⟨.connection, hmode, ha⟩, ?_⟩
  have hfollows : Follows (starOf n).devices (plans .connection (starOf n).devices (starOf n).connections)
      a := by
    rw [← after_star]
    exact inMode_follows hr ha
  intro k hk
  have hplan : (plans .connection (starOf n).devices (starOf n).connections)[k]? =
      some (linkPlan (starOf n).devices (spoke k)) := by
    rw [plans, links_starOf, starOf, List.getElem?_map, List.getElem?_map, List.getElem?_range hk]
    rfl
  -- none of the four candidates of the plan is there
  have hcandidates : (linkPlan (starOf n).devices (spoke k)).candidates = [none, none, none, none] := by
    rw [linkPlan, staticOf_starOf, staticOf_starOf]
    rfl
  refine ⟨(Segment.nameOf (k + 1), Segment.ofPlan (k + 1) (linkPlan (starOf n).devices (spoke k))), ?_, ?_⟩
  · rw [hfollows.segments, getElem?_planned, hplan]
    rfl
  · rw [Segment.ofPlan, hcandidates]
    exact ⟨rfl, rfl⟩

end VirtNet.Analysis
