import Mathlib.Algebra.Group.Nat.Defs
import VirtNet.Manifest.Attachment
import VirtNet.Proofs.Analysis.Names
import VirtNet.Proofs.Text.Numeral

/-!
# Bridges are isolated

Every segment has a bridge of its own, with a name that is short enough for an interface
(`bridgeNames_isolated`). A name is `br` and the third octet of the segment's network or, where that is
taken, the same with `n` and the segment's number after it. The octet is a numeral, so that the `n` tells
the two forms apart. It has three digits at most if an address decides it and is the segment's number
otherwise (`OctetOf`); a number has no other segment, so an octet that is taken has three digits at most.
The names that are given keep to this (`Named`), which is all that the next name needs.
-/

namespace VirtNet

open Segment (Plan)

/-- What the third octet of the segment with a number can be: an octet of an address, or the number. -/
structure Segment.OctetOf (number : Nat) (octet : String) : Prop where
  digits : ∀ c ∈ octet.toList, c.isDigit = true
  short : octet.length ≤ 3 ∨ octet = number.repr

namespace Attachment

open Segment (OctetOf)

variable {n number number' : Nat} {octet octet' b : String} {s : Segment} {used : List String}

/-! ## Octets -/

/-- The numeral of a number with so many digits has no more characters. -/
theorem length_repr_le {k : Nat} (hk : 0 < k) (h : n < Nat.pow 10 k) : n.repr.length ≤ k := by
  rw [← String.length_toList, Nat.toList_repr]
  exact Text.length_toDigits_le hk h

/-- A segment has a third octet that its number can have. -/
theorem exists_octetOf_formed {members : List String} {candidates : List (Option String)}
    {connection : Option Connection} :
    ∃ octet, thirdOctet (Segment.formed number members candidates connection) = .ok octet ∧
      OctetOf number octet := by
  obtain ⟨cs, hcs, hoctet⟩ : ∃ cs,
      (Text.fields '.' (Segment.formed number members candidates connection).base.toList)[2]? =
        some cs ∧ OctetOf number (String.ofList cs) := by
    rw [Segment.base_formed]
    cases hip : (Segment.formed number members candidates connection).detectedFrom with
    | none =>
      have hfallback : Segment.fallbackBase number = Address.network 192 168 number := rfl
      refine ⟨Nat.toDigits 10 number, ?_, ?_, .inr ?_⟩
      · rw [Option.map_none, Option.getD_none, hfallback, Address.fields_network]
        rfl
      · intro c hc
        rw [String.toList_ofList] at hc
        exact Address.isDigit_of_mem_toDigits hc
      · rw [← Nat.toList_repr, String.ofList_toList]
    | some ip =>
      have hvalid := Segment.isValid_of_detectedFrom hip
      obtain ⟨hfour, hoctets⟩ := Address.isValid_iff.1 hvalid
      have hlt : 2 < (Address.dotted ip).length := by omega
      obtain ⟨z, hz⟩ := Option.isSome_iff_exists.1 (hoctets _ (List.getElem_mem hlt))
      obtain ⟨hle, hdigits⟩ := Address.octet?_eq_some.1 hz
      refine ⟨Nat.toDigits 10 z, ?_, ?_, .inl ?_⟩
      · rw [Option.map_some, Option.getD_some, Address.fields_base hvalid, List.getElem?_take_of_lt
          (by decide), List.getElem?_eq_getElem hlt, hdigits]
      · intro c hc
        rw [String.toList_ofList] at hc
        exact Address.isDigit_of_mem_toDigits hc
      · rw [String.length_ofList]
        exact Text.length_toDigits_le (by decide) (Nat.lt_of_le_of_lt hle (by decide))
  refine ⟨String.ofList cs, ?_, hoctet⟩
  rw [thirdOctet, Segment.thirdOctet?, hcs]
  rfl

/-! ## Names of bridges -/

/-- The name of a bridge for an octet that is not taken. -/
def shortBridge (octet : String) : String := "br" ++ octet

/-- The name of a bridge for an octet that is taken. -/
def longBridge (octet : String) (number : Nat) : String := "br" ++ octet ++ "n" ++ number.repr

theorem toList_longBridge (octet : String) (number : Nat) :
    (longBridge octet number).toList = "br".toList ++ (octet.toList ++ 'n' :: number.repr.toList) := by
  rw [longBridge, String.toList_append, String.toList_append, String.toList_append, List.append_assoc,
    List.append_assoc]
  rfl

theorem shortBridge_inj : shortBridge octet = shortBridge octet' ↔ octet = octet' :=
  String.append_right_inj "br"

/-- There is no `n` among digits. -/
theorem letter_not_mem (h : ∀ c ∈ octet.toList, c.isDigit = true) : 'n' ∉ octet.toList :=
  fun hn => absurd (h 'n' hn) (by decide)

/-- The two forms of names do not meet. -/
theorem shortBridge_ne_longBridge (h : ∀ c ∈ octet.toList, c.isDigit = true) :
    shortBridge octet ≠ longBridge octet' number := by
  intro heq
  have hlist : octet.toList = octet'.toList ++ 'n' :: number.repr.toList := by
    have happend := congrArg String.toList heq
    rw [toList_longBridge, shortBridge, String.toList_append] at happend
    exact List.append_cancel_left happend
  have hmem : 'n' ∈ octet.toList := by
    rw [hlist]
    exact List.mem_append_right _ List.mem_cons_self
  exact letter_not_mem h hmem

/-- Two numbers never make one name. -/
theorem number_eq_of_longBridge (h : ∀ c ∈ octet.toList, c.isDigit = true)
    (heq : longBridge octet number = longBridge octet' number') : number = number' := by
  have happend := congrArg String.toList heq
  rw [toList_longBridge, toList_longBridge] at happend
  have hdigits : 'n' ∉ number.repr.toList := letter_not_mem fun _ => Address.isDigit_of_mem_repr
  obtain ⟨-, -, hnumbers⟩ := (List.append_cons_inj_of_notMem (letter_not_mem h) hdigits).1
    (List.append_cancel_left happend)
  exact Address.repr_inj.1 (String.toList_inj.1 hnumbers)

/-- What a segment's bridge is named, given the names in use. -/
theorem outcome_bridgeName (hoctet : thirdOctet s = .ok octet) : (bridgeName used s).outcome =
    .ok (if shortBridge octet ∈ used then shortBridge octet ++ "n" ++ shortName s.name
      else shortBridge octet) := by
  have hcontains : used.contains ("br" ++ octet) = true ↔ shortBridge octet ∈ used :=
    List.contains_iff_mem
  rw [bridgeName, Journal.outcome_bind, Journal.outcome_ofExcept, hoctet, Outcome.ok_bind]
  dsimp only
  by_cases hused : shortBridge octet ∈ used
  · rw [if_pos hused, if_pos (hcontains.2 hused)]
    rfl
  · rw [if_neg hused, if_neg (mt hcontains.1 hused)]
    rfl

/-- The name of a segment without the word that starts it is its number. -/
theorem shortName_nameOf (number : Nat) : shortName (Segment.nameOf number) = number.repr := by
  have hnet : (Segment.nameOf number).toList = "net".toList ++ number.repr.toList := by
    rw [← String.toList_append]
    rfl
  have hpre : "net".toList.isPrefixOf (Segment.nameOf number).toList = true := by
    rw [List.isPrefixOf_iff_prefix, hnet]
    exact List.prefix_append _ _
  have hdrop : (Segment.nameOf number).toList.drop 3 = number.repr.toList := by
    rw [hnet]
    rfl
  rw [shortName, if_pos hpre, hdrop, String.ofList_toList]

/-! ## The names that are given -/

/-- A name that may be given to the bridge of one of the first `n` segments. -/
inductive MayName (n : Nat) : String → Prop
  | short (number : Nat) (octet : String) (hle : number ≤ n) (h : OctetOf number octet) :
    MayName n (shortBridge octet)
  | long (number : Nat) (octet : String) (hle : number ≤ n) (hdigits : ∀ c ∈ octet.toList, c.isDigit = true)
    (h : octet.length ≤ 3) : MayName n (longBridge octet number)

/-- The names that are given to the bridges of the first `n` segments. -/
structure Named (n : Nat) (used : List String) : Prop where
  nodup : used.Nodup
  names : ∀ b ∈ used, MayName n b

theorem MayName.succ (h : MayName n b) : MayName (n + 1) b := by
  cases h with
  | short number octet hle h => exact .short number octet (Nat.le_succ_of_le hle) h
  | long number octet hle hdigits h => exact .long number octet (Nat.le_succ_of_le hle) hdigits h

/-- An octet that is taken when its segment comes is one of an address. -/
theorem Named.length_le_of_mem (h : Named n used) (ho : OctetOf (n + 1) octet)
    (hused : shortBridge octet ∈ used) : octet.length ≤ 3 := by
  rcases ho.short with hshort | hnumber
  · exact hshort
  · generalize hb : shortBridge octet = b at hused
    cases h.names b hused with
    | short number octet' hle ho' =>
      obtain rfl := shortBridge_inj.1 hb
      rcases ho'.short with hshort | hother
      · exact hshort
      · -- the number of an earlier segment is not the number of this one
        have heq : n + 1 = number := Address.repr_inj.1 (hnumber.symm.trans hother)
        omega
    | long => exact absurd hb (shortBridge_ne_longBridge ho.digits)

/-- A long name with a new number is new. -/
theorem Named.longBridge_not_mem (h : Named n used) (hdigits : ∀ c ∈ octet.toList, c.isDigit = true) :
    longBridge octet (n + 1) ∉ used := by
  intro hused
  generalize hb : longBridge octet (n + 1) = b at hused
  cases h.names b hused with
  | short _ _ _ ho => exact shortBridge_ne_longBridge ho.digits hb.symm
  | long number _ hle _ _ =>
    have heq : n + 1 = number := number_eq_of_longBridge hdigits hb
    omega

/-- Naming one more bridge. -/
theorem Named.next (h : Named n used) (ho : OctetOf (n + 1) octet) :
    Named (n + 1)
      ((if shortBridge octet ∈ used then longBridge octet (n + 1) else shortBridge octet) :: used) := by
  by_cases hused : shortBridge octet ∈ used
  · rw [if_pos hused]
    exact ⟨List.nodup_cons.2 ⟨h.longBridge_not_mem ho.digits, h.nodup⟩, List.forall_mem_cons.2
      ⟨.long (n + 1) octet le_rfl ho.digits (h.length_le_of_mem ho hused),
        fun b hb => (h.names b hb).succ⟩⟩
  · rw [if_neg hused]
    exact ⟨List.nodup_cons.2 ⟨hused, h.nodup⟩, List.forall_mem_cons.2
      ⟨.short (n + 1) octet le_rfl ho, fun b hb => (h.names b hb).succ⟩⟩

/-- The names have at most fifteen characters as long as the numbers have at most nine digits. -/
theorem MayName.length_le (h : MayName n b) (hn : n < 10 ^ 9) : b.length ≤ 15 := by
  have hnine : ∀ number ≤ n, number.repr.length ≤ 9 := fun number hle =>
    length_repr_le (by decide) (Nat.lt_of_le_of_lt hle hn)
  have hbr : "br".length = 2 := by decide
  have hn : "n".length = 1 := by decide
  cases h with
  | short number octet hle ho =>
    have hlength : octet.length ≤ 9 := by
      rcases ho.short with hshort | rfl
      · omega
      · exact hnine number hle
    rw [shortBridge, String.length_append]
    omega
  | long number octet hle _ hshort =>
    have hlength := hnine number hle
    rw [longBridge, String.length_append, String.length_append, String.length_append]
    omega

/-! ## The bridges of a list of segments -/

/-- Segments that are numbered on from `n`, each with an octet that it can have. -/
def Numbered : Nat → List Segment → Prop
  | _, [] => True
  | n, s :: rest =>
    (s.name = Segment.nameOf (n + 1) ∧ ∃ octet, thirdOctet s = .ok octet ∧ OctetOf (n + 1) octet) ∧
      Numbered (n + 1) rest

/-- The segments of plans are numbered on. -/
theorem numbered_ofPlan {ps : List Plan} :
    Numbered n ((ps.zipIdx (n + 1)).map fun p => Segment.ofPlan p.2 p.1) := by
  induction ps generalizing n with
  | nil => trivial
  | cons p ps ih => exact ⟨⟨rfl, exists_octetOf_formed⟩, ih⟩

/-- The bridges of the segments after the first `n`. The bridges of these are named by `used`. -/
theorem exists_bridgeNamesFrom_named {segments : List Segment} {names : OrderedMap String}
    (h : Numbered n segments) (hused : Named n used)
    (hkeys : names.keys = (List.range' 1 n).map Segment.nameOf) (hvalues : names.values = used.reverse) :
    ∃ bridges, (bridgeNamesFrom used names segments).outcome = .ok bridges ∧
      bridges.keys = names.keys ++ segments.map Segment.name ∧
        Named (n + segments.length) bridges.values.reverse := by
  induction segments generalizing n used names with
  | nil =>
    refine ⟨names, rfl, by simp, ?_⟩
    rw [hvalues, List.reverse_reverse]
    exact hused
  | cons s rest ih =>
    obtain ⟨⟨hname, octet, hoctet, ho⟩, hrest⟩ := h
    -- the segments so far have smaller numbers
    have hnew : Segment.nameOf (n + 1) ∉ names.keys := by
      rw [hkeys, List.mem_map]
      rintro ⟨k, hk, hsame⟩
      rw [List.mem_range'_1] at hk
      have hkn : k = n + 1 := Segment.nameOf_inj.1 hsame
      omega
    have hbridge : (bridgeName used s).outcome = .ok
        (if shortBridge octet ∈ used then longBridge octet (n + 1) else shortBridge octet) := by
      rw [outcome_bridgeName hoctet, hname, shortName_nameOf]
      rfl
    rw [bridgeNamesFrom, Journal.outcome_bind, hbridge, Outcome.ok_bind]
    generalize hb : (if shortBridge octet ∈ used then longBridge octet (n + 1) else shortBridge octet) = b
    have hentries : (names.insert s.name b).entries = names.entries ++ [(s.name, b)] := by
      rw [hname]
      exact OrderedMap.entries_insert_of_not_mem hnew
    have hkeys' : (names.insert s.name b).keys = names.keys ++ [s.name] := by
      rw [OrderedMap.keys, hentries, List.map_append]
      rfl
    have hvalues' : (names.insert s.name b).values = (b :: used).reverse := by
      rw [OrderedMap.values, hentries, List.map_append, List.reverse_cons, ← hvalues]
      rfl
    have hrange : (names.insert s.name b).keys = (List.range' 1 (n + 1)).map Segment.nameOf := by
      rw [hkeys', hkeys, hname, List.range'_1_concat, List.map_append, Nat.add_comm]
      rfl
    obtain ⟨bridges, hok, hall, hnamed⟩ := ih hrest (hb ▸ hused.next ho) hrange hvalues'
    refine ⟨bridges, hok, ?_, ?_⟩
    · rw [hall, hkeys', List.append_assoc]
      rfl
    · rw [List.length_cons, Nat.add_comm rest.length, ← Nat.add_assoc]
      exact hnamed

/-- Whatever a registry went through and whatever the mode, every segment of an analysis has a bridge,
different segments have different bridges, and as long as there are fewer than a thousand million segments
no bridge has a name of more than fifteen characters. -/
theorem bridgeNames_isolated (history : List Change) (mode : NetworkMode) (strict : Bool) {a : Analysis}
    (ha : (Analysis.inMode mode strict (Registry.after history).devices
      (Registry.after history).connections).outcome = .ok a) :
    ∃ bridges, (bridgeNames a.segments.values).outcome = .ok bridges ∧
      bridges.keys = a.segments.keys ∧ bridges.values.Nodup ∧
        (a.segments.entries.length < 10 ^ 9 → ∀ b ∈ bridges.values, b.length ≤ 15) := by
  have hfollows := Analysis.inMode_follows (Registry.wellFormed_after history) ha
  have hnumbered : Numbered 0 a.segments.values := by
    rw [OrderedMap.values, hfollows.segments, Analysis.planned, List.map_map]
    exact numbered_ofPlan
  have hstart : Named 0 [] := ⟨List.nodup_nil, List.forall_mem_nil _⟩
  obtain ⟨bridges, hok, hkeys, hnamed⟩ :=
    @exists_bridgeNamesFrom_named 0 [] _ .empty hnumbered hstart rfl rfl
  refine ⟨bridges, hok, ?_, List.nodup_reverse.1 hnamed.nodup, ?_⟩
  · rw [hkeys, OrderedMap.values, OrderedMap.keys, List.map_map]
    exact List.map_congr_left hfollows.ownNames
  · intro hlt b hb
    refine (hnamed.names b (List.mem_reverse.2 hb)).length_le ?_
    rw [OrderedMap.values, List.length_map, Nat.zero_add]
    exact hlt

/-- A router with three hosts. The networks of the first two have one third octet, and that of the last
is not decided by an address. -/
def sharedOctet : List Change := [
  .addDevice { id := .text "R", type := .text "router" },
  .addDevice { id := .text "a", type := .text "vm", ip := .text "10.0.5.7" },
  .addDevice { id := .text "b", type := .text "vm", ip := .text "10.1.5.7" },
  .addDevice { id := .text "c", type := .text "vm" },
  .addConnection { source := "R", target := "a" },
  .addConnection { source := "R", target := "b" },
  .addConnection { source := "R", target := "c" }]

/-- Their bridges. -/
theorem bridgeNames_isolated_sharedOctet : ∃ a bridges,
    (Analysis.inMode .connection false (Registry.after sharedOctet).devices
      (Registry.after sharedOctet).connections).outcome = .ok a ∧
    (bridgeNames a.segments.values).outcome = .ok bridges ∧
    bridges.entries = [("net1", "br5"), ("net2", "br5n2"), ("net3", "br3")] ∧
    bridges.keys = a.segments.keys ∧ bridges.values.Nodup ∧ ∀ b ∈ bridges.values, b.length ≤ 15 := by
  obtain ⟨a, ha, hthree, hentries⟩ : ∃ a,
      (Analysis.inMode .connection false (Registry.after sharedOctet).devices
        (Registry.after sharedOctet).connections).outcome = .ok a ∧
      a.segments.entries.length < 10 ^ 9 ∧
        (bridgeNames a.segments.values).outcome.toOption.map OrderedMap.entries =
          some [("net1", "br5"), ("net2", "br5n2"), ("net3", "br3")] :=
    Outcome.exists_of_any_toOption (by decide +kernel)
  obtain ⟨bridges, hok, hkeys, hnodup, hshort⟩ :=
    bridgeNames_isolated sharedOctet .connection false ha
  refine ⟨a, bridges, ha, hok, ?_, hkeys, hnodup, hshort hthree⟩
  rw [hok] at hentries
  exact Option.some.inj hentries

end Attachment

end VirtNet
