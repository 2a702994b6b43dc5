import VirtNet.Manifest.Machine
import VirtNet.Proofs.Assignment.Networks
import VirtNet.Proofs.Manifest

/-!
# The cards of a machine

A machine's interfaces and networks and the script that it runs are built apart from each other, each
from the assignments of the device. They agree position by position (`cards_agree`): the assignment at
position `i` has the index `i`, its segment is the network after the cluster's own at both places, and the
script gives its address to the card that comes to be there. An address never breaks a line, since it
is written with digits and dots (`Drawn.numeric`).
-/

namespace VirtNet

namespace Assignment

variable {a : Analysis} {assigned : OrderedMap (List Assignment)}

/-- An address on a segment is written with digits and dots. -/
theorem Filled.numeric {r : Registry} (h : r.WellFormed) {mode : NetworkMode}
    (ha : Analysis.Follows r.devices (Analysis.plans mode r.devices r.connections) a) {name id : String}
    {s : Segment} {sa : SegmentAddresses} {y : Resolved} (hfilled : Filled r.devices s sa)
    (hs : a.segments.get? name = some s) (hy : sa.byDevice.get? id = some y) : Address.Numeric y.ip := by
  obtain ⟨p, k, hpk, -, rfl⟩ := ha.exists_plan hs
  cases hcustom : y.isCustom with
  | false =>
    obtain ⟨n, -, hip⟩ := hfilled.chosen id y hy hcustom
    rw [hip]
    exact Address.numeric_host Segment.numeric_formed
  | true =>
    obtain ⟨d, hd, -, hgiven⟩ := hfilled.given id y hy hcustom
    have hcover := Analysis.plans_cover h (List.fst_mem_of_mem_zipIdx hpk)
    have hproper : Address.Proper y.ip := hgiven.proper h hd fun c hc => hcover.connection_mem hc
    exact Address.numeric_of_isValid hproper.1 hproper.2

/-- So are the address and the gateway of an assignment. -/
theorem Drawn.numeric {r : Registry} (h : r.WellFormed) {mode : NetworkMode}
    (ha : Analysis.Follows r.devices (Analysis.plans mode r.devices r.connections) a) {id : String}
    {x : Assignment} {s : Segment} {sa : SegmentAddresses} {y : Resolved}
    (hdrawn : Drawn r.devices a id x s sa y) : Address.Numeric x.ip ∧ Address.Numeric x.gateway := by
  have hfilled : Filled r.devices s sa := onSegment_filled h ha hdrawn.segment hdrawn.addresses
  rw [hdrawn.ip, hdrawn.gateway]
  refine ⟨hfilled.numeric h ha hdrawn.segment hdrawn.member, ?_⟩
  rcases hfilled.gateway with hgateway | ⟨j, z, hz, hgateway⟩
  · obtain ⟨p, k, -, -, hs⟩ := ha.exists_plan hdrawn.segment
    rw [hgateway, hs]
    exact Address.numeric_host Segment.numeric_formed
  · rw [hgateway]
    exact hfilled.numeric h ha hdrawn.segment hz

/-- Assignments that have the index of their position, with addresses and gateways of digits and dots. -/
def InOrder (xs : List Assignment) : Prop :=
  ∀ (i : Nat) (x : Assignment), xs[i]? = some x →
    x.index = i ∧ Address.Numeric x.ip ∧ Address.Numeric x.gateway

/-- The assignments of a device of a registry are those on its segments, numbered in their order. -/
theorem assign_numbered {r : Registry} (h : r.WellFormed) {mode : NetworkMode}
    (ha : Analysis.Follows r.devices (Analysis.plans mode r.devices r.connections) a)
    (hassigned : (assign r.devices a).outcome = .ok assigned) {d : Device} (hd : d ∈ r.devices) :
    ∃ xs, assigned.get? d.id = some xs ∧
      xs.map Assignment.network =
        Analysis.plannedNames d.id (Analysis.plans mode r.devices r.connections) ∧
      InOrder xs := by
  have hn := h.devices.ids_nodup
  obtain ⟨resolved, xs, -, hfrom, hget⟩ := exists_assignFrom hassigned hn hd
  obtain ⟨ys, hys, hnetworks⟩ := assign_networks hassigned hn hd (ha.networks d hd)
  obtain rfl : xs = ys := Option.some.inj (hget.symm.trans hys)
  refine ⟨xs, hget, hnetworks, ?_⟩
  intro i x hx
  have hindex : x.index = (0 + i : Nat) := assignFrom_index hfrom hx
  rw [Nat.zero_add] at hindex
  have hentry : (d.id, xs) ∈ assigned.entries := OrderedMap.get?_eq_some_iff.1 hget
  obtain ⟨s, sa, y, hdrawn⟩ := assign_drawn hassigned hentry (List.mem_of_getElem? hx)
  exact ⟨hindex, hdrawn.numeric h ha⟩

end Assignment

namespace UserData

variable {d : Device} {xs : List Assignment} {settings : Settings} {script : String}

/-- The lines that bring up the card at a position, the card of the cluster's network aside: the name it
has at first, the name it gets, and its address. -/
def cardLines (position : Nat) (ip : String) : List String :=
  let card := s!"enp{position + 2}s0"
  let name := s!"eth{position + 1}"
  [s!"ip link set {card} name {name} 2>/dev/null||true",
    s!"ip addr add {ip}/24 dev {name}",
    s!"ip link set {name} up"]

/-- The lines for some assignments, each at its position. -/
def cardLinesOf (xs : List Assignment) : List String :=
  xs.zipIdx.flatMap fun p => cardLines p.2 p.1.ip

/-- The lines for an assignment are those for the card at its index. -/
theorem interfaceLines_of_index {x : Assignment} {i : Nat} (h : x.index = i) :
    interfaceLines x = cardLines i x.ip := by
  have hcard : x.index + 2 = ((i + 2 : Nat) : Int) := by rw [h]; rfl
  have hname : x.index + 1 = ((i + 1 : Nat) : Int) := by rw [h]; rfl
  unfold interfaceLines cardName Assignment.interfaceName cardLines
  rw [hcard, hname]
  rfl

/-- Assignments that are numbered in their order have the lines of their positions. -/
theorem flatMap_interfaceLines (h : Assignment.InOrder xs) :
    xs.flatMap interfaceLines = cardLinesOf xs := by
  have hzip : xs.flatMap interfaceLines = xs.zipIdx.flatMap fun p => interfaceLines p.1 := by
    conv_lhs => rw [← List.zipIdx_map_fst 0 xs, List.flatMap_map]
  rw [hzip, cardLinesOf]
  refine List.flatMap_congr ?_
  rintro ⟨x, i⟩ hp
  exact interfaceLines_of_index (h i x (List.mem_zipIdx_iff_getElem?.1 hp)).1

/-- An address of digits and dots breaks none of the lines that it stands in. -/
theorem not_mem_cardLines {position : Nat} {ip line : String} (hip : Address.Numeric ip)
    (h : line ∈ cardLines position ip) : '\n' ∉ line.toList := by
  have hnumeral : ∀ n : Nat, '\n' ∉ Nat.toDigits 10 n := by
    intro n hn
    simpa using Address.isDigit_of_mem_toDigits hn
  have haddress : '\n' ∉ ip.toList := hip.not_mem (by decide) (by decide)
  have htext : ∀ s : String, toString s = s := fun _ => rfl
  simp only [cardLines, List.mem_cons, List.not_mem_nil, or_false] at h
  rcases h with rfl | rfl | rfl
  all_goals
    simp [htext, hnumeral, haddress]

/-- Among the lines of a script, those that bring up the cards stand together and in order. -/
theorem fields_networkScript (hxs : Assignment.InOrder xs)
    (h : networkScript d xs settings = .ok script) : ∃ before after,
      Text.fields '\n' script.toList =
        before ++ (cardLinesOf xs).map String.toList ++ after := by
  simp only [networkScript, Outcome.bind_eq_ok] at h
  obtain ⟨management, -, routing, -, hscript⟩ := h
  cases hscript
  -- no line of a card is broken
  have hunbroken : ∀ f ∈ (cardLinesOf xs).map String.toList, '\n' ∉ f := by
    intro f hf
    obtain ⟨line, hline, rfl⟩ := List.mem_map.1 hf
    obtain ⟨⟨x, i⟩, hp, hmem⟩ := List.mem_flatMap.1 hline
    exact not_mem_cardLines (hxs i x (List.mem_zipIdx_iff_getElem?.1 hp)).2.1 hmem
  refine ⟨["#!/bin/bash", management].flatMap fun line => Text.fields '\n' line.toList,
    (routing.flatMap fun line => Text.fields '\n' line.toList) ++ [[]], ?_⟩
  rw [flatMap_interfaceLines hxs, String.toList_append, Text.joinWith, String.toList_ofList,
    show "\n".toList = ['\n'] from rfl, Text.fields_append_separator,
    Text.fields_join_eq_flatMap (by simp), List.map_append, List.map_append, List.flatMap_append,
    List.flatMap_append, Text.flatMap_fields_of_not_mem hunbroken, List.flatMap_map,
    List.flatMap_map]
  exact List.append_assoc _ _ _

/-- A device of one of the three types has a script if the settings for the management network can be
written. -/
theorem exists_networkScript (htype : d.type.isKnown = true)
    (hinterface : settings.managementInterface.toText?.isSome = true)
    (hgateway : settings.managementGateway.toText?.isSome = true) :
    ∃ script, networkScript d xs settings = .ok script := by
  obtain ⟨interface, hinterface⟩ := Option.isSome_iff_exists.1 hinterface
  obtain ⟨gateway, hgateway⟩ := Option.isSome_iff_exists.1 hgateway
  have hrouting : ∃ lines, routingLines d.type xs settings = .ok lines := by
    cases htyped : d.type with
    | other word =>
      rw [htyped] at htype
      cases htype
    | router => exact ⟨_, rfl⟩
    | vm | switch =>
      cases xs with
      | nil => exact ⟨_, rfl⟩
      | cons x rest =>
        simp only [routingLines, written, hinterface, hgateway, Outcome.ok_bind]
        exact ⟨_, rfl⟩
  obtain ⟨lines, hlines⟩ := hrouting
  simp only [networkScript, managementLine, written, hinterface, hlines, Outcome.ok_bind]
  exact ⟨_, rfl⟩

/-- So has it user data, if there is a limit to their size. -/
theorem exists_render (htype : d.type.isKnown = true)
    (hinterface : settings.managementInterface.toText?.isSome = true)
    (hgateway : settings.managementGateway.toText?.isSome = true) {most : Int}
    (hlimit : limit settings = .ok most) : ∃ text, (render d xs settings).outcome = .ok text := by
  obtain ⟨script, hscript⟩ := exists_networkScript htype hinterface hgateway
  obtain ⟨interface, hinterface⟩ := Option.isSome_iff_exists.1 hinterface
  have hfull : ∃ config, full d xs settings = .ok config := by
    unfold full
    split
    · simp only [managementLine, written, hinterface, Outcome.ok_bind]
      exact ⟨_, rfl⟩
    · rw [hscript]
      exact ⟨_, rfl⟩
  have hminimal : ∃ config, minimal d xs settings = .ok config := by
    simp only [minimal, managementLine, written, hinterface, Outcome.ok_bind]
    exact ⟨_, rfl⟩
  obtain ⟨config, hfull⟩ := hfull
  obtain ⟨shorter, hminimal⟩ := hminimal
  simp only [render, Journal.outcome_bind, Journal.outcome_ofExcept, hfull, hlimit, hminimal,
    Outcome.ok_bind, Journal.outcome_write]
  split
  · exact ⟨_, rfl⟩
  · simp only [Journal.outcome_bind, Journal.outcome_ofExcept, Journal.outcome_note,
      Outcome.ok_bind]
    split <;> exact ⟨_, rfl⟩

end UserData

namespace Machine

/-- A device of one of the three types has a machine if its processor count can be read, the settings for
the management network can be written and there is a limit to the user data. -/
theorem exists_build {d : Device} {xs : List Assignment} {settings : Settings} {generation : String}
    (htype : d.type.isKnown = true)
    (hinterface : settings.managementInterface.toText?.isSome = true)
    (hgateway : settings.managementGateway.toText?.isSome = true) {most : Int} {cores : Nat}
    (hlimit : UserData.limit settings = .ok most) (hcores : Quantity.cores d.cpu d.type = .ok cores) :
    ∃ m, (build d xs settings generation).outcome = .ok m := by
  obtain ⟨text, htext⟩ : ∃ text, (UserData.render d xs settings).outcome = .ok text :=
    UserData.exists_render htype hinterface hgateway hlimit
  obtain ⟨word, hword⟩ := Option.isSome_iff_exists.1 htype
  simp only [build, templateSpec, Journal.outcome_bind, Journal.outcome_ofExcept, htext, hcores,
    DeviceType.word, hword, Outcome.mapError_ok, Outcome.ok_bind]
  exact ⟨_, rfl⟩

/-- Whatever a registry went through and whatever the mode, the cards of a device are numbered alike in
its assignments, its machine and its script. The assignment at position `i` has the index `i` and its
segment has the device as a member. A machine that is built has one interface and one network more than
there are assignments, under different names: that of the cluster's network, then those of the segments
in the order of the assignments. A script has the lines for each assignment in that order, and there is
one unless a setting for the management network cannot be written. -/
theorem cards_agree (history : List Change) (mode : Value) (strict : Bool) (settings : Settings)
    (generation : String) {a : Analysis} {assigned : OrderedMap (List Assignment)}
    (ha : (Analysis.analyze mode strict (Registry.after history).devices
      (Registry.after history).connections).outcome = .ok a)
    (hassigned : (Assignment.assign (Registry.after history).devices a).outcome = .ok assigned) :
    ∀ d ∈ (Registry.after history).devices, ∃ xs : List Assignment, assigned.get? d.id = some xs ∧
      (∀ (i : Nat) (x : Assignment), xs[i]? = some x → x.index = i ∧
        ∃ s, a.segments.get? x.network = some s ∧ s.name = x.network ∧ d.id ∈ s.members) ∧
      (podNetwork :: xs.map Assignment.network).Nodup ∧
      (∀ m, (build d xs settings generation).outcome = .ok m →
        m.interfaces.items.length = xs.length + 1 ∧ m.networks.items.length = xs.length + 1 ∧
        m.interfaces.textsAt ["name"] = podNetwork :: xs.map Assignment.network ∧
        m.networks.textsAt ["name"] = podNetwork :: xs.map Assignment.network ∧
        m.attachmentNames = xs.map Assignment.network) ∧
      (∀ script, UserData.networkScript d xs settings = .ok script → ∃ before after,
        Text.fields '\n' script.toList =
          before ++ (UserData.cardLinesOf xs).map String.toList ++ after) ∧
      (settings.managementInterface.toText?.isSome = true →
        settings.managementGateway.toText?.isSome = true →
        ∃ script, UserData.networkScript d xs settings = .ok script) := by
  intro d hd
  have hr : (Registry.after history).WellFormed := Registry.wellFormed_after history
  obtain ⟨m, -, hfollows⟩ := Analysis.analyze_follows hr ha
  obtain ⟨xs, hget, hnetworks, horder⟩ := Assignment.assign_numbered hr hfollows hassigned hd
  refine ⟨xs, hget, ?_, ?_, ?_, ?_, ?_⟩
  · intro i x hx
    refine ⟨(horder i x hx).1, ?_⟩
    have hmem : x.network ∈ xs.map Assignment.network :=
      List.mem_map_of_mem (List.mem_of_getElem? hx)
    rw [hnetworks] at hmem
    obtain ⟨p, k, hpk, hid, hname⟩ := Analysis.mem_plannedNames.1 hmem
    refine ⟨Segment.ofPlan k p, ?_, hname.symm, hid⟩
    rw [OrderedMap.get?_eq_some_iff, hfollows.segments, Analysis.mem_planned]
    exact ⟨p, k, hpk, by rw [hname]⟩
  · -- the names of segments start otherwise than that of the cluster's network
    rw [hnetworks, List.nodup_cons]
    refine ⟨?_, Analysis.nodup_plannedNames⟩
    intro hmem
    obtain ⟨p, k, -, -, hname⟩ := Analysis.mem_plannedNames.1 hmem
    exact podNetwork_ne_nameOf k hname
  · intro m hm
    obtain ⟨hinterfaces, hmnetworks, -⟩ := build_lists hm
    rw [Manifest.attachmentNames, hinterfaces, hmnetworks, names_interfaces, names_networks,
      attachments_networks]
    simp [interfaces, networks, Value.items]
  · exact fun script hscript => UserData.fields_networkScript horder hscript
  · exact UserData.exists_networkScript (hr.devices.known d hd)

/-- The cards of a router with two hosts. -/
theorem cards_agree_twoHosts : ∃ d xs m script before after,
    (build d xs {} "g1").outcome = .ok m ∧ m.attachmentNames = ["net1", "net2"] ∧
    xs.map Assignment.ip = ["192.168.1.1", "192.168.2.1"] ∧
    UserData.networkScript d xs {} = .ok script ∧
    Text.fields '\n' script.toList =
      before ++ (UserData.cardLinesOf xs).map String.toList ++ after := by
  let history := Assignment.twoHosts .null .null .null .null
  obtain ⟨d, hd, hid, hknown, hcores⟩ : ∃ d ∈ (Registry.after history).devices, d.id = "R" ∧
      d.type.isKnown = true ∧ Quantity.cores d.cpu d.type = .ok 2 := by decide +kernel
  obtain ⟨a, assigned, ha, hassigned, haddresses⟩ :=
    Assignment.exists_assigned (P := fun _ assigned =>
      Assignment.addressesOf assigned "R" =
        [("net1", "192.168.1.1", false), ("net2", "192.168.2.1", false)])
      history (.text "connection") false (by decide +kernel)
  obtain ⟨xs, hxs, -, -, hmachine, hlines, hscript⟩ :=
    cards_agree history (.text "connection") false {} "g1" ha hassigned d hd
  have hget : (assigned.get? d.id).getD [] = xs := by rw [hxs, Option.getD_some]
  obtain ⟨m, hm⟩ : ∃ m, (build d xs {} "g1").outcome = .ok m :=
    exists_build hknown rfl rfl rfl hcores
  obtain ⟨script, hscript⟩ := hscript rfl rfl
  obtain ⟨before, after, hfields⟩ := hlines script hscript
  rw [Assignment.addressesOf, ← hid, hget] at haddresses
  refine ⟨d, xs, m, script, before, after, hm, ?_, ?_, hscript, hfields⟩
  · have hnetworks := congrArg (List.map Prod.fst) haddresses
    rw [List.map_map] at hnetworks
    exact (hmachine m hm).2.2.2.2.trans hnetworks
  · have hips := congrArg (List.map fun p => p.2.1) haddresses
    rw [List.map_map] at hips
    exact hips

end Machine

end VirtNet
