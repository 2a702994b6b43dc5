import VirtNet.Proofs.Assignment.Gateway
import VirtNet.Proofs.Machine.Cards
import VirtNet.Proofs.Manifest.Document

/-!
# The default route of a machine

A router with its full user data adds no default route over the interfaces of its segments. All other user
data, full or abbreviated, adds one, via the gateway of the first segment (`full_routes`, `minimal_routes`).
So the route goes via one of the device's own addresses exactly when the gateway of its first segment is one
of them (`ownRoute_iff`). The commands for the management network are made from settings of any text, which
can spell out such a route too; they are told apart.
-/

namespace VirtNet.UserData

variable {d : Device} {xs rest : List Assignment} {x : Assignment} {settings : Settings} {config : Value}
  {lines : List String} {line via : String}

/-- The command adds a default route via `gateway` over the interface of one of the segments. -/
def AddsRoute (xs : List Assignment) (gateway : String) (command : List Char) : Prop :=
  ∃ x ∈ xs, ∃ card ∈ [cardName x.index, x.interfaceName], (Text.fields ' ' command).take 8 =
    ["ip", "route", "add", "default", "via", gateway, "dev", card].map String.toList

instance (xs : List Assignment) (gateway : String) (command : List Char) :
    Decidable (AddsRoute xs gateway command) :=
  inferInstanceAs (Decidable (∃ x ∈ xs, ∃ card ∈ [cardName x.index, x.interfaceName], _ = _))

/-- One of the lines of a text adds such a route. -/
def Routes (xs : List Assignment) (gateway text : String) : Prop :=
  ∃ command ∈ Text.fields '\n' text.toList, AddsRoute xs gateway command

instance (xs : List Assignment) (gateway text : String) : Decidable (Routes xs gateway text) :=
  inferInstanceAs (Decidable (∃ command ∈ Text.fields '\n' text.toList, _))

/-- The scripts that user data puts on a machine, and the commands that it has the machine run. -/
def scripts (config : Value) : List String :=
  ((config.at? ["write_files"]).getD .null).textsAt ["content"] ++
    ((config.at? ["runcmd"]).getD .null).textsAt []

/-- The commands for the management network: the one that asks for an address there and, where hosts are
routed through it, those for its default route. -/
def managementLines (settings : Settings) (routed : Bool) : List String :=
  let management := settings.managementInterface.toText?.getD ""
  let gateway := settings.managementGateway.toText?.getD ""
  s!"dhclient {management}" ::
    if routed then [
      s!"ip route del default via {gateway} dev {management} 2>/dev/null||true",
      s!"ip route add default via {gateway} dev {management} metric 100 2>/dev/null||true"]
    else []

/-! ## Lines that add a route -/

/-- A script has the routes of its lines. -/
theorem routes_script (hne : lines ≠ []) :
    Routes xs via (Text.joinWith "\n" lines ++ "\n") ↔ ∃ line ∈ lines, Routes xs via line := by
  have hlast : ¬ AddsRoute xs via [] := by
    rintro ⟨x, -, card, -, hfields⟩
    simpa [Text.fields] using congrArg List.length hfields
  have hfields : Text.fields '\n' (Text.joinWith "\n" lines ++ "\n").toList =
      (lines.flatMap fun line => Text.fields '\n' line.toList) ++ [[]] := by
    rw [String.toList_append, Text.joinWith, String.toList_ofList, show "\n".toList = ['\n'] from rfl,
      Text.fields_append_separator, Text.fields_join_eq_flatMap (by simpa using hne), List.flatMap_map]
    rfl
  unfold Routes
  rw [hfields]
  constructor
  · rintro ⟨command, hcommand, hadds⟩
    rcases List.mem_append.1 hcommand with hmem | hend
    · obtain ⟨line, hline, hmem⟩ := List.mem_flatMap.1 hmem
      exact ⟨line, hline, command, hmem, hadds⟩
    · rw [List.mem_singleton.1 hend] at hadds
      exact absurd hadds hlast
  · rintro ⟨line, hline, command, hcommand, hadds⟩
    exact ⟨command, List.mem_append_left _ (List.mem_flatMap.2 ⟨line, hline, hcommand⟩), hadds⟩

/-- A line whose first two words are others adds no route. -/
theorem not_routes_of_take {words : List String} (hline : '\n' ∉ line.toList)
    (hwords : (Text.fields ' ' line.toList).take 2 = words.map String.toList)
    (hne : words ≠ ["ip", "route"]) : ¬ Routes xs via line := by
  rintro ⟨command, hcommand, x, -, card, -, hfields⟩
  rw [Text.fields_of_not_mem hline, List.mem_singleton] at hcommand
  subst hcommand
  have htake := congrArg (List.take 2) hfields
  rw [List.take_take, Nat.min_eq_left (by decide), hwords] at htake
  exact hne (List.map_injective_iff.2 (fun _ _ => String.toList_inj.1) (htake.trans rfl))

/-- The lines that bring up a card add no route. -/
theorem not_routes_cardLines {position : Nat} {ip : String} (hip : Address.Numeric ip)
    (hline : line ∈ cardLines position ip) : ¬ Routes xs via line := by
  have htext : ∀ s : String, toString s = s := fun _ => rfl
  have hwords : ∃ words : List String, (Text.fields ' ' line.toList).take 2 = words.map String.toList ∧
      words ≠ ["ip", "route"] := by
    simp only [cardLines, List.mem_cons, List.not_mem_nil, or_false] at hline
    rcases hline with rfl | rfl | rfl
    · exact ⟨["ip", "link"], by simp [htext, Text.fields], by decide⟩
    · exact ⟨["ip", "addr"], by simp [htext, Text.fields], by decide⟩
    · exact ⟨["ip", "link"], by simp [htext, Text.fields], by decide⟩
  obtain ⟨words, htake, hne⟩ := hwords
  exact not_routes_of_take (not_mem_cardLines hip hline) htake hne

/-- What a line of words adds is read off its words. -/
theorem routes_words {words : List String} (hne : words ≠ [])
    (hwords : ∀ w ∈ words, ' ' ∉ w.toList ∧ '\n' ∉ w.toList) :
    Routes xs via (Text.joinWith " " words) ↔ ∃ x ∈ xs, ∃ card ∈ [cardName x.index, x.interfaceName],
      words.take 8 = ["ip", "route", "add", "default", "via", via, "dev", card] := by
  have hchars : (Text.joinWith " " words).toList = Text.join [' '] (words.map String.toList) := by
    rw [Text.joinWith, String.toList_ofList]
    rfl
  have hline : '\n' ∉ (Text.joinWith " " words).toList := by
    rw [hchars]
    intro hmem
    rcases Text.mem_join hmem with hbetween | ⟨f, hf, hfeed⟩
    · exact absurd hbetween (by decide)
    · obtain ⟨w, hw, rfl⟩ := List.mem_map.1 hf
      exact (hwords w hw).2 hfeed
  have hfields : Text.fields ' ' (Text.joinWith " " words).toList = words.map String.toList := by
    rw [hchars, Text.fields_join (by simpa using hne)]
    intro f hf
    obtain ⟨w, hw, rfl⟩ := List.mem_map.1 hf
    exact (hwords w hw).1
  have hinj : ∀ ws ws' : List String, ws.map String.toList = ws'.map String.toList ↔ ws = ws' :=
    fun ws ws' => (List.map_injective_iff.2 fun _ _ => String.toList_inj.1).eq_iff
  simp only [Routes, Text.fields_of_not_mem hline, List.mem_singleton, exists_eq_left, AddsRoute, hfields,
    ← List.map_take, hinj]

/-- The words of a command that adds the default route over a card. -/
def routeWords (gateway card : String) (metric : List String) : List String :=
  ["ip", "route", "add", "default", "via", gateway, "dev", card] ++ metric

/-- The command itself, with what it says of the metric. -/
theorem joinWith_routeWords (gateway card : String) (metric : List String) :
    Text.joinWith " " (routeWords gateway card metric) =
      s!"ip route add default via {gateway} dev {card}" ++
        String.ofList (metric.flatMap fun w => ' ' :: w.toList) := by
  have htext : ∀ s : String, toString s = s := fun _ => rfl
  have hmetric : (metric.map String.toList).flatMap (" ".toList ++ ·) =
      metric.flatMap fun w => ' ' :: w.toList := List.flatMap_map _ _ _
  refine String.toList_inj.1 ?_
  rw [Text.joinWith, String.toList_ofList, routeWords, List.map_append, List.map_cons, List.cons_append,
    Text.join_cons, List.flatMap_append, hmetric]
  simp [htext]

/-- Over a card at the first position, it adds the route via its gateway alone. -/
theorem routes_routeWords {card : String} {metric : List String} (hgateway : Address.Numeric x.gateway)
    (hcard : card ∈ [cardName x.index, x.interfaceName])
    (hwords : ∀ w ∈ card :: metric, ' ' ∉ w.toList ∧ '\n' ∉ w.toList) :
    Routes (x :: rest) via (Text.joinWith " " (routeWords x.gateway card metric)) ↔ via = x.gateway := by
  have hgatewayWord : ' ' ∉ x.gateway.toList ∧ '\n' ∉ x.gateway.toList :=
    ⟨hgateway.not_mem (by decide) (by decide), hgateway.not_mem (by decide) (by decide)⟩
  rw [routes_words (by simp [routeWords])]
  · constructor
    · rintro ⟨y, -, card', -, htake⟩
      simp only [routeWords, List.cons_append, List.nil_append, List.take_succ_cons, List.take_zero,
        List.cons.injEq] at htake
      exact htake.2.2.2.2.2.1.symm
    · rintro rfl
      exact ⟨x, List.mem_cons_self, card, hcard, rfl⟩
  · intro w hw
    rw [routeWords, List.mem_append] at hw
    rcases hw with hw | hw
    · simp only [List.mem_cons, List.not_mem_nil, or_false] at hw
      rcases hw with rfl | rfl | rfl | rfl | rfl | rfl | rfl | rfl
      case inr.inr.inr.inr.inr.inl => exact hgatewayWord
      case inr.inr.inr.inr.inr.inr.inr => exact hwords _ List.mem_cons_self
      all_goals exact ⟨by decide, by decide⟩
    · exact hwords w (List.mem_cons_of_mem _ hw)

theorem cardName_zero : cardName 0 = "enp2s0" := by decide +kernel

/-- The name that the interface at the first position gets. -/
theorem interfaceName_of_index (h : x.index = 0) : x.interfaceName = "eth1" := by
  rw [Assignment.interfaceName, h]
  decide +kernel

/-! ## The two forms of user data -/

theorem written_eq_ok {v : Value} {s : String} : written v = .ok s ↔ v.toText? = some s := by
  unfold written
  cases v.toText? <;> simp

theorem managementLine_eq_ok : managementLine settings = .ok line ↔
    ∃ management, settings.managementInterface.toText? = some management ∧
      s!"dhclient {management}" = line := by
  rw [managementLine, Outcome.bind_eq_ok]
  simp only [written_eq_ok, pure, Except.pure, Except.ok.injEq]

/-- The lines that direct traffic add the route via the gateway of the first segment, except on a router.
The others are for the management network. -/
theorem routes_routingLines {management : String} {routing : List String}
    (hmanagement : settings.managementInterface.toText? = some management) (hindex : x.index = 0)
    (hgateway : Address.Numeric x.gateway) (h : routingLines d.type (x :: rest) settings = .ok routing) :
    (∃ line ∈ s!"dhclient {management}" :: routing, Routes (x :: rest) via line) ↔
      (∃ line ∈ managementLines settings (!d.isRouter), Routes (x :: rest) via line) ∨
        d.isRouter = false ∧ via = x.gateway := by
  have hname : x.interfaceName = "eth1" := interfaceName_of_index hindex
  cases htype : d.type with
  | other word =>
    rw [htype] at h
    cases h
  | router =>
    rw [htype] at h
    cases h
    have hrouter : d.isRouter = true := by simp [Device.isRouter, htype]
    have hforward : ¬ Routes (x :: rest) via "echo 1>/proc/sys/net/ipv4/ip_forward" :=
      not_routes_of_take (by decide) (show _ = ["echo", "1>/proc/sys/net/ipv4/ip_forward"].map _ by decide)
        (by decide)
    have haccept : ¬ Routes (x :: rest) via "iptables -A FORWARD -j ACCEPT" :=
      not_routes_of_take (by decide) (show _ = ["iptables", "-A"].map _ by decide) (by decide)
    simp [managementLines, hmanagement, hrouter, hforward, haccept]
  | vm | switch =>
    rw [htype] at h
    simp only [routingLines, Outcome.bind_eq_ok, written_eq_ok] at h
    obtain ⟨_, hsame, gateway, hgatewayText, hrouting⟩ := h
    obtain rfl := Option.some.inj (hmanagement.symm.trans hsame)
    cases hrouting
    have hhost : d.isRouter = false := by simp [Device.isRouter, htype]
    have hline : s!"ip route add default via {x.gateway} dev {x.interfaceName} metric 50" =
        Text.joinWith " " (routeWords x.gateway "eth1" ["metric", "50"]) := by
      rw [joinWith_routeWords, hname]
      rfl
    have hown : Routes (x :: rest) via (Text.joinWith " " (routeWords x.gateway "eth1" ["metric", "50"])) ↔
        via = x.gateway := routes_routeWords hgateway (by simp [hname]) (by decide)
    rw [hline]
    simp only [managementLines, hhost, hmanagement, hgatewayText, Option.getD_some, Bool.not_false,
      ↓reduceIte, List.exists_mem_cons_iff, hown, List.not_mem_nil, false_and, exists_false, or_false,
      true_and]
    constructor
    · rintro (h | h | h | h)
      exacts [.inl (.inl h), .inl (.inr (.inl h)), .inr h, .inl (.inr (.inr h))]
    · rintro ((h | h | h) | h)
      exacts [.inl h, .inr (.inl h), .inr (.inr (.inr h)), .inr (.inr (.inl h))]

/-- In its full form, user data adds the route via the gateway of the first segment, except on a router,
beside what it has for the management network. -/
theorem full_routes (horder : Assignment.InOrder xs) (h : full d xs settings = .ok config) :
    (∃ text ∈ scripts config, Routes xs via text) ↔
      (∃ text ∈ managementLines settings (!d.isRouter && !xs.isEmpty), Routes xs via text) ∨
        d.isRouter = false ∧ ∃ x, xs.head? = some x ∧ via = x.gateway := by
  unfold full at h
  cases xs with
  | nil =>
    rw [List.isEmpty_nil, if_pos rfl] at h
    simp only [Outcome.bind_eq_ok, managementLine_eq_ok] at h
    obtain ⟨_, ⟨management, hmanagement, rfl⟩, _, hruncmd, hconfig⟩ := h
    cases hruncmd
    cases hconfig
    have hscripts : scripts (.record (identity d ++ [("disable_root", .bool false),
        ("chpasswd", passwords settings.loginUsers settings.loginPassword)] ++
        [("runcmd", Value.texts [s!"dhclient {management}"])])) = [s!"dhclient {management}"] := rfl
    rw [hscripts]
    simp [managementLines, hmanagement]
  | cons x rest =>
    rw [List.isEmpty_cons, if_neg (by decide)] at h
    simp only [networkScript, Outcome.bind_eq_ok, managementLine_eq_ok] at h
    obtain ⟨_, ⟨_, ⟨management, hmanagement, rfl⟩, routing, hrouting, hscript⟩, _, hfiles, hconfig⟩ := h
    cases hscript
    cases hfiles
    cases hconfig
    obtain ⟨hindex, -, hgateway⟩ := horder 0 x rfl
    have hscripts : ∀ script : String, scripts (.record (identity d ++ [("disable_root", .bool false),
        ("chpasswd", passwords settings.loginUsers settings.loginPassword)] ++
        [("write_files", .list [.record [
          ("path", .text scriptPath), ("permissions", .text "0755"), ("content", .text script)]]),
        ("runcmd", .texts [scriptPath])])) = [script, scriptPath] := fun _ => rfl
    have hshebang : ¬ Routes (x :: rest) via "#!/bin/bash" :=
      not_routes_of_take (by decide) (show _ = ["#!/bin/bash"].map _ by decide) (by decide)
    have hpath : ¬ Routes (x :: rest) via scriptPath :=
      not_routes_of_take (by decide) (show _ = ["/tmp/net.sh"].map _ by decide) (by decide)
    -- no line that sets up a card adds a route
    have hcards : ¬ ∃ line ∈ cardLinesOf (x :: rest), Routes (x :: rest) via line := by
      rintro ⟨line, hline, hroutes⟩
      obtain ⟨⟨y, i⟩, hp, hmem⟩ := List.mem_flatMap.1 hline
      exact not_routes_cardLines (horder i y (List.mem_zipIdx_iff_getElem?.1 hp)).2.1 hmem hroutes
    have hscript : Routes (x :: rest) via (Text.joinWith "\n" (["#!/bin/bash", s!"dhclient {management}"] ++
        (x :: rest).flatMap interfaceLines ++ routing) ++ "\n") ↔
          ∃ line ∈ s!"dhclient {management}" :: routing, Routes (x :: rest) via line := by
      rw [routes_script (by simp), flatMap_interfaceLines horder]
      simp only [List.mem_append, or_and_right, exists_or, hcards, or_false, List.exists_mem_cons_iff,
        hshebang, false_or, List.not_mem_nil, false_and, exists_false]
    rw [hscripts, List.exists_mem_cons_iff, List.exists_mem_cons_iff, hscript,
      routes_routingLines hmanagement hindex hgateway hrouting]
    simp [hpath]

/-- In its abbreviated form, user data adds the route via the gateway of the first segment, whatever the
type of the device, beside what it has for the management network. -/
theorem minimal_routes (horder : Assignment.InOrder xs) (h : minimal d xs settings = .ok config) :
    (∃ text ∈ scripts config, Routes xs via text) ↔
      (∃ text ∈ managementLines settings false, Routes xs via text) ∨
        ∃ x, xs.head? = some x ∧ via = x.gateway := by
  simp only [minimal, Outcome.bind_eq_ok, managementLine_eq_ok] at h
  obtain ⟨_, ⟨management, hmanagement, rfl⟩, hconfig⟩ := h
  cases hconfig
  have hscripts : ∀ texts : List String, scripts (.record (identity d ++ [
      ("chpasswd", passwords (settings.loginUsers.take 1) settings.loginPassword),
      ("runcmd", .texts texts)])) = texts := by
    intro texts
    show (texts.map Value.text).filterMap _ = texts
    rw [List.filterMap_map]
    exact List.filterMap_some
  rw [hscripts]
  cases xs with
  | nil => simp [managementLines, hmanagement]
  | cons x rest =>
    obtain ⟨hindex, hip, hgateway⟩ := horder 0 x rfl
    have hcard : cardName x.index = "enp2s0" := by rw [hindex]; exact cardName_zero
    have htext : ∀ s : String, toString s = s := fun _ => rfl
    have hfeed : '\n' ∉ x.ip.toList := hip.not_mem (by decide) (by decide)
    have haddress : ¬ Routes (x :: rest) via s!"ip addr add {x.ip}/24 dev {cardName 0}" := by
      rw [cardName_zero]
      exact not_routes_of_take (by simp [htext, hfeed])
        (show _ = ["ip", "addr"].map _ by simp [htext, Text.fields]) (by decide)
    have hup : ¬ Routes (x :: rest) via s!"ip link set {cardName 0} up" := by
      rw [cardName_zero]
      exact not_routes_of_take (by decide) (show _ = ["ip", "link"].map _ by decide) (by decide)
    have hline : s!"ip route add default via {x.gateway} dev {cardName 0}" =
        Text.joinWith " " (routeWords x.gateway "enp2s0" []) := by
      rw [joinWith_routeWords, cardName_zero]
      exact String.append_empty.symm
    have hown : Routes (x :: rest) via (Text.joinWith " " (routeWords x.gateway "enp2s0" [])) ↔
        via = x.gateway := routes_routeWords hgateway (by simp [hcard]) (by decide)
    simp only [managementLines, hmanagement, Option.getD_some, List.exists_mem_cons_iff,
      haddress, hup, hline, hown, List.not_mem_nil, false_and, exists_false, or_false, false_or, Bool.false_eq_true,
      ↓reduceIte, List.head?_cons, Option.some.injEq, exists_eq_left']

/-- The configuration `config` is the one that user data is made of: the full form when it is within the
limit, else the abbreviated one. -/
inductive Rendered (d : Device) (xs : List Assignment) (settings : Settings) (config : Value) :
    (abbreviated : Bool) → Prop
  | full (most : Int) (h : full d xs settings = .ok config) (hlimit : limit settings = .ok most)
      (hsize : (serialize config).utf8ByteSize ≤ most) : Rendered d xs settings config false
  | minimal (longer : Value) (most : Int) (hlonger : UserData.full d xs settings = .ok longer)
      (hlimit : limit settings = .ok most) (hsize : most < (serialize longer).utf8ByteSize)
      (h : minimal d xs settings = .ok config) : Rendered d xs settings config true

theorem rendered_of_render {text : String} (h : (render d xs settings).outcome = .ok text) :
    ∃ config abbreviated, text = serialize config ∧ Rendered d xs settings config abbreviated := by
  simp only [render, Journal.outcome_bind, Journal.outcome_ofExcept, Journal.outcome_write,
    Outcome.bind_eq_ok] at h
  obtain ⟨config, hfull, most, hmost, -, -, h⟩ := h
  split at h
  · next hsize =>
    cases h
    exact ⟨config, false, rfl, .full most hfull hmost hsize⟩
  · next hsize =>
    simp only [Journal.outcome_bind, Journal.outcome_ofExcept, Journal.outcome_note,
      Outcome.bind_eq_ok, Outcome.ok_bind] at h
    obtain ⟨shorter, hshorter, h⟩ := h
    refine ⟨shorter, true, ?_, .minimal config most hfull hmost (Int.not_le.1 hsize) hshorter⟩
    split at h
    all_goals
      cases h
      rfl

/-- User data adds the route via the gateway of the first segment unless it is a router's in full, beside
what it has for the management network. -/
theorem Rendered.routes {abbreviated : Bool} (h : Rendered d xs settings config abbreviated)
    (horder : Assignment.InOrder xs) :
    (∃ text ∈ scripts config, Routes xs via text) ↔
      (∃ text ∈ managementLines settings (!abbreviated && !d.isRouter && !xs.isEmpty),
        Routes xs via text) ∨
      (abbreviated = true ∨ d.isRouter = false) ∧ ∃ x, xs.head? = some x ∧ via = x.gateway := by
  cases h with
  | full most h _ _ =>
    rw [full_routes horder h]
    simp
  | minimal longer most _ _ _ h =>
    rw [minimal_routes horder h]
    simp

/-- Whatever a registry went through, whatever the mode and the settings, the user data of a device adds a
default route over the interface of one of its segments via one of its own addresses exactly when the
settings for the management network spell out such a route, or it is not a router's full form and the
gateway of the device's first segment is one of its own addresses. -/
theorem ownRoute_iff (history : List Change) (mode : Value) (strict : Bool) (settings : Settings)
    {a : Analysis} {assigned : OrderedMap (List Assignment)}
    (ha : (Analysis.analyze mode strict (Registry.after history).devices
      (Registry.after history).connections).outcome = .ok a)
    (hassigned : (Assignment.assign (Registry.after history).devices a).outcome = .ok assigned) :
    ∀ d ∈ (Registry.after history).devices, ∃ xs, assigned.get? d.id = some xs ∧
      ∀ text, (render d xs settings).outcome = .ok text → ∃ config abbreviated,
        text = serialize config ∧ Rendered d xs settings config abbreviated ∧
        ((∃ x ∈ xs, ∃ text ∈ scripts config, Routes xs x.ip text) ↔
          (∃ x ∈ xs, ∃ text ∈ managementLines settings (!abbreviated && !d.isRouter && !xs.isEmpty),
            Routes xs x.ip text) ∨
          (abbreviated = true ∨ d.isRouter = false) ∧ ∃ x s, xs.head? = some x ∧
            a.segments.get? x.network = some s ∧
            Assignment.OwnGateway (Registry.after history).devices assigned d s xs) := by
  intro d hd
  have hr : (Registry.after history).WellFormed := Registry.wellFormed_after history
  obtain ⟨m, -, hfollows⟩ := Analysis.analyze_follows hr ha
  obtain ⟨xs, hget, -, horder⟩ := Assignment.assign_numbered hr hfollows hassigned hd
  refine ⟨xs, hget, fun text htext => ?_⟩
  obtain ⟨config, abbreviated, htext, hrendered⟩ := rendered_of_render htext
  refine ⟨config, abbreviated, htext, hrendered, ?_⟩
  -- of the routes only those of the management network and that of the first segment are there
  have hroutes : ∀ y : Assignment, (∃ text ∈ scripts config, Routes xs y.ip text) ↔
      (∃ text ∈ managementLines settings (!abbreviated && !d.isRouter && !xs.isEmpty),
        Routes xs y.ip text) ∨
      (abbreviated = true ∨ d.isRouter = false) ∧ ∃ x, xs.head? = some x ∧ y.ip = x.gateway :=
    fun y => hrendered.routes horder
  have hown : (∃ y ∈ xs, ∃ x, xs.head? = some x ∧ y.ip = x.gateway) ↔ ∃ x s, xs.head? = some x ∧
      a.segments.get? x.network = some s ∧
      Assignment.OwnGateway (Registry.after history).devices assigned d s xs := by
    cases xs with
    | nil => simp
    | cons x rest =>
      obtain ⟨s, sa, y, hdrawn⟩ :=
        Assignment.assign_drawn hassigned (OrderedMap.get?_eq_some_iff.1 hget) List.mem_cons_self
      have hgateway := Assignment.ownGateway_iff hr hfollows hassigned hd hget hdrawn.segment
      simp only [List.head?_cons, Option.some.injEq, exists_eq_left']
      constructor
      · intro hip
        exact ⟨x, s, rfl, hdrawn.segment, hgateway.1 hip⟩
      · rintro ⟨_, s', rfl, hs', hgateway'⟩
        obtain rfl : s = s' := Option.some.inj (hdrawn.segment.symm.trans hs')
        exact hgateway.2 hgateway'
  constructor
  · rintro ⟨y, hy, hadds⟩
    rcases (hroutes y).1 hadds with hmanagement | ⟨hform, hgateway⟩
    · exact .inl ⟨y, hy, hmanagement⟩
    · exact .inr ⟨hform, hown.1 ⟨y, hy, hgateway⟩⟩
  · rintro (⟨y, hy, hmanagement⟩ | ⟨hform, hgateway⟩)
    · exact ⟨y, hy, (hroutes y).2 (.inl hmanagement)⟩
    · obtain ⟨y, hy, hip⟩ := hown.2 hgateway
      exact ⟨y, hy, (hroutes y).2 (.inr ⟨hform, hip⟩)⟩

/-- Two switches, the first with the first address of their segment, and a router that is given the address
of its host. -/
def ownGateways : List Change := [
  .addDevice { id := .text "S", type := .text "switch", ip := .text "10.0.0.1" },
  .addDevice { id := .text "T", type := .text "switch" },
  .addDevice { id := .text "R", type := .text "router" },
  .addDevice { id := .text "a", type := .text "vm", ip := .text "10.0.5.9" },
  .addConnection { source := "S", target := "T" },
  .addConnection { source := "R", target := "a", sourceIp := .text "10.0.5.9" }]

/-- The second switch has no route via itself. -/
theorem ownRoute_secondSwitch : ∃ (d : Device) (xs : List Assignment) (text : String) (config : Value),
    d.id = "T" ∧ xs.map Assignment.gateway = ["10.0.0.1"] ∧ (render d xs {}).outcome = .ok text ∧
    text = serialize config ∧ ¬ ∃ x ∈ xs, ∃ text ∈ scripts config, Routes xs x.ip text := by
  obtain ⟨d, hd, hid, hknown, hip⟩ : ∃ d ∈ (Registry.after ownGateways).devices, d.id = "T" ∧
      d.type.isKnown = true ∧ d.ip = none := by decide +kernel
  obtain ⟨a, assigned, ha, hassigned, hgateway, hmanagement, hfirst⟩ :=
    Assignment.exists_assigned (P := fun a assigned =>
      (assigned.get? "T").map (·.map Assignment.gateway) = some ["10.0.0.1"] ∧
      (∀ b : Bool, ∀ xs ∈ assigned.get? "T", ∀ x ∈ xs, ∀ text ∈ managementLines {} b,
        ¬ Routes xs x.ip text) ∧
      ∀ xs ∈ assigned.get? "T", ∀ x ∈ xs, ∀ s ∈ a.segments.get? x.network,
        Assignment.firstRouter? (Registry.after ownGateways).devices s.members = none)
      ownGateways (.text "connection") false (by decide +kernel)
  obtain ⟨xs, hxs, hiff⟩ := ownRoute_iff ownGateways (.text "connection") false {} ha hassigned d hd
  obtain ⟨text, htext⟩ : ∃ text, (render d xs {}).outcome = .ok text := exists_render hknown rfl rfl rfl
  obtain ⟨config, abbreviated, hconfig, -, hroutes⟩ := hiff text htext
  rw [hid] at hxs
  rw [hxs, Option.map_some, Option.some.injEq] at hgateway
  refine ⟨d, xs, text, config, hid, hgateway, htext, hconfig, fun hown => ?_⟩
  rcases hroutes.1 hown with ⟨x, hx, line, hline, hadds⟩ | ⟨-, x, s, hx, hs, howns⟩
  · exact hmanagement _ xs hxs x hx line hline hadds
  · have hnone := hfirst xs hxs x (List.mem_of_head? hx) s hs
    cases howns with
    | first h | shared e z y h => rw [hnone] at h; cases h
    | unrouted _ h => rw [hip] at h; cases h

/-- The other devices, each with a limit to its user data and its address. -/
def ownRoutes : List (String × Int × String) :=
  [("S", 2048, "10.0.0.1"), ("a", 2048, "10.0.5.9"), ("R", 0, "10.0.5.9")]

/-- In that design, the device of an id has an address that its user data adds a default route via, where no
more than so many bytes may be given it. -/
def HasOwnRoute (id : String) (most : Int) (ip : String) : Prop :=
  ∃ (a : Analysis) (assigned : OrderedMap (List Assignment)) (d : Device) (xs : List Assignment)
    (text : String) (config : Value),
    (Analysis.analyze (.text "connection") false (Registry.after ownGateways).devices
      (Registry.after ownGateways).connections).outcome = .ok a ∧
    (Assignment.assign (Registry.after ownGateways).devices a).outcome = .ok assigned ∧
    d ∈ (Registry.after ownGateways).devices ∧ d.id = id ∧ assigned.get? d.id = some xs ∧
    (render d xs { userDataLimit := .int most }).outcome = .ok text ∧ text = serialize config ∧
    ip ∈ xs.map Assignment.ip ∧ ∃ text ∈ scripts config, Routes xs ip text

/-- The first switch and the host have one, and so has the router in its abbreviated form. -/
theorem ownRoute_ownGateways : HasOwnRoute "S" 2048 "10.0.0.1" ∧ HasOwnRoute "a" 2048 "10.0.5.9" ∧
    HasOwnRoute "R" 0 "10.0.5.9" := by
  suffices hall : ∀ p ∈ ownRoutes, HasOwnRoute p.1 p.2.1 p.2.2 from
    ⟨hall ("S", 2048, "10.0.0.1") (by decide), hall ("a", 2048, "10.0.5.9") (by decide),
      hall ("R", 0, "10.0.5.9") (by decide)⟩
  have hr : (Registry.after ownGateways).WellFormed := Registry.wellFormed_after ownGateways
  obtain ⟨a, assigned, ha, hassigned, hgateways⟩ := Assignment.exists_assigned (P := fun _ assigned =>
    ∀ p ∈ ownRoutes, (assigned.get? p.1).map (·.map fun x => (x.ip, x.gateway)) = some [(p.2.2, p.2.2)])
    ownGateways (.text "connection") false (by decide +kernel)
  obtain ⟨m, -, hfollows⟩ := Analysis.analyze_follows hr ha
  intro p hp
  obtain ⟨d, hd, hid, hknown, hform⟩ : ∃ d ∈ (Registry.after ownGateways).devices, d.id = p.1 ∧
      d.type.isKnown = true ∧ (p.2.1 = 0 ∨ d.isRouter = false) := by
    revert p
    decide +kernel
  obtain ⟨xs, hxs, -, horder⟩ := Assignment.assign_numbered hr hfollows hassigned hd
  have hown := hgateways p hp
  rw [← hid, hxs, Option.map_some, Option.some.injEq] at hown
  obtain ⟨x, rfl, hx⟩ := List.map_eq_singleton_iff.1 hown
  obtain ⟨hip, hgateway⟩ := Prod.mk.injEq .. ▸ hx
  obtain ⟨text, htext⟩ : ∃ text, (render d [x] { userDataLimit := .int p.2.1 }).outcome = .ok text :=
    exists_render hknown rfl rfl rfl
  obtain ⟨config, abbreviated, hconfig, hrendered⟩ := rendered_of_render htext
  refine ⟨a, assigned, d, [x], text, config, ha, hassigned, hd, hid, hxs, htext, hconfig, by simp [hip],
    (hrendered.routes horder).2 (.inr ⟨?_, x, rfl, hgateway.symm⟩)⟩
  refine hform.imp_left fun hlimit => ?_
  -- no user data is within a limit of no bytes
  cases hrendered with
  | full most _ hmost hsize =>
    rw [hlimit] at hmost
    obtain rfl : most = 0 := (Except.ok.inj hmost).symm
    have hempty : (serialize config).utf8ByteSize = 0 := by omega
    rw [String.utf8ByteSize_eq_zero_iff] at hempty
    have hlist := congrArg String.toList hempty
    simp [serialize] at hlist
  | minimal => rfl

end VirtNet.UserData
