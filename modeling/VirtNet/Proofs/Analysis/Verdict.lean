import VirtNet.Proofs.Analysis.Plans

/-!
# Strict and lenient analysis

A strict analysis does what a lenient one does, up to the first segment that is not consistent; that one it
refuses (`strict_eq_verdict`). The statement is about any lists of devices and connections, whether a
registry would take them or not: ids may be repeated and ends of connections unknown. Each turn of a loop
passes over a connection or gives one plan its segment, under a name that is new. So the segments of a
lenient analysis only grow at their end, and the first of them that is not consistent is where the strict
analysis stops (`Judged`).
-/

namespace VirtNet

/-! ## When a segment is consistent -/

namespace Segment

/-- The base of a subnet, read off its text. -/
theorem base_subnetOf {b : String} (hb : Address.IsBase b) : Address.base (subnetOf b) = b := by
  have hlist : (subnetOf b).toList = b.toList ++ '.' :: "0/24".toList := by
    rw [subnetOf, String.toList_append]
    rfl
  refine hb.base_eq hlist ?_
  intro c hc
  cases hc
  decide

/-- A segment is consistent exactly when all addresses among its candidates have the first three octets of
its subnet. -/
theorem consistent_formed_iff {number : Nat} {members : List String}
    {candidates : List (Option String)} {connection : Option Connection} :
    (formed number members candidates connection).consistent = true ↔
      ∀ ip, some ip ∈ candidates → Address.isValid ip = true →
        Address.base ip = Address.base (formed number members candidates connection).subnet := by
  rw [subnet_formed, base_subnetOf isBase_formed]
  constructor
  · exact fun h ip hip hvalid => base_of_consistent h hip hvalid
  · intro h
    refine List.all_eq_true.2 ?_
    intro ip hip
    obtain ⟨hpresent, hvalid⟩ := List.mem_filter.1 hip
    obtain ⟨candidate, hcandidate, hsome⟩ := List.mem_filterMap.1 hpresent
    obtain ⟨hc, -⟩ := Option.filter_eq_some_iff.1 hsome
    exact beq_iff_eq.2 (h ip (hc ▸ hcandidate) hvalid)

/-- Refuses a segment that is not consistent. -/
def check (s : Segment) : Except AnalysisError Unit :=
  if s.consistent then .ok () else .error s.mismatch

/-- Exactly the consistent segments pass the check. -/
theorem check_eq_ok {s : Segment} : s.check = .ok () ↔ s.consistent = true := by
  rw [check]
  cases s.consistent <;> simp

end Segment

namespace Analysis

open Segment (Plan)

variable {devices : List Device} {connections : List Connection} {a : Analysis}
  {es fs : List (String × Segment)} {σ τ : Type}

/-! ## Verdicts -/

/-- The verdict on some segments: the refusal of the first that is not consistent. -/
def verdict (es : List (String × Segment)) : Except AnalysisError Unit := es.forM fun e => e.2.check

/-- The verdict on segments is that on the first of them and, these being consistent, that on the rest. -/
theorem verdict_append : verdict (es ++ fs) = verdict es >>= fun _ => verdict fs := List.forM_append

theorem verdict_singleton {e : String × Segment} : verdict [e] = e.2.check := by
  rw [verdict, List.forM_eq_forM, List.forM_cons]
  cases e.2.check <;> rfl

/-- What is refused is one of the segments, and it is not consistent. -/
theorem exists_of_verdict_eq_error {refusal : AnalysisError} (h : verdict es = .error refusal) :
    ∃ e ∈ es, e.2.consistent = false ∧ refusal = e.2.mismatch := by
  obtain ⟨before, e, after, rfl, -, hrefused⟩ := Outcome.forM_eq_error.1 h
  refine ⟨e, by simp, ?_⟩
  rw [Segment.check] at hrefused
  split at hrefused
  · cases hrefused
  · next hc => exact ⟨Bool.eq_false_iff.2 hc, (Except.error.inj hrefused).symm⟩

/-- Nothing is refused exactly where all segments are consistent. -/
theorem verdict_eq_ok : verdict es = .ok () ↔ ∀ e ∈ es, e.2.consistent = true := by
  rw [verdict, Outcome.forM_eq_ok]
  exact forall₂_congr fun e _ => Segment.check_eq_ok

/-- The first segment that is not consistent is refused. -/
theorem verdict_of_first {e : String × Segment} (h : ∀ f ∈ es, f.2.consistent = true)
    (he : e.2.consistent = false) : verdict (es ++ e :: fs) = .error e.2.mismatch := by
  refine Outcome.forM_eq_error.2 ⟨es, e, fs, rfl, ?_, ?_⟩
  · exact fun f hf => Segment.check_eq_ok.2 (h f hf)
  · rw [Segment.check, he]
    rfl

/-! ## Two runs of a part of an analysis -/

/-- The names that are taken are those of smaller numbers than the next. -/
def Fresh (st : Nat × Analysis) : Prop :=
  ∀ key ∈ st.2.segments.keys, ∃ k < st.1, key = Segment.nameOf k

/-- The segment under a name is formed of one of the plans. -/
def FormedOf (ps : List Plan) (e : String × Segment) : Prop :=
  ∃ p ∈ ps, ∃ n, e = (Segment.nameOf n, Segment.ofPlan n p)

/-- What the two runs of a part of an analysis from the state `st` have to do with each other: the lenient
one succeeds and adds segments at the end, and the strict one does the same once these have passed the
verdict. `view` gives the number of the next segment and the analysis in a state, and the segments are
formed of the plans `ps`. -/
def Judged (view : σ → Nat × Analysis) (ps : List Plan) (st : σ)
    (run : Bool → Except AnalysisError σ) : Prop :=
  Fresh (view st) → ∃ st' new, run false = .ok st' ∧ run true = verdict new >>= (fun _ => .ok st') ∧
    (view st').2.segments.entries = (view st).2.segments.entries ++ new ∧ Fresh (view st') ∧
      ∀ e ∈ new, FormedOf ps e

variable {view : σ → Nat × Analysis} {ps : List Plan} {st st' : σ} {run : Bool → Except AnalysisError σ}

/-- A part that changes nothing, strict or not. -/
theorem Judged.pass (h : ∀ strict, run strict = .ok st) : Judged view ps st run :=
  fun hfresh => ⟨st, [], h false, h true, (List.append_nil _).symm, hfresh, List.forall_mem_nil _⟩

/-- A part that gives a plan its segment, unless it is strict and the segment is not consistent. -/
theorem Judged.give {p : Plan} (hp : p ∈ ps)
    (hview : view st' = ((view st).1 + 1, Analysis.give (view st).1 p (view st).2))
    (h : ∀ strict, run strict =
      if !(Segment.ofPlan (view st).1 p).consistent && strict then
        .error (Segment.ofPlan (view st).1 p).mismatch
      else .ok st') : Judged view ps st run := by
  intro hfresh
  generalize hn : (view st).1 = n at hview h
  -- the names in use have smaller numbers, so the segment comes after all others
  have hnew : Segment.nameOf n ∉ (view st).2.segments.keys := by
    intro hmem
    obtain ⟨k, hk, hname⟩ := hfresh _ hmem
    have hkn : n = k := Segment.nameOf_inj.1 hname
    omega
  have hentries : (view st').2.segments.entries =
      (view st).2.segments.entries ++ [(Segment.nameOf n, Segment.ofPlan n p)] := by
    rw [hview, segments_give, OrderedMap.entries_insert_of_not_mem hnew]
  refine ⟨st', [(Segment.nameOf n, Segment.ofPlan n p)], ?_, ?_, hentries, ?_, ?_⟩
  · rw [h false, Bool.and_false]
    rfl
  · rw [h true, Bool.and_true, verdict_singleton, Segment.check]
    cases (Segment.ofPlan n p).consistent <;> rfl
  · intro key hkey
    rw [OrderedMap.keys, hentries, List.map_append, List.mem_append] at hkey
    rw [hview]
    rcases hkey with hold | hkey
    · obtain ⟨k, hk, hname⟩ := hfresh key hold
      exact ⟨k, by omega, hname⟩
    · exact ⟨n, Nat.lt_succ_self n, List.mem_singleton.1 hkey⟩
  · intro e he
    rw [List.mem_singleton.1 he]
    exact ⟨p, hp, n, rfl⟩

/-- One part after the other. -/
theorem Judged.bind {next : Bool → σ → Except AnalysisError σ} (h : Judged view ps st run)
    (hnext : ∀ st', Judged view ps st' fun strict => next strict st') :
    Judged view ps st fun strict => run strict >>= next strict := by
  intro hfresh
  obtain ⟨mid, new, hlenient, hstrict, hentries, hmid, hformed⟩ := h hfresh
  obtain ⟨st', rest, hlenient', hstrict', hentries', hfresh', hformed'⟩ := hnext mid hmid
  refine ⟨st', new ++ rest, ?_, ?_, ?_, hfresh', ?_⟩
  · calc run false >>= next false = next false mid := by rw [hlenient, Outcome.ok_bind]
      _ = .ok st' := hlenient'
  · -- a refusal in the first part is not followed by the second
    calc run true >>= next true
        = (verdict new >>= fun _ => .ok mid) >>= next true := by rw [hstrict]
      _ = verdict new >>= fun _ => next true mid := bind_assoc _ _ _
      _ = verdict new >>= fun _ => verdict rest >>= fun _ => .ok st' :=
        congrArg _ (funext fun _ => hstrict')
      _ = verdict (new ++ rest) >>= fun _ => .ok st' := by rw [verdict_append, bind_assoc]
  · rw [hentries', hentries, List.append_assoc]
  · intro e he
    rcases List.mem_append.1 he with he | he
    · exact hformed e he
    · exact hformed' e he

/-- A loop whose turns are such parts. -/
theorem Judged.foldlM {turn : Bool → σ → τ → Except AnalysisError σ} {ts : List τ}
    (h : ∀ t ∈ ts, ∀ st, Judged view ps st fun strict => turn strict st t) (st : σ) :
    Judged view ps st fun strict => ts.foldlM (turn strict) st := by
  induction ts generalizing st with
  | nil => exact .pass fun _ => rfl
  | cons t ts ih =>
    rw [List.forall_mem_cons] at h
    simp only [List.foldlM_cons]
    exact (h.1 st).bind fun st' => ih h.2 st'

/-! ## The turns of the loops -/

/-- The number of the next segment and the analysis so far. -/
def LinkState.counted (st : LinkState) : Nat × Analysis := (st.next, st.analysis)

theorem LinkState.counted_withLink {st : LinkState} {c : Connection} :
    (st.withLink devices c).counted =
      (st.counted.1 + 1, Analysis.give st.counted.1 (linkPlan devices c) st.counted.2) := rfl

/-- One turn of the analysis by connections. -/
theorem judged_addLink {c : Connection} (hc : c ∈ connections) (st : LinkState) :
    Judged LinkState.counted (connections.map (linkPlan devices)) st fun strict =>
      (addLink strict devices st c).outcome := by
  by_cases hseen : c.key ∈ st.seen ∨ c.reverseKey ∈ st.seen
  · exact .pass fun _ => addLink_of_seen hseen
  · by_cases hends : (deviceOf? devices c.source).isSome ∧ (deviceOf? devices c.target).isSome
    · refine .give (List.mem_map_of_mem hc) LinkState.counted_withLink ?_
      exact fun _ => outcome_addLink hends.1 hends.2 hseen
    · exact .pass fun _ => addLink_of_unknown hends

/-- One turn of the analysis by types. -/
theorem judged_addType {type : DeviceType} (htype : type ∈ typesOf devices) (st : Nat × Analysis) :
    Judged id ((typesOf devices).map (typePlan devices)) st fun strict =>
      (addType strict devices st type).outcome :=
  .give (List.mem_map_of_mem htype) rfl fun _ => outcome_addType

/-! ## The analyses -/

/-- What the two runs of an analysis have to do with each other: the lenient one succeeds, with segments
formed of the plans `ps`, and the strict one does the same once these have passed the verdict. -/
def Settled (ps : List Plan) (run : Bool → Except AnalysisError Analysis) : Prop :=
  ∃ a, run false = .ok a ∧ run true = verdict a.segments.entries >>= (fun _ => .ok a) ∧
    ∀ e ∈ a.segments.entries, FormedOf ps e

/-- An analysis that starts without segments and ends as its loop does. -/
theorem Judged.settled (h : Judged view ps st run) (hempty : (view st).2.segments.entries = []) :
    Settled ps fun strict => run strict >>= fun st' => .ok (view st').2 := by
  have hfresh : Fresh (view st) := by
    intro key hkey
    rw [OrderedMap.keys, hempty] at hkey
    cases hkey
  obtain ⟨st', new, hlenient, hstrict, hentries, -, hformed⟩ := h hfresh
  rw [hempty, List.nil_append] at hentries
  refine ⟨(view st').2, ?_, ?_, ?_⟩
  · beta_reduce
    rw [hlenient, Outcome.ok_bind]
  · beta_reduce
    rw [hstrict, bind_assoc, hentries]
    rfl
  · rw [hentries]
    exact hformed

/-- The plans that an analysis of any lists may follow; by connections it follows some of them only. -/
def possiblePlans (mode : NetworkMode) (devices : List Device) (connections : List Connection) :
    List Plan :=
  match mode with
  | .connection => connections.map (linkPlan devices)
  | .shared => [sharedPlan devices connections]
  | .deviceType => (typesOf devices).map (typePlan devices)

/-- The two analyses of all devices together. -/
theorem shared_settled : Settled [sharedPlan devices connections] fun strict =>
    (shared strict devices connections).outcome := by
  cases hempty : devices.isEmpty with
  | true =>
    exact ⟨empty, outcome_shared_of_isEmpty hempty, outcome_shared_of_isEmpty hempty,
      List.forall_mem_nil _⟩
  | false =>
    refine ⟨together devices (Segment.ofPlan 1 (sharedPlan devices connections)), ?_, ?_, ?_⟩
    · refine (outcome_shared hempty).trans ?_
      rw [Bool.and_false]
      rfl
    · refine (outcome_shared hempty).trans ?_
      rw [Bool.and_true]
      generalize Segment.ofPlan 1 (sharedPlan devices connections) = s
      have hentries : (together devices s).segments.entries = [(s.name, s)] := rfl
      rw [hentries, verdict_singleton, Segment.check]
      cases s.consistent <;> rfl
    · intro e he
      rw [List.mem_singleton.1 he]
      exact ⟨_, List.mem_singleton_self _, 1, rfl⟩

/-- Whatever the mode and the design, the strict analysis is the lenient one once its segments have passed
the verdict. -/
theorem inMode_settled (mode : NetworkMode) (devices : List Device) (connections : List Connection) :
    ∃ a, (inMode mode false devices connections).outcome = .ok a ∧
      (inMode mode true devices connections).outcome =
        verdict a.segments.entries >>= (fun _ => .ok a) ∧
      ∀ e ∈ a.segments.entries, FormedOf (possiblePlans mode devices connections) e := by
  change Settled (possiblePlans mode devices connections) fun strict =>
    (inMode mode strict devices connections).outcome
  cases mode with
  | connection =>
    simp only [inMode, byConnection, Journal.outcome_bind, Journal.outcome_foldlM]
    exact (Judged.foldlM (fun c hc => judged_addLink hc) _).settled rfl
  | shared => exact shared_settled
  | deviceType =>
    simp only [inMode, byDeviceType, Journal.outcome_bind, Journal.outcome_foldlM]
    exact (Judged.foldlM (fun type htype => judged_addType htype) _).settled rfl

/-! ## What a strict analysis refuses -/

/-- Every segment is consistent. -/
def Consistent (a : Analysis) : Prop := ∀ e ∈ a.segments.entries, e.2.consistent = true

/-- A strict analysis that succeeds is the lenient one, and has consistent segments only. -/
theorem inMode_true_eq_ok {mode : NetworkMode} :
    (inMode mode true devices connections).outcome = .ok a ↔
      (inMode mode false devices connections).outcome = .ok a ∧ a.Consistent := by
  obtain ⟨a', hlenient, hstrict, -⟩ := inMode_settled mode devices connections
  rw [hlenient, hstrict, Outcome.bind_eq_ok]
  constructor
  · rintro ⟨⟨⟩, hverdict, ⟨⟩⟩
    exact ⟨rfl, verdict_eq_ok.1 hverdict⟩
  · rintro ⟨⟨⟩, hconsistent⟩
    exact ⟨(), verdict_eq_ok.2 hconsistent, rfl⟩

theorem analyze_consistent {mode : Value}
    (hok : (analyze mode true devices connections).outcome = .ok a) : a.Consistent := by
  obtain ⟨m, -, hm⟩ := analyze_eq_ok.1 hok
  exact (inMode_true_eq_ok.1 hm).2

/-- Whatever the mode, the devices and the connections, the lenient analysis succeeds, and each of its
segments is consistent exactly when all addresses among its candidates have the first three octets of its
subnet. If all of them are consistent, the strict analysis gives the same; otherwise it refuses the first
that is not. -/
theorem strict_eq_verdict (mode : NetworkMode) (devices : List Device) (connections : List Connection) :
    ∃ a, (inMode mode false devices connections).outcome = .ok a ∧
      (∀ e ∈ a.segments.entries, ∃ p ∈ possiblePlans mode devices connections, ∃ n,
        e = (Segment.nameOf n, Segment.ofPlan n p) ∧
        (e.2.consistent = true ↔ ∀ ip, some ip ∈ p.candidates → Address.isValid ip = true →
          Address.base ip = Address.base e.2.subnet)) ∧
      ((∀ e ∈ a.segments.entries, e.2.consistent = true) →
        (inMode mode true devices connections).outcome = .ok a) ∧
      ∀ before e after, a.segments.entries = before ++ e :: after →
        (∀ f ∈ before, f.2.consistent = true) → e.2.consistent = false →
        (inMode mode true devices connections).outcome =
          .error (.subnetMismatch e.2.label e.2.subnet e.2.addresses) := by
  obtain ⟨a, hlenient, hstrict, hformed⟩ := inMode_settled mode devices connections
  refine ⟨a, hlenient, ?_, ?_, ?_⟩
  · intro e he
    obtain ⟨p, hp, n, rfl⟩ := hformed e he
    exact ⟨p, hp, n, rfl, Segment.consistent_formed_iff⟩
  · intro hconsistent
    rw [hstrict, verdict_eq_ok.2 hconsistent, Outcome.ok_bind]
  · intro before e after hentries hbefore he
    rw [hstrict, hentries, verdict_of_first hbefore he, Outcome.error_bind]
    rfl

/-- A router and two hosts with static addresses. -/
def apartDevices : List Device := [
  ⟨"R", .router, none, none, none, none, .empty⟩,
  ⟨"a", .vm, none, none, none, some "10.0.0.7", .empty⟩,
  ⟨"b", .vm, none, none, none, some "10.0.1.7", .empty⟩]

/-- The router joins the first host on the host's own network, and the second one on another. -/
def nearLink : Connection := ⟨"R", "a", some "10.0.0.1", none, none⟩
def farLink : Connection := ⟨"R", "b", some "10.0.5.1", none, none⟩

/-- The segments of the two connections: the addresses of one share a network, those of the other do not. -/
def nearSegment : Segment where
  name := "net1"
  subnet := "10.0.0.0/24"
  base := "10.0.0"
  members := ["R", "a"]
  connection := some nearLink
  detectedFrom := some "10.0.0.1"
  addresses := ["10.0.0.1", "10.0.0.7"]
  consistent := true
def farSegment : Segment where
  name := "net2"
  subnet := "10.0.5.0/24"
  base := "10.0.5"
  members := ["R", "b"]
  connection := some farLink
  detectedFrom := some "10.0.5.1"
  addresses := ["10.0.5.1", "10.0.1.7"]
  consistent := false

/-- The lenient analysis keeps both segments, and the strict one stops at the second. Without the second
connection they give the same. -/
theorem strict_eq_verdict_apart :
    (∃ a, (inMode .connection false apartDevices [nearLink, farLink]).outcome = .ok a ∧
      a.segments.entries = [("net1", nearSegment), ("net2", farSegment)] ∧
      (inMode .connection true apartDevices [nearLink, farLink]).outcome =
        .error (.subnetMismatch "R-b" "10.0.5.0/24" ["10.0.5.1", "10.0.1.7"])) ∧
    ∃ a, (inMode .connection false apartDevices [nearLink]).outcome = .ok a ∧
      a.segments.entries = [("net1", nearSegment)] ∧
      (inMode .connection true apartDevices [nearLink]).outcome = .ok a := by
  obtain ⟨a, ha, -, -, hrefused⟩ := strict_eq_verdict .connection apartDevices [nearLink, farLink]
  obtain ⟨b, hb, -, hsame, -⟩ := strict_eq_verdict .connection apartDevices [nearLink]
  have hboth : (inMode .connection false apartDevices [nearLink, farLink]).outcome.toOption.any (fun a =>
      a.segments.entries = [("net1", nearSegment), ("net2", farSegment)]) = true := by
    decide +kernel
  have hnear : (inMode .connection false apartDevices [nearLink]).outcome.toOption.any (fun a =>
      a.segments.entries = [("net1", nearSegment)]) = true := by
    decide +kernel
  rw [ha, Except.toOption, Option.any_some, decide_eq_true_eq] at hboth
  rw [hb, Except.toOption, Option.any_some, decide_eq_true_eq] at hnear
  have hstop := hrefused [("net1", nearSegment)] ("net2", farSegment) [] hboth (by decide) rfl
  have hlabel : farSegment.label = "R-b" := by decide +kernel
  rw [hlabel] at hstop
  exact ⟨⟨a, ha, hboth, hstop⟩, b, hb, hnear, hsame (hnear ▸ by decide)⟩

end Analysis

end VirtNet
