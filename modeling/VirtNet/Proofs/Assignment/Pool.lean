import VirtNet.Proofs.Assignment.Filled

/-!
# Numbering of pooled segments

A segment without a connection is filled (`pooled_filled`): its static addresses are distinct because
those of the design are, and a number is given out only while its address is free. The proof is a loop
invariant (`Numbered`) that every turn of the numbering keeps.
-/

namespace VirtNet.Assignment

variable {ds : List Device} {d : Device} {s : Segment} {a : Analysis} {p p' : Pool} {id ip base : String}
  {taken : List String} {host n : Nat} {e : AssignmentError}

/-! ## Free host numbers -/

/-- The number `n` is the first from `host` on whose address is free. -/
structure FirstFree (base : String) (taken : List String) (host n : Nat) : Prop where
  start : host ≤ n
  last : n ≤ maxHost
  free : Address.host base n ∉ taken
  passed : ∀ k : Nat, host ≤ k → k < n → Address.host base k ∈ taken

/-- A search finds the first number within its bound whose address is free. -/
theorem freeHost?_eq_some {fuel : Nat} : freeHost? base taken fuel host = some n ↔
    (host ≤ n ∧ n < host + fuel) ∧ Address.host base n ∉ taken ∧
      ∀ k : Nat, host ≤ k → k < n → Address.host base k ∈ taken := by
  induction fuel generalizing host with
  | zero =>
    simp only [freeHost?, reduceCtorEq, false_iff]
    rintro ⟨hbounds, -⟩
    omega
  | succ fuel ih =>
    rw [freeHost?]
    split
    · next hused =>
      rw [List.contains_iff_mem] at hused
      rw [ih]
      constructor
      · rintro ⟨⟨hle, hlt⟩, hfree, hpassed⟩
        refine ⟨⟨by omega, by omega⟩, hfree, fun k hk hkn => ?_⟩
        rcases Nat.eq_or_lt_of_le hk with rfl | hk
        · exact hused
        · exact hpassed k hk hkn
      · rintro ⟨⟨hle, hlt⟩, hfree, hpassed⟩
        have hne : host ≠ n := by
          rintro rfl
          exact hfree hused
        exact ⟨⟨by omega, by omega⟩, hfree, fun k hk hkn => hpassed k (by omega) hkn⟩
    · next hfree =>
      rw [List.contains_iff_mem] at hfree
      constructor
      · intro h
        obtain rfl := Option.some.inj h
        exact ⟨⟨le_rfl, by omega⟩, hfree, fun k hk hkn => by omega⟩
      · -- a search that stops where it starts has passed nothing
        rintro ⟨⟨hle, -⟩, -, hpassed⟩
        have hsame : host = n := by
          by_contra hne
          exact hfree (hpassed host le_rfl (by omega))
        rw [hsame]

/-- A search fails when every address within its bound is in use. -/
theorem freeHost?_eq_none {fuel : Nat} : freeHost? base taken fuel host = none ↔
    ∀ k : Nat, host ≤ k → k < host + fuel → Address.host base k ∈ taken := by
  induction fuel generalizing host with
  | zero =>
    refine iff_of_true rfl fun k hk hlt => ?_
    omega
  | succ fuel ih =>
    rw [freeHost?]
    split
    · next hused =>
      rw [List.contains_iff_mem] at hused
      rw [ih]
      constructor
      · intro h k hk hlt
        rcases Nat.eq_or_lt_of_le hk with rfl | hk
        · exact hused
        · exact h k hk (by omega)
      · exact fun h k hk hlt => h k (by omega) (by omega)
    · next hfree =>
      rw [List.contains_iff_mem] at hfree
      exact iff_of_false nofun fun h => hfree (h host le_rfl (by omega))

/-- An allocation gives the first free address. -/
theorem allocate_eq_ok : allocate s taken host = .ok (n, ip) ↔
    FirstFree s.base taken host n ∧ ip = Address.host s.base n := by
  unfold allocate
  constructor
  · intro h
    split at h
    · next m hm =>
      cases h
      obtain ⟨⟨hle, hlt⟩, hfree, hpassed⟩ := freeHost?_eq_some.1 hm
      exact ⟨⟨hle, by omega, hfree, hpassed⟩, rfl⟩
    · cases h
  · rintro ⟨hn, rfl⟩
    have hfound : freeHost? s.base taken (maxHost + 1 - host) host = some n := by
      have hlast := hn.last
      exact freeHost?_eq_some.2 ⟨⟨hn.start, by omega⟩, hn.free, hn.passed⟩
    rw [hfound]

/-- An allocation fails only when every address up to the last is in use. -/
theorem allocate_eq_error : allocate s taken host = .error e ↔
    e = .exhausted s.subnet s.name ∧
      ∀ k : Nat, host ≤ k → k ≤ maxHost → Address.host s.base k ∈ taken := by
  unfold allocate
  constructor
  · intro h
    split at h
    · cases h
    · next hnone =>
      refine ⟨(Except.error.inj h).symm, fun k hk hlast => ?_⟩
      exact freeHost?_eq_none.1 hnone k hk (by omega)
  · rintro ⟨rfl, hfull⟩
    have hnone : freeHost? s.base taken (maxHost + 1 - host) host = none :=
      freeHost?_eq_none.2 fun k hk hlt => hfull k hk (by omega)
    rw [hnone]

/-! ## One turn -/

/-- Where the search for a device's number starts. -/
def Pool.cursor (p : Pool) (d : Device) : Nat := if d.isRouter then p.nextRouter else p.nextHost

/-- The pool after a device has got a number. -/
def Pool.give (p : Pool) (s : Segment) (d : Device) (n : Nat) : Pool where
  byDevice := p.byDevice.insert d.id ⟨Address.host s.base n, false⟩
  taken := Address.host s.base n :: p.taken
  nextRouter := if d.isRouter then n + 1 else p.nextRouter
  nextHost := if d.isRouter then p.nextHost else n + 1
  gateway := if d.isRouter then p.gateway.or (some (Address.host s.base n)) else p.gateway

/-- All that a turn of the numbering can do at the member `id`. -/
inductive Step (ds : List Device) (s : Segment) (p : Pool) (id : String) :
    Except AssignmentError Pool → Prop
  /-- A member that has an address keeps it. -/
  | keep (r : Resolved) (hr : p.byDevice.get? id = some r) : Step ds s p id (.ok p)
  /-- A member that is no device cannot be numbered. -/
  | unknown (hnew : p.byDevice.get? id = none) (hd : Analysis.deviceOf? ds id = none) :
      Step ds s p id (.error (.unknownDevice id))
  /-- Any other member gets the first free number from the cursor of its class on. -/
  | give (d : Device) (n : Nat) (hnew : p.byDevice.get? id = none)
      (hd : Analysis.deviceOf? ds id = some d) (hn : FirstFree s.base p.taken (p.cursor d) n) :
      Step ds s p id (.ok (p.give s d n))
  /-- No number is free from the cursor on. -/
  | full (d : Device) (hnew : p.byDevice.get? id = none) (hd : Analysis.deviceOf? ds id = some d)
      (hfull : ∀ k : Nat, p.cursor d ≤ k → k ≤ maxHost → Address.host s.base k ∈ p.taken) :
      Step ds s p id (.error (.exhausted s.subnet s.name))

/-- One turn of the numbering. -/
theorem step_number : Step ds s p id (number ds s p id) := by
  cases hr : p.byDevice.get? id with
  | some r =>
    have hkeep : number ds s p id = .ok p := by
      rw [number, hr]
      rfl
    exact hkeep ▸ .keep r hr
  | none =>
    cases hd : Analysis.deviceOf? ds id with
    | none =>
      have hunknown : number ds s p id = .error (.unknownDevice id) := by
        rw [number, hr, device, hd]
        rfl
      exact hunknown ▸ .unknown hr hd
    | some d =>
      obtain ⟨-, rfl⟩ := Analysis.deviceOf?_eq_some hd
      cases hallocate : allocate s p.taken (p.cursor d) with
      | error e =>
        obtain ⟨rfl, hfull⟩ := allocate_eq_error.1 hallocate
        have hfails : number ds s p d.id = .error (.exhausted s.subnet s.name) := by
          rw [number, hr, device, hd]
          unfold Pool.cursor at hallocate
          cases hrouter : d.isRouter <;>
            simp_all [bind, Except.bind]
        exact hfails ▸ .full d hr hd hfull
      | ok found =>
        obtain ⟨n, ip⟩ := found
        obtain ⟨hn, rfl⟩ := allocate_eq_ok.1 hallocate
        have hgives : number ds s p d.id = .ok (p.give s d n) := by
          rw [number, hr, device, hd]
          unfold Pool.cursor at hallocate
          unfold Pool.give
          cases hrouter : d.isRouter <;>
            simp_all [bind, Except.bind, pure, Except.pure]
        exact hgives ▸ .give d n hr hd hn

/-! ## The loop -/

/-- What holds of a pool at every turn. -/
structure Numbered (ds : List Device) (s : Segment) (p : Pool) : Prop where
  chosen : ∀ id r, p.byDevice.get? id = some r → r.isCustom = false →
    ∃ n : Nat, n ≤ maxHost ∧ r.ip = Address.host s.base n
  given : ∀ id r, p.byDevice.get? id = some r → r.isCustom = true →
    ∃ d ∈ ds, d.id = id ∧ Given s d r.ip
  /-- Every address is in use. -/
  taken : ∀ id r, p.byDevice.get? id = some r → r.ip ∈ p.taken
  /-- No two addresses are the same. -/
  distinct : ∀ i j x y, p.byDevice.get? i = some x → p.byDevice.get? j = some y → x.ip = y.ip → i = j
  /-- The gateway is the address of a member. -/
  gateway : ∀ ip, p.gateway = some ip → ∃ id r, p.byDevice.get? id = some r ∧ r.ip = ip

/-- A free number for a further member. -/
theorem Numbered.insert (h : Numbered ds s p) (hnew : p.byDevice.get? id = none) {n : Nat}
    (hn : n ≤ maxHost) (hfree : Address.host s.base n ∉ p.taken)
    (hbyDevice : p'.byDevice = p.byDevice.insert id ⟨Address.host s.base n, false⟩)
    (htaken : p'.taken = Address.host s.base n :: p.taken)
    (hgateway : p'.gateway = p.gateway ∨ p'.gateway = some (Address.host s.base n)) :
    Numbered ds s p' := by
  -- an entry is the new one, or an old one under another id
  have hget : ∀ i r, p'.byDevice.get? i = some r →
      (i = id ∧ r = ⟨Address.host s.base n, false⟩) ∨ p.byDevice.get? i = some r := by
    intro i r hr
    rw [hbyDevice, OrderedMap.get?_insert] at hr
    split at hr
    · next hid => exact .inl ⟨hid.symm, (Option.some.inj hr).symm⟩
    · exact .inr hr
  refine ⟨?_, ?_, ?_, ?_, ?_⟩
  · intro i r hr hauto
    rcases hget i r hr with ⟨-, rfl⟩ | hr
    · exact ⟨n, hn, rfl⟩
    · exact h.chosen i r hr hauto
  · intro i r hr hcustom
    rcases hget i r hr with ⟨-, rfl⟩ | hr
    · cases hcustom
    · exact h.given i r hr hcustom
  · intro i r hr
    rw [htaken]
    rcases hget i r hr with ⟨-, rfl⟩ | hr
    · exact List.mem_cons_self
    · exact List.mem_cons_of_mem _ (h.taken i r hr)
  · intro i j x y hx hy hip
    rcases hget i x hx with ⟨rfl, rfl⟩ | hx
    · rcases hget j y hy with ⟨rfl, rfl⟩ | hy
      · rfl
      · have hused : y.ip ∈ p.taken := h.taken j y hy
        rw [← hip] at hused
        exact absurd hused hfree
    · rcases hget j y hy with ⟨rfl, rfl⟩ | hy
      · have hused : x.ip ∈ p.taken := h.taken i x hx
        rw [hip] at hused
        exact absurd hused hfree
      · exact h.distinct i j x y hx hy hip
  · intro ip hip
    rcases hgateway with hsame | hfirst
    · obtain ⟨i, r, hr, hrip⟩ := h.gateway ip (hsame ▸ hip)
      exact ⟨i, r, hbyDevice ▸ OrderedMap.get?_insert_of_new hnew hr, hrip⟩
    · rw [hfirst] at hip
      exact ⟨id, _, by rw [hbyDevice, OrderedMap.get?_insert_self], Option.some.inj hip⟩

/-- One turn of the numbering. -/
theorem Numbered.number (h : Numbered ds s p)
    (hok : Assignment.number ds s p id = .ok p') : Numbered ds s p' := by
  have hstep := @step_number ds s p id
  rw [hok] at hstep
  cases hstep with
  | keep r hr => exact h
  | give d n hnew hd hn =>
    obtain ⟨-, rfl⟩ := Analysis.deviceOf?_eq_some hd
    refine h.insert hnew hn.last hn.free rfl rfl ?_
    -- the first router's address stays the gateway
    unfold Pool.give
    dsimp only
    split
    · cases p.gateway with
      | none => exact .inr rfl
      | some ip => exact .inl rfl
    · exact .inl rfl

/-! ## The reserved addresses -/

/-- A static address that is reserved is that of a device that is no router. -/
theorem static?_eq_some {ip : String} (h : static? ds a s id = .ok (some ip)) :
    ∃ d ∈ ds, d.id = id ∧ d.isRouter = false ∧ d.ip = some ip := by
  unfold static? at h
  rw [Outcome.bind_eq_ok] at h
  obtain ⟨d, hd, h⟩ := h
  rw [Outcome.bind_eq_ok] at h
  obtain ⟨i, -, h⟩ := h
  have hdevice : Analysis.deviceOf? ds id = some d := by
    unfold device at hd
    cases hfound : Analysis.deviceOf? ds id with
    | none => simp [hfound] at hd
    | some e =>
      simp only [hfound, Except.ok.injEq] at hd
      rw [hd]
  obtain ⟨hmem, hid⟩ := Analysis.deviceOf?_eq_some hdevice
  have hip : (if (!d.isRouter && i == 0) = true then given? d.ip else none) = some ip := by
    injection h
  split at hip
  · next hfirst =>
    simp only [Bool.and_eq_true, Bool.not_eq_true'] at hfirst
    exact ⟨d, hmem, hid, hfirst.1, of_given? hip⟩
  · cases hip

/-- The static addresses that are reserved for a segment. -/
def reserved (statics : List (String × Option String)) : List (String × Resolved) :=
  statics.filterMap fun (id, ip) => ip.map fun ip => (id, Resolved.mk ip true)

/-- Reserved are the static addresses that are given. -/
theorem mem_reserved {statics : List (String × Option String)} {u : Resolved} :
    (id, u) ∈ reserved statics ↔ ∃ ip, (id, some ip) ∈ statics ∧ u = ⟨ip, true⟩ := by
  simp only [reserved, List.mem_filterMap, Prod.exists, Option.map_eq_some_iff, Prod.mk.injEq]
  constructor
  · rintro ⟨k, ip?, hmem, ip, rfl, rfl, rfl⟩
    exact ⟨ip, hmem, rfl⟩
  · rintro ⟨ip, hmem, rfl⟩
    exact ⟨id, some ip, hmem, ip, rfl, rfl, rfl⟩

/-- A reserved address is the static address of a member that is no router. -/
theorem of_reserved {statics : List (String × Option String)} {r : Resolved}
    (hstatics : (s.members.mapM fun id => do return (id, ← static? ds a s id)) = .ok statics)
    (hr : (OrderedMap.ofList (reserved statics)).get? id = some r) :
    r.isCustom = true ∧ id ∈ s.members ∧ ∃ d ∈ ds, d.id = id ∧ d.isRouter = false ∧ d.ip = some r.ip := by
  have hmem := OrderedMap.mem_of_mem_ofList (OrderedMap.get?_eq_some_iff.1 hr)
  obtain ⟨ip, hip, rfl⟩ := mem_reserved.1 hmem
  obtain ⟨k, hk, hstatic⟩ := Outcome.exists_of_mem_mapM hstatics hip
  rw [Outcome.bind_eq_ok] at hstatic
  obtain ⟨ip', hip', hpure⟩ := hstatic
  cases hpure
  exact ⟨rfl, hk, static?_eq_some hip'⟩

/-- The pool that a numbering starts from, the addresses `byDevice` being reserved. -/
def startPool (byDevice : OrderedMap Resolved) : Pool :=
  ⟨byDevice, byDevice.values.map Resolved.ip, routerHost, routedHost, none⟩

/-- The numbering starts from the reserved addresses. -/
theorem Numbered.start (hds : Registry.SoundDevices ds) {statics : List (String × Option String)}
    (hstatics : (s.members.mapM fun id => do return (id, ← static? ds a s id)) = .ok statics) :
    Numbered ds s (startPool (.ofList (reserved statics))) := by
  refine ⟨?_, ?_, ?_, ?_, ?_⟩
  · intro i r hr hauto
    rw [(of_reserved hstatics hr).1] at hauto
    cases hauto
  · intro i r hr _
    obtain ⟨-, hmem, d, hd, rfl, hrouter, hip⟩ := of_reserved hstatics hr
    exact ⟨d, hd, rfl, .static hmem hrouter hip⟩
  · intro i r hr
    exact List.mem_map.2 ⟨r, List.mem_map.2 ⟨(i, r), OrderedMap.get?_eq_some_iff.1 hr, rfl⟩, rfl⟩
  · -- no two devices have one static address
    intro i j x y hx hy hip
    obtain ⟨-, -, d, hd, rfl, -, hdip⟩ := of_reserved hstatics hx
    obtain ⟨-, -, e, he, rfl, -, heip⟩ := of_reserved hstatics hy
    rw [hip] at hdip
    rw [hds.eq_of_ip hd he hdip heip]
  · intro ip hip
    cases hip

/-- The members of a segment without a connection are numbered from their static addresses on. -/
theorem pooled_eq_ok {sa : SegmentAddresses} : pooled ds a s = .ok sa ↔ ∃ statics p,
    (s.members.mapM fun id => do return (id, ← static? ds a s id)) = .ok statics ∧
    s.members.foldlM (number ds s) (startPool (.ofList (reserved statics))) = .ok p ∧
    sa = ⟨p.byDevice, p.gateway.getD (Address.host s.base routerHost)⟩ := by
  unfold pooled
  rw [Outcome.bind_eq_ok]
  constructor
  · rintro ⟨statics, hstatics, h⟩
    obtain ⟨p, hp, hsa⟩ := Outcome.bind_eq_ok.1 h
    exact ⟨statics, p, hstatics, hp, (Except.ok.inj hsa).symm⟩
  · rintro ⟨statics, p, hstatics, hp, rfl⟩
    exact ⟨statics, hstatics, Outcome.bind_eq_ok.2 ⟨p, hp, rfl⟩⟩

/-- A segment without a connection is filled. -/
theorem pooled_filled (hds : Registry.SoundDevices ds) {sa : SegmentAddresses}
    (hok : pooled ds a s = .ok sa) : Filled ds s sa := by
  obtain ⟨statics, p, hstatics, hp, rfl⟩ := pooled_eq_ok.1 hok
  have hrun : Numbered ds s p :=
    Outcome.foldlM_keeps (fun _ _ _ _ h hturn => h.number hturn) (Numbered.start hds hstatics) hp
  refine ⟨hrun.chosen, hrun.given, ?_, ?_⟩
  · intro i j x y hx hy hne hip
    exact absurd (hrun.distinct i j x y hx hy hip) hne
  · dsimp only
    cases hgateway : p.gateway with
    | none => exact .inl rfl
    | some ip =>
      obtain ⟨i, r, hr, hrip⟩ := hrun.gateway ip hgateway
      exact .inr ⟨i, r, hr, hrip.symm⟩

end VirtNet.Assignment
