import VirtNet.Proofs.Design.Record
import VirtNet.Proofs.Design.Loading
import VirtNet.Proofs.Registry.Additions
import VirtNet.Proofs.Value.Lightened

/-!
# Null fields of records

A record may leave out a field, or give null for it. A reading takes the two for one nearly everywhere
(`readInto_lighter`). It does not for the type of a device, where null is no type, and for the single
interface addresses of a router, where null is written out as a text before the address is read.
-/

namespace VirtNet

/-! ## Drafts that differ in what is not read -/

/-- Two drafts of a device that differ at most in interface addresses, and in these only if the device is no
router. -/
structure Device.Draft.Alike (d d' : Device.Draft) : Prop where
  same : d' = { d with interfaceIps := d'.interfaceIps }
  interfaces : DeviceType.ofWord d.type.toText = .router → d'.interfaceIps = d.interfaceIps

/-- A registry makes no difference between such drafts. -/
theorem Device.Draft.Alike.addDevice_eq {d d' : Device.Draft} (h : d.Alike d') (r : Registry) :
    r.addDevice d' = r.addDevice d := by
  have hinterfaces : ∀ type, Registry.draftedType d.type = .ok type →
      Registry.draftedInterfaces type d'.interfaceIps = Registry.draftedInterfaces type d.interfaceIps := by
    intro type htype
    obtain ⟨rfl, -⟩ := Registry.draftedType_eq_ok.1 htype
    by_cases hrouter : DeviceType.ofWord d.type.toText = .router
    · rw [h.interfaces hrouter]
    · simp [Registry.draftedInterfaces, hrouter]
  have haccept : r.accept d' = r.accept d := by
    rw [h.same]
    unfold Registry.accept
    cases Registry.draftedId d.id with
    | error _ => rfl
    | ok id =>
      cases htype : Registry.draftedType d.type with
      | error _ => rfl
      | ok type => simp only [Outcome.ok_bind, hinterfaces type htype]
  rw [Registry.addDevice, Registry.addDevice, haccept]

namespace Design

variable {v v' : Value} {fields fields' entries entries' : List (Value × Value)}

/-! ## Records without some of their nulls -/

/-- The fields that the record of a device may leave out. -/
def deviceOptions : List String := ["type", "cpu", "memory", "storage", "ip", "interface_ips"]

/-- The fields that the record of a connection may leave out. -/
def connectionOptions : List String := ["speed", "from_router_ip", "to_router_ip"]

/-- Interface addresses without some that are null. -/
def LighterEntries : List (Value × Value) → List (Value × Value) → Prop :=
  Value.Lightened (fun _ => True) fun _ w w' => w = w'

/-- A value, or as a mapping the same without some entries that are null. -/
inductive LighterInterfaces (v : Value) : Value → Prop
  | same : LighterInterfaces v v
  | entries {v' : Value} {entries entries' : List (Value × Value)} (opened : v.opened = .dict entries)
      (opened' : v'.opened = .dict entries') (lighter : LighterEntries entries entries') :
      LighterInterfaces v v'

/-- Fields of a device, without some that may be left out and are null, and with interface addresses without
some that are null. -/
def LighterFields : List (Value × Value) → List (Value × Value) → Prop :=
  Value.Lightened (Value.IsAmong deviceOptions) fun k w w' =>
    w = w' ∨ k.sameKey (.text "interface_ips") = true ∧ LighterInterfaces w w'

/-- A record of a device, or the same without some entries that may be left out and are null. -/
inductive LighterDevice (v : Value) : Value → Prop
  | same : LighterDevice v v
  | fields {v' : Value} {fields fields' : List (Value × Value)} (opened : v.opened = .dict fields)
      (opened' : v'.opened = .dict fields') (distinct : Value.DistinctKeys fields)
      (lighter : LighterFields fields fields') : LighterDevice v v'

/-- A record of a connection, or the same without some entries that may be left out and are null. -/
inductive LighterConnection (v : Value) : Value → Prop
  | same : LighterConnection v v
  | fields {v' : Value} {fields fields' : List (Value × Value)} (opened : v.opened = .dict fields)
      (opened' : v'.opened = .dict fields') (distinct : Value.DistinctKeys fields)
      (lighter : Value.Lightened (Value.IsAmong connectionOptions) (fun _ w w' => w = w') fields fields') :
      LighterConnection v v'

/-- In the record of a device a null counts: as the type, as an address in the interface addresses of a
router, or under a key of interface addresses that cannot be written. -/
inductive CountsNull (v : Value) : Prop
  | type {fields : List (Value × Value)} (opened : v.opened = .dict fields)
      (null : Value.lookup "type" fields = some .null)
  | address {fields entries : List (Value × Value)} {k : Value} (opened : v.opened = .dict fields)
      (router : ((Value.lookup "type" fields).getD (.text "vm")).toText = "router")
      (interfaces : interfaceEntries? fields = some entries) (null : (k, .null) ∈ entries)
  | key {fields entries : List (Value × Value)} {k : Value} (opened : v.opened = .dict fields)
      (interfaces : interfaceEntries? fields = some entries) (null : (k, .null) ∈ entries)
      (unwritable : k.hasText = false)

/-- Of the record `v'`, which is the record `v` of a device without some nulls, one that counts is left out:
the type, an address of a router, or an address under a key that cannot be written. -/
inductive DropsCounted (v v' : Value) : Prop
  | type {fields fields' : List (Value × Value)} (opened : v.opened = .dict fields)
      (opened' : v'.opened = .dict fields') (null : Value.lookup "type" fields = some .null)
      (gone : Value.lookup "type" fields' = none)
  | address {fields fields' entries entries' : List (Value × Value)} (opened : v.opened = .dict fields)
      (opened' : v'.opened = .dict fields')
      (router : ((Value.lookup "type" fields).getD (.text "vm")).toText = "router")
      (interfaces : interfaceEntries? fields = some entries)
      (interfaces' : interfaceEntries? fields' = some entries') (gone : entries' ≠ entries)
  | key {fields fields' entries entries' : List (Value × Value)} {k : Value}
      (opened : v.opened = .dict fields) (opened' : v'.opened = .dict fields')
      (interfaces : interfaceEntries? fields = some entries)
      (interfaces' : interfaceEntries? fields' = some entries') (null : (k, .null) ∈ entries)
      (gone : (k, .null) ∉ entries') (unwritable : k.hasText = false)

/-- Two designs of the same records, those of the second being without some entries that may be left out and
are null. Where the one has no list of records, neither has the other. -/
inductive LighterDesign (data : Value) : Value → Prop
  | same : LighterDesign data data
  | fields {data' : Value} {fields fields' : List (Value × Value)} (opened : data.opened = .dict fields)
      (opened' : data'.opened = .dict fields')
      (devices : Option.Rel (List.Forall₂ LighterDevice) (listUnder? "devices" fields)
        (listUnder? "devices" fields'))
      (connections : Option.Rel (List.Forall₂ LighterConnection) (listUnder? "connections" fields)
        (listUnder? "connections" fields')) : LighterDesign data data'

/-! ## Drafts of connections -/

/-- A connection is drafted alike without nulls. -/
theorem LighterConnection.connectionDraft_eq (h : LighterConnection v v') (place : Nat) :
    connectionDraft place v' = connectionDraft place v := by
  cases h with
  | same => rfl
  | @fields _ fields fields' opened opened' distinct lighter =>
    have hlookup : ∀ key, key ∉ connectionOptions →
        Value.lookup key fields' = Value.lookup key fields := fun key hkey =>
      lighter.lookup_eq distinct (fun _ k hk hdrop => hkey (hdrop.mem hk)) fun _ _ _ _ hkept => hkept
    have hgiven : ∀ key, given key fields' = given key fields := by
      intro key
      unfold given
      rw [lighter.lookupSome_eq distinct fun _ _ _ _ hkept => hkept]
    unfold connectionDraft
    rw [opened, opened']
    simp only [hlookup "from" (by decide), hlookup "to" (by decide), hgiven]

/-! ## Drafts of devices -/

/-- A value that unfolds to a mapping gives the entries of the mapping. -/
theorem interfaceEntries?_of_opened (hv : Value.lookup "interface_ips" fields = some v)
    (hopened : v.opened = .dict entries) : interfaceEntries? fields = some entries := by
  have htruthy := Value.truthy_of_opened hopened
  rw [interfaceEntries?, hv, Option.getD_some, hopened, htruthy]
  cases entries <;> rfl

/-- Of a field other than the interface addresses the value is kept. -/
theorem eq_of_kept {key : String} (hkey : key ≠ "interface_ips") {k w w' : Value}
    (hk : k.sameKey (.text key) = true)
    (hkept : w = w' ∨ k.sameKey (.text "interface_ips") = true ∧ LighterInterfaces w w') : w = w' := by
  rcases hkept with hsame | ⟨hk', -⟩
  · exact hsame
  · rw [Value.sameKey_text_iff] at hk hk'
    exact absurd (Value.text.inj (hk.symm.trans hk')) hkey

section Devices

variable (h : LighterFields fields fields') (hdistinct : Value.DistinctKeys fields)

include h hdistinct

/-- A field that is not left out is found as it was. -/
theorem LighterFields.lookup_eq {key : String} (hkey : key ≠ "interface_ips")
    (hkept : key ∈ deviceOptions → Value.lookup key fields ≠ some .null) :
    Value.lookup key fields' = Value.lookup key fields :=
  Value.Lightened.lookup_eq h hdistinct (fun hnull _ hk hdrop => hkept (hdrop.mem hk) hnull)
    fun _ _ _ => eq_of_kept hkey

/-- A field is read as it was, whether it is left out or null. -/
theorem LighterFields.given_eq {key : String} (hkey : key ≠ "interface_ips") :
    given key fields' = given key fields := by
  unfold given
  rw [Value.Lightened.lookupSome_eq h hdistinct fun _ _ _ => eq_of_kept hkey]

/-- The entries of the interface addresses are those that were there, without some that are null. -/
theorem LighterFields.rel_interfaceEntries :
    Option.Rel LighterEntries (interfaceEntries? fields) (interfaceEntries? fields') := by
  have hrefl : ∀ x : Option (List (Value × Value)), Option.Rel LighterEntries x x := by
    intro x
    cases x with
    | none => exact .none
    | some es => exact .some (.refl (fun _ _ => rfl) es)
  -- it is enough that one value, null or not, stands under the key in both
  have hsame : (Value.lookup "interface_ips" fields').getD .null =
      (Value.lookup "interface_ips" fields).getD .null →
      Option.Rel LighterEntries (interfaceEntries? fields) (interfaceEntries? fields') := by
    intro hvalue
    have heq : interfaceEntries? fields' = interfaceEntries? fields := by
      rw [interfaceEntries?, hvalue, interfaceEntries?]
    rw [heq]
    exact hrefl _
  rcases Value.Lightened.lookup_or h hdistinct "interface_ips" with ⟨hnull, hnone, -⟩ | hrel
  · exact hsame (by rw [hnull, hnone]; rfl)
  cases hw : Value.lookup "interface_ips" fields <;> cases hw' : Value.lookup "interface_ips" fields' <;>
    rw [hw, hw'] at hrel <;> cases hrel
  · exact hsame (by rw [hw, hw'])
  · next w w' hkept =>
    obtain ⟨k, -, rfl | ⟨-, hlighter⟩⟩ := hkept
    · exact hsame (by rw [hw, hw'])
    · cases hlighter with
      | same => exact hsame (by rw [hw, hw'])
      | entries opened opened' lighter =>
        rw [interfaceEntries?_of_opened hw opened, interfaceEntries?_of_opened hw' opened']
        exact .some lighter

end Devices

/-- The texts of interface addresses are found, or are missing, whether some are null or are left out. -/
theorem agree_interfaceTexts (h : LighterEntries entries entries')
    (hgone : ∀ k, (k, .null) ∈ entries → (k, .null) ∉ entries' → k.hasText = true) :
    Outcome.Agree (fun _ _ => True) (interfaceTexts entries) (interfaceTexts entries') := by
  have hsame := Value.Lightened.hasText_eq h hgone
  cases htext : (Value.dict entries).hasText with
  | true =>
    rw [interfaceTexts_eq htext, interfaceTexts_eq (hsame.trans htext)]
    exact .ok trivial
  | false =>
    rw [interfaceTexts_eq_unwritable htext, interfaceTexts_eq_unwritable (hsame.trans htext)]
    exact .error _

/-- The drafts of a device are alike whether some of its interface addresses are null or are left out, if
none that counts is left out. -/
theorem agree_deviceDraftWith (id : Value) (h : LighterEntries entries entries')
    (hgone : ∀ k, (k, .null) ∈ entries → (k, .null) ∉ entries' → k.hasText = true)
    (hrouter : ((Value.lookup "type" fields).getD (.text "vm")).toText = "router" → entries' = entries) :
    Outcome.Agree Device.Draft.Alike (deviceDraftWith id fields entries)
      (deviceDraftWith id fields entries') := by
  by_cases htype : ((Value.lookup "type" fields).getD (.text "vm")).toText = "router"
  -- of a router's addresses none is left out; those of any other device are not read
  · rw [hrouter htype]
    exact .refl (fun _ => ⟨rfl, fun _ => rfl⟩) _
  · unfold deviceDraftWith
    refine .bind_same fun text => .bind_same fun cpu => .bind_same fun memory => .bind_same fun storage =>
      .bind_same fun ip => (agree_interfaceTexts h hgone).bind fun w w' _ => ?_
    exact .ok ⟨rfl, fun hisRouter => absurd (DeviceType.ofWord_eq_router.1 hisRouter) htype⟩

/-- A device is drafted alike without nulls, if none that counts is left out. -/
theorem LighterDevice.agree (h : LighterDevice v v') (hdrops : ¬ DropsCounted v v') (place : Nat) :
    Outcome.Agree Device.Draft.Alike (deviceDraft place v) (deviceDraft place v') := by
  cases h with
  | same => exact .refl (fun _ => ⟨rfl, fun _ => rfl⟩) _
  | @fields _ fields fields' opened opened' distinct lighter =>
    -- a null that was taken out was under the name of an option, so the id stays
    have hid : Value.lookup "id" fields' = Value.lookup "id" fields :=
      lighter.lookup_eq distinct (by decide) fun hoption => absurd hoption (by decide)
    have htype : Value.lookup "type" fields' = Value.lookup "type" fields := by
      rcases Value.Lightened.lookup_or lighter distinct "type" with ⟨hnull, hnone, -⟩ | hrel
      · exact absurd (.type opened opened' hnull hnone) hdrops
      · exact Value.eq_of_rel hrel fun w w' ⟨k, hk, hkept⟩ => eq_of_kept (by decide) hk hkept
    have hfields : ∀ id entries, deviceDraftWith id fields' entries = deviceDraftWith id fields entries := by
      intro id entries
      unfold deviceDraftWith
      rw [htype, lighter.given_eq distinct (by decide : "cpu" ≠ _),
        lighter.given_eq distinct (by decide : "memory" ≠ _),
        lighter.given_eq distinct (by decide : "storage" ≠ _),
        lighter.given_eq distinct (by decide : "ip" ≠ _)]
    unfold deviceDraft
    rw [opened, opened']
    dsimp only
    rw [hid]
    cases Value.lookup "id" fields with
    | none => exact .error _
    | some id =>
      have hrel := lighter.rel_interfaceEntries distinct
      dsimp only
      rw [deviceDraftOf_eq, deviceDraftOf_eq]
      cases hentries : interfaceEntries? fields <;> cases hentries' : interfaceEntries? fields' <;>
        rw [hentries, hentries'] at hrel <;> cases hrel
      · exact .refl (fun _ => ⟨rfl, fun _ => rfl⟩) _
      · next entries entries' hlighter =>
        dsimp only
        rw [hfields]
        refine agree_deviceDraftWith id hlighter ?_ ?_
        · intro k hnull hgone
          by_contra hkey
          exact hdrops (.key opened opened' hentries hentries' hnull hgone (by simpa using hkey))
        · intro hrouter
          by_contra hgone
          exact hdrops (.address opened opened' hrouter hentries hentries' hgone)

/-- A null that counts and is left out is one that counts. -/
theorem DropsCounted.countsNull (h : DropsCounted v v') (hlighter : LighterDevice v v') : CountsNull v := by
  cases h with
  | type opened _ null _ => exact .type opened null
  | key opened _ interfaces _ null _ unwritable => exact .key opened interfaces null unwritable
  | @address fields fields' entries entries' opened opened' router interfaces interfaces' gone =>
    have hrel : LighterEntries entries entries' := by
      cases hlighter with
      | same =>
        obtain rfl := Value.dict.inj (opened.symm.trans opened')
        obtain rfl := Option.some.inj (interfaces.symm.trans interfaces')
        exact absurd rfl gone
      | fields hopened hopened' distinct lighter =>
        obtain rfl := Value.dict.inj (opened.symm.trans hopened)
        obtain rfl := Value.dict.inj (opened'.symm.trans hopened')
        have hrel := LighterFields.rel_interfaceEntries lighter distinct
        rw [interfaces, interfaces'] at hrel
        cases hrel with
        | some h => exact h
    -- were no address null, all would have stayed
    by_contra hcounts
    refine gone (Value.Lightened.eq_of_not_null hrel ?_)
    rintro ⟨k, w⟩ he rfl
    exact hcounts (.address opened router interfaces he)

/-! ## Readings -/

/-- Devices are read alike without nulls, if none that counts is left out. -/
theorem outcome_addDevices_lighter {vs vs' : List Value} (h : List.Forall₂ LighterDevice vs vs')
    (hdrops : List.Forall₂ (fun v v' => ¬ DropsCounted v v') vs vs') (r : Registry) (place : Nat) :
    (addDevices r place vs').outcome = (addDevices r place vs).outcome := by
  induction h generalizing r place with
  | nil => rfl
  | @cons v v' vs vs' hv _ ih =>
    obtain ⟨hhead, hrest⟩ := List.forall₂_cons.1 hdrops
    have hdrafts := hv.agree hhead place
    simp only [addDevices, Journal.outcome_bind, Journal.outcome_mapError, Journal.outcome_ofExcept]
    generalize deviceDraft place v = x at hdrafts ⊢
    generalize deviceDraft place v' = y at hdrafts ⊢
    cases hdrafts with
    | error fault => rfl
    | ok halike => simp only [Outcome.mapError_ok, Outcome.ok_bind, halike.addDevice_eq, ih hrest]

/-- Connections are read alike without nulls. -/
theorem addConnections_lighter {vs vs' : List Value} (h : List.Forall₂ LighterConnection vs vs')
    (r : Registry) (place : Nat) : addConnections r place vs' = addConnections r place vs := by
  induction h generalizing r place with
  | nil => rfl
  | cons hv _ ih => simp only [addConnections, hv.connectionDraft_eq, ih]

/-! ## Nulls that count -/

/-- The keys of the interface addresses in a record of a device are different texts. -/
def NamesApart (v : Value) : Prop :=
  ∀ fields entries, v.opened = .dict fields → interfaceEntries? fields = some entries →
    (entries.map fun e => e.1.toText).Nodup

/-- Interface addresses under names that are different texts all stay. -/
theorem inserted_texts {entries : List (Value × Value)} (h : (entries.map fun e => e.1.toText).Nodup) :
    Value.inserted (entries.map fun e => (.text e.1.toText, .text e.2.toText)) =
      entries.map fun e => (.text e.1.toText, .text e.2.toText) := by
  have hnames : ((entries.map fun e => (e.1.toText, Value.text e.2.toText)).map Prod.fst).Nodup := by
    rw [List.map_map]
    exact h
  have hrecord := Value.inserted_record hnames
  rwa [List.map_map] at hrecord

/-- A device is not taken in from a record in which a null counts. -/
theorem CountsNull.not_accepts (h : CountsNull v) (hapart : NamesApart v) {place : Nat}
    {draft : Device.Draft} (hdraft : deviceDraft place v = .ok draft) (r : Registry) (d : Device) :
    ¬ r.Accepts draft d := by
  intro hd
  obtain ⟨fields, id, entries, hopened, -, hentries, htext, -, htype, hips⟩ := deviceDraft_eq_ok hdraft
  cases h with
  | type opened null =>
    obtain rfl := Value.dict.inj (hopened.symm.trans opened)
    rw [null] at htype
    have hknown := hd.known
    rw [hd.type, htype] at hknown
    revert hknown
    decide
  | @address _ _ k opened router interfaces null =>
    obtain rfl := Value.dict.inj (hopened.symm.trans opened)
    obtain rfl := Option.some.inj (hentries.symm.trans interfaces)
    -- the names are different texts, so the null is among the addresses, as the text for it
    have hinserted := inserted_texts (hapart fields entries opened interfaces)
    have hmem : (Value.text k.toText, Value.text "None") ∈
        entries.map fun e => (Value.text e.1.toText, Value.text e.2.toText) :=
      List.mem_map.2 ⟨_, null, rfl⟩
    have hisRouter : d.type = .router := by
      rw [hd.type, htype, router]
      rfl
    have htruthy : draft.interfaceIps.truthy = true := by
      rw [hips, hinserted, Value.truthy_of_opened rfl]
      simpa using List.ne_nil_of_mem null
    obtain ⟨taken, htaken, hvalid⟩ :=
      Registry.exists_draftedInterfaces_iff.1 ⟨_, hd.interfaces⟩ hisRouter htruthy
    rw [hips, hinserted] at htaken
    obtain rfl := Value.dict.inj htaken
    have hclean : (Value.text "None").cleaned? = some "None" := by decide +kernel
    have hnone : Address.isValid "None" = true := hvalid _ hmem "None" hclean
    revert hnone
    decide +kernel
  | key opened interfaces null unwritable =>
    obtain rfl := Value.dict.inj (hopened.symm.trans opened)
    obtain rfl := Option.some.inj (hentries.symm.trans interfaces)
    have hkey := (Value.hasText_dict.1 htext _ null).1
    rw [unwritable] at hkey
    cases hkey

/-- A design in whose records a null counts is not read, the names of the interface addresses there being
different texts. -/
theorem CountsNull.readInto_eq_error (hcounts : CountsNull v) (hapart : NamesApart v) (r : Registry)
    {data : Value} {devices connections : List Value} (h : records? data = some (devices, connections))
    (hv : v ∈ devices) : ∃ halted, (readInto r data).outcome = .error halted := by
  rw [outcome_readInto r h]
  cases hread : (addDevices r 1 devices >>= fun r' => addConnections r' 1 connections).outcome with
  | error halted => exact ⟨halted, rfl⟩
  | ok r₂ =>
    obtain ⟨r₁, hadded, -⟩ := Journal.bind_eq_ok.1 hread
    obtain ⟨_, draft, hdraft, r₀, d, hd, -⟩ := (exists_of_addDevices hadded).2 v hv
    exact absurd hd (hcounts.not_accepts hapart hdraft r₀ d)

/-- Leaving out fields of records that are null, and single interface addresses that are null, makes no
difference to what is read from a design, nor to the fault at which the reading ends, whatever registry it is
read into, if none of the nulls that are left out counts; others that count may stay. A design in whose
records one counts, and the names of the interface addresses there are different texts, is not read. -/
theorem readInto_lighter (r : Registry) {data data' : Value} (h : LighterDesign data data') :
    ((∀ devices connections devices' connections', records? data = some (devices, connections) →
        records? data' = some (devices', connections') →
        List.Forall₂ (fun v v' => ¬ DropsCounted v v') devices devices') →
      (readInto r data').outcome = (readInto r data).outcome) ∧
    ∀ devices connections, records? data = some (devices, connections) →
      (∃ v ∈ devices, CountsNull v ∧ NamesApart v) →
      ∃ halted, (readInto r data).outcome = .error halted := by
  refine ⟨?_, fun devices connections hrecords ⟨v, hv, hcounts, hapart⟩ =>
    hcounts.readInto_eq_error hapart r hrecords hv⟩
  intro hdrops
  cases h with
  | same => rfl
  | @fields _ fields fields' opened opened' hdevices hconnections =>
    unfold readInto
    unfold records? at hdrops
    simp only [opened, opened'] at hdrops ⊢
    generalize listUnder? "devices" fields = x at hdevices hdrops ⊢
    generalize listUnder? "devices" fields' = x' at hdevices hdrops ⊢
    generalize listUnder? "connections" fields = y at hconnections hdrops ⊢
    generalize listUnder? "connections" fields' = y' at hconnections hdrops ⊢
    cases hdevices with
    | none => rfl
    | some hdevices =>
      cases hconnections with
      | none => rfl
      | some hconnections =>
        simp only [Journal.outcome_bind, outcome_addDevices_lighter hdevices (hdrops _ _ _ _ rfl rfl),
          addConnections_lighter hconnections]

/-- The record of a router with some fields. -/
def routerRecord (fields : List (String × Value)) : Value :=
  .record ([("id", .text "R"), ("type", .text "router")] ++ fields)

/-- The record of a machine with interface addresses. -/
def machineRecord (addresses : List (String × Value)) : Value :=
  .record [("id", .text "b"), ("interface_ips", .record addresses)]

/-- The record of a connection between the two, with some fields. -/
def linkRecord (fields : List (String × Value)) : Value :=
  .record ([("from", .text "R"), ("to", .text "b")] ++ fields)

/-- A design with some devices and connections. -/
def designOf (devices connections : List Value) : Value :=
  .record [("devices", .list devices), ("connections", .list connections)]

theorem records?_designOf (devices connections : List Value) :
    records? (designOf devices connections) = some (devices, connections) := by
  cases devices <;> cases connections <;> rfl

/-- Designs of records that are lighter one by one. -/
theorem lighter_designOf {ds ds' cs cs' : List Value} (hds : List.Forall₂ LighterDevice ds ds')
    (hcs : List.Forall₂ LighterConnection cs cs') : LighterDesign (designOf ds cs) (designOf ds' cs') := by
  have hlists : ∀ ds cs, ∃ fields, (designOf ds cs).opened = .dict fields ∧
      listUnder? "devices" fields = some ds ∧ listUnder? "connections" fields = some cs := by
    intro ds cs
    cases ds <;> cases cs <;> exact ⟨_, rfl, rfl, rfl⟩
  obtain ⟨fields, hopened, hdevices, hconnections⟩ := hlists ds cs
  obtain ⟨fields', hopened', hdevices', hconnections'⟩ := hlists ds' cs'
  refine .fields hopened hopened' ?_ ?_
  · rw [hdevices, hdevices']
    exact .some hds
  · rw [hconnections, hconnections']
    exact .some hcs

/-- No null counts in the record of a router whose fields are null, nor in that of a machine with an address
that is. -/
theorem not_countsNull_routerRecord :
    ¬ CountsNull (routerRecord [("cpu", .null), ("interface_ips", .null)]) := by
  intro hcounts
  cases hcounts with
  | type opened null =>
    obtain rfl := Value.dict.inj opened
    cases null
  | address opened router interfaces null =>
    obtain rfl := Value.dict.inj opened
    obtain rfl := Option.some.inj interfaces
    cases null
  | key opened interfaces null unwritable =>
    obtain rfl := Value.dict.inj opened
    obtain rfl := Option.some.inj interfaces
    cases null

theorem not_countsNull_machineRecord : ¬ CountsNull (machineRecord [("to_R", .null)]) := by
  intro hcounts
  cases hcounts with
  | type opened null =>
    obtain rfl := Value.dict.inj opened
    cases null
  | address opened router interfaces null =>
    obtain rfl := Value.dict.inj opened
    exact absurd router (by decide)
  | key opened interfaces null unwritable =>
    obtain rfl := Value.dict.inj opened
    obtain rfl := Option.some.inj interfaces
    obtain ⟨rfl, -⟩ := Prod.mk.inj (List.mem_singleton.1 null)
    cases unwritable

/-- Nulls of each kind are left out: fields of a router, an interface address of a machine, and a field of a
connection. Of a router with a null that counts, another null is left out, and the fault stays the same. -/
theorem readInto_lighter_linked :
    let data := designOf [routerRecord [("cpu", .null), ("interface_ips", .null)],
      machineRecord [("to_R", .null)]] [linkRecord [("speed", .null)]]
    let data' := designOf [routerRecord [], machineRecord []] [linkRecord []]
    let counted := designOf [routerRecord [("interface_ips", .record [("to_b", .null)]), ("cpu", .null)]] []
    let counted' := designOf [routerRecord [("interface_ips", .record [("to_b", .null)])]] []
    (readInto .empty data').outcome = (readInto .empty data).outcome ∧
      (left (readInto .empty data).outcome).devices.map Device.id = ["R", "b"] ∧
      (readInto .empty counted').outcome = (readInto .empty counted).outcome ∧
      ∃ halted, (readInto .empty counted).outcome = .error halted := by
  have hrouter : LighterDevice (routerRecord [("cpu", .null), ("interface_ips", .null)])
      (routerRecord []) := by
    refine .fields rfl rfl (by unfold Value.DistinctKeys; decide) ?_
    exact .keep (.inl rfl) (.keep (.inl rfl)
      (.drop ⟨"cpu", by decide, rfl⟩ (.drop ⟨"interface_ips", by decide, rfl⟩ .nil)))
  have hmachine : LighterDevice (machineRecord [("to_R", .null)]) (machineRecord []) := by
    refine .fields rfl rfl (by unfold Value.DistinctKeys; decide) ?_
    exact .keep (.inl rfl) (.keep (.inr ⟨rfl, .entries rfl rfl (.drop trivial .nil)⟩) .nil)
  have hlink : LighterConnection (linkRecord [("speed", .null)]) (linkRecord []) := by
    refine .fields rfl rfl (by unfold Value.DistinctKeys; decide) ?_
    exact .keep rfl (.keep rfl (.drop ⟨"speed", by decide, rfl⟩ .nil))
  have hcounted : LighterDevice
      (routerRecord [("interface_ips", .record [("to_b", .null)]), ("cpu", .null)])
      (routerRecord [("interface_ips", .record [("to_b", .null)])]) := by
    refine .fields rfl rfl (by unfold Value.DistinctKeys; decide) ?_
    exact .keep (.inl rfl) (.keep (.inl rfl) (.keep (.inl rfl) (.drop ⟨"cpu", by decide, rfl⟩ .nil)))
  obtain ⟨hsame, -⟩ := readInto_lighter .empty
    (lighter_designOf (.cons hrouter (.cons hmachine .nil)) (.cons hlink .nil))
  obtain ⟨hsame', hrefused⟩ := readInto_lighter .empty (lighter_designOf (.cons hcounted .nil) .nil)
  simp only [records?_designOf, Option.some.injEq, Prod.mk.injEq] at hsame hsame' hrefused
  refine ⟨hsame ?_, by decide +kernel, hsame' ?_,
    hrefused _ _ ⟨rfl, rfl⟩ ⟨_, List.mem_singleton_self _, .address rfl rfl rfl List.mem_cons_self, ?_⟩⟩
  · rintro _ _ _ _ ⟨rfl, rfl⟩ ⟨rfl, rfl⟩
    exact .cons (fun h => not_countsNull_routerRecord (h.countsNull hrouter))
      (.cons (fun h => not_countsNull_machineRecord (h.countsNull hmachine)) .nil)
  · -- the null that is left out is that of a field, and the address stays
    rintro _ _ _ _ ⟨rfl, rfl⟩ ⟨rfl, rfl⟩
    refine .cons ?_ .nil
    intro hdrops
    cases hdrops with
    | type opened _ null _ =>
      obtain rfl := Value.dict.inj opened
      cases null
    | address opened opened' _ interfaces interfaces' gone =>
      obtain rfl := Value.dict.inj opened
      obtain rfl := Value.dict.inj opened'
      exact gone (Option.some.inj (interfaces'.symm.trans interfaces))
    | key opened opened' interfaces interfaces' null gone _ =>
      obtain rfl := Value.dict.inj opened
      obtain rfl := Value.dict.inj opened'
      obtain rfl := Option.some.inj (interfaces.symm.trans interfaces')
      exact gone null
  · intro fields entries opened interfaces
    obtain rfl := Value.dict.inj opened
    obtain rfl := Option.some.inj interfaces
    exact List.nodup_singleton _

/-- A router is not read whose address towards a peer is null, and would be without this address; nor is a
device whose type is null, which would be a machine without it. -/
theorem readInto_lighter_counted :
    (∃ v v', LighterDevice v v' ∧ (∃ r, (readInto .empty (designOf [v'] [])).outcome = .ok r) ∧
      ∃ halted, (readInto .empty (designOf [v] [])).outcome = .error halted ∧
        halted.error = .refused (.interfaceInvalid "to_b" "None")) ∧
    ∃ v v', LighterDevice v v' ∧ (∃ r, (readInto .empty (designOf [v'] [])).outcome = .ok r) ∧
      ∃ halted, (readInto .empty (designOf [v] [])).outcome = .error halted ∧
        halted.error = .refused (.typeUnsupported "None") := by
  refine ⟨⟨routerRecord [("interface_ips", .record [("to_b", .null)])],
    routerRecord [("interface_ips", .record [])], ?_, ⟨_, rfl⟩, _, rfl, by decide +kernel⟩,
    .record [("id", .text "b"), ("type", .null)], .record [("id", .text "b")], ?_, ⟨_, rfl⟩, _, rfl,
    by decide +kernel⟩
  · refine .fields rfl rfl (by unfold Value.DistinctKeys; decide) ?_
    exact .keep (.inl rfl) (.keep (.inl rfl)
      (.keep (.inr ⟨rfl, .entries rfl rfl (.drop trivial .nil)⟩) .nil))
  · refine .fields rfl rfl (by unfold Value.DistinctKeys; decide) ?_
    exact .keep (.inl rfl) (.drop ⟨"type", by decide, rfl⟩ .nil)

end Design

end VirtNet
