import VirtNet.Proofs.Settings.Document

/-!
# The checks of a document of settings

A document of settings is gone through in a fixed order, and each value in it is checked as it is reached
(`checks`). The first check that fails decides the fault (`ofFields_checks`). Some faults have no report:
`Check.Escapes` says at which values a check has one of these (`Check.exists_run_iff`). Among them is a
reference to a secret that cannot be asked for (`Secrets.exists_ask_iff`).
-/

namespace VirtNet

/-- The secret under a reference cannot be asked for: nobody can be asked for such a text, or the vault
gives no answer. -/
def Secrets.Unreachable (secrets : Secrets) (reference : String) : Prop :=
  referenceEnd ∈ reference.toList ∨ ∃ vault, secrets = some vault ∧ vault.answer reference = .nothing

/-- Asking for a secret fails without a report exactly where the secret cannot be asked for. -/
theorem Secrets.exists_ask_iff {secrets : Secrets} {reference : String} :
    (∃ e, secrets.ask reference = .error e ∧ e.message? = none) ↔ secrets.Unreachable reference := by
  unfold ask Unreachable
  by_cases hend : referenceEnd ∈ reference.toList
  · simp [hend, SettingsError.message?]
  · cases secrets with
    | none => simp [hend, SettingsError.message?]
    | some vault => cases hanswer : vault.answer reference <;>
        simp [hend, hanswer, SettingsError.message?]

namespace Settings

variable {secrets : Secrets} {fields : List (Value × Value)} {key : String} {v : Value}

/-! ## Checks -/

/-- Whether a value is a mapping. -/
def isMapping (v : Value) : Bool :=
  match v.opened with
  | .dict _ => true
  | _ => false

/-- Something that is looked at in a document of settings. -/
inductive Check
  /-- A part of the settings. -/
  | part (key : String) (v : Value)
  /-- A value that is kept as it is, unless it refers to a secret. -/
  | kept (v : Value)
  /-- The accounts that get a password. -/
  | users (v : Value)
  /-- The password. -/
  | password (v : Value)
  /-- A whole number. -/
  | number (key : String) (v : Value)
  /-- The range of host numbers, once its ends are whole numbers. -/
  | range (first last : Value)

/-- The whole number that a value stands for, if it is not a reference to one. -/
def referredNumber (secrets : Secrets) (key : String) (v : Value) : Except SettingsError Int := do
  wholeNumber key (← resolve secrets v)

/-- A value refers to a secret that cannot be asked for. -/
def RefersBeyond (secrets : Secrets) (v : Value) : Prop :=
  ∃ s, v = .text s ∧ Secrets.refers s = true ∧ secrets.Unreachable s

namespace Check

/-- Makes a check. -/
def run (secrets : Secrets) : Check → Except SettingsError Unit
  | part key v => if v.truthy && !isMapping v then .error (.partMalformed key) else .ok ()
  | kept v => (resolve secrets v).map fun _ => ()
  | users v => (Settings.users v).map fun _ => ()
  | password v => (resolve secrets v >>= written).map fun _ => ()
  | number key v => (referredNumber secrets key v).map fun _ => ()
  | range first last =>
    match referredNumber secrets "range_start" first, referredNumber secrets "range_end" last with
    | .ok m, .ok n => if isRange m n then .ok () else .error (notARange m n)
    | _, _ => .ok ()

/-- The check fails at its value without a report: a part that is no mapping, a reference to a secret that
cannot be asked for, accounts that cannot be gone through or not be written, a password that cannot be
written, a number that is infinite, and a number that cannot be written. -/
def Escapes (secrets : Secrets) : Check → Prop
  | part _ v => v.truthy = true ∧ isMapping v = false
  | kept v => RefersBeyond secrets v
  | users v =>
    match v.opened with
    | .text _ | .bytes _ => False
    | .list items | .set items => ∃ w ∈ items, w.hasText = false
    | .pair a b => ∃ w ∈ [a, b], w.hasText = false
    | .dict entries => ∃ e ∈ entries, e.1.hasText = false
    | _ => True
  | password v => RefersBeyond secrets v ∨ v.hasText = false
  | number _ v => RefersBeyond secrets v ∨
    (∃ x negative, v = .float x ∧ x.meaning = .infinite negative) ∨ v.hasText = false ∧ ∀ n, v ≠ .int n
  | range first last => ∃ m n, referredNumber secrets "range_start" first = .ok m ∧
      referredNumber secrets "range_end" last = .ok n ∧ isRange m n = false ∧
      (Text.isWritable m = false ∨ Text.isWritable n = false)

end Check

/-- The entries of the mapping under a key; none where there is no mapping. -/
def entriesUnder (key : String) (fields : List (Value × Value)) : List (Value × Value) :=
  let v := (Value.lookup key fields).getD .null
  match v.truthy, v.opened with
  | true, .dict entries => entries
  | _, _ => []

/-- The checks of a document, in order. -/
def checks (fields : List (Value × Value)) : List Check :=
  let base : Settings := {}
  let field (key : String) (default : Value) := (Value.lookup key fields).getD default
  let login (key : String) (default : Value) :=
    (Value.lookup key (entriesUnder "login" fields)).getD default
  let ipam (key : String) (default : Value) :=
    (Value.lookup key (entriesUnder "ipam" fields)).getD default
  let management (key : String) (default : Value) :=
    (Value.lookup key (entriesUnder "management" fields)).getD default
  [.part "login" (field "login" .null),
    .kept (field "network_mode" base.networkMode),
    .kept (field "storage_class" base.storageClass),
    .kept (field "image_url" base.imageUrl),
    .users (login "users" (.texts base.loginUsers)),
    .password (login "password" (.text base.loginPassword)),
    .number "user_data_limit" (field "user_data_limit" base.userDataLimit),
    .part "ipam" (field "ipam" .null),
    .number "range_start" (ipam "range_start" base.ipamStart),
    .number "range_end" (ipam "range_end" base.ipamEnd),
    .part "management" (field "management" .null),
    .kept (management "interface" base.managementInterface),
    .kept (management "gateway" base.managementGateway),
    .range (ipam "range_start" base.ipamStart) (ipam "range_end" base.ipamEnd)]

/-- A part that can be read has the entries under its key. -/
theorem partFields_eq (secrets : Secrets) : partFields key fields =
    ((Check.part key ((Value.lookup key fields).getD .null)).run secrets).map
      fun _ => entriesUnder key fields := by
  unfold partFields Check.run entriesUnder isMapping
  dsimp only
  generalize (Value.lookup key fields).getD .null = v
  cases v.truthy with
  | false => rfl
  | true => cases v.opened <;> rfl

theorem entriesUnder_of_partFields {es : List (Value × Value)} (h : partFields key fields = .ok es) :
    entriesUnder key fields = es := by
  rw [partFields_eq none] at h
  cases hrun : (Check.part key ((Value.lookup key fields).getD .null)).run none with
  | error e =>
    rw [hrun] at h
    cases h
  | ok u =>
    rw [hrun] at h
    exact Except.ok.inj h

/-- A document gives settings where all checks succeed, and otherwise has the fault of the first that
fails. -/
theorem ofFields_checks :
    (ofFields secrets fields).map (fun _ => ()) = (checks fields).forM (Check.run secrets) := by
  have hpart : ∀ key, (partFields key fields).map (fun _ => ()) =
      (Check.part key ((Value.lookup key fields).getD .null)).run secrets := by
    intro key
    rw [partFields_eq secrets]
    cases (Check.part key _).run secrets <;> rfl
  unfold ofFields
  refine Outcome.bind_map_eq (hpart "login") fun login hlogin => ?_
  obtain rfl := entriesUnder_of_partFields hlogin
  refine Outcome.bind_map_eq rfl fun _ _ => Outcome.bind_map_eq rfl fun _ _ =>
    Outcome.bind_map_eq rfl fun _ _ => Outcome.bind_map_eq rfl fun _ _ => ?_
  rw [← bind_assoc]
  refine Outcome.bind_map_eq rfl fun _ _ => Outcome.bind_map_eq rfl fun _ _ => ?_
  refine Outcome.bind_map_eq (hpart "ipam") fun ipam hipam => ?_
  obtain rfl := entriesUnder_of_partFields hipam
  refine Outcome.bind_map_eq rfl fun first hfirst => Outcome.bind_map_eq rfl fun last hlast => ?_
  refine Outcome.bind_map_eq (hpart "management") fun management hmanagement => ?_
  obtain rfl := entriesUnder_of_partFields hmanagement
  refine Outcome.bind_map_eq rfl fun _ _ => Outcome.bind_map_eq rfl fun _ _ => ?_
  -- the ends of the range are the numbers that were read
  have hrange : ((Check.range
      ((Value.lookup "range_start" (entriesUnder "ipam" fields)).getD ({} : Settings).ipamStart)
      ((Value.lookup "range_end" (entriesUnder "ipam" fields)).getD ({} : Settings).ipamEnd)).run secrets) =
      if isRange first last then .ok () else .error (notARange first last) := by
    rw [Check.run, show referredNumber secrets "range_start" _ = .ok first from hfirst,
      show referredNumber secrets "range_end" _ = .ok last from hlast]
  rw [show List.forM [Check.range _ _] (Check.run secrets) =
    (Check.range _ _).run secrets >>= fun _ => pure () from rfl, hrange]
  split <;> rfl

/-! ## Faults without a report -/

theorem resolve_text {s : String} : resolve secrets (.text s) =
    if Secrets.refers s then (secrets.ask s).map .text else .ok (.text s) := rfl

/-- A value that is no text is no reference. -/
theorem resolve_of_ne_text (h : ∀ s, v ≠ .text s) : resolve secrets v = .ok v := by
  unfold resolve
  split
  · next s => exact absurd rfl (h s)
  · rfl

/-- A reference that cannot be resolved is reported unless its secret cannot be asked for. -/
theorem exists_resolve_iff :
    (∃ e, resolve secrets v = .error e ∧ e.message? = none) ↔ RefersBeyond secrets v := by
  by_cases htext : ∃ s, v = .text s
  · obtain ⟨s, rfl⟩ := htext
    simp only [RefersBeyond, Value.text.injEq, exists_eq_left', ← Secrets.exists_ask_iff, resolve_text]
    cases Secrets.refers s with
    | false => simp
    | true => simp [Outcome.map_eq_error]
  · have hne : ∀ s, v ≠ .text s := fun s hs => htext ⟨s, hs⟩
    rw [resolve_of_ne_text hne]
    exact iff_of_false (by rintro ⟨e, ⟨⟩, -⟩) (by rintro ⟨s, hs, -⟩; exact hne s hs)

/-- Only a text is resolved to another value, which is a text again. -/
theorem resolve_eq_ok {w : Value} (h : resolve secrets v = .ok w) :
    w = v ∨ ∃ s t, v = .text s ∧ w = .text t := by
  by_cases htext : ∃ s, v = .text s
  · obtain ⟨s, rfl⟩ := htext
    rw [resolve_text] at h
    split at h
    · obtain ⟨t, -, rfl⟩ := Outcome.map_eq_ok.1 h
      exact .inr ⟨s, t, rfl, rfl⟩
    · exact .inl (Except.ok.inj h).symm
  · rw [resolve_of_ne_text fun s hs => htext ⟨s, hs⟩] at h
    exact .inl (Except.ok.inj h).symm

theorem written_eq_error {e : SettingsError} :
    written v = .error e ↔ v.hasText = false ∧ e = .unwritable := by
  unfold written Value.toText?
  cases v.hasText <;> simp [eq_comm]

/-- The accounts cannot be listed where one of them cannot be written. -/
theorem exists_mapM_written {α : Type} {f : α → Value} {as : List α} :
    (∃ e, as.mapM (fun a => written (f a)) = .error e ∧ e.message? = none) ↔
      ∃ a ∈ as, (f a).hasText = false := by
  constructor
  · rintro ⟨e, h, -⟩
    obtain ⟨a, ha, hfault⟩ := Outcome.exists_of_mapM_eq_error h
    exact ⟨a, ha, (written_eq_error.1 hfault).1⟩
  · rintro ⟨a, ha, hfault⟩
    cases h : as.mapM fun a => written (f a) with
    | error e =>
      obtain ⟨b, -, hb⟩ := Outcome.exists_of_mapM_eq_error h
      obtain ⟨-, rfl⟩ := written_eq_error.1 hb
      exact ⟨_, rfl, rfl⟩
    | ok names =>
      obtain ⟨name, -, hname⟩ := Outcome.mem_of_mapM_eq_ok h ha
      rw [written_eq_error.2 ⟨hfault, rfl⟩] at hname
      cases hname

/-- The report of a value that is no whole number shows the value. -/
theorem message?_notANumber : (notANumber key v).message? = none ↔ v.hasText = false := by
  unfold notANumber
  cases v.hasText <;> simp [SettingsError.message?]

/-- The report of two numbers that are no range shows both. -/
theorem message?_notARange {m n : Int} : (notARange m n).message? = none ↔
    Text.isWritable m = false ∨ Text.isWritable n = false := by
  unfold notARange
  cases Text.isWritable m <;> cases Text.isWritable n <;> simp [SettingsError.message?]

/-- A text that is no number is shown in the report. -/
theorem message?_of_wholeNumber_text {t : String} {e : SettingsError}
    (h : wholeNumber key (.text t) = .error e) : e.message? ≠ none := by
  simp only [wholeNumber, Value.wholePart?] at h
  split at h
  · cases h
  · cases h
    simp [message?_notANumber, Value.hasText]

/-- A number that cannot be read is reported unless it refers to a secret that cannot be asked for, is
infinite, or is a value that cannot be written. -/
theorem exists_referredNumber_iff : (∃ e, referredNumber secrets key v = .error e ∧ e.message? = none) ↔
    RefersBeyond secrets v ∨ (∃ x negative, v = .float x ∧ x.meaning = .infinite negative) ∨
      v.hasText = false ∧ ∀ n, v ≠ .int n := by
  by_cases hv : ∃ s, v = .text s
  · obtain ⟨s, rfl⟩ := hv
    simp only [Value.hasText, reduceCtorEq, false_and, exists_false, or_false]
    rw [← exists_resolve_iff]
    constructor
    · rintro ⟨e, h, hnone⟩
      rcases Outcome.bind_eq_error.1 h with hresolve | ⟨w, hw, hnumber⟩
      · exact ⟨e, hresolve, hnone⟩
      -- what stands there is a text, with or without a secret in its place
      · rcases resolve_eq_ok hw with rfl | ⟨_, t, -, rfl⟩ <;>
          exact absurd hnone (message?_of_wholeNumber_text hnumber)
    · rintro ⟨e, hresolve, hnone⟩
      exact ⟨e, Outcome.bind_eq_error.2 (.inl hresolve), hnone⟩
  · have hresolve : resolve secrets v = .ok v := resolve_of_ne_text fun s hs => hv ⟨s, hs⟩
    have hdirect : ¬ RefersBeyond secrets v := by
      rintro ⟨s, hs, -⟩
      exact hv ⟨s, hs⟩
    rw [referredNumber, hresolve, Outcome.ok_bind, or_iff_right hdirect]
    cases v with
    | text s => exact absurd ⟨s, rfl⟩ hv
    | bool b | int n => simp [wholeNumber, Value.wholePart?, Value.hasText]
    | float x =>
      have htext : (Value.float x).hasText = true := rfl
      cases hx : x.meaning with
      | nan =>
        simp [wholeNumber, Value.wholePart?, Binary64.truncate?, Binary64.isNaN, message?_notANumber,
          htext, hx]
      | infinite negative =>
        simp [wholeNumber, Value.wholePart?, Binary64.truncate?, Binary64.isNaN, SettingsError.message?,
          hx]
      | finite negative m e => simp [wholeNumber, Value.wholePart?, Binary64.truncate?, htext, hx]
    | bytes bs =>
      simp only [wholeNumber, Value.wholePart?, Value.hasText, reduceCtorEq, false_and, exists_false,
        or_self, iff_false, not_exists, not_and]
      intro e h hnone
      split at h
      · cases h
      · cases h
        exact absurd (message?_notANumber.1 hnone) (by simp [Value.hasText])
    | _ => simp [wholeNumber, Value.wholePart?, message?_notANumber]

/-- A password fails without a report where it refers to a secret that cannot be asked for, or has no text;
a reference to another secret gives a text. -/
theorem exists_resolved_iff : (∃ e, resolve secrets v >>= written = .error e ∧ e.message? = none) ↔
    RefersBeyond secrets v ∨ v.hasText = false := by
  rw [← exists_resolve_iff]
  constructor
  · rintro ⟨e, h, hnone⟩
    rcases Outcome.bind_eq_error.1 h with hresolve | ⟨w, hw, hwritten⟩
    · exact .inl ⟨e, hresolve, hnone⟩
    · obtain ⟨htext, -⟩ := written_eq_error.1 hwritten
      rcases resolve_eq_ok hw with rfl | ⟨s, t, rfl, rfl⟩
      · exact .inr htext
      · cases htext
  · rintro (⟨e, hresolve, hnone⟩ | htext)
    · exact ⟨e, Outcome.bind_eq_error.2 (.inl hresolve), hnone⟩
    · have hne : ∀ s, v ≠ .text s := by
        rintro s rfl
        cases htext
      refine ⟨.unwritable, ?_, rfl⟩
      rw [resolve_of_ne_text hne, Outcome.ok_bind, written_eq_error]
      exact ⟨htext, rfl⟩

/-- A check fails without a report exactly at the values at which it is said to. -/
theorem Check.exists_run_iff {check : Check} :
    (∃ e, check.run secrets = .error e ∧ e.message? = none) ↔ check.Escapes secrets := by
  cases check with
  | part key v =>
    rw [run, Escapes]
    cases v.truthy <;> cases isMapping v <;> simp [SettingsError.message?]
  | kept v =>
    simp only [run, Outcome.map_eq_error]
    exact exists_resolve_iff
  | users v =>
    simp only [run, Outcome.map_eq_error, Escapes, Settings.users]
    cases v.opened with
    | text s => simp
    | bytes bs => simp
    | list items | set items => exact exists_mapM_written
    | pair a b => exact exists_mapM_written
    | dict entries => exact exists_mapM_written
    | _ => simp [SettingsError.message?]
  | password v =>
    simp only [run, Outcome.map_eq_error]
    exact exists_resolved_iff
  | number key v =>
    simp only [run, Outcome.map_eq_error]
    exact exists_referredNumber_iff
  | range first last =>
    rw [run, Escapes]
    cases referredNumber secrets "range_start" first with
    | error e => simp
    | ok m =>
      cases referredNumber secrets "range_end" last with
      | error e => simp
      | ok n =>
        cases hrange : isRange m n with
        | true => simp [hrange]
        | false => simp [hrange, message?_notARange]

end Settings

end VirtNet
