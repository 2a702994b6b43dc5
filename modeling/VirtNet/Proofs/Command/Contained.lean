import VirtNet.Proofs.Command.Status
import VirtNet.Proofs.Settings.Checks

/-!
# Faults of settings in a run

Where the settings have a fault, a run that reads them ends with its report and status 1, provided that the
fault has one. The values at which it has none are known (`Settings.Escapes`); there the run fails in a way
that is not reported (`settings_contained_iff`).
-/

namespace VirtNet

namespace Settings

variable {secrets : Secrets} {data : Value} {files : FileTree} {asked named : Option Path}

/-- The first check to fail in a document of settings fails without a report. -/
def Escapes (secrets : Secrets) (data : Value) : Prop :=
  ∃ fields, data.truthy = true ∧ data.opened = .dict fields ∧
    ∃ before check after, checks fields = before ++ check :: after ∧
      (∀ c ∈ before, c.run secrets = .ok ()) ∧ check.Escapes secrets

/-- A document has a fault without a report exactly where such a check is the first to fail. -/
theorem exists_unreported_iff :
    (∃ e, ofDocument secrets data = .error e ∧ e.message? = none) ↔ Escapes secrets data := by
  constructor
  · rintro ⟨e, h, hnone⟩
    unfold ofDocument at h
    split at h
    · cases h
    · next fields htruthy hopened =>
      -- reading the fields fails where the first check does
      have hfirst : (checks fields).forM (Check.run secrets) = .error e := by
        rw [← ofFields_checks, h]
        rfl
      obtain ⟨before, check, after, hchecks, hbefore, hcheck⟩ := Outcome.forM_eq_error.1 hfirst
      exact ⟨fields, htruthy, hopened, before, check, after, hchecks, hbefore,
        Check.exists_run_iff.1 ⟨e, hcheck, hnone⟩⟩
    · cases h
      cases hnone
  · rintro ⟨fields, htruthy, hopened, before, check, after, hchecks, hbefore, hescapes⟩
    obtain ⟨e, hcheck, hnone⟩ := Check.exists_run_iff.2 hescapes
    refine ⟨e, ?_, hnone⟩
    have hfirst : (ofFields secrets fields).map (fun _ => ()) = .error e := by
      rw [ofFields_checks]
      exact Outcome.forM_eq_error.2 ⟨before, check, after, hchecks, hbefore, hcheck⟩
    rw [ofDocument_of_truthy htruthy hopened]
    exact Outcome.map_eq_error.1 hfirst

/-- The settings file that is asked for, or the one that is named, or the usual one is there and holds a
value. -/
def Holds (files : FileTree) (asked named : Option Path) (data : Value) : Prop :=
  ∃ text, files.lookForAny ((asked.or named).getD usualPath) = .ok true ∧
    files.read ((asked.or named).getD usualPath) = .ok text ∧ Yaml.read text = .ok data

/-- The settings in a file are those of the value that it holds. -/
theorem load_of_holds (h : Holds files asked named data) :
    load files secrets asked named = (ofDocument secrets data).mapError .notSettings := by
  obtain ⟨text, hthere, hread, hvalue⟩ := h
  rw [load, hthere, Outcome.mapError_ok, Outcome.ok_bind, if_pos rfl, ofFile, hread,
    Outcome.mapError_ok, Outcome.ok_bind, hvalue]

end Settings

/-- Whether an action is done with settings. -/
def Action.readsSettings : Action → Bool
  | .manifests .. | .topology .. | .validate _ => true
  | .list _ | .version | .help => false

namespace Run

variable {env : Environment} {asked : Option Path} {action : Action} {e : SettingsLoadError}

/-- An action that needs settings fails where they cannot be loaded. -/
theorem perform_of_load_eq_error (haction : action.readsSettings = true)
    (h : Settings.load env.files env.secrets asked env.settingsPath = .error e) :
    (perform env ⟨asked, action⟩).outcome = .error (.settings e) := by
  have hsettings : ∀ mode, (settings env asked mode).outcome = .error (.settings e) := by
    intro mode
    rw [settings, Journal.outcome_bind, Journal.outcome_mapError, Journal.outcome_ofExcept, h]
    rfl
  cases action with
  | manifests name mode output networkMode generation =>
    show (exportRun env asked name mode output networkMode generation).outcome = _
    rw [exportRun, Journal.outcome_bind, hsettings]
    rfl
  | topology name networkMode =>
    show (topologyRun env asked name networkMode).outcome = _
    rw [topologyRun, Journal.outcome_bind, hsettings]
    rfl
  | validate name =>
    show (validateRun env asked name).outcome = _
    rw [validateRun, Journal.outcome_bind, hsettings]
    rfl
  | list | version | help => cases haction

/-- Settings have a fault without a report exactly at the values that are known to escape. A run that reads
them ends, where they have a fault, with its report and status 1, unless they are such values: then the run
fails without a report. -/
theorem settings_contained_iff (env : Environment) (data : Value) :
    ((∃ e, Settings.ofDocument env.secrets data = .error e ∧ e.message? = none) ↔
      Settings.Escapes env.secrets data) ∧
    ∀ args asked action e, Request.ofArguments env.files args = .ok ⟨asked, action⟩ →
      action.readsSettings = true → Settings.Holds env.files asked env.settingsPath data →
      Settings.ofDocument env.secrets data = .error e →
      (¬ Settings.Escapes env.secrets data → ∃ message, e.message? = some message ∧
        (run env args).outcome = .ok { status := 1, errorOutput := shown s!"Error: {message}\n" }) ∧
      (Settings.Escapes env.secrets data →
        (run env args).outcome = .error (.settings (.notSettings e))) := by
  refine ⟨Settings.exists_unreported_iff, ?_⟩
  intro args asked action e hrequest haction hholds he
  have hload : Settings.load env.files env.secrets asked env.settingsPath = .error (.notSettings e) := by
    rw [Settings.load_of_holds hholds, he]
    rfl
  have hrun := outcome_run_of_error hrequest (perform_of_load_eq_error haction hload)
  constructor
  · intro hcontained
    cases hmessage : e.message? with
    | none => exact absurd (Settings.exists_unreported_iff.1 ⟨e, he, hmessage⟩) hcontained
    | some message =>
      refine ⟨message, rfl, ?_⟩
      rw [hrun, RunError.message?, SettingsLoadError.message?, hmessage]
      rfl
  · intro hescapes
    obtain ⟨e', he', hnone⟩ := Settings.exists_unreported_iff.2 hescapes
    obtain rfl : e = e' := Except.error.inj (he.symm.trans he')
    rw [hrun, RunError.message?, SettingsLoadError.message?, hnone]
    rfl

/-- A directory with a settings file alone. -/
def configured (text : String) : Environment where
  files := { entries := [(["designer.yaml"], some text)], home := [] }
  settingsPath := none
  secrets := none
  now := ⟨⟨2024, 10, 18⟩, 14, 32, 59, 0, none⟩

/-- A value of the settings file and the report of its fault. -/
theorem exists_fault {text : String} {message : Option String}
    (h : (Yaml.read text).toOption.any (fun data =>
      ((Settings.ofDocument none data).map fun _ => ()).mapError SettingsError.message? =
        .error message) = true) :
    ∃ data e, Yaml.read text = .ok data ∧ Settings.ofDocument none data = .error e ∧
      e.message? = message := by
  obtain ⟨data, hdata, hfault⟩ := Outcome.exists_of_any_toOption h
  cases he : Settings.ofDocument none data with
  | ok s =>
    rw [he] at hfault
    cases hfault
  | error e =>
    rw [he] at hfault
    exact ⟨data, e, hdata, he, Except.error.inj hfault⟩

/-- A range beyond its network is reported. -/
theorem settings_contained_range :
    (run (configured "ipam:\n  range_end: 300\n") ["validate", "lab"]).outcome =
      .ok { status := 1, errorOutput := "Error: Invalid IPAM range 10-300\n" } := by
  obtain ⟨data, e, hdata, he, hmessage⟩ := @exists_fault "ipam:\n  range_end: 300\n"
    (some "Invalid IPAM range 10-300") (by decide +kernel)
  have hholds : Settings.Holds (configured "ipam:\n  range_end: 300\n").files none none data :=
    ⟨_, by decide +kernel, by decide +kernel, hdata⟩
  obtain ⟨hiff, hrun⟩ := settings_contained_iff (configured "ipam:\n  range_end: 300\n") data
  have hcontained : ¬ Settings.Escapes none data := by
    intro hescapes
    obtain ⟨e', he', hnone⟩ := hiff.2 hescapes
    obtain rfl : e = e' := Except.error.inj (he.symm.trans he')
    rw [hmessage] at hnone
    cases hnone
  obtain ⟨message, hmessage', houtcome⟩ :=
    (hrun ["validate", "lab"] none (.validate "lab") e rfl rfl hholds he).1 hcontained
  obtain rfl : "Invalid IPAM range 10-300" = message :=
    Option.some.inj (hmessage.symm.trans hmessage')
  have hshown : shown ("Error: " ++ "Invalid IPAM range 10-300" ++ "\n") =
      "Error: Invalid IPAM range 10-300\n" := by
    decide +kernel
  exact houtcome.trans
    (congrArg (fun text => Except.ok ({ status := 1, errorOutput := text } : RunResult)) hshown)

/-- An infinite limit to the user data is not reported. -/
theorem settings_escape_infinite : ∃ data e, Yaml.read "user_data_limit: .inf\n" = .ok data ∧
    Settings.ofDocument none data = .error e ∧ e.message? = none ∧
    (run (configured "user_data_limit: .inf\n") ["validate", "lab"]).outcome =
      .error (.settings (.notSettings e)) := by
  obtain ⟨data, e, hdata, he, hnone⟩ := @exists_fault "user_data_limit: .inf\n" none (by decide +kernel)
  have hholds : Settings.Holds (configured "user_data_limit: .inf\n").files none none data :=
    ⟨_, by decide +kernel, by decide +kernel, hdata⟩
  have hload : Settings.load (configured "user_data_limit: .inf\n").files none none none =
      .error (.notSettings e) := by
    rw [Settings.load_of_holds hholds, he]
    rfl
  have hperform := @perform_of_load_eq_error (configured "user_data_limit: .inf\n") none (.validate "lab")
    (.notSettings e) rfl hload
  have hrun := @outcome_run_of_error _ ["validate", "lab"] _ _ rfl hperform
  refine ⟨data, e, hdata, he, hnone, ?_⟩
  rw [hrun, RunError.message?, SettingsLoadError.message?, hnone]
  rfl

end Run

end VirtNet
