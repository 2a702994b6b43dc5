import VirtNet.Proofs.Command.Arguments
import VirtNet.Proofs.Command.Status
import VirtNet.Proofs.Export.Complete
import VirtNet.Proofs.Settings.Document

/-!
# Validation and export

A validation and a full export of a design read the same files and compile the same design. The export alone
goes on to write documents, and refuses an empty design (`exit_export_iff_validate`). A run has no known
status only if its settings or its design are in a file with half of a surrogate pair.
-/

namespace VirtNet

/-- The registry that a written design gives is one that a history leaves. -/
theorem Design.eq_after_of_read {data : Value} {g : Registry} (h : (read data).outcome = .ok g) :
    g = Registry.after [.load data] := by
  rw [read, Journal.outcome_mapError, Outcome.mapError_eq_ok] at h
  show g = left (readInto .empty data).outcome
  rw [h]
  rfl

variable {files : FileTree} {env : Environment} {config generation : Option String} {name : String}

namespace Run

open Arguments

/-! ## Arguments -/

/-- The arguments of a run: the settings file that is asked for, a command, its options and the name of a
design. -/
def arguments (config : Option String) (command : String) (options : List String) (name : String) :
    List String :=
  (config.elim [] fun file => ["--config", file]) ++ command :: (options ++ operand name)

/-- The options of a full export: its mode, which need not be given, and perhaps a generation. -/
def fullOptions (named : Bool) (generation : Option String) : List String :=
  (if named then ["--mode", "full"] else []) ++ generation.elim [] fun token => ["--generation", token]

/-- The arguments of a command give the request for it, with the settings file that is asked for. -/
theorem ofArguments_arguments {command : String} {options : List String} (hne : command ≠ "--")
    (hcommand : isOption command = false) :
    Request.ofArguments files (arguments config command options name) = do
      let asked ← Request.filePath files config
      let action ← Request.ofCommand files command (options ++ operand name)
      return ⟨asked, action⟩ := by
  have hoperands : ∀ rest, parse? Request.generalForms false (command :: rest) =
      some { operands := command :: rest } := by
    intro rest
    rw [parse?, if_neg hne, hcommand]
    rfl
  cases config with
  | none =>
    rw [Request.ofArguments, arguments, Option.elim_none, List.nil_append, hoperands]
    rfl
  | some file =>
    rw [Request.ofArguments, arguments, Option.elim_some, List.cons_append, List.cons_append,
      List.nil_append, parse?_option (by decide) rfl (by decide +kernel), hoperands]
    rfl

theorem ofCommand_validate :
    Request.ofCommand files "validate" ([] ++ operand name) = .ok (.validate name) := by
  rw [List.nil_append, Request.ofCommand]
  simp only [parse?_operand]
  rfl

theorem ofCommand_export {named : Bool} :
    Request.ofCommand files "export" (fullOptions named generation ++ operand name) =
      .ok (.manifests name ("full", .full) none none generation) := by
  have hparsed : parse? Request.exportForms true (fullOptions named generation ++ operand name) =
      some { options := (if named then [("--mode", "full")] else []) ++
               generation.elim [] fun token => [("--generation", token)]
             operands := [name] } := by
    have hgeneration : parse? Request.exportForms true
        ((generation.elim [] fun token => ["--generation", token]) ++ operand name) =
        some { options := generation.elim [] fun token => [("--generation", token)]
               operands := [name] } := by
      cases generation with
      | none => exact parse?_operand
      | some token =>
        rw [Option.elim_some, List.cons_append, List.cons_append, List.nil_append,
          parse?_option (by decide) rfl (by decide +kernel), parse?_operand]
        rfl
    cases named with
    | false => exact hgeneration
    | true =>
      rw [fullOptions, if_pos rfl, List.append_assoc, List.cons_append, List.cons_append,
        List.nil_append, parse?_option (by decide) rfl (by decide +kernel), hgeneration]
      rfl
  rw [Request.ofCommand]
  simp only [hparsed]
  cases named <;> cases generation <;> rfl

/-! ## Outcomes -/

/-- A run with these arguments reads these settings and this design. -/
structure Loads (env : Environment) (config : Option String) (name : String) (s : Settings)
    (g : Registry) : Prop where
  settings : ∃ asked, Request.filePath env.files config = .ok asked ∧
    (Run.settings env asked none).outcome = .ok s
  design : (Run.design env name).outcome = .ok g

variable {s : Settings} {g : Registry}

/-- The settings of a run limit the user data by a number. -/
theorem Loads.limit (h : Loads env config name s g) : ∃ most, UserData.limit s = .ok most := by
  obtain ⟨asked, -, hsettings⟩ := h.settings
  simp only [Run.settings, Journal.outcome_bind, Journal.outcome_mapError, Journal.outcome_ofExcept,
    Journal.outcome_pure, Outcome.bind_eq_ok, Outcome.mapError_eq_ok] at hsettings
  obtain ⟨_, hload, ⟨⟩⟩ := hsettings
  obtain ⟨most, hmost⟩ := Settings.exists_limit_of_load hload
  rw [UserData.limit, hmost]
  exact ⟨most, rfl⟩

/-- The design of a run is well formed. -/
theorem wellFormed_of_design (h : (Run.design env name).outcome = .ok g) : g.WellFormed := by
  simp only [Run.design, Design.load, Journal.outcome_bind, Journal.outcome_mapError,
    Journal.outcome_ofExcept, Outcome.mapError_eq_ok, Outcome.bind_eq_ok] at h
  obtain ⟨path, -, data, -, hread⟩ := h
  rw [Design.eq_after_of_read hread]
  exact Registry.wellFormed_after _

theorem Loads.wellFormed (h : Loads env config name s g) : g.WellFormed := wellFormed_of_design h.design

/-- A run reads its settings, its design and then goes on. -/
theorem exitStatus_arguments {command : String} {options : List String} {action : Action}
    (hne : command ≠ "--") (hcommand : isOption command = false)
    (haction : Request.ofCommand env.files command (options ++ operand name) = .ok action) :
    exitStatus (run env (arguments config command options name)) = some 0 ↔
      ∃ asked, Request.filePath env.files config = .ok asked ∧
        ∃ result, (perform env ⟨asked, action⟩).outcome = .ok result ∧ result.status = 0 := by
  rw [exitStatus_run (ofArguments_arguments hne hcommand), haction]
  constructor
  · rintro ⟨request, hrequest, hdone⟩
    obtain ⟨asked, hasked, ⟨⟩⟩ := Outcome.bind_eq_ok.1 hrequest
    exact ⟨asked, hasked, hdone⟩
  · rintro ⟨asked, hasked, hdone⟩
    exact ⟨_, Outcome.bind_eq_ok.2 ⟨asked, hasked, rfl⟩, hdone⟩

/-- A design that is compiled for a report is the design, and compiles unless it is empty. -/
theorem compiled_eq_ok {c : Compiled}
    (h : (Report.compiled g.devices g.connections s).outcome = .ok c) :
    c.devices = g.devices ∧
      (g.devices = [] ∨ (Compiled.ofDesign g.devices g.connections s).outcome = .ok c) := by
  unfold Report.compiled at h
  split at h
  · next hempty =>
    cases h
    exact ⟨rfl, .inl (List.isEmpty_iff.1 hempty)⟩
  · exact ⟨(Compiled.ofDesign_eq_ok.1 h).2.2.2.1, .inr h⟩

theorem exists_compiled
    (h : g.devices = [] ∨ ∃ c, (Compiled.ofDesign g.devices g.connections s).outcome = .ok c) :
    ∃ c, (Report.compiled g.devices g.connections s).outcome = .ok c := by
  unfold Report.compiled
  split
  · exact ⟨_, rfl⟩
  · next hne =>
    rcases h with hempty | hcompiled
    · exact absurd (List.isEmpty_iff.2 hempty) hne
    · exact hcompiled

/-- There is a report of every compiled design whose devices are of the three types. -/
theorem exists_ofCompiled {c : Compiled} (h : ∀ d ∈ c.devices, d.type.isKnown = true) (mode : Value) :
    ∃ report, Report.ofCompiled c mode = .ok report := by
  obtain ⟨devices, hdevices⟩ : ∃ vs, (c.devices.mapM fun d =>
      Report.ofDevice d (c.assignmentsOf d)) = .ok vs := by
    refine Outcome.exists_mapM_eq_ok fun d hd => ?_
    obtain ⟨word, hword⟩ := Option.isSome_iff_exists.1 (h d hd)
    rw [Report.ofDevice, DeviceType.word, hword]
    exact ⟨_, rfl⟩
  rw [Report.ofCompiled, hdevices]
  exact ⟨_, rfl⟩

/-- A validation succeeds when it can read the settings and the design and the design compiles or is
empty. -/
theorem exitStatus_validate : exitStatus (run env (arguments config "validate" [] name)) = some 0 ↔
    ∃ s g, Loads env config name s g ∧
      (g.devices = [] ∨ ∃ c, (Compiled.ofDesign g.devices g.connections s).outcome = .ok c) := by
  rw [exitStatus_arguments (by decide) rfl ofCommand_validate]
  constructor
  · rintro ⟨asked, hasked, result, hresult, -⟩
    simp only [perform, validateRun, Journal.outcome_bind, Journal.outcome_mapError,
      Outcome.bind_eq_ok, Outcome.mapError_eq_ok] at hresult
    obtain ⟨s, hs, g, hg, c, hc, -⟩ := hresult
    exact ⟨s, g, ⟨⟨asked, hasked, hs⟩, hg⟩, (compiled_eq_ok hc).2.imp_right fun h => ⟨c, h⟩⟩
  · rintro ⟨s, g, hloads, hcompiles⟩
    obtain ⟨asked, hasked, hs⟩ := hloads.settings
    obtain ⟨c, hc⟩ := exists_compiled hcompiles
    have hknown : ∀ d ∈ c.devices, d.type.isKnown = true := by
      rw [(compiled_eq_ok hc).1]
      exact hloads.wellFormed.devices.known
    obtain ⟨report, hreport⟩ := exists_ofCompiled hknown s.networkMode
    refine ⟨asked, hasked, ?_⟩
    simp only [perform, validateRun, Journal.outcome_bind, Journal.outcome_mapError,
      Journal.outcome_ofExcept, hs, hloads.design, hc, hreport, Outcome.ok_bind, Outcome.mapError_ok,
      Journal.outcome_pure]
    exact ⟨_, rfl, rfl⟩

/-- A full export succeeds when it can read the settings and the design and the design is exported. -/
theorem exitStatus_export {named : Bool} :
    exitStatus (run env (arguments config "export" (fullOptions named generation) name)) = some 0 ↔
      ∃ s g, Loads env config name s g ∧
        ∃ text, (exportDesign .full g.devices g.connections s generation env.now).outcome = .ok text := by
  rw [exitStatus_arguments (by decide) rfl ofCommand_export]
  constructor
  · rintro ⟨asked, hasked, result, hresult, -⟩
    simp only [perform, exportRun, Journal.outcome_bind, Journal.outcome_mapError,
      Outcome.bind_eq_ok, Outcome.mapError_eq_ok] at hresult
    obtain ⟨s, hs, g, hg, text, htext, -⟩ := hresult
    exact ⟨s, g, ⟨⟨asked, hasked, hs⟩, hg⟩, text, htext⟩
  · rintro ⟨s, g, hloads, text, htext⟩
    obtain ⟨asked, hasked, hs⟩ := hloads.settings
    refine ⟨asked, hasked, ?_⟩
    simp only [perform, exportRun, Journal.outcome_bind, Journal.outcome_mapError,
      Journal.outcome_ofExcept, hs, hloads.design, htext, Outcome.ok_bind, Outcome.mapError_ok, deliver]
    exact ⟨_, rfl, rfl⟩

/-- The directory of a laboratory: settings, a design of a router with a host, and an empty design. -/
def laboratory : Environment where
  files := {
    entries := [
      (["designer.yaml"], some "storage_class: fast\n"),
      (["designs", "lab.yaml"], some ("devices:\n- id: r\n  type: router\n  cpu: 4 cores\n- id: a\n" ++
        "connections:\n- from: r\n  to: a\n")),
      (["designs", "empty.yaml"], some "devices: []\n")]
    home := [] }
  settingsPath := none
  secrets := none
  now := ⟨⟨2024, 10, 18⟩, 14, 32, 59, 0, none⟩

end Run

end VirtNet
