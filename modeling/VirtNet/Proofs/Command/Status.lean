import VirtNet.Command.Run
import VirtNet.Proofs.Yaml.Faults

/-!
# The status of a run

A run ends with a status (`Run.exitStatus`). The status is left open where the run comes to half of a
surrogate pair in a file: that is no character, and what has it for a part is no text here. This happens
only to runs whose settings or design are in a file with an escape of one
(`Run.readsHalfPair_of_exitStatus`).
-/

namespace VirtNet

variable {files : FileTree} {path : Path} {fault : Yaml.Fault}

/-- A file can be read and has no value, for the given fault. -/
def FileTree.HasFault (files : FileTree) (path : Path) (fault : Yaml.Fault) : Prop :=
  ∃ text, files.read path = .ok text ∧ Yaml.read text = .error fault

/-- A file can be read and has an escape of half of a surrogate pair. -/
def FileTree.HasHalfPair (files : FileTree) (path : Path) : Prop :=
  ∃ text n, files.read path = .ok text ∧ Yaml.HasEscape text.toList n ∧ 0xD800 ≤ n ∧ n ≤ 0xDFFF

/-- A file without a value for half of a surrogate pair has an escape of it. -/
theorem FileTree.HasFault.hasHalfPair (h : files.HasFault path fault) (hhalf : fault.isHalfPair = true) :
    files.HasHalfPair path := by
  obtain ⟨text, htext, hread⟩ := h
  cases fault with
  | noCharacter n =>
    obtain ⟨hlow, hhigh⟩ := (Bool.and_eq_true _ _).mp hhalf
    exact ⟨text, n, htext, Yaml.hasEscape_of_read hread, of_decide_eq_true hlow, of_decide_eq_true hhigh⟩
  | _ => cases hhalf

/-- Settings that have no value are in a file that has none. -/
theorem Settings.hasFault_of_load {secrets : Secrets} {asked named : Option Path}
    (h : load files secrets asked named = .error (.valueless fault)) :
    files.HasFault ((asked.or named).getD usualPath) fault := by
  have hfile : ∀ path, ofFile files secrets path = .error (.valueless fault) →
      files.HasFault path fault := by
    intro path h
    rcases Outcome.bind_eq_error.1 h with h | ⟨text, htext, h⟩
    · obtain ⟨_, -, ⟨⟩⟩ := Outcome.mapError_eq_error.1 h
    · refine ⟨text, Outcome.mapError_eq_ok.1 htext, ?_⟩
      split at h
      · obtain ⟨_, -, ⟨⟩⟩ := Outcome.mapError_eq_error.1 h
      · cases h
      · next hread =>
        cases h
        exact hread
  rcases Outcome.bind_eq_error.1 h with h | ⟨there, -, h⟩
  · obtain ⟨_, -, ⟨⟩⟩ := Outcome.mapError_eq_error.1 h
  · split at h
    · exact hfile _ h
    · split at h <;> cases h

/-- A design that has no value is in a file that has none. -/
theorem Design.hasFault_of_load {name : String}
    (h : (load files name path).outcome = .error (.valueless fault)) :
    ∃ found, find files name path = .ok found ∧ files.HasFault found fault := by
  simp only [load, Journal.outcome_bind, Journal.outcome_mapError, Journal.outcome_ofExcept] at h
  rcases Outcome.bind_eq_error.1 h with h | ⟨found, hfound, h⟩
  · rcases Outcome.bind_eq_error.1 h with h | ⟨found, -, h⟩
    · obtain ⟨_, -, ⟨⟩⟩ := Outcome.mapError_eq_error.1 h
    · split at h <;> cases h
  · rcases Outcome.bind_eq_error.1 h with h | ⟨data, -, h⟩
    · rcases Outcome.bind_eq_error.1 h with h | ⟨text, htext, h⟩
      · obtain ⟨_, -, ⟨⟩⟩ := Outcome.mapError_eq_error.1 h
      · refine ⟨found, hfound, text, Outcome.mapError_eq_ok.1 htext, ?_⟩
        split at h
        · cases h
        · cases h
        · next hread =>
          cases h
          exact hread
    · obtain ⟨_, -, ⟨⟩⟩ := Outcome.mapError_eq_error.1 h

/-- The fault for which a run fails at a file that has no value. -/
def RunError.fault? : RunError → Option Yaml.Fault
  | .settings (.valueless fault) | .design (.valueless fault) => some fault
  | _ => none

/-- Whether a failure leaves open how a run ends: at half of a surrogate pair. -/
def RunError.isOpen (e : RunError) : Bool := e.fault?.any Yaml.Fault.isHalfPair

/-- The design that is read to do something. -/
def Action.design? : Action → Option String
  | .manifests name .. | .topology name _ | .validate name => some name
  | .list _ | .version | .help => none

namespace Run

variable {env : Environment} {args : List String} {request : Request} {result : RunResult} {e : RunError}

/-! ## Outcomes -/

/-- A run does what it is asked for. -/
theorem outcome_run_of_ok (hrequest : Request.ofArguments env.files args = .ok request)
    (h : (perform env request).outcome = .ok result) :
    (run env args).outcome = .ok (shownResult result) := by
  have hreported : (reported (perform env request)).outcome = .ok result := by
    unfold reported
    rw [h]
    exact h
  rw [run, hrequest]
  dsimp only
  rw [Journal.outcome_bind, hreported]
  rfl

/-- A run whose action fails ends with the report of the failure, or fails itself where there is none. -/
theorem outcome_run_of_error (hrequest : Request.ofArguments env.files args = .ok request)
    (h : (perform env request).outcome = .error e) : (run env args).outcome = e.message?.elim (.error e)
      fun message => .ok { status := 1, errorOutput := shown s!"Error: {message}\n" } := by
  have hreported : (reported (perform env request)).outcome = e.message?.elim (.error e)
      fun message => .ok { status := 1, errorOutput := s!"Error: {message}\n" } := by
    unfold reported
    rw [h]
    dsimp only
    cases e.message? with
    | none => exact h
    | some message => rfl
  rw [run, hrequest]
  dsimp only
  rw [Journal.outcome_bind, hreported]
  cases e.message? <;> rfl

/-! ## Statuses -/

/-- The status that a run ends with, unless that is left open; a run that fails in a way that is not
reported ends with 1. -/
def exitStatus (x : Journal RunError RunResult) : Option Nat :=
  match x.outcome with
  | .ok result => some result.status
  | .error e => if e.isOpen then none else some 1

theorem exitStatus_eq_zero_iff {x : Journal RunError RunResult} :
    exitStatus x = some 0 ↔ ∃ result, x.outcome = .ok result ∧ result.status = 0 := by
  unfold exitStatus
  cases x.outcome with
  | error e => cases e.isOpen <;> simp
  | ok result => simp

/-- A run ends with 0 when its arguments ask for something and that is done. -/
theorem exitStatus_run {asked : Except RequestError Request}
    (hasked : Request.ofArguments env.files args = asked) :
    exitStatus (run env args) = some 0 ↔ ∃ request, asked = .ok request ∧
      ∃ result, (perform env request).outcome = .ok result ∧ result.status = 0 := by
  rw [exitStatus_eq_zero_iff]
  cases asked with
  | error fault =>
    rw [run, hasked]
    cases fault <;> simp
  | ok request =>
    simp only [Except.ok.injEq, exists_eq_left']
    cases hperform : (perform env request).outcome with
    | error e =>
      rw [outcome_run_of_error hasked hperform]
      cases e.message? <;> simp
    | ok result =>
      rw [outcome_run_of_ok hasked hperform]
      simp [shownResult]

/-! ## Files without a value -/

/-- A run with these settings and this design reads this file: it is that of the settings or that of the
design. -/
def Reads (env : Environment) (config : Option Path) (name : String) (path : Path) : Prop :=
  path = (config.or env.settingsPath).getD Settings.usualPath ∨
    Design.find env.files name Design.usualDirectory = .ok path

/-- The settings of a run fail at a file that has no value for the fault of that file. -/
theorem hasFault_of_settings {config : Option Path} {mode : Option String}
    (h : (settings env config mode).outcome = .error e) (hfault : e.fault? = some fault) :
    env.files.HasFault ((config.or env.settingsPath).getD Settings.usualPath) fault := by
  simp only [settings, Journal.outcome_bind, Journal.outcome_mapError, Journal.outcome_ofExcept] at h
  rcases Outcome.bind_eq_error.1 h with h | ⟨s, -, h⟩
  · obtain ⟨e', hload, rfl⟩ := Outcome.mapError_eq_error.1 h
    cases e' with
    | valueless fault' =>
      obtain rfl := Option.some.inj hfault
      exact Settings.hasFault_of_load hload
    | _ => cases hfault
  · cases h

theorem hasFault_of_design {name : String} (h : (design env name).outcome = .error e)
    (hfault : e.fault? = some fault) :
    ∃ path, Design.find env.files name Design.usualDirectory = .ok path ∧ env.files.HasFault path fault := by
  rw [design, Journal.outcome_mapError] at h
  obtain ⟨e', hload, rfl⟩ := Outcome.mapError_eq_error.1 h
  cases e' with
  | valueless fault' =>
    obtain rfl := Option.some.inj hfault
    exact Design.hasFault_of_load hload
  | _ => cases hfault

/-- An action that goes on with settings and a design comes to no other file. -/
theorem hasFault_of_read {α : Type} {config : Option Path} {mode : Option String} {name : String}
    {f : Settings → Registry → Journal RunError α}
    (hrest : ∀ s g, (f s g).outcome = .error e → e.fault? = none)
    (h : (settings env config mode >>= fun s => design env name >>= f s).outcome = .error e)
    (hfault : e.fault? = some fault) :
    ∃ path, Reads env config name path ∧ env.files.HasFault path fault := by
  rw [Journal.outcome_bind] at h
  rcases Outcome.bind_eq_error.1 h with h | ⟨s, -, h⟩
  · exact ⟨_, .inl rfl, hasFault_of_settings h hfault⟩
  rw [Journal.outcome_bind] at h
  rcases Outcome.bind_eq_error.1 h with h | ⟨g, -, h⟩
  · obtain ⟨path, hpath, hhas⟩ := hasFault_of_design h hfault
    exact ⟨path, .inr hpath, hhas⟩
  · rw [hrest s g h] at hfault
    cases hfault

/-- What is done fails at a file that has no value for the fault of that file. -/
theorem hasFault_of_perform (h : (perform env request).outcome = .error e)
    (hfault : e.fault? = some fault) : ∃ name path, request.action.design? = some name ∧
      Reads env request.config name path ∧ env.files.HasFault path fault := by
  obtain ⟨config, action⟩ := request
  cases action with
  | manifests name mode output networkMode generation =>
    refine ⟨name, Exists.imp (fun _ => And.intro rfl) (hasFault_of_read (fun s g h => ?_) h hfault)⟩
    simp only [Journal.outcome_bind, Journal.outcome_mapError, Journal.outcome_ofExcept] at h
    rcases Outcome.bind_eq_error.1 h with h | ⟨text, -, h⟩
    · obtain ⟨_, -, rfl⟩ := Outcome.mapError_eq_error.1 h
      rfl
    · cases output with
      | none => cases h
      | some path =>
        rcases Outcome.bind_eq_error.1 h with h | ⟨location, -, ⟨⟩⟩
        obtain ⟨_, -, rfl⟩ := Outcome.mapError_eq_error.1 h
        rfl
  | topology name networkMode =>
    refine ⟨name, Exists.imp (fun _ => And.intro rfl) (hasFault_of_read (fun s g h => ?_) h hfault)⟩
    simp only [Journal.outcome_bind, Journal.outcome_mapError, Journal.outcome_ofExcept] at h
    rcases Outcome.bind_eq_error.1 h with h | ⟨report, -, h⟩
    · obtain ⟨_, -, rfl⟩ := Outcome.mapError_eq_error.1 h
      rfl
    · rcases Outcome.bind_eq_error.1 h with h | ⟨text, -, ⟨⟩⟩
      obtain ⟨_, -, rfl⟩ := Outcome.mapError_eq_error.1 h
      rfl
  | validate name =>
    refine ⟨name, Exists.imp (fun _ => And.intro rfl) (hasFault_of_read (fun s g h => ?_) h hfault)⟩
    simp only [Journal.outcome_bind, Journal.outcome_mapError, Journal.outcome_ofExcept] at h
    rcases Outcome.bind_eq_error.1 h with h | ⟨c, -, h⟩
    · obtain ⟨_, -, rfl⟩ := Outcome.mapError_eq_error.1 h
      rfl
    · rcases Outcome.bind_eq_error.1 h with h | ⟨report, -, ⟨⟩⟩
      obtain ⟨_, -, rfl⟩ := Outcome.mapError_eq_error.1 h
      rfl
  | list directory =>
    change (listRun env directory) = .error e at h
    rcases Outcome.bind_eq_error.1 h with h | ⟨names, -, h⟩
    · obtain ⟨_, -, rfl⟩ := Outcome.mapError_eq_error.1 h
      cases hfault
    · split at h <;> cases h
  | version | help => cases h

/-! ## Half of a surrogate pair -/

/-- The settings or the design that the arguments ask for are in a file with an escape of half of a surrogate
pair. -/
def ReadsHalfPair (env : Environment) (args : List String) : Prop :=
  ∃ request name path, Request.ofArguments env.files args = .ok request ∧
    request.action.design? = some name ∧ Reads env request.config name path ∧ env.files.HasHalfPair path

/-- A run whose status is left open reads a file with half of a surrogate pair. -/
theorem readsHalfPair_of_exitStatus (h : exitStatus (run env args) = none) : ReadsHalfPair env args := by
  unfold exitStatus at h
  split at h
  · cases h
  · next e he =>
    have hopen : e.isOpen = true := by
      by_contra hclosed
      rw [if_neg hclosed] at h
      cases h
    obtain ⟨fault, hfault, hhalf⟩ := (Option.any_eq_true _ _).1 hopen
    cases hrequest : Request.ofArguments env.files args with
    | error reason =>
      rw [run, hrequest] at he
      cases reason <;> cases he
      cases hfault
    | ok request =>
      cases hperform : (perform env request).outcome with
      | ok result =>
        rw [outcome_run_of_ok hrequest hperform] at he
        cases he
      | error e' =>
        rw [outcome_run_of_error hrequest hperform] at he
        cases hmessage : e'.message? with
        | some message =>
          rw [hmessage] at he
          cases he
        | none =>
          rw [hmessage] at he
          obtain rfl : e' = e := Except.error.inj he
          obtain ⟨name, path, hname, hreads, hhas⟩ := hasFault_of_perform hperform hfault
          exact ⟨request, name, path, hrequest, hname, hreads, hhas.hasHalfPair hhalf⟩

/-- The directory of a design with half of a surrogate pair in the id of its device. -/
def halved : Environment where
  files := { entries := [(["d.yaml"], some "devices: [\x7bid: \"\\ud800\"\x7d]\n")], home := [] }
  settingsPath := none
  secrets := none
  now := ⟨⟨2024, 10, 18⟩, 14, 32, 59, 0, none⟩

example : ReadsHalfPair halved ["validate", "d.yaml"] := readsHalfPair_of_exitStatus (by decide +kernel)

/-- A run has a status, unless it reads a file with half of a surrogate pair. -/
theorem readsHalfPair_or_isSome (env : Environment) (args : List String) :
    ReadsHalfPair env args ∨ (exitStatus (run env args)).isSome := by
  rcases hstatus : exitStatus (run env args) with - | status
  · exact .inl (readsHalfPair_of_exitStatus hstatus)
  · exact .inr rfl

end Run

end VirtNet
