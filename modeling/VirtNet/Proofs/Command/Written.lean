import VirtNet.Proofs.Command.Contained
import VirtNet.Proofs.Command.Validate
import VirtNet.Proofs.Export.Control

/-!
# Files that runs write

A run that does not end with 0 leaves every file as it is. An export to a file that ends with 0 writes that
file alone, and without its output option it ends with 0 as well, writes nothing and shows the same text
(`Run.export_to_file`). What is shown is without control sequences, so the file has the text that is shown
exactly when no id of a device has such a sequence.
-/

namespace VirtNet

namespace FileTree

variable {t : FileTree} {l l' : Location} {s : String}

/-- A tree after a text was written to a location. -/
def write (t : FileTree) (l : Location) (s : String) : FileTree :=
  { t with entries := (l, some s) :: t.entries }

/-- The file that is written is the only one to change. -/
theorem text?_write : (t.write l s).text? l' = if l' = l then some s else t.text? l' := by
  unfold text? write
  by_cases h : l' = l
  · simp [h]
  · simp [h, Ne.symm h]

end FileTree

open Arguments

/-! ## Requests -/

namespace Request

variable {files : FileTree} {a : Arguments} {action : Action} {front words : List String}
  {given : List (String × String)} {file : String}

/-- The arguments of an export without the file to write to. -/
def withoutOutput (words : List String) : List String := without exportForms "--output" words

/-- Arguments that ask for an export: options of the program, none of which ends the run, the command, and
its own arguments, none of which asks for help. -/
structure AsksExport (front : List String) (given : List (String × String)) (words : List String)
    (a : Arguments) : Prop where
  front : parse? generalForms false (front ++ ["export"]) = some ⟨given, ["export"]⟩
  notEnding : ending? ⟨given, []⟩ = none
  words : parse? exportForms true words = some a
  noHelp : a.has helpForm.name = false

namespace AsksExport

/-- Without the file to write to, the arguments still ask for an export. -/
theorem withoutOutput (h : AsksExport front given words a) :
    AsksExport front given (withoutOutput words) (a.drop "--output") where
  front := h.front
  notEnding := h.notEnding
  words := parse?_without (by decide) h.words
  noHelp := by
    rw [has, value?_drop_of_ne (by decide)]
    exact h.noHelp

/-- The request that such arguments make. -/
theorem ofArguments (h : AsksExport front given words a) :
    Request.ofArguments files (front ++ "export" :: words) = do
      let asked ← filePath files ((⟨given, []⟩ : Arguments).value? "--config")
      let action ← toExport files a
      return ⟨asked, action⟩ := by
  have hcommand : ofCommand files "export" words = toExport files a := by
    show (do
      let a ← required (parse? exportForms true words)
      if a.has helpForm.name then return .help else toExport files a) = toExport files a
    rw [h.words, required, Outcome.ok_bind, if_neg (Bool.eq_false_iff.1 h.noHelp)]
  rw [Request.ofArguments, parse?_front h.front, required, Outcome.ok_bind,
    show ending? ⟨given, "export" :: words⟩ = none from h.notEnding, ← hcommand]
  rfl

end AsksExport

/-- The requests of an export. -/
theorem toExport_eq_ok : toExport files a = .ok action ↔ checkExport files a = .ok () ∧
    ∃ name mode path asked, a.operands = [name] ∧ exportMode a = .ok mode ∧ output files a = .ok path ∧
      networkMode a = .ok asked ∧
      action = .manifests name mode path asked (a.value? "--generation") := by
  have hsingle : ∀ {operands name}, single operands = .ok name ↔ operands = [name] := by
    intro operands name
    rcases operands with - | ⟨s, - | ⟨t, rest⟩⟩ <;> simp [single]
  simp only [toExport, Outcome.bind_eq_ok, hsingle]
  constructor
  · rintro ⟨⟨⟩, hcheck, name, hname, mode, hmode, path, hpath, asked, hasked, hresult⟩
    cases hresult
    exact ⟨hcheck, name, mode, path, asked, hname, hmode, hpath, hasked, rfl⟩
  · rintro ⟨hcheck, name, mode, path, asked, hname, hmode, hpath, hasked, rfl⟩
    exact ⟨(), hcheck, name, hname, mode, hmode, path, hpath, asked, hasked, rfl⟩

/-- What is asked for with the other options stays the same without the file. -/
theorem exportMode_drop : exportMode (a.drop "--output") = exportMode a := by
  rw [exportMode, exportMode, value?_drop_of_ne (by decide)]

theorem networkMode_drop : networkMode (a.drop "--output") = networkMode a := by
  rw [networkMode, networkMode, value?_drop_of_ne (by decide)]

theorem checkExport_drop (h : checkExport files a = .ok ()) :
    checkExport files (a.drop "--output") = .ok () := by
  unfold checkExport at h ⊢
  rw [Outcome.forM_eq_ok] at h ⊢
  -- the checks that are left were made before, on the same values
  rintro ⟨key, value⟩ ho
  obtain ⟨hmem, hne⟩ := List.mem_filter.1 ho
  have hne : key ≠ "--output" := by simpa using hne
  have hcheck := h (key, value) hmem
  simp only [if_neg hne] at hcheck ⊢
  rw [exportMode_drop, networkMode_drop]
  exact hcheck

/-- An export to a file asks, without the file, for the same on standard output. -/
theorem toExport_drop (hfile : a.value? "--output" = some file) (h : toExport files a = .ok action) :
    ∃ name mode asked, a.operands = [name] ∧
      action = .manifests name mode (some (.ofText file)) asked (a.value? "--generation") ∧
      toExport files (a.drop "--output") =
        .ok (.manifests name mode none asked (a.value? "--generation")) := by
  obtain ⟨hcheck, name, mode, path, asked, hname, hmode, hpath, hasked, rfl⟩ := toExport_eq_ok.1 h
  -- a file that is accepted is the path that was given
  have hpath : path = some (.ofText file) := by
    rw [output, hfile, filePath] at hpath
    unfold Request.path at hpath
    split at hpath
    · cases hpath
    · split at hpath <;> cases hpath
      rfl
  subst hpath
  refine ⟨name, mode, asked, hname, rfl, toExport_eq_ok.2 ⟨checkExport_drop hcheck, name, mode, none, asked,
    hname, ?_, ?_, ?_, ?_⟩⟩
  · rw [exportMode_drop, hmode]
  · rw [output, value?_drop_self]
    rfl
  · rw [networkMode_drop, hasked]
  · rw [value?_drop_of_ne (by decide)]

end Request

/-! ## Runs -/

namespace Run

variable {env : Environment} {args : List String} {request : Request} {result : RunResult}

/-- The files after a run. -/
def filesAfter (env : Environment) (args : List String) : FileTree :=
  match (run env args).outcome with
  | .ok result => result.written.elim env.files fun (location, text) => env.files.write location text
  | .error _ => env.files

/-- What a run answers on standard output. -/
def answer (env : Environment) (args : List String) : String :=
  (run env args).outcome.toOption.elim "" RunResult.output

/-- What is done ends with 0. -/
theorem status_of_perform (h : (perform env request).outcome = .ok result) : result.status = 0 := by
  obtain ⟨config, action⟩ := request
  cases action with
  | manifests name mode output networkMode generation =>
    simp only [perform, exportRun, Journal.outcome_bind, Journal.outcome_mapError,
      Journal.outcome_ofExcept, Outcome.bind_eq_ok, Outcome.mapError_eq_ok] at h
    obtain ⟨s, -, g, -, text, -, hresult⟩ := h
    cases output with
    | none =>
      cases hresult
      rfl
    | some path =>
      rw [deliver, Outcome.bind_eq_ok] at hresult
      obtain ⟨location, -, hresult⟩ := hresult
      cases hresult
      rfl
  | topology name networkMode =>
    simp only [perform, topologyRun, Journal.outcome_bind, Outcome.bind_eq_ok] at h
    obtain ⟨s, -, g, -, report, -, text, -, hresult⟩ := h
    cases hresult
    rfl
  | validate name =>
    simp only [perform, validateRun, Journal.outcome_bind, Outcome.bind_eq_ok] at h
    obtain ⟨s, -, g, -, c, -, report, -, hresult⟩ := h
    cases hresult
    rfl
  | list directory =>
    simp only [perform, Journal.outcome_ofExcept, listRun, Outcome.bind_eq_ok] at h
    obtain ⟨names, -, hresult⟩ := h
    split at hresult <;> cases hresult <;> rfl
  | version | help =>
    cases h
    rfl

/-- A run that does not end with 0 leaves the files as they are. -/
theorem filesAfter_of_exitStatus {status : Nat} (h : exitStatus (run env args) = some status)
    (hne : status ≠ 0) : filesAfter env args = env.files := by
  unfold filesAfter
  cases hrequest : Request.ofArguments env.files args with
  | error e =>
    rw [run, hrequest]
    cases e <;> rfl
  | ok request =>
    cases hperform : (perform env request).outcome with
    | error e =>
      rw [outcome_run_of_error hrequest hperform]
      cases e.message? <;> rfl
    | ok result =>
      have hdone : (shownResult result).status = 0 := (status_of_perform hperform : result.status = 0)
      have hzero := exitStatus_eq_zero_iff.2 ⟨_, outcome_run_of_ok hrequest hperform, hdone⟩
      exact absurd (Option.some.inj (h.symm.trans hzero)) hne

/-- An export that succeeds reads the settings and the design, makes the text and delivers it. -/
theorem exportRun_eq_ok {config output : Option Path} {name : String} {mode : String × ExportMode}
    {networkMode generation : Option String} :
    (exportRun env config name mode output networkMode generation).outcome = .ok result ↔
      ∃ s g text, (settings env config networkMode).outcome = .ok s ∧ (design env name).outcome = .ok g ∧
        (exportDesign mode.2 g.devices g.connections s generation env.now).outcome = .ok text ∧
        deliver env mode.1 g.devices.length text output = .ok result := by
  simp only [exportRun, Journal.outcome_bind, Journal.outcome_mapError, Journal.outcome_ofExcept,
    Outcome.bind_eq_ok, Outcome.mapError_eq_ok]
  constructor
  · rintro ⟨s, hs, g, hg, text, htext, hresult⟩
    exact ⟨s, g, text, hs, hg, htext, hresult⟩
  · rintro ⟨s, g, text, hs, hg, htext, hresult⟩
    exact ⟨s, hs, g, hg, text, htext, hresult⟩

/-- A text is shown as it is exactly when no control sequence begins in it. -/
theorem shown_eq_self_iff {s : String} : shown s = s ↔ Text.Uncontrolled s.toList := by
  rw [← Text.withoutControls_eq_self_iff, shown]
  constructor
  · intro h
    simpa using congrArg String.toList h
  · intro h
    rw [h, String.ofList_toList]

/-- What an export to a file leaves: the file alone changes. Without the option for it the export ends with 0
as well, changes no file and shows the text that the file got; but what is shown has no control sequences,
so it is that text itself exactly when no id of a device has one. -/
structure WrittenInstead (env : Environment) (toFile plain : List String) (location : Location)
    (g : Registry) (text : String) : Prop where
  changed : filesAfter env toFile = env.files.write location text
  succeeds : exitStatus (run env plain) = some 0
  unchanged : filesAfter env plain = env.files
  shows : answer env plain = shown text
  same_iff : answer env plain = text ↔ ∀ d ∈ g.devices, shown d.id = d.id

/-- An export to a file that ends with 0 differs from the one without the file in where its text goes. -/
theorem written_instead {front words : List String} {given : List (String × String)} {a : Arguments}
    {file : String} (hexport : Request.AsksExport front given words a)
    (hfile : a.value? "--output" = some file)
    (hexit : exitStatus (run env (front ++ "export" :: words)) = some 0) :
    ∃ name g location text, a.operands = [name] ∧ (design env name).outcome = .ok g ∧
      env.files.target (.ofText file) = .ok location ∧
      WrittenInstead env (front ++ "export" :: words) (front ++ "export" :: Request.withoutOutput words)
        location g text := by
  -- the run with the option ends with 0, so each of its stages succeeds
  obtain ⟨request, hrequest, result, hresult, -⟩ := (exitStatus_run hexport.ofArguments).1 hexit
  obtain ⟨asked, hasked, hrequest⟩ := Outcome.bind_eq_ok.1 hrequest
  obtain ⟨action, haction, ⟨⟩⟩ := Outcome.bind_eq_ok.1 hrequest
  obtain ⟨name, mode, networkMode, hname, rfl, haction'⟩ := Request.toExport_drop hfile haction
  obtain ⟨s, g, text, hs, hg, htext, hdeliver⟩ := exportRun_eq_ok.1 hresult
  obtain ⟨location, hlocation, ⟨⟩⟩ := Outcome.bind_eq_ok.1 hdeliver
  have hrun := outcome_run_of_ok (by rw [hexport.ofArguments, hasked, Outcome.ok_bind, haction]; rfl) hresult
  -- without the option the stages are the same, up to the one that delivers the text
  have hrequest' : Request.ofArguments env.files (front ++ "export" :: Request.withoutOutput words) =
      .ok ⟨asked, .manifests name mode none networkMode (a.value? "--generation")⟩ := by
    rw [hexport.withoutOutput.ofArguments, hasked, Outcome.ok_bind, haction']
    rfl
  have hplain : (run env (front ++ "export" :: Request.withoutOutput words)).outcome =
      .ok (shownResult { output := text }) :=
    outcome_run_of_ok hrequest' (exportRun_eq_ok.2 ⟨s, g, text, hs, hg, htext, rfl⟩)
  have hshows : answer env (front ++ "export" :: Request.withoutOutput words) = shown text := by
    rw [answer, hplain]
    rfl
  refine ⟨name, g, location, text, hname, hg, Outcome.mapError_eq_ok.1 hlocation, ?_, ?_, ?_, hshows, ?_⟩
  · rw [filesAfter, hrun]
    rfl
  · exact exitStatus_eq_zero_iff.2 ⟨_, hplain, rfl⟩
  · rw [filesAfter, hplain]
    rfl
  · rw [hshows, shown_eq_self_iff, exportDesign_uncontrolled_iff (wellFormed_of_design hg) htext]
    exact forall₂_congr fun d _ => shown_eq_self_iff.symm

/-- A check of the ids in a design is one of the devices that are loaded. -/
theorem all_devices_iff {name : String} {g : Registry} {P : Device → Bool}
    (hg : (design env name).outcome = .ok g) :
    (design env name).outcome.toOption.all (fun g => g.devices.all P) = true ↔
      ∀ d ∈ g.devices, P d = true := by
  rw [hg]
  exact List.all_eq_true

/-- The directory of a design with a colour in the id of its device. -/
def coloured : Environment where
  files := { entries := [(["d.yaml"], some "devices: [\x7bid: \"x\\e[31my\"\x7d]\n")], home := [] }
  settingsPath := none
  secrets := none
  now := ⟨⟨2024, 10, 18⟩, 14, 32, 59, 0, some 0⟩

end Run

end VirtNet
