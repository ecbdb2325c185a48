import ScopedCommands.CommandLine.Run
import ScopedCommands.Proofs.Resolution.Declarations

namespace ScopedCommands

open Outcome

namespace CommandLine

variable {here : Surroundings} {c : Config} {templates : Registry}

theorem built_loadTemplates {path : String} {directory : Option String}
    (loaded : loadTemplates here c path directory = .ok templates) : templates.Built := by
  obtain ⟨own, made, rest⟩ := bind_eq_ok.1 loaded
  have first := Registry.built_ofTemplates (mapError_eq_ok.1 made)
  cases directory with
  | none =>
    cases rest
    exact first
  | some directory =>
    obtain ⟨files, read, rest⟩ := bind_eq_ok.1 rest
    have both := first.merge (Registry.built_loadDirectory (mapError_eq_ok.1 read))
    cases merged : own.merge files with
    | mk outcome all =>
      rw [merged] at rest both
      cases outcome with
      | error e => cases rest
      | ok _ =>
        cases rest
        exact both

theorem ExitCode.ofResolveError_ne_badDeclaration {e : ResolveError} (other : e.Other) :
    ofResolveError e ≠ badDeclaration := by
  cases e with
  | declaration scope field cause => cases other
  | _ => simp [ofResolveError, badDeclaration, badTemplate, badValue, badArguments]

theorem ExitCode.ofRunError_ne_success (e : RunError) : ofRunError e ≠ success := by
  cases e with
  | resolution cause =>
    cases cause <;>
      simp [ofResolveError, success, badDeclaration, badTemplate, badValue, badArguments]
  | _ => simp [success, badDeclaration, badTemplate, badValue]

theorem valid_of_validate {path : String} {directory : Option String}
    (succeeded : (validate here path directory).result.exit = ExitCode.success) :
    ∃ c templates, loadConfig here path = .ok c ∧
      loadTemplates here c path directory = .ok templates ∧ c.audit.valid = true := by
  unfold validate at succeeded
  cases loaded : loadConfig here path with
  | error e =>
    rw [loaded] at succeeded
    exact absurd succeeded (ExitCode.ofRunError_ne_success e)
  | ok c =>
    rw [loaded] at succeeded
    cases read : loadTemplates here c path directory with
    | error e =>
      simp only [read] at succeeded
      exact absurd succeeded (ExitCode.ofRunError_ne_success e)
    | ok templates =>
      simp only [read] at succeeded
      cases valid : c.audit.valid with
      | true => exact ⟨c, templates, rfl, read, valid⟩
      | false =>
        simp only [valid, Bool.false_eq_true, if_false] at succeeded
        exact absurd succeeded (ExitCode.ofRunError_ne_success (.invalid c.audit.problems.length))

theorem exit_resolve_ne_badDeclaration {r : ResolveRequest} (loaded : loadConfig here r.config = .ok c)
    (read : loadTemplates here c r.config r.templates = .ok templates)
    (other : ∀ o, FailsOnly ResolveError.Other (c.resolve templates o)) :
    (resolve here r).result.exit ≠ ExitCode.badDeclaration := by
  unfold resolve prepare
  rw [loaded]
  simp only [read, bind, Except.bind]
  generalize outcome : c.resolve templates _ = resolved
  cases resolved with
  | error e => exact ExitCode.ofResolveError_ne_badDeclaration (other _ e outcome)
  | ok resolution =>
    cases complete : resolution.complete with
    | true => simp [mapError_ok, Outcome.result, complete, ExitCode.success,
        ExitCode.badDeclaration]
    | false => simp [mapError_ok, Outcome.result, complete, ExitCode.badValue,
        ExitCode.badDeclaration]

theorem exit_of_request {args : List String} {request : Request}
    (parsed : parse here.environment args = some request) :
    (run here args).exit = (perform here request).result.exit := by
  rw [run, parsed]

end CommandLine

open CommandLine

/-- Audit and resolution agree on declarations, and so do the two actions of the program: what has
been validated is not refused for a declaration, in whatever surroundings its files are resolved. -/
theorem audit_agrees_with_resolve (c : Config) (templates : Registry) (built : templates.Built) :
    (c.audit.valid = true → ∀ o,
      (∀ e, c.resolve templates o = .error e → e.isDeclaration = false) ∧
      ∀ r, c.resolve templates o = .ok r → ∀ e ∈ r.failures, e.isDeclaration = false) ∧
    (∀ p ∈ c.audit.problems, p.blocks = true → ∀ o, o.group = none →
      ∀ r, c.resolve templates o = .ok r → r.failures ≠ []) ∧
    ∀ (here there : Surroundings) args others path directory request,
      there.files = here.files →
      parse here.environment args = some (.validate path directory) →
      (run here args).exit = 0 →
      parse there.environment others = some (.resolve request) →
      request.config = path → request.templates = directory →
      (run there others).exit ≠ 3 := by
  refine ⟨fun valid o => ?_, fun p member blocks o all r resolved complete => ?_, ?_⟩
  · have declared := Config.audit_passes_iff.1 (Audit.passes_of_valid valid)
    exact ⟨Config.other_resolve declared built.checked, fun r resolved =>
      Config.other_failures declared built.checked resolved⟩
  · have declared := Config.declared_of_resolve resolved all complete
    have passes := Config.audit_passes_iff.2 declared p member
    rw [blocks] at passes
    cases passes
  · intro here there args others path directory request same parsed succeeded asked config dir
    subst config dir
    rw [exit_of_request parsed] at succeeded
    obtain ⟨own, registry, loaded, read, valid⟩ := valid_of_validate succeeded
    have declared := Config.audit_passes_iff.1 (Audit.passes_of_valid valid)
    have checked := (built_loadTemplates read).checked
    rw [exit_of_request asked]
    have again : loadConfig there request.config = .ok own := by
      rw [loadConfig, same]
      exact loaded
    have alike : loadTemplates there own request.config request.templates = .ok registry := by
      unfold loadTemplates at read ⊢
      rw [same]
      exact read
    exact exit_resolve_ne_badDeclaration again alike fun o => Config.other_resolve declared checked

/-- The env of the second command is refused where it is declared, not where it is used. -/
def served (env : Option (List String)) : Config where
  groups := [{
    name := "ci"
    commands := [
      { name := "go", template := some "run", params := Dict.ofList [("what", .text "make")] },
      { name := "list", cmd := some "ls", env }] }]

def runTemplate : Template where
  cmd := "${what}"
  env := ["AT=%{HERE}"]
  riskLevel := some "High"

def runOnly : Registry := Dict.ofList [("run", ⟨runTemplate, "run.yaml"⟩)]

def withFile (environment : Dict String) : Surroundings where
  environment
  automatic := .empty
  files := .ofNodes fun path =>
    if path = "c.yaml" then
      .text "groups:\n  - name: ci\n    commands:\n      - name: go\n        cmd: make %{HERE}\n"
    else .missing

theorem audit_agrees_with_resolve_served :
    runOnly.Built ∧ (served none).audit.valid = true ∧
    (∃ r, (served none).resolve runOnly { keepGoing := true } = .ok r ∧ r.failures ≠ [] ∧
      ∀ e ∈ r.failures, e.isDeclaration = false) ∧
    (∃ r, (served (some ["A"])).resolve runOnly { keepGoing := true } = .ok r ∧
      r.failures ≠ []) ∧
    (run (withFile .empty) ["validate", "-c", "c.yaml"]).exit = 0 ∧
    (run (withFile (Dict.ofList [("CI", "1")])) ["resolve", "-c", "c.yaml"]).exit ≠ 3 := by
  have built : runOnly.Built := Registry.Built.empty.register
    (show Registry.register .empty "run" runTemplate "run.yaml" = .ok runOnly from
      toOption_eq_some.1 (by decide +kernel))
  have valid : (served none).audit.valid = true := by decide +kernel
  have problem : .declaration "command:ci/list" (.malformed "env" "A") ∈
      (served (some ["A"])).audit.problems := by decide +kernel
  have first : ((served none).resolve runOnly { keepGoing := true }).toOption.map
      (·.failures.length) = some 1 := by decide +kernel
  have second : ((served (some ["A"])).resolve runOnly
      { keepGoing := true }).toOption.isSome = true := by decide +kernel
  have validated : (run (withFile .empty) ["validate", "-c", "c.yaml"]).exit = 0 := by
    decide +kernel
  have asked : parse (withFile (Dict.ofList [("CI", "1")])).environment
      ["resolve", "-c", "c.yaml"] = some (.resolve ⟨"c.yaml", none, none, false, false, false⟩) := by
    decide +kernel
  obtain ⟨r, given, one⟩ := Option.map_eq_some_iff.1 first
  obtain ⟨q, also⟩ := Option.isSome_iff_exists.1 second
  rw [toOption_eq_some] at given also
  obtain ⟨never, _, exits⟩ := audit_agrees_with_resolve (served none) runOnly built
  obtain ⟨_, blocked, _⟩ := audit_agrees_with_resolve (served (some ["A"])) runOnly built
  refine ⟨built, valid, ⟨r, given, ?_, (never valid _).2 r given⟩,
    ⟨q, also, blocked _ problem (by decide) _ rfl q also⟩, validated, ?_⟩
  · intro none
    rw [none] at one
    cases one
  · exact exits (withFile .empty) _ _ _ "c.yaml" none _ rfl (by decide +kernel) validated asked
      rfl rfl

end ScopedCommands
