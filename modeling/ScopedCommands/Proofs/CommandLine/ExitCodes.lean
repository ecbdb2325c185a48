import ScopedCommands.Proofs.Resolution.Audited
import ScopedCommands.Proofs.Safety.Checking
import ScopedCommands.Proofs.Template.Merging

namespace ScopedCommands

open Outcome

/-- The file has the configuration, in the notation that its extension stands for. -/
def Config.InFile (files : Files) (path : String) (c : Config) : Prop :=
  ∃ text, files path = .text text ∧
    ((Path.extension path = some "yaml" ∨ Path.extension path = some "yml") ∧
        decodeYaml Config.decode text files.yaml = .ok c ∨
      Path.extension path = some "toml" ∧ decodeToml Config.decode text files.toml = .ok c)

theorem Config.read_eq_ok_iff {files : Files} {path : String} {c : Config} :
    Config.read files path = .ok c ↔ Config.InFile files path c := by
  unfold Config.read Config.InFile
  rw [bind_eq_ok]
  constructor
  · rintro ⟨text, opened, decoded⟩
    refine ⟨text, ?_, ?_⟩
    · have opened := mapError_eq_ok.1 opened
      unfold Files.read at opened
      split at opened
      next found =>
        cases opened
        exact found
      next => cases opened
    · split at decoded
      next yaml => exact .inl ⟨.inl yaml, mapError_eq_ok.1 decoded⟩
      next yml => exact .inl ⟨.inr yml, mapError_eq_ok.1 decoded⟩
      next toml => exact .inr ⟨toml, mapError_eq_ok.1 decoded⟩
      next => cases decoded
  · rintro ⟨text, found, decoded⟩
    refine ⟨text, by rw [Files.read, found]; rfl, ?_⟩
    rcases decoded with ⟨yaml | yml, decoded⟩ | ⟨toml, decoded⟩
    · simp only [yaml]
      exact mapError_eq_ok.2 decoded
    · simp only [yml]
      exact mapError_eq_ok.2 decoded
    · simp only [toml]
      exact mapError_eq_ok.2 decoded

inductive ResolveError.ExitsWith : ResolveError → Nat → Prop where
  | declaration (scope field : String) (cause : DeclarationError) :
      ExitsWith (.declaration scope field cause) 3
  | template (scope field : String) (cause : TemplateError) :
      ExitsWith (.template scope field cause) 4
  | templateNotFound (scope name : String) : ExitsWith (.templateNotFound scope name) 4
  | expansion (scope field : String) (cause : ExpansionError) :
      ExitsWith (.expansion scope field cause) 5
  | unsafeValue (scope field : String) (cause : PolicyError) :
      ExitsWith (.unsafeValue scope field cause) 5

namespace Config

variable {c : Config} {templates : Registry} {o : ResolveOptions}

def HasGroup (c : Config) (group : Option String) : Prop :=
  ∀ name, group = some name → ∃ g ∈ c.groups, g.name = name

theorem checkGroup_eq_ok_iff {group : Option String} :
    c.checkGroup group = .ok () ↔ c.HasGroup group := by
  cases group with
  | none => simp [checkGroup, HasGroup]
  | some name => simp [checkGroup, HasGroup]

theorem hasScope_resolve (readable : ∃ g, Safeguard.compile o.rules o.matcher = .ok g)
    (known : c.HasGroup o.group) {e : ResolveError} (failed : c.resolve templates o = .error e) :
    e.HasScope := by
  obtain ⟨safeguard, compiled⟩ := readable
  unfold resolve setting at failed
  rw [checkGroup_eq_ok_iff.2 known, compiled] at failed
  exact (scoped_resolveWith (fun never : False => never.elim) (fun never => never.elim) _ e
    failed).label

theorem resolve_missingGroup (missing : ¬ c.HasGroup o.group) :
    ∃ name, c.resolve templates o = .error (.groupNotFound name) := by
  rw [← checkGroup_eq_ok_iff] at missing
  unfold resolve
  unfold checkGroup at missing ⊢
  split at missing
  · exact absurd rfl missing
  next name _ =>
    split at missing
    · exact absurd rfl missing
    next unknown => exact ⟨name, by rw [if_neg unknown]; rfl⟩

end Config

namespace CommandLine

variable {here : Surroundings} {r : ResolveRequest} {c : Config} {templates : Registry}

/-- The inline templates are accepted, the directory can be loaded, and no name is in both. -/
def Supplied (files : Files) (c : Config) (directory : Option String) : Prop :=
  (∀ e ∈ c.templates.entries, e.2.check e.1 = .ok ()) ∧
    ∀ path, directory = some path → ∃ loaded, Registry.loadDirectory files path = .ok loaded ∧
      ∀ name, loaded.contains name = true → c.templates.contains name = false

theorem loadTemplates_isOk_iff {path : String} {directory : Option String} :
    (∃ templates, loadTemplates here c path directory = .ok templates) ↔
      Supplied here.files c directory := by
  have inline : (∃ own, Registry.ofTemplates c.templates path = .ok own) ↔ _ :=
    Registry.ofTemplates_isOk_iff
  unfold Supplied
  rw [← inline]
  simp only [loadTemplates, bind_eq_ok, mapError_eq_ok]
  constructor
  · rintro ⟨templates, own, made, rest⟩
    refine ⟨⟨own, made⟩, ?_⟩
    rintro directory rfl
    obtain ⟨loaded, read, rest⟩ := bind_eq_ok.1 rest
    refine ⟨loaded, mapError_eq_ok.1 read, fun name known => ?_⟩
    rw [← Registry.contains_ofTemplates made]
    refine Registry.merge_isOk_iff.1 ?_ name known
    split at rest
    · cases rest
    next merged => rw [merged]
  · rintro ⟨⟨own, made⟩, read⟩
    cases directory with
    | none => exact ⟨own, own, made, rfl⟩
    | some directory =>
      obtain ⟨loaded, read, apart⟩ := read directory rfl
      have free : ∀ name, loaded.contains name = true → own.contains name = false := by
        intro name known
        rw [Registry.contains_ofTemplates made]
        exact apart name known
      have merged := Registry.merge_isOk_iff.2 free
      refine ⟨(own.merge loaded).2, own, made, ?_⟩
      refine bind_eq_ok.2 ⟨loaded, mapError_eq_ok.2 read, ?_⟩
      generalize own.merge loaded = both at merged ⊢
      obtain ⟨outcome, all⟩ := both
      cases merged
      rfl

theorem ExitCode.ofRunError_loadTemplates {path : String} {directory : Option String} {e : RunError}
    (failed : loadTemplates here c path directory = .error e) :
    ofRunError e = badTemplate := by
  have made : FailsOnly (ofRunError · = badTemplate) (loadTemplates here c path directory) := by
    refine (failsOnly_mapError ofRunError_inlineTemplates _).bind fun own _ => ?_
    cases directory with
    | none => exact failsOnly_ok own
    | some directory =>
      refine (failsOnly_mapError (ofRunError_templateFiles directory) _).bind fun loaded _ => ?_
      split
      · exact failsOnly_error rfl
      · exact failsOnly_ok _
  exact made e failed

theorem ExitCode.ofResolveError_ne_general (e : ResolveError) : ofResolveError e ≠ general := by
  cases e <;> simp [ofResolveError, general, badArguments, badDeclaration, badTemplate, badValue]

theorem ExitCode.exitsWith_of_hasScope {e : ResolveError} (placed : e.HasScope) :
    e.ExitsWith (ofResolveError e) := by
  cases e with
  | expansion scope field cause => exact .expansion scope field cause
  | unsafeValue scope field cause => exact .unsafeValue scope field cause
  | declaration scope field cause => exact .declaration scope field cause
  | template scope field cause => exact .template scope field cause
  | templateNotFound scope name => exact .templateNotFound scope name
  | groupNotFound | policy | registry => cases placed

def ResolveRequest.options (here : Surroundings) (r : ResolveRequest) : ResolveOptions where
  environment := here.environment
  automatic := here.automatic
  group := r.group
  keepGoing := r.keepGoing

inductive Course (here : Surroundings) (r : ResolveRequest) : Outcome → Prop where
  | noConfig {cause : ReadError} (failed : Config.read here.files r.config = .error cause) :
      Course here r (.failed (.config r.config cause))
  | noTemplates {c : Config} {e : RunError} (loaded : Config.read here.files r.config = .ok c)
      (failed : loadTemplates here c r.config r.templates = .error e) : Course here r (.failed e)
  | refused {c : Config} {templates : Registry} {e : ResolveError}
      (loaded : Config.read here.files r.config = .ok c)
      (read : loadTemplates here c r.config r.templates = .ok templates)
      (failed : c.resolve templates (r.options here) = .error e) :
      Course here r (.failed (.resolution e))
  | reported {c : Config} {templates : Registry} {resolution : Resolution}
      (loaded : Config.read here.files r.config = .ok c)
      (read : loadTemplates here c r.config r.templates = .ok templates)
      (resolved : c.resolve templates (r.options here) = .ok resolution) :
      Course here r ⟨reportLines r resolution,
        if resolution.complete then none else some (.incomplete resolution.failures.length)⟩

theorem course_of_resolve (here : Surroundings) (r : ResolveRequest) :
    Course here r (resolve here r) := by
  unfold resolve prepare loadConfig
  cases loaded : Config.read here.files r.config with
  | error cause => exact .noConfig loaded
  | ok c =>
    cases read : loadTemplates here c r.config r.templates with
    | error e =>
      simp only [mapError_ok, bind, Except.bind, read]
      exact .noTemplates loaded read
    | ok templates =>
      simp only [mapError_ok, bind, Except.bind, read]
      cases resolved : c.resolve templates (r.options here) with
      | error e =>
        have same := resolved
        unfold ResolveRequest.options at same
        rw [same]
        exact .refused loaded read resolved
      | ok resolution =>
        have same := resolved
        unfold ResolveRequest.options at same
        rw [same]
        exact .reported loaded read resolved

structure Prepared (here : Surroundings) (r : ResolveRequest) (c : Config) (templates : Registry) :
    Prop where
  file : Config.InFile here.files r.config c
  loaded : loadTemplates here c r.config r.templates = .ok templates
  group : c.HasGroup r.group

def printed (lines : List String) : String := String.join (lines.map (· ++ "\n"))

/-- The exit code of a resolution, by the first thing that goes wrong, and what it prints. -/
structure Classified (here : Surroundings) (r : ResolveRequest) (result : Result) : Prop where
  config : (∀ c, ¬ Config.InFile here.files r.config c) → result.exit = 3
  templates : ∀ c, Config.InFile here.files r.config c → ¬ Supplied here.files c r.templates →
    result.exit = 4
  group : ∀ c, Config.InFile here.files r.config c → Supplied here.files c r.templates →
    ¬ c.HasGroup r.group → result.exit = 2
  refused : ∀ c templates e, Prepared here r c templates →
    c.resolve templates (r.options here) = .error e → e.ExitsWith result.exit
  incomplete : ∀ c templates resolution, Prepared here r c templates →
    c.resolve templates (r.options here) = .ok resolution → resolution.failures ≠ [] →
      result.exit = 5
  complete : ∀ c templates resolution, Prepared here r c templates →
    c.resolve templates (r.options here) = .ok resolution → resolution.failures = [] →
      result.exit = 0
  general : result.exit ≠ 1
  report : ∀ c templates resolution, Prepared here r c templates →
    c.resolve templates (r.options here) = .ok resolution →
      result.output = printed (reportLines r resolution) ∧ result.output ≠ ""
  silent : (∀ c templates, Prepared here r c templates →
    ∀ resolution, c.resolve templates (r.options here) ≠ .ok resolution) → result.output = ""

theorem printed_ne_empty {lines : List String} (some : lines ≠ []) : printed lines ≠ "" := by
  cases lines with
  | nil => exact absurd rfl some
  | cons first rest =>
    intro empty
    have letters := congrArg String.toList empty
    simp [printed, String.join_cons] at letters

theorem reportLines_ne_nil (r : ResolveRequest) (resolution : Resolution) :
    reportLines r resolution ≠ [] := by
  unfold reportLines
  cases r.asJson with
  | true => simp
  | false => cases failures : resolution.failures <;>
      simp [Report.textLines, Report.ofResolution, failures]

section Stages

theorem inFile_unique {d : Config} (loaded : Config.read here.files r.config = .ok c)
    (file : Config.InFile here.files r.config d) : d = c := by
  have same := Config.read_eq_ok_iff.2 file
  rw [loaded] at same
  exact (Except.ok.inj same).symm

theorem Prepared.unique {d : Config} {others : Registry} (p : Prepared here r d others)
    (loaded : Config.read here.files r.config = .ok c)
    (read : loadTemplates here c r.config r.templates = .ok templates) :
    d = c ∧ others = templates := by
  obtain rfl := inFile_unique loaded p.file
  have same := p.loaded
  rw [read] at same
  exact ⟨rfl, (Except.ok.inj same).symm⟩

theorem classified_of_unprepared {e : RunError} (none : ∀ d others, ¬ Prepared here r d others)
    (config : (∀ d, ¬ Config.InFile here.files r.config d) → ExitCode.ofRunError e = 3)
    (templates : ∀ d, Config.InFile here.files r.config d → ExitCode.ofRunError e = 4)
    (unsupplied : ∀ d, Config.InFile here.files r.config d →
      ¬ Supplied here.files d r.templates)
    (general : ExitCode.ofRunError e ≠ 1) :
    Classified here r (Outcome.failed e).result := by
  constructor
  case config => exact config
  case templates => exact fun d file _ => templates d file
  case group => exact fun d file supplied => absurd supplied (unsupplied d file)
  case refused => exact fun d others _ p => absurd p (none d others)
  case incomplete => exact fun d others _ p => absurd p (none d others)
  case complete => exact fun d others _ p => absurd p (none d others)
  case general => exact general
  case report => exact fun d others _ p => absurd p (none d others)
  case silent => exact fun _ => rfl

theorem classified_noConfig {cause : ReadError}
    (failed : Config.read here.files r.config = .error cause) :
    Classified here r (Outcome.failed (.config r.config cause)).result := by
  have none : ∀ d, ¬ Config.InFile here.files r.config d := by
    intro d file
    rw [Config.read_eq_ok_iff.2 file] at failed
    cases failed
  have exit := ExitCode.ofRunError_config r.config cause
  apply classified_of_unprepared
  · exact fun d others p => none d p.file
  · exact fun _ => exit
  · exact fun d file => absurd file (none d)
  · exact fun d file => absurd file (none d)
  · simp [exit, ExitCode.badDeclaration]

theorem classified_noTemplates {e : RunError} (loaded : Config.read here.files r.config = .ok c)
    (failed : loadTemplates here c r.config r.templates = .error e) :
    Classified here r (Outcome.failed e).result := by
  have unsupplied : ∀ d, Config.InFile here.files r.config d →
      ¬ Supplied here.files d r.templates := by
    intro d file supplied
    obtain rfl := inFile_unique loaded file
    obtain ⟨templates, read⟩ := loadTemplates_isOk_iff.2 supplied
    rw [failed] at read
    cases read
  have exit := ExitCode.ofRunError_loadTemplates failed
  apply classified_of_unprepared
  · exact fun d others p => unsupplied d p.file (loadTemplates_isOk_iff.1 ⟨others, p.loaded⟩)
  · exact fun never => absurd (Config.read_eq_ok_iff.1 loaded) (never c)
  · exact fun _ _ => exit
  · exact unsupplied
  · simp [exit, ExitCode.badTemplate]

theorem classified_refused {e : ResolveError} (loaded : Config.read here.files r.config = .ok c)
    (read : loadTemplates here c r.config r.templates = .ok templates)
    (failed : c.resolve templates (r.options here) = .error e) :
    Classified here r (Outcome.failed (.resolution e)).result := by
  have supplied := loadTemplates_isOk_iff.1 ⟨templates, read⟩
  have never : ∀ d others, Prepared here r d others → ∀ resolution,
      d.resolve others (r.options here) ≠ .ok resolution := by
    intro d others p resolution resolved
    obtain ⟨rfl, rfl⟩ := p.unique loaded read
    rw [failed] at resolved
    cases resolved
  constructor
  case config => exact fun never => absurd (Config.read_eq_ok_iff.1 loaded) (never c)
  case templates =>
    intro d file unsupplied
    obtain rfl := inFile_unique loaded file
    exact absurd supplied unsupplied
  case group =>
    intro d file _ missing
    obtain rfl := inFile_unique loaded file
    obtain ⟨name, unknown⟩ := Config.resolve_missingGroup (o := r.options here) missing
    rw [failed] at unknown
    cases unknown
    rfl
  case refused =>
    intro d others e' p failed'
    obtain ⟨rfl, rfl⟩ := p.unique loaded read
    rw [failed] at failed'
    cases failed'
    have located := Config.hasScope_resolve Safeguard.exists_compile_standard p.group failed
    exact ExitCode.exitsWith_of_hasScope located
  case incomplete => exact fun d others resolution p resolved => absurd resolved (never d others p _)
  case complete => exact fun d others resolution p resolved => absurd resolved (never d others p _)
  case general => exact ExitCode.ofResolveError_ne_general e
  case report => exact fun d others resolution p resolved => absurd resolved (never d others p _)
  case silent => exact fun _ => rfl

theorem classified_reported {resolution : Resolution}
    (loaded : Config.read here.files r.config = .ok c)
    (read : loadTemplates here c r.config r.templates = .ok templates)
    (resolved : c.resolve templates (r.options here) = .ok resolution) :
    Classified here r (Outcome.result ⟨reportLines r resolution,
      if resolution.complete then none else some (.incomplete resolution.failures.length)⟩) := by
  have supplied := loadTemplates_isOk_iff.1 ⟨templates, read⟩
  have known : c.HasGroup r.group := by
    obtain ⟨_, _, _, selected, _⟩ := Config.resolve_eq_ok.1 resolved
    exact Config.checkGroup_eq_ok_iff.1 selected
  have same : ∀ {d others found}, Prepared here r d others →
      d.resolve others (r.options here) = .ok found → found = resolution := by
    intro d others found p given
    obtain ⟨rfl, rfl⟩ := p.unique loaded read
    rw [resolved] at given
    exact (Except.ok.inj given).symm
  have some := printed_ne_empty (reportLines_ne_nil r resolution)
  constructor
  case config => exact fun never => absurd (Config.read_eq_ok_iff.1 loaded) (never c)
  case templates =>
    intro d file unsupplied
    obtain rfl := inFile_unique loaded file
    exact absurd supplied unsupplied
  case group =>
    intro d file _ missing
    obtain rfl := inFile_unique loaded file
    exact absurd known missing
  case refused =>
    intro d others e p failed
    obtain ⟨rfl, rfl⟩ := p.unique loaded read
    rw [resolved] at failed
    cases failed
  case incomplete =>
    intro d others found p given failures
    obtain rfl := same p given
    simp [Outcome.result, Resolution.complete, failures, ExitCode.badValue]
  case complete =>
    intro d others found p given failures
    obtain rfl := same p given
    simp [Outcome.result, Resolution.complete, failures, ExitCode.success]
  case general =>
    cases resolution.complete <;> simp [Outcome.result, ExitCode.badValue, ExitCode.success]
  case report =>
    intro d others found p given
    obtain rfl := same p given
    exact ⟨rfl, some⟩
  case silent =>
    intro never
    exact absurd resolved (never c templates ⟨Config.read_eq_ok_iff.1 loaded, read, known⟩ resolution)

end Stages

def undefinedHere : Config where
  groups := [{ name := "ci", commands := [{ name := "go", cmd := some "make %{HERE}" }] }]

end CommandLine
end ScopedCommands
