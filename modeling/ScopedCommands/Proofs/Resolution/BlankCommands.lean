import ScopedCommands.Proofs.Expansion.Blank
import ScopedCommands.Proofs.Expansion.Grounded
import ScopedCommands.Proofs.Resolution.Courses
import ScopedCommands.Proofs.Resolution.Declarations
import ScopedCommands.Proofs.Resolution.TemplateCalls

namespace ScopedCommands

/-- The raw text of the command, its own or that of the template with the parameters filled in. -/
inductive CommandDecl.HasText (templates : Registry) (d : CommandDecl) : String → Prop where
  | own {raw : String} (inline : d.template = none) (given : d.cmd = some raw) :
      HasText templates d raw
  | bound {name : String} {t : Template} {b : BoundCommand} (calls : d.template = some name)
      (known : templates.template? name = some t) (filled : t.bind name d.params = .ok b) :
      HasText templates d b.cmd

namespace CommandDecl

variable {templates : Registry} {d : CommandDecl} {group label : String} {raw : RawCommand}

theorem cmd_of_checkFields (inline : d.template = none) (fields : d.checkFields group = .ok ()) :
    ∃ own, d.cmd = some own ∧ own ≠ "" := by
  unfold checkFields at fields
  rw [inline] at fields
  cases given : d.cmd with
  | none => simp [given] at fields
  | some own =>
    refine ⟨own, rfl, fun empty => ?_⟩
    simp [given, empty] at fields

theorem hasText_of_rawFields (fields : d.checkFields group = .ok ())
    (given : (Setting.rawFields templates label d).outcome = .ok raw) :
    d.HasText templates raw.cmd ∧ raw.cmd ≠ "" ∧
      (d.usesTemplate = true → Text.allBlank raw.cmd = false) := by
  rcases Setting.rawFields_eq_ok.1 given with ⟨inline, rfl⟩ | ⟨name, t, b, calls, known, filled, rfl⟩
  · obtain ⟨own, text, full⟩ := cmd_of_checkFields inline fields
    have same : d.inlineFields.cmd = own := by
      rw [inlineFields, text, Option.getD_some]
    rw [same]
    refine ⟨.own inline text, full, fun impossible => ?_⟩
    simp [usesTemplate, inline] at impossible
  · have visible : Text.allBlank b.cmd = false := (t.binds_of_bind filled).command
    exact ⟨.bound calls known filled, Text.ne_empty_of_not_blank visible, fun _ => visible⟩

end CommandDecl

def Setting.external (s : Setting) (scope : Scope) : External := ⟨s.environment, scope.allowlist⟩

structure Setting.ComesFrom (s : Setting) (templates : Registry) (globals : Scope) (g : GroupDecl)
    (d : CommandDecl) (outer scope : Scope) (raw : String) (x : ResolvedCommand) : Prop where
  group : x.group = g.name
  name : x.name = d.name
  around : s.resolveScope (.ofGroup g) [globals] = .ok outer
  inside : ∃ env, s.resolveScope (.ofCommand g.name d env) [outer, globals] = .ok scope
  text : d.HasText templates raw
  expanded : Substitutes (s.lookup scope.vars [outer, globals]) (some (s.external scope)) raw x.cmd

namespace Setting

variable {s : Setting} {templates : Registry} {globals : Scope} {g : GroupDecl}

theorem comesFrom_of_resolveCommand {outer : Scope} {workdir : Option String} {d : CommandDecl}
    {x : ResolvedCommand} (around : s.resolveScope (.ofGroup g) [globals] = .ok outer)
    (resolved : (s.resolveCommand templates ⟨g.name, globals, outer, workdir⟩ d).outcome = .ok x) :
    ∃ scope raw, s.ComesFrom templates globals g d outer scope raw x ∧ raw ≠ "" ∧
      (d.usesTemplate = true → Text.allBlank raw = false) := by
  obtain ⟨raw, risk, scope, fields, given, _, inside, assembled⟩ := resolveCommand_eq_ok.1 resolved
  obtain ⟨text, full, visible⟩ := CommandDecl.hasText_of_rawFields fields given
  obtain ⟨cmd, args, directory, expanded, _, _, rfl⟩ := assemble_eq_ok.1 assembled
  have stands := substitutes_of_expandIn (Outcome.mapError_eq_ok.1 expanded)
  exact ⟨scope, raw.cmd, ⟨rfl, rfl, around, ⟨raw.env, inside⟩, text, stands⟩, full, visible⟩

theorem comesFrom_of_resolveGroup {entry : ResolvedGroup} {x : ResolvedCommand}
    (resolved : (s.resolveGroup templates true globals g).outcome = .ok entry)
    (member : x ∈ entry.commands) :
    ∃ d ∈ g.commands, ∃ outer scope raw, s.ComesFrom templates globals g d outer scope raw x ∧
      raw ≠ "" ∧ (d.usesTemplate = true → Text.allBlank raw = false) := by
  obtain ⟨outer, workdir, commands, around, _, collected, rfl⟩ := resolveGroup_eq_ok.1 resolved
  obtain ⟨d, declared, own⟩ := Step.mem_of_collect_eq_ok collected member
  obtain ⟨scope, raw, origin⟩ := comesFrom_of_resolveCommand around own
  exact ⟨d, declared, outer, scope, raw, origin⟩

end Setting

namespace Config

variable {c : Config} {templates : Registry} {o : ResolveOptions} {r : Resolution}

theorem comesFrom_of_resolve (resolved : c.resolve templates o = .ok r) {x : ResolvedCommand}
    (member : x ∈ r.commands) :
    ∃ s, setting o = .ok s ∧ ∃ g ∈ c.groups, ∃ d ∈ g.commands, ∃ outer scope raw,
      s.ComesFrom templates r.globals g d outer scope raw x ∧ raw ≠ "" ∧
      (d.usesTemplate = true → Text.allBlank raw = false) := by
  obtain ⟨s, set, gathered⟩ := gathered_of_resolve resolved
  obtain ⟨entry, listed, inside⟩ := List.mem_flatMap.1 member
  rw [gathered.groups, List.mem_filterMap] at listed
  obtain ⟨g, selected, given⟩ := listed
  have origin := Setting.comesFrom_of_resolveGroup (Outcome.toOption_eq_some.1 given) inside
  exact ⟨s, set, g, (List.mem_filter.1 selected).1, origin⟩

/-- Each command is the expansion of a text that is not empty, and not blank if it comes from a
template. Of a text that is not blank nothing is left just if it is white space and references to
what is blank in the scope of the command. -/
theorem resolve_cmd_blank_iff (resolved : c.resolve templates o = .ok r) {x : ResolvedCommand}
    (member : x ∈ r.commands) :
    ∃ s, setting o = .ok s ∧ ∃ g ∈ c.groups, ∃ d ∈ g.commands, ∃ outer scope raw,
      s.ComesFrom templates r.globals g d outer scope raw x ∧ raw ≠ "" ∧
      (d.usesTemplate = true → Text.allBlank raw = false) ∧
      (Text.allBlank raw = false →
        (Text.allBlank x.cmd = true ↔ Reference.BlankIn (s.lookup scope.vars [outer, r.globals])
          (some (s.external scope)) raw)) := by
  obtain ⟨s, set, g, listed, d, declared, outer, scope, raw, origin, full, visible⟩ :=
    comesFrom_of_resolve resolved member
  have iff := origin.expanded.allBlank_iff
  exact ⟨s, set, g, listed, d, declared, outer, scope, raw, origin, full, visible, iff⟩

def toolFromOutside : Config where
  groups := [{ name := "g", allowlist := some ["TOOL"]
               commands := [{ name := "run", cmd := some "%{TOOL}" }] }]

theorem toolFromOutside_blank :
    ∃ r x, toolFromOutside.resolve .empty {} = .ok r ∧ r.commands = [x] ∧ x.cmd = "" := by
  have ran : (toolFromOutside.resolve .empty {}).toOption.map (fun r => r.commands.map (·.cmd)) =
      some [""] := by
    decide +kernel
  obtain ⟨r, resolved, found⟩ := Outcome.map_toOption_eq_some.1 ran
  obtain ⟨x, single, empty⟩ := List.map_eq_singleton_iff.1 found
  exact ⟨r, x, resolved, single, empty⟩

theorem resolve_cmd_blank_iff_toolFromOutside :
    ∃ r x, toolFromOutside.resolve .empty {} = .ok r ∧ x ∈ r.commands ∧ x.cmd = "" ∧
      ∃ s scope outer, setting {} = .ok s ∧ Reference.BlankIn
        (s.lookup scope.vars [outer, r.globals]) (some (s.external scope)) "%{TOOL}" := by
  obtain ⟨r, x, resolved, single, empty⟩ := toolFromOutside_blank
  have member : x ∈ r.commands := by
    rw [single]
    exact List.mem_singleton_self x
  obtain ⟨s, set, g, listed, d, declared, outer, scope, raw, origin, _, _, iff⟩ :=
    resolve_cmd_blank_iff resolved member
  cases List.mem_singleton.1 listed
  cases List.mem_singleton.1 declared
  have text : raw = "%{TOOL}" := by
    cases origin.text with
    | own _ given => exact (Option.some.inj given).symm
    | bound calls => cases calls
  subst text
  have blank : Text.allBlank x.cmd = true := by
    rw [empty]
    rfl
  exact ⟨r, x, resolved, member, empty, s, scope, outer, set, (iff (by decide)).1 blank⟩

theorem resolve_cmd_blank_unset :
    ¬ ∀ (c : Config) (templates : Registry) (o : ResolveOptions) (r : Resolution),
      c.resolve templates o = .ok r → ∀ x ∈ r.commands, Text.allBlank x.cmd = false := by
  intro visible
  obtain ⟨r, x, resolved, single, empty⟩ := toolFromOutside_blank
  have full := visible toolFromOutside .empty {} r resolved x (by simp [single])
  rw [empty] at full
  revert full
  decide

end Config
end ScopedCommands
