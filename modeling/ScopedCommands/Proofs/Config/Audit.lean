import ScopedCommands.Config.Audit
import ScopedCommands.Proofs.Outcome
import ScopedCommands.Resolution.Scope

namespace ScopedCommands

open Outcome

/-- The problems that a resolution meets as well. -/
def Problem.blocks : Problem → Bool
  | .declaration place _ => place != "global.env_allowlist"
  | .duplicateGroup _ | .emptyGroupName | .duplicateCommand _ _ => false

def ScopeDecl.Readable (d : ScopeDecl) : Prop := ∃ read, d.declarations = .ok read

structure CommandDecl.Declared (group : String) (c : CommandDecl) : Prop where
  fields : c.checkFields group = .ok ()
  scope : (ScopeDecl.ofCommand group c (c.env.getD [])).Readable
  risk : ∃ level, RiskLevel.parseDeclared c.riskLevel = .ok level

structure GroupDecl.Declared (g : GroupDecl) : Prop where
  scope : (ScopeDecl.ofGroup g).Readable
  commands : ∀ c ∈ g.commands, c.Declared g.name

structure Config.Declared (c : Config) : Prop where
  globals : (ScopeDecl.ofGlobals c.globals).Readable
  groups : ∀ g ∈ c.groups, g.Declared

theorem ScopeDecl.readable_iff {d : ScopeDecl} :
    d.Readable ↔
      (∃ imports, (Declaration.imports "from_env" .empty d.imports).1 = .ok imports) ∧
      (∃ vars, (Declaration.vars "vars" (Declaration.imports "from_env" .empty d.imports).2
        d.vars).1 = .ok vars) ∧
      ∃ env, Declaration.environment "env" d.env = .ok env := by
  simp only [Readable, declarations, bind_eq_ok, mapError_eq_ok]
  constructor
  · rintro ⟨read, imports, first, vars, second, env, third, _⟩
    exact ⟨⟨imports, first⟩, ⟨vars, second⟩, ⟨env, third⟩⟩
  · rintro ⟨⟨imports, first⟩, ⟨vars, second⟩, ⟨env, third⟩⟩
    exact ⟨_, imports, first, vars, second, env, third, rfl⟩

theorem ScopeLabel.text_ne_allowlist (label : ScopeLabel) : label.text ≠ "global.env_allowlist" := by
  intro same
  have letters := congrArg String.toList same
  cases label with
  | globals => revert same; decide
  | group name => simp [text, toString] at letters
  | command group name => simp [text, toString] at letters

namespace Audit

@[simp] theorem problems_append (a b : Audit) :
    (a ++ b).problems = a.problems ++ b.problems := rfl

def Passes (a : Audit) : Prop := ∀ p ∈ a.problems, p.blocks = false

theorem passes_of_valid {a : Audit} (h : a.valid = true) : a.Passes := by
  intro p member
  rw [List.isEmpty_iff.1 h] at member
  cases member

@[simp] theorem passes_empty : ({} : Audit).Passes := nofun

@[simp] theorem passes_append {a b : Audit} : (a ++ b).Passes ↔ a.Passes ∧ b.Passes := by
  simp only [Passes, problems_append, List.mem_append, or_imp, forall_and]

theorem passes_advice (advice : List Advice) : ({ advice } : Audit).Passes := nofun

theorem passes_harmless {p : Problem} (harmless : p.blocks = false) (found : Prop)
    [Decidable found] : (if found then ({ problems := [p] } : Audit) else {}).Passes := by
  split
  · exact List.forall_mem_singleton.2 harmless
  · exact passes_empty

theorem passes_record {α : Type} {label : ScopeLabel} {result : Except DeclarationError α} :
    (record label.text result).Passes ↔ ∃ a, result = .ok a := by
  cases result with
  | ok a => simp [record]
  | error e =>
    have elsewhere := label.text_ne_allowlist
    simp [record, Passes, Problem.blocks, elsewhere]

theorem passes_ofAllowlistNames (names : List String) : (ofAllowlistNames names).Passes := by
  induction names with
  | nil => exact passes_empty
  | cons name rest ih =>
    refine passes_append.2 ⟨?_, ih⟩
    intro p member
    unfold record at member
    split at member
    · cases member
    · cases List.mem_singleton.1 member
      simp [Problem.blocks]

theorem passes_scope {d : ScopeDecl} :
    (ofNames d.label.text d.imports d.vars).Passes ∧ (ofEnv d.label.text d.env).Passes ↔
      d.Readable := by
  simp only [ofNames, ofEnv, passes_append, passes_record, ScopeDecl.readable_iff, and_assoc]

theorem passes_ofCommand_iff {group : String} {c : CommandDecl} :
    (ofCommand group c).Passes ↔
      c.checkFields group = .ok () ∧
      (ofNames (ScopeLabel.command group c.name).text c.imports c.vars).Passes ∧
      (ofEnv (ScopeLabel.command group c.name).text (c.env.getD [])).Passes ∧
      ∃ level, RiskLevel.parseDeclared c.riskLevel = .ok level := by
  have none : (ofEnv (ScopeLabel.command group c.name).text []).Passes :=
    passes_record.2 ⟨[], rfl⟩
  have fields : (∃ u : Unit, c.checkFields group = .ok u) ↔ c.checkFields group = .ok () :=
    ⟨fun ⟨_, fine⟩ => fine, fun fine => ⟨(), fine⟩⟩
  cases entries : c.env with
  | none =>
    simp only [ofCommand, entries, passes_append, passes_record, passes_empty, mapError_eq_ok,
      fields, Option.getD_none, none, true_and, and_true, and_assoc]
  | some env =>
    simp only [ofCommand, entries, passes_append, passes_record, mapError_eq_ok, fields,
      Option.getD_some, and_assoc]

theorem passes_ofCommand {group : String} {c : CommandDecl} :
    (ofCommand group c).Passes ↔ c.Declared group := by
  have scope := passes_scope (d := .ofCommand group c (c.env.getD []))
  rw [passes_ofCommand_iff]
  constructor
  · rintro ⟨fields, names, entries, risk⟩
    exact ⟨fields, scope.1 ⟨names, entries⟩, risk⟩
  · rintro ⟨fields, readable, risk⟩
    obtain ⟨names, entries⟩ := scope.2 readable
    exact ⟨fields, names, entries, risk⟩

theorem passes_ofCommands {group : String} {seen : NameSet} {commands : List CommandDecl} :
    (ofCommands group seen commands).Passes ↔ ∀ c ∈ commands, c.Declared group := by
  induction commands generalizing seen with
  | nil => simp [ofCommands]
  | cons c rest ih =>
    have named := passes_harmless (p := .duplicateCommand group c.name) rfl (seen.contains c.name)
    simp only [ofCommands, passes_append, passes_ofCommand, ih, named, true_and,
      List.forall_mem_cons]

theorem passes_ofGroup {g : GroupDecl} : (ofGroup g).Passes ↔ g.Declared := by
  have named := passes_harmless (p := .emptyGroupName) rfl (g.name = "")
  have advised : (if g.commands = [] then
      ({ advice := [.noCommands g.name] } : Audit) else {}).Passes := by
    split
    · exact passes_advice _
    · exact passes_empty
  have scope := passes_scope (d := .ofGroup g)
  simp only [ofGroup, passes_append, passes_ofCommands, named, advised, true_and, and_true]
  constructor
  · rintro ⟨readable, commands⟩
    exact ⟨scope.1 readable, commands⟩
  · rintro ⟨readable, commands⟩
    exact ⟨scope.2 readable, commands⟩

theorem passes_ofGroups {seen : NameSet} {groups : List GroupDecl} :
    (ofGroups seen groups).Passes ↔ ∀ g ∈ groups, g.Declared := by
  induction groups generalizing seen with
  | nil => simp [ofGroups]
  | cons g rest ih =>
    have named := passes_harmless (p := .duplicateGroup g.name) rfl (seen.contains g.name)
    simp only [ofGroups, passes_append, passes_ofGroup, ih, named, true_and, List.forall_mem_cons]

theorem passes_ofGlobals {g : GlobalDecl} :
    (ofGlobals g).Passes ↔ (ScopeDecl.ofGlobals g).Readable := by
  have scope := passes_scope (d := .ofGlobals g)
  unfold ofGlobals
  rw [passes_append, passes_append]
  constructor
  · rintro ⟨readable, _⟩
    exact scope.1 readable
  · intro readable
    refine ⟨scope.2 readable, ?_⟩
    split
    · exact passes_advice _
    · exact passes_advice _
    · exact passes_ofAllowlistNames _

end Audit

theorem Config.audit_passes_iff {c : Config} : c.audit.Passes ↔ c.Declared := by
  rw [audit, Audit.passes_append, Audit.passes_ofGlobals, Audit.passes_ofGroups]
  constructor
  · rintro ⟨globals, groups⟩
    exact ⟨globals, groups⟩
  · rintro ⟨globals, groups⟩
    exact ⟨globals, groups⟩

end ScopedCommands
