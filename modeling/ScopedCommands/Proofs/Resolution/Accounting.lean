import Mathlib.Data.List.Basic
import ScopedCommands.Proofs.Resolution.Courses
import ScopedCommands.Proofs.Resolution.Errors

namespace ScopedCommands

/-- What is resolved and what fails, told along the declarations. One that resolves gives one value
and failures of its own, one that fails gives one failure. -/
inductive Accounts {α β ε : Type} (resolves : α → β → List ε → Prop) (fails : α → ε → Prop) :
    List α → List β → List ε → Prop where
  | nil : Accounts resolves fails [] [] []
  | resolved {a : α} {b : β} {own : List ε} {rest : List α} {bs : List β} {es : List ε}
      (given : resolves a b own) (later : Accounts resolves fails rest bs es) :
      Accounts resolves fails (a :: rest) (b :: bs) (own ++ es)
  | failed {a : α} {e : ε} {rest : List α} {bs : List β} {es : List ε}
      (lost : fails a e) (later : Accounts resolves fails rest bs es) :
      Accounts resolves fails (a :: rest) bs (e :: es)

namespace Accounts

variable {α β ε : Type} {resolves : α → β → List ε → Prop} {fails : α → ε → Prop} {l : List α}
  {bs : List β} {es : List ε}

theorem forall_failures {P : ε → Prop} (h : Accounts resolves fails l bs es)
    (inside : ∀ a b own, resolves a b own → ∀ e ∈ own, P e) (outside : ∀ a e, fails a e → P e) :
    ∀ e ∈ es, P e := by
  induction h with
  | nil =>
    intro e member
    cases member
  | resolved given later ih => exact List.forall_mem_append.2 ⟨inside _ _ _ given, ih⟩
  | failed lost later ih => exact List.forall_mem_cons.2 ⟨outside _ _ lost, ih⟩

/-- There are as many failures as declarations that fail and losses inside of the others. -/
theorem length_failures {γ : Type} (h : Accounts resolves fails l bs es) (lost : α → Bool)
    (inner : α → List γ)
    (inside : ∀ a b own, resolves a b own → lost a = false ∧ own.length = (inner a).length)
    (outside : ∀ a e, fails a e → lost a = true ∧ inner a = []) :
    es.length = (l.filter lost).length + (l.flatMap inner).length := by
  induction h with
  | nil => rfl
  | @resolved a b own rest bs es given later ih =>
    obtain ⟨kept, counted⟩ := inside a b own given
    have none : (a :: rest).filter lost = rest.filter lost := List.filter_cons_of_neg (by simp [kept])
    simp only [none, List.flatMap_cons, List.length_append, counted, ih]
    omega
  | @failed a e rest bs es failure later ih =>
    obtain ⟨gone, nothing⟩ := outside a e failure
    have one : (a :: rest).filter lost = a :: rest.filter lost := List.filter_cons_of_pos gone
    simp only [one, List.flatMap_cons, nothing, List.nil_append, List.length_cons, ih]
    omega

end Accounts

theorem Step.accounts_collect {α β : Type} {one : α → Step β}
    {resolves : α → β → List ResolveError → Prop} {fails : α → ResolveError → Prop}
    (given : ∀ a b, (one a).outcome = .ok b → resolves a b (one a).findings.failures)
    (lost : ∀ a e, (one a).outcome = .error e → (one a).findings.failures = [] ∧ fails a e)
    (l : List α) :
    Accounts resolves fails l (l.filterMap fun a => (one a).outcome.toOption)
      (l.flatMap fun a => (one a).allFailures) := by
  induction l with
  | nil => exact .nil
  | cons a rest ih =>
    rw [List.filterMap_cons, List.flatMap_cons]
    cases out : (one a).outcome with
    | ok b =>
      rw [Step.allFailures_of_ok out]
      exact .resolved (given a b out) ih
    | error e =>
      obtain ⟨none, failure⟩ := lost a e out
      rw [Step.allFailures_of_error out, none]
      exact .failed failure ih

theorem ScopeLabel.text_command_ne_group (group name other : String) :
    (ScopeLabel.command group name).text ≠ (ScopeLabel.group other).text := by
  intro same
  have letters := congrArg String.toList same
  simp [text, toString] at letters

namespace Setting

variable (s : Setting) (templates : Registry)

structure CommandResolves (around : Enclosing) (c : CommandDecl) (x : ResolvedCommand)
    (own : List ResolveError) : Prop where
  outcome : (s.resolveCommand templates around c).outcome = .ok x
  group : x.group = around.group
  name : x.name = c.name
  clear : own = []

structure CommandFails (around : Enclosing) (c : CommandDecl) (e : ResolveError) : Prop where
  outcome : (s.resolveCommand templates around c).outcome = .error e
  scope : e.scope? = some (ScopeLabel.command around.group c.name).text

structure GroupResolves (globals : Scope) (g : GroupDecl) (entry : ResolvedGroup)
    (own : List ResolveError) : Prop where
  outcome : (s.resolveGroup templates true globals g).outcome = .ok entry
  name : entry.name = g.name
  commands : Accounts
    (s.CommandResolves templates ⟨g.name, globals, entry.scope, entry.workdir⟩)
    (s.CommandFails templates ⟨g.name, globals, entry.scope, entry.workdir⟩)
    g.commands entry.commands own
  elsewhere : ∀ e ∈ own, e.scope? ≠ some (ScopeLabel.group g.name).text

structure GroupFails (globals : Scope) (g : GroupDecl) (e : ResolveError) : Prop where
  outcome : (s.resolveGroup templates true globals g).outcome = .error e
  scope : e.scope? = some (ScopeLabel.group g.name).text

def losesGroup (globals : Scope) (g : GroupDecl) : Bool :=
  !(s.resolveGroup templates true globals g).outcome.isOk

def losesCommand (around : Enclosing) (c : CommandDecl) : Bool :=
  !(s.resolveCommand templates around c).outcome.isOk

/-- The commands of a group that fail. One that does not resolve visits none of them. -/
def lostCommands (globals : Scope) (g : GroupDecl) : List CommandDecl :=
  match (s.resolveGroup templates true globals g).outcome with
  | .error _ => []
  | .ok entry =>
    g.commands.filter (s.losesCommand templates ⟨g.name, globals, entry.scope, entry.workdir⟩)

theorem accounts_commands (around : Enclosing) (commands : List CommandDecl) :
    Accounts (s.CommandResolves templates around) (s.CommandFails templates around) commands
      (commands.filterMap fun c => (s.resolveCommand templates around c).outcome.toOption)
      (commands.filterMap fun c => Outcome.error? (s.resolveCommand templates around c).outcome) := by
  have failures : (commands.filterMap fun c =>
        Outcome.error? (s.resolveCommand templates around c).outcome) =
      commands.flatMap fun c => (s.resolveCommand templates around c).allFailures := by
    rw [List.filterMap_eq_flatMap_toList]
    simp only [allFailures_resolveCommand]
  rw [failures]
  apply Step.accounts_collect
  · intro c x resolved
    obtain ⟨raw, risk, scope, _, _, _, _, assembled⟩ := resolveCommand_eq_ok.1 resolved
    obtain ⟨cmd, args, workdir, _, _, _, rfl⟩ := assemble_eq_ok.1 assembled
    exact ⟨resolved, rfl, rfl, s.failures_resolveCommand templates around c⟩
  · intro c e failed
    have placed := (at_resolveCommand templates around c).outcome e failed
    exact ⟨s.failures_resolveCommand templates around c, failed, placed⟩

variable {s templates} {globals : Scope} {g : GroupDecl}

theorem groupResolves_of_ok {entry : ResolvedGroup}
    (resolved : (s.resolveGroup templates true globals g).outcome = .ok entry) :
    s.GroupResolves templates globals g entry
      (s.resolveGroup templates true globals g).findings.failures := by
  have course := s.groupCourse_resolveGroup templates globals g
  generalize left : s.resolveGroup templates true globals g = step at course resolved ⊢
  cases course with
  | noScope failed => cases resolved
  | noWorkdir _ failed => cases resolved
  | @visited scope workdir inner directory commands each =>
    cases resolved
    have accounts := s.accounts_commands templates ⟨g.name, globals, scope, workdir⟩ g.commands
    rw [← each] at accounts
    refine ⟨by rw [left], rfl, accounts, ?_⟩
    apply accounts.forall_failures (P := fun e => e.scope? ≠ some (ScopeLabel.group g.name).text)
    · intro c x own resolves e member
      rw [resolves.clear] at member
      cases member
    · intro c e fails same
      rw [fails.scope] at same
      exact ScopeLabel.text_command_ne_group g.name c.name g.name (Option.some.inj same)

theorem groupFails_of_error {e : ResolveError}
    (failed : (s.resolveGroup templates true globals g).outcome = .error e) :
    (s.resolveGroup templates true globals g).findings.failures = [] ∧
      s.GroupFails templates globals g e := by
  have course := s.groupCourse_resolveGroup templates globals g
  generalize left : s.resolveGroup templates true globals g = step at course failed ⊢
  cases course with
  | noScope inner =>
    cases failed
    exact ⟨rfl, by rw [left], at_resolveScope (.ofGroup g) [globals] e inner⟩
  | @noWorkdir scope _ inner directory =>
    cases failed
    have texts := failsOnly_texts (ResolveError.ofValues_at (ScopeDecl.ofGroup g).label.text)
      scope inner
    have placed := failsOnly_expandWorkdir texts none g.workdir e directory
    exact ⟨by simp, by rw [left], placed⟩
  | visited _ _ => cases failed

theorem accounts_groups (s : Setting) (templates : Registry) (globals : Scope)
    (groups : List GroupDecl) :
    Accounts (s.GroupResolves templates globals) (s.GroupFails templates globals) groups
      (groups.filterMap fun g => (s.resolveGroup templates true globals g).outcome.toOption)
      (groups.flatMap fun g => (s.resolveGroup templates true globals g).allFailures) :=
  Step.accounts_collect (fun _ _ => groupResolves_of_ok) (fun _ _ => groupFails_of_error) groups

theorem GroupResolves.labelled {entry : ResolvedGroup} {own : List ResolveError}
    (h : s.GroupResolves templates globals g entry own) : ∀ e ∈ own, e.scope?.isSome = true := by
  apply h.commands.forall_failures (P := fun e => e.scope?.isSome = true)
  · intro c x none resolves e member
    rw [resolves.clear] at member
    cases member
  · intro c e fails
    rw [fails.scope, Option.isSome_some]

theorem GroupResolves.length_failures {entry : ResolvedGroup} {own : List ResolveError}
    (h : s.GroupResolves templates globals g entry own) :
    own.length = (s.lostCommands templates globals g).length := by
  let around : Enclosing := ⟨g.name, globals, entry.scope, entry.workdir⟩
  have counted : own.length = (g.commands.filter (s.losesCommand templates around)).length +
      (g.commands.flatMap fun _ => ([] : List CommandDecl)).length := by
    apply h.commands.length_failures
    · intro c x none resolves
      have kept : s.losesCommand templates around c = false := by
        rw [losesCommand, resolves.outcome]
        rfl
      rw [resolves.clear]
      exact ⟨kept, rfl⟩
    · intro c e fails
      have gone : s.losesCommand templates around c = true := by
        rw [losesCommand, fails.outcome]
        rfl
      exact ⟨gone, rfl⟩
  simpa [lostCommands, h.outcome] using counted

end Setting

namespace Config

/-- Each visited group and each command of a group that resolves is accounted for once, in order,
and there are no other groups, commands and failures. -/
structure Accounted (templates : Registry) (s : Setting) (visited : List GroupDecl)
    (r : Resolution) : Prop where
  groups : Accounts (s.GroupResolves templates r.globals) (s.GroupFails templates r.globals)
    visited r.groups r.failures
  labelled : ∀ e ∈ r.failures, e.scope?.isSome = true
  counted : r.failures.length = (visited.filter (s.losesGroup templates r.globals)).length +
    (visited.flatMap (s.lostCommands templates r.globals)).length

theorem accounted_of_accounts {templates : Registry} {s : Setting} {visited : List GroupDecl}
    {r : Resolution} (groups : Accounts (s.GroupResolves templates r.globals)
      (s.GroupFails templates r.globals) visited r.groups r.failures) :
    Accounted templates s visited r := by
  refine ⟨groups, ?_, ?_⟩
  · apply groups.forall_failures (P := fun e => e.scope?.isSome = true)
    · intro g entry own resolves
      exact resolves.labelled
    · intro g e fails
      rw [fails.scope, Option.isSome_some]
  · apply groups.length_failures
    · intro g entry own resolves
      have kept : s.losesGroup templates r.globals g = false := by
        rw [Setting.losesGroup, resolves.outcome]
        rfl
      exact ⟨kept, resolves.length_failures⟩
    · intro g e fails
      have gone : s.losesGroup templates r.globals g = true := by
        rw [Setting.losesGroup, fails.outcome]
        rfl
      have nothing : s.lostCommands templates r.globals g = [] := by
        rw [Setting.lostCommands, fails.outcome]
      exact ⟨gone, nothing⟩

theorem resolve_keepGoing_accounted {c : Config} {templates : Registry} {o : ResolveOptions}
    {r : Resolution} (going : o.keepGoing = true) (resolved : c.resolve templates o = .ok r) :
    ∃ s, setting o = .ok s ∧ s.resolveScope (.ofGlobals c.globals) [] = .ok r.globals ∧
      Accounted templates s (c.groups.filter o.selects) r := by
  obtain ⟨s, _, set, gathered⟩ := (resolve_keepGoing_eq_ok going).1 resolved
  have accounts := s.accounts_groups templates r.globals (c.groups.filter o.selects)
  rw [← gathered.groups, ← gathered.failures] at accounts
  exact ⟨s, set, gathered.outer, accounted_of_accounts accounts⟩

def partlyBroken : Config where
  groups := [
    { name := "lost", vars := ["X=%{NONE}"], commands := [{ name := "run", cmd := some "run" }] },
    { name := "kept"
      commands := [{ name := "a", cmd := some "%{A}" }, { name := "b", cmd := some "b" },
        { name := "c", cmd := some "%{C}" }] },
    { name := "bare" }]

theorem resolve_keepGoing_accounted_partlyBroken :
    ∃ s r, partlyBroken.resolve .empty { keepGoing := true } = .ok r ∧
      Accounted .empty s partlyBroken.groups r ∧ r.failures.length = 3 ∧
      r.groups.map (·.name) = ["kept", "bare"] := by
  have ran : (partlyBroken.resolve .empty { keepGoing := true }).toOption.map
      (fun r => (r.failures.length, r.groups.map (·.name))) = some (3, ["kept", "bare"]) := by
    decide +kernel
  obtain ⟨r, resolved, found⟩ := Outcome.map_toOption_eq_some.1 ran
  obtain ⟨three, names⟩ := Prod.mk.inj found
  obtain ⟨s, _, _, accounted⟩ := resolve_keepGoing_accounted rfl resolved
  exact ⟨s, r, resolved, accounted, three, names⟩

end Config
end ScopedCommands
