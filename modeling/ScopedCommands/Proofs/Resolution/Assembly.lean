import ScopedCommands.Proofs.Resolution.BlankCommands
import ScopedCommands.Proofs.Resolution.Entries
import ScopedCommands.Proofs.Resolution.Independent

namespace ScopedCommands

open Outcome

namespace CommandDecl

/-- The command that a template was bound to for the declaration, none if it has fields of its own. -/
inductive BoundTo (templates : Registry) (d : CommandDecl) : Option BoundCommand → Prop where
  | inline (own : d.template = none) : BoundTo templates d none
  | call {name : String} {t : Template} {b : BoundCommand} (calls : d.template = some name)
      (known : templates.template? name = some t) (filled : t.bind name d.params = .ok b) :
      BoundTo templates d (some b)

def fields (d : CommandDecl) : Option BoundCommand → RawCommand
  | none => d.inlineFields
  | some b => d.boundFields b

theorem workdir_fields (d : CommandDecl) (bound : Option BoundCommand) :
    (d.fields bound).workdir = d.workdir.or (bound.bind (·.workdir)) := by
  cases bound with
  | none => exact Option.or_none.symm
  | some b => rfl

theorem boundTo_of_rawFields {templates : Registry} {label : String} {d : CommandDecl}
    {raw : RawCommand} (given : (Setting.rawFields templates label d).outcome = .ok raw) :
    ∃ bound, d.BoundTo templates bound ∧ raw = d.fields bound := by
  rcases Setting.rawFields_eq_ok.1 given with ⟨own, rfl⟩ | ⟨name, t, b, calls, known, filled, rfl⟩
  · exact ⟨none, .inline own, rfl⟩
  · exact ⟨some b, .call calls known filled, rfl⟩

end CommandDecl

namespace Setting

/-- The value is what the run gives for the text of a field in a scope, and what the text stands for
there. -/
structure Expands (s : Setting) (scope : Scope) (parents : List Scope) (field raw value : String) :
    Prop where
  given : s.expandField scope parents field raw = .ok value
  stands : Substitutes (s.lookup scope.vars parents) (some (s.external scope)) raw value

/-- The env of a scope has the keys that are declared, each with what its text stands for there. -/
structure HasEnv (s : Setting) (entries : List String) (scope : Scope) (parents : List Scope) :
    Prop where
  keys : ∀ key, scope.env.contains key = true ↔
    ∃ entry ∈ entries, ∃ text, Assignment.parse entry = some ⟨key, text⟩
  values : ∀ entry ∈ entries, ∀ key text, Assignment.parse entry = some ⟨key, text⟩ →
    ∃ value, scope.env.get? key = some value ∧
      Substitutes (s.lookup scope.vars parents) (some (s.external scope)) text value

/-- The working directory of a command: its own, else that of its template, both expanded in its
scope, else that of the group as it was expanded in the scope of the group. -/
inductive Directory (s : Setting) (globals : Scope) (g : GroupDecl) (entry : ResolvedGroup)
    (scope : Scope) (own template : Option String) : Option String → Prop where
  | own {raw value : String} (set : own = some raw)
      (expands : s.Expands scope [entry.scope, globals] "workdir" raw value) :
      Directory s globals g entry scope own template (some value)
  | template {raw value : String} (unset : own = none) (bound : template = some raw)
      (expands : s.Expands scope [entry.scope, globals] "workdir" raw value) :
      Directory s globals g entry scope own template (some value)
  | group {raw value : String} (unset : own = none) (dropped : template = none)
      (set : g.workdir = some raw) (expanded : entry.workdir = some value)
      (expands : s.Expands entry.scope [globals] "workdir" raw value) :
      Directory s globals g entry scope own template (some value)
  | absent (unset : own = none) (dropped : template = none) (nowhere : g.workdir = none) :
      Directory s globals g entry scope own template none

/-- A command with all that it is put together from: the declaration and its raw fields, the group
that it stands in, and the three scopes. -/
structure Assembles (s : Setting) (c : Config) (globals : Scope) (g : GroupDecl)
    (entry : ResolvedGroup) (d : CommandDecl) (bound : Option BoundCommand) (scope : Scope)
    (x : ResolvedCommand) : Prop where
  group : x.group = g.name
  name : x.name = d.name
  template : x.template = d.template
  outermost : s.resolveScope (.ofGlobals c.globals) [] = .ok globals
  outer : s.resolveScope (.ofGroup g) [globals] = .ok entry.scope
  inner : s.resolveScope (.ofCommand g.name d (d.fields bound).env) [entry.scope, globals] =
    .ok scope
  cmd : s.Expands scope [entry.scope, globals] "cmd" (d.fields bound).cmd x.cmd
  length : x.args.length = (d.fields bound).args.length
  args : ∀ (i : Nat) (raw : String), (d.fields bound).args[i]? = some raw →
    ∃ value, x.args[i]? = some value ∧
      s.Expands scope [entry.scope, globals] s!"args[{i}]" raw value
  workdir : s.Directory globals g entry scope d.workdir (bound.bind (·.workdir)) x.workdir
  env : ∀ key, x.env.get? key =
    (scope.env.get? key).or ((entry.scope.env.get? key).or (globals.env.get? key))
  own : s.HasEnv (d.fields bound).env scope [entry.scope, globals]
  inherited : s.HasEnv g.env entry.scope [globals]
  shared : s.HasEnv c.globals.env globals []

variable {s : Setting} {scope : Scope} {parents : List Scope} {field raw value : String}

theorem expands_of_expandField (given : s.expandField scope parents field raw = .ok value) :
    s.Expands scope parents field raw value :=
  ⟨given, substitutes_of_expandIn (mapError_eq_ok.1 given)⟩

theorem expands_of_expandArgs {raws values : List String} {index : Nat}
    (given : s.expandArgs scope parents index raws = .ok values) :
    values.length = raws.length ∧ ∀ (i : Nat) (raw : String), raws[i]? = some raw →
      ∃ value, values[i]? = some value ∧
        s.Expands scope parents s!"args[{index + i}]" raw value := by
  induction raws generalizing index values with
  | nil =>
    cases given
    exact ⟨rfl, nofun⟩
  | cons first rest ih =>
    obtain ⟨value, here, tail⟩ := bind_eq_ok.1 given
    obtain ⟨others, later, done⟩ := bind_eq_ok.1 tail
    cases done
    obtain ⟨same, each⟩ := ih later
    refine ⟨congrArg (· + 1) same, fun i raw listed => ?_⟩
    cases i with
    | zero =>
      cases Option.some.inj listed
      exact ⟨value, rfl, expands_of_expandField here⟩
    | succ i =>
      obtain ⟨found, placed, expands⟩ := each i raw listed
      have place : index + (i + 1) = index + 1 + i := by omega
      rw [place]
      exact ⟨found, placed, expands⟩

theorem hasEnv_of_resolveScope {d : ScopeDecl} (resolved : s.resolveScope d parents = .ok scope) :
    s.HasEnv d.env scope parents := by
  obtain ⟨read, imported, vars, env, parsed, _, _, folded, shape⟩ := resolveScope_eq_ok.1 resolved
  have reads := ScopeDecl.declarations_eq_ok_iff.1 parsed
  constructor
  · intro key
    rw [(names_of_resolveScope reads resolved key).2, List.mem_map]
    constructor
    · rintro ⟨a, member, rfl⟩
      obtain ⟨entry, listed, own⟩ := (reads.env.mem_iff a).1 member
      exact ⟨entry, listed, a.value, own⟩
    · rintro ⟨entry, listed, text, own⟩
      exact ⟨⟨key, text⟩, (reads.env.mem_iff _).2 ⟨entry, listed, own⟩, rfl⟩
  · intro entry listed key text own
    have member := (reads.env.mem_iff ⟨key, text⟩).2 ⟨entry, listed, own⟩
    subst shape
    rw [addEnv_eq] at folded
    obtain ⟨value, brought, own⟩ := ((foldlM_insert_eq_ok reads.env.distinct).1 folded).1 _ member
    exact ⟨value, own, substitutes_of_envValue brought⟩

theorem directory_of_expandWorkdir {globals : Scope} {g : GroupDecl} {entry : ResolvedGroup}
    {own template workdir : Option String}
    (inherited : s.expandWorkdir entry.scope [globals] none g.workdir = .ok entry.workdir)
    (given : s.expandWorkdir scope [entry.scope, globals] entry.workdir (own.or template) =
      .ok workdir) : s.Directory globals g entry scope own template workdir := by
  cases own with
  | some raw =>
    obtain ⟨value, expanded, rfl⟩ := map_eq_ok.1 given
    exact .own rfl (expands_of_expandField expanded)
  | none =>
    cases template with
    | some raw =>
      obtain ⟨value, expanded, rfl⟩ := map_eq_ok.1 given
      exact .template rfl rfl (expands_of_expandField expanded)
    | none =>
      -- Nothing is left to expand in the scope of the command.
      cases Except.ok.inj given
      cases set : g.workdir with
      | none =>
        rw [set] at inherited
        rw [← Except.ok.inj inherited]
        exact .absent rfl rfl set
      | some raw =>
        rw [set] at inherited
        obtain ⟨value, expanded, same⟩ := map_eq_ok.1 inherited
        rw [← same]
        exact .group rfl rfl set same.symm (expands_of_expandField expanded)

theorem assembles_of_resolveCommand {c : Config} {templates : Registry} {globals : Scope}
    {g : GroupDecl} (entry : ResolvedGroup) {d : CommandDecl} {x : ResolvedCommand}
    (outermost : s.resolveScope (.ofGlobals c.globals) [] = .ok globals)
    (outer : s.resolveScope (.ofGroup g) [globals] = .ok entry.scope)
    (inherited : s.expandWorkdir entry.scope [globals] none g.workdir = .ok entry.workdir)
    (resolved : (s.resolveCommand templates ⟨g.name, globals, entry.scope, entry.workdir⟩ d).outcome =
      .ok x) :
    ∃ bound scope, d.BoundTo templates bound ∧ s.Assembles c globals g entry d bound scope x := by
  obtain ⟨raw, risk, scope, _, given, _, inner, assembled⟩ := resolveCommand_eq_ok.1 resolved
  obtain ⟨bound, source, rfl⟩ := CommandDecl.boundTo_of_rawFields given
  obtain ⟨cmd, args, workdir, command, arguments, directory, rfl⟩ := assemble_eq_ok.1 assembled
  obtain ⟨length, each⟩ := expands_of_expandArgs arguments
  rw [CommandDecl.workdir_fields] at directory
  refine ⟨bound, scope, source, ?_⟩
  exact {
    group := rfl
    name := rfl
    template := rfl
    outermost, outer, inner, length
    cmd := expands_of_expandField command
    args := fun i raw listed => by
      have placed := each i raw listed
      rw [Nat.zero_add] at placed
      exact placed
    workdir := directory_of_expandWorkdir inherited directory
    env := fun key => by
      simp only [Dict.get?_union]
    own := hasEnv_of_resolveScope inner
    inherited := hasEnv_of_resolveScope outer
    shared := hasEnv_of_resolveScope outermost }

end Setting

/-- Every command of a resolution is put together from the declaration of a command in a group, with
the fields of its own or of a template that it calls, and from the scopes around it. -/
theorem Config.resolve_assembles {c : Config} {templates : Registry} {o : ResolveOptions}
    {r : Resolution} (resolved : c.resolve templates o = .ok r) {x : ResolvedCommand}
    (member : x ∈ r.commands) :
    ∃ s, setting o = .ok s ∧ ∃ g ∈ c.groups, ∃ entry ∈ r.groups, x ∈ entry.commands ∧
      ∃ d ∈ g.commands, ∃ bound scope, d.BoundTo templates bound ∧
        s.Assembles c r.globals g entry d bound scope x := by
  obtain ⟨s, set, gathered⟩ := gathered_of_resolve resolved
  obtain ⟨entry, listed, inside⟩ := List.mem_flatMap.1 member
  have origin := listed
  rw [gathered.groups, List.mem_filterMap] at origin
  obtain ⟨g, selected, given⟩ := origin
  obtain ⟨outer, workdir, commands, around, directory, collected, rfl⟩ :=
    Setting.resolveGroup_eq_ok.1 (toOption_eq_some.1 given)
  obtain ⟨d, declared, own⟩ := Step.mem_of_collect_eq_ok collected inside
  obtain ⟨bound, scope, source, assembles⟩ :=
    Setting.assembles_of_resolveCommand ⟨g.name, outer, workdir, commands⟩ gathered.outer around
      directory own
  exact ⟨s, set, g, (List.mem_filter.1 selected).1, _, listed, inside, d, declared, bound, scope,
    source, assembles⟩

def Template.sync : Template where
  cmd := "rsync"
  args := ["${@flags}", "%{ROOT}/", "${to}"]
  env := ["MODE=command"]
  workdir := some "${?dir}"

def push : CommandDecl where
  name := "push"
  vars := ["ROOT=/tmp"]
  template := some "sync"
  params := Dict.ofList [("flags", .list ["-a", "%{ROOT}"]), ("to", .text "host:")]

def backup : GroupDecl where
  name := "backup"
  workdir := some "%{ROOT}/work"
  env := ["MODE=group", "LOG=%{ROOT}/log"]
  commands := [push]

def syncing : Config where
  globals := { vars := ["ROOT=/srv"], env := ["LANG=C", "MODE=global", "ROOT=%{ROOT}"] }
  groups := [backup]

def syncTemplates : Registry := Dict.ofList [("sync", ⟨.sync, "sync.yaml"⟩)]

theorem Config.resolve_assembles_syncing :
    ∃ r x, syncing.resolve syncTemplates {} = .ok r ∧ x ∈ r.commands ∧
      x.args = ["-a", "/tmp", "/tmp/", "host:"] ∧ x.workdir = some "/srv/work" ∧
      x.env = Dict.ofList [("LANG", "C"), ("LOG", "/srv/log"), ("MODE", "command"),
        ("ROOT", "/srv")] ∧
      ∃ s entry bound scope, Config.setting {} = .ok s ∧ push.BoundTo syncTemplates bound ∧
        s.Assembles syncing r.globals backup entry push bound scope x := by
  have ran : (syncing.resolve syncTemplates {}).toOption.map (fun r => r.commands.map fun x =>
      (x.args, x.workdir, x.env)) = some [(["-a", "/tmp", "/tmp/", "host:"], some "/srv/work",
        Dict.ofList [("LANG", "C"), ("LOG", "/srv/log"), ("MODE", "command"), ("ROOT", "/srv")])] := by
    decide +kernel
  obtain ⟨r, resolved, found⟩ := map_toOption_eq_some.1 ran
  obtain ⟨x, single, shown⟩ := List.map_eq_singleton_iff.1 found
  obtain ⟨args, workdir, env⟩ : x.args = _ ∧ x.workdir = _ ∧ x.env = _ := by
    simpa only [Prod.mk.injEq] using shown
  have member : x ∈ r.commands := by
    rw [single]
    exact List.mem_singleton_self x
  obtain ⟨s, set, g, listed, entry, _, _, d, declared, bound, scope, source, assembles⟩ :=
    resolve_assembles resolved member
  cases List.mem_singleton.1 listed
  cases List.mem_singleton.1 declared
  exact ⟨r, x, resolved, member, args, workdir, env, s, entry, bound, scope, set, source, assembles⟩

end ScopedCommands
