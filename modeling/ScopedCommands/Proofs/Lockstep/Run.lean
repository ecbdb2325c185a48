import ScopedCommands.Proofs.Lockstep.Scope
import ScopedCommands.Resolution.Run

namespace ScopedCommands

structure ResolvedCommand.Related (V : String → String → Prop) (x y : ResolvedCommand) : Prop where
  group : x.group = y.group
  name : x.name = y.name
  cmd : V x.cmd y.cmd
  args : List.Forall₂ V x.args y.args
  env : x.env.Related V y.env
  workdir : Option.Rel V x.workdir y.workdir
  risk : x.risk = y.risk
  template : x.template = y.template

structure ResolvedGroup.Related (V : String → String → Prop) (listed : String → Prop)
    (x y : ResolvedGroup) : Prop where
  name : x.name = y.name
  scope : x.scope.Related V listed y.scope
  workdir : Option.Rel V x.workdir y.workdir
  commands : List.Forall₂ (ResolvedCommand.Related V) x.commands y.commands

structure Resolution.Related (E : ExpansionError → ExpansionError → Prop)
    (V : String → String → Prop) (listed : String → Prop) (x y : Resolution) : Prop where
  globals : x.globals.Related V listed y.globals
  groups : List.Forall₂ (ResolvedGroup.Related V listed) x.groups y.groups
  warnings : x.warnings = y.warnings
  failures : List.Forall₂ (ResolveError.Along E) x.failures y.failures

structure Enclosing.Related (V : String → String → Prop) (listed : String → Prop)
    (x y : Enclosing) : Prop where
  group : x.group = y.group
  globals : x.globals.Related V listed y.globals
  scope : x.scope.Related V listed y.scope
  workdir : Option.Rel V x.workdir y.workdir

def GlobalDecl.listed (g : GlobalDecl) : List String := g.allowlist.getD []

def CommandDecl.listed (c : CommandDecl) : List String := c.allowlist.getD []

def GroupDecl.listed (g : GroupDecl) : List String :=
  g.allowlist.getD [] ++ g.commands.flatMap CommandDecl.listed

def Config.listed (c : Config) : List String :=
  c.globals.listed ++ c.groups.flatMap GroupDecl.listed

section

variable {E : ExpansionError → ExpansionError → Prop} {V : String → String → Prop}
  {listed : String → Prop} {s t : Setting} {ps qs : List Scope} {x y : Scope}

namespace Setting

theorem Related.expandField (h : s.Related E V listed t) (scope : x.Related V listed y)
    (parents : List.Forall₂ (Scope.Related V listed) ps qs) (field raw : String) :
    Lockstep (ResolveError.Along E) V (s.expandField x ps field raw) (t.expandField y qs field raw) := by
  unfold Setting.expandField
  rw [← scope.label, ← scope.allowlist]
  have value := expandIn_lockstep h.errors h.texts (h.lookup scope.vars parents)
    (h.context x.label scope.names field) raw
  exact value.mapError fun _ _ causes => .expansion _ _ causes

theorem Related.expandArgs (h : s.Related E V listed t) (scope : x.Related V listed y)
    (parents : List.Forall₂ (Scope.Related V listed) ps qs) (index : Nat) (args : List String) :
    Lockstep (ResolveError.Along E) (List.Forall₂ V) (s.expandArgs x ps index args)
      (t.expandArgs y qs index args) := by
  induction args generalizing index with
  | nil => exact .ok .nil
  | cons raw rest ih =>
    unfold Setting.expandArgs
    refine (h.expandField scope parents _ raw).bind fun v w first => ?_
    exact (ih (index + 1)).bind fun vs ws later => .ok (.cons first later)

theorem Related.expandWorkdir (h : s.Related E V listed t) (scope : x.Related V listed y)
    (parents : List.Forall₂ (Scope.Related V listed) ps qs) {inherited other : Option String}
    (outer : Option.Rel V inherited other) (own : Option String) :
    Lockstep (ResolveError.Along E) (Option.Rel V) (s.expandWorkdir x ps inherited own)
      (t.expandWorkdir y qs other own) := by
  cases own with
  | none => exact .ok outer
  | some raw => exact (h.expandField scope parents _ raw).map fun _ _ value => .some value

theorem Related.unsetNames (h : s.Related E V listed t) (scope : x.Related V listed y) :
    s.unsetNames x = t.unsetNames y := by
  have unset : x.allowlist.toList.filter (fun name => !s.environment.contains name) =
      x.allowlist.toList.filter fun name => !t.environment.contains name := by
    refine List.filter_congr fun name member => ?_
    rw [h.isSet name (scope.names name ((Dict.mem_keys_iff _ _).1 member))]
  unfold Setting.unsetNames
  rw [← scope.allowlist, ← scope.label, unset]

end Setting

variable {g k : Enclosing}

theorem Enclosing.Related.parents (around : g.Related V listed k) :
    List.Forall₂ (Scope.Related V listed) g.parents k.parents :=
  .cons around.scope (.cons around.globals .nil)

namespace Setting

theorem Related.assemble (h : s.Related E V listed t) (around : g.Related V listed k)
    (scope : x.Related V listed y) (c : CommandDecl) (raw : RawCommand) (risk : RiskLevel) :
    Lockstep (ResolveError.Along E) (ResolvedCommand.Related V) (s.assemble g c raw risk x)
      (t.assemble k c raw risk y) := by
  unfold Setting.assemble
  refine (h.expandField scope around.parents _ _).bind fun _ _ cmd => ?_
  refine (h.expandArgs scope around.parents _ _).bind fun _ _ args => ?_
  refine (h.expandWorkdir scope around.parents around.workdir _).bind fun _ _ workdir => ?_
  have env := (around.globals.env.union around.scope.env).union scope.env
  exact .ok ⟨around.group, rfl, cmd, args, env, workdir, rfl, rfl⟩

theorem Related.resolveRaw (h : s.Related E V listed t) (around : g.Related V listed k)
    (c : CommandDecl) (declared : ∀ name ∈ c.listed, listed name) (raw : RawCommand) :
    (s.resolveRaw g c raw).InStep (ResolveError.Along E) (ResolvedCommand.Related V)
      (t.resolveRaw k c raw) := by
  unfold Setting.resolveRaw Enclosing.label
  rw [← around.group]
  refine (Step.inStep_refl .same (fun _ => rfl) _).bind ?_
  rintro risk _ rfl
  have scopes := h.resolveScope (.ofCommand g.group c raw.env) declared around.parents
  refine (Step.inStep_ofExcept scopes).bind fun x y scope => ?_
  rw [← h.unsetNames scope]
  refine (Step.inStep_note (s.failures_unsetNames x)).bind fun _ _ _ => ?_
  exact Step.inStep_ofExcept (h.assemble around scope c raw _)

theorem Related.resolveCommand (h : s.Related E V listed t) (around : g.Related V listed k)
    (templates : Registry) (c : CommandDecl) (declared : ∀ name ∈ c.listed, listed name) :
    (s.resolveCommand templates g c).InStep (ResolveError.Along E) (ResolvedCommand.Related V)
      (t.resolveCommand templates k c) := by
  unfold Setting.resolveCommand Enclosing.label
  rw [← around.group]
  refine (Step.inStep_refl .same (fun _ => rfl) _).bind fun _ _ _ => ?_
  refine (Step.inStep_refl .same (fun _ => rfl) _).bind ?_
  rintro raw _ rfl
  exact h.resolveRaw around c declared raw

variable {globals others : Scope}

theorem Related.resolveGroup (h : s.Related E V listed t) (outer : globals.Related V listed others)
    (templates : Registry) (keepGoing : Bool) (g : GroupDecl)
    (declared : ∀ name ∈ g.listed, listed name) :
    (s.resolveGroup templates keepGoing globals g).InStep (ResolveError.Along E)
      (ResolvedGroup.Related V listed) (t.resolveGroup templates keepGoing others g) := by
  have own : ∀ name ∈ g.allowlist.getD [], listed name := fun name member =>
    declared name (List.mem_append_left _ member)
  have parents : List.Forall₂ (Scope.Related V listed) [globals] [others] := .cons outer .nil
  unfold Setting.resolveGroup
  refine (Step.inStep_ofExcept (h.resolveScope (.ofGroup g) own parents)).bind fun x y scope => ?_
  have noted : redundantList globals x ++ s.unsetNames x =
      redundantList others y ++ t.unsetNames y := by
    unfold redundantList
    rw [h.unsetNames scope, scope.allowlist, scope.label, outer.allowlist]
  rw [← noted]
  refine (Step.inStep_note (by simp)).bind fun _ _ _ => ?_
  have workdirs := h.expandWorkdir scope parents .none g.workdir
  refine (Step.inStep_ofExcept workdirs).bind fun v w workdir => ?_
  have around : Enclosing.Related V listed ⟨g.name, globals, x, v⟩ ⟨g.name, others, y, w⟩ :=
    ⟨rfl, outer, scope, workdir⟩
  refine (Step.inStep_collect keepGoing g.commands fun c member => ?_).bind
    fun _ _ commands => Step.inStep_pure ⟨rfl, scope, workdir, commands⟩
  refine h.resolveCommand around templates c fun name named => ?_
  exact declared name (List.mem_append_right _ (List.mem_flatMap.2 ⟨c, member, named⟩))

end Setting

/-- Runs with the same options otherwise keep step to the end. -/
theorem Config.resolve_lockstep (c : Config) (templates : Registry) {o p : ResolveOptions}
    (settings : Lockstep (ResolveError.Along E) (Setting.Related E V (· ∈ c.listed))
      (Config.setting o) (Config.setting p))
    (group : o.group = p.group) (keepGoing : o.keepGoing = p.keepGoing) :
    Lockstep (ResolveError.Along E) (Resolution.Related E V (· ∈ c.listed))
      (c.resolve templates o) (c.resolve templates p) := by
  unfold Config.resolve
  rw [group]
  refine (Lockstep.refl (V := (· = ·)) .same (fun _ => rfl) _).bind fun _ _ _ => ?_
  refine settings.bind fun s t h => ?_
  have own : ∀ name ∈ c.globals.allowlist.getD [], name ∈ c.listed := fun name member =>
    List.mem_append_left _ member
  unfold Config.resolveWith
  refine (h.resolveScope (.ofGlobals c.globals) own .nil).bind fun x y globals => ?_
  have noted : s.globalFindings x = t.globalFindings y := by
    unfold Setting.globalFindings
    rw [h.unsetNames globals, globals.allowlist]
  have selected : o.selects = p.selects := by
    unfold ResolveOptions.selects
    rw [group]
  rw [← noted, ← selected, ← keepGoing]
  have run := (Step.inStep_note (E := ResolveError.Along E) (s.failures_globalFindings x)).bind
    fun _ _ _ => Step.inStep_collect o.keepGoing (c.groups.filter o.selects) fun g member =>
      h.resolveGroup globals templates o.keepGoing g fun name named =>
        List.mem_append_right _ (List.mem_flatMap.2 ⟨g, List.mem_of_mem_filter member, named⟩)
  exact run.outcome.bind fun _ _ groups => .ok ⟨globals, groups, run.warnings, run.failures⟩

end
end ScopedCommands
