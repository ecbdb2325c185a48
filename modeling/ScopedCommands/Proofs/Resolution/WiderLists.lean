import ScopedCommands.Proofs.Failures
import ScopedCommands.Proofs.Resolution.Sight

/-!
Names added to allowlists. What resolves with a list resolves in the same way with a longer one: a
text that has a value sees nothing but variables and names that are on the list already. So a run
without failures stays the same run.
-/
namespace ScopedCommands

open Outcome

namespace Step

variable {α β γ ζ : Type} {V : α → β → Prop} {W : γ → ζ → Prop}

/-- Where the one step completes the other does, with a related value. -/
def Carries (V : α → β → Prop) (s : Step α) (t : Step β) : Prop :=
  ∀ a, s.Completes a → ∃ b, t.Completes b ∧ V a b

theorem carries_self (s : Step α) : s.Carries (· = ·) s := fun a done => ⟨a, done, rfl⟩

theorem carries_pure {a : α} {b : β} (h : V a b) : (pure a : Step α).Carries V (pure b) := by
  rintro _ ⟨same, _⟩
  cases same
  exact ⟨b, ⟨rfl, rfl⟩, h⟩

theorem carries_ofExcept {x : Except ResolveError α} {y : Except ResolveError β}
    (h : ∀ a, x = .ok a → ∃ b, y = .ok b ∧ V a b) : (ofExcept x).Carries V (ofExcept y) := by
  rintro a ⟨given, _⟩
  obtain ⟨b, gives, related⟩ := h a given
  exact ⟨b, ⟨gives, rfl⟩, related⟩

theorem carries_note {found other : Findings} (none : other.failures = []) :
    (note found).Carries (· = ·) (note other) :=
  fun _ _ => ⟨(), ⟨rfl, none⟩, rfl⟩

theorem Carries.bind {s : Step α} {t : Step β} {f : α → Step γ} {g : β → Step ζ}
    (h : s.Carries V t) (next : ∀ a b, V a b → (f a).Carries W (g b)) :
    (s >>= f).Carries W (t >>= g) := by
  intro c done
  obtain ⟨a, first, second⟩ := completes_bind_iff.1 done
  obtain ⟨b, given, related⟩ := h a first
  obtain ⟨d, gives, also⟩ := next a b related c second
  exact ⟨d, completes_bind_iff.2 ⟨b, given, gives⟩, also⟩

theorem carries_collect (keepGoing : Bool) {one : γ → Step α} {other : ζ → Step β} {l : List γ}
    {m : List ζ} (each : List.Forall₂ (fun c d => (one c).Carries V (other d)) l m) :
    (collect keepGoing one l).Carries (List.Forall₂ V) (collect keepGoing other m) := by
  induction each with
  | nil => exact carries_pure .nil
  | cons first _ ih =>
    intro bs done
    obtain ⟨a, as, own, rest, rfl⟩ := completes_collect_cons_iff.1 done
    obtain ⟨b, given, related⟩ := first a own
    obtain ⟨later, others, all⟩ := ih as rest
    exact ⟨b :: later, completes_collect_cons_iff.2 ⟨b, later, given, others, rfl⟩,
      .cons related all⟩

end Step

/-- Names may be added to a list, but no list comes or goes. -/
abbrev MoreNames : Option (List String) → Option (List String) → Prop := Option.Rel (· ⊆ ·)

inductive CommandDecl.Widens (c : CommandDecl) : CommandDecl → Prop where
  | more {list : Option (List String)} (names : MoreNames c.allowlist list) :
      Widens c { c with allowlist := list }

inductive GroupDecl.Widens (g : GroupDecl) : GroupDecl → Prop where
  | more {list : Option (List String)} {commands : List CommandDecl}
      (names : MoreNames g.allowlist list)
      (each : List.Forall₂ CommandDecl.Widens g.commands commands) :
      Widens g { g with allowlist := list, commands }

inductive Config.Widens (c : Config) : Config → Prop where
  | more {list : Option (List String)} {groups : List GroupDecl}
      (names : MoreNames c.globals.allowlist list)
      (each : List.Forall₂ GroupDecl.Widens c.groups groups) :
      Widens c { c with globals := { c.globals with allowlist := list }, groups }

/-- The same values, and no less of the environment to read. -/
structure Scope.Widens (x y : Scope) : Prop where
  label : y.label = x.label
  vars : y.vars = x.vars
  env : y.env = x.env
  allows : ∀ name, x.allowlist.allows name = true → y.allowlist.allows name = true

theorem Scope.Widens.refl (x : Scope) : x.Widens x := ⟨rfl, rfl, rfl, fun _ allowed => allowed⟩

structure Enclosing.Widens (g k : Enclosing) : Prop where
  group : k.group = g.group
  globals : g.globals.Widens k.globals
  scope : g.scope.Widens k.scope
  workdir : k.workdir = g.workdir

structure ResolvedGroup.Widens (g k : ResolvedGroup) : Prop where
  name : k.name = g.name
  scope : g.scope.Widens k.scope
  workdir : k.workdir = g.workdir
  commands : k.commands = g.commands

structure Resolution.Widens (r q : Resolution) : Prop where
  globals : r.globals.Widens q.globals
  groups : List.Forall₂ ResolvedGroup.Widens r.groups q.groups

namespace Setting

variable {s : Setting} {x y : Scope} {parents outer : List Scope} {d : ScopeDecl}
  {list : Option (List String)} {g k : Enclosing} {c : CommandDecl}

theorem visible_widens (around : List.Forall₂ Scope.Widens parents outer) (vars : Dict String)
    (name : String) : s.visible vars outer name = s.visible vars parents name := by
  have same : outer.findSome? (·.vars.get? name) = parents.findSome? (·.vars.get? name) := by
    induction around with
    | nil => rfl
    | cons first _ ih => rw [List.findSome?_cons, List.findSome?_cons, first.vars, ih]
  unfold visible
  rw [same]

theorem effective_widens (names : MoreNames d.allowlist list)
    (around : List.Forall₂ Scope.Widens parents outer) (name : String)
    (allowed : (d.effective parents).allows name = true) :
    ({ d with allowlist := list }.effective outer).allows name = true := by
  unfold ScopeDecl.effective at allowed ⊢
  rw [Allowlist.allows_resolve_iff] at allowed ⊢
  obtain ⟨label, declared, imports, vars, env⟩ := d
  cases names with
  | some more => exact more allowed
  | none =>
    obtain ⟨enclosing, found, inherited⟩ := allowed
    cases around with
    | nil => cases found
    | @cons p q ps qs first _ =>
      cases found
      exact ⟨q.allowlist, rfl, first.allows name inherited⟩

theorem resolveScope_widens (around : List.Forall₂ Scope.Widens parents outer)
    (allows : ∀ name, (d.effective parents).allows name = true →
      ({ d with allowlist := list }.effective outer).allows name = true)
    (resolved : s.resolveScope d parents = .ok x) :
    ∃ y, s.resolveScope { d with allowlist := list } outer = .ok y ∧ x.Widens y := by
  refine ⟨_, resolveScope_widen allows (visible_widens around) resolved,
    (label_of_resolveScope resolved).symm, rfl, rfl, fun name allowed => ?_⟩
  rw [allowlist_of_resolveScope resolved] at allowed
  exact allows name allowed

theorem expandField_widens (scope : x.Widens y) (around : List.Forall₂ Scope.Widens parents outer)
    {field raw value : String} (expanded : s.expandField x parents field raw = .ok value) :
    s.expandField y outer field raw = .ok value := by
  refine mapError_eq_ok.2 (expandIn_of_seen rfl rfl ?_ (mapError_eq_ok.1 expanded))
  intro name value seen
  rw [scope.vars]
  exact seen_wider scope.allows (visible_widens around) seen

theorem expandArgs_widens (scope : x.Widens y) (around : List.Forall₂ Scope.Widens parents outer)
    {index : Nat} {args values : List String}
    (expanded : s.expandArgs x parents index args = .ok values) :
    s.expandArgs y outer index args = .ok values := by
  induction args generalizing index values with
  | nil => exact expanded
  | cons raw rest ih =>
    obtain ⟨value, first, more⟩ := bind_eq_ok.1 expanded
    obtain ⟨later, others, same⟩ := bind_eq_ok.1 more
    exact bind_eq_ok.2 ⟨value, expandField_widens scope around first,
      bind_eq_ok.2 ⟨later, ih others, same⟩⟩

theorem expandWorkdir_widens (scope : x.Widens y)
    (around : List.Forall₂ Scope.Widens parents outer) {inherited raw dir : Option String}
    (expanded : s.expandWorkdir x parents inherited raw = .ok dir) :
    s.expandWorkdir y outer inherited raw = .ok dir := by
  cases raw with
  | none => exact expanded
  | some text =>
    obtain ⟨value, own, same⟩ := map_eq_ok.1 expanded
    exact map_eq_ok.2 ⟨value, expandField_widens scope around own, same⟩

theorem assemble_widens (around : g.Widens k) (scope : x.Widens y) {raw : RawCommand}
    {risk : RiskLevel} {r : ResolvedCommand} (assembled : s.assemble g c raw risk x = .ok r) :
    s.assemble k { c with allowlist := list } raw risk y = .ok r := by
  have parents : List.Forall₂ Scope.Widens g.parents k.parents :=
    .cons around.scope (.cons around.globals .nil)
  obtain ⟨cmd, args, workdir, first, second, third, rfl⟩ := assemble_eq_ok.1 assembled
  refine assemble_eq_ok.2 ⟨cmd, args, workdir, expandField_widens scope parents first,
    expandArgs_widens scope parents second, ?_, ?_⟩
  · rw [around.workdir]
    exact expandWorkdir_widens scope parents third
  · rw [around.group, around.globals.env, around.scope.env, scope.env]

theorem resolveRaw_carries (around : g.Widens k) (names : MoreNames c.allowlist list)
    (raw : RawCommand) :
    (s.resolveRaw g c raw).Carries (· = ·) (s.resolveRaw k { c with allowlist := list } raw) := by
  have parents : List.Forall₂ Scope.Widens g.parents k.parents :=
    .cons around.scope (.cons around.globals .nil)
  have label : k.label { c with allowlist := list } = g.label c := by
    unfold Enclosing.label
    rw [around.group]
  unfold resolveRaw
  rw [label, around.group]
  refine (Step.carries_self _).bind fun risk _ same => ?_
  cases same
  refine Step.Carries.bind (V := Scope.Widens) (Step.carries_ofExcept fun x resolved =>
    resolveScope_widens parents (effective_widens names parents) resolved) fun x y scope => ?_
  refine (Step.carries_note (by simp)).bind fun _ _ _ => Step.carries_ofExcept fun r assembled => ?_
  exact ⟨r, assemble_widens around scope assembled, rfl⟩

theorem resolveCommand_carries (templates : Registry) (around : g.Widens k) {b : CommandDecl}
    (command : c.Widens b) :
    (s.resolveCommand templates g c).Carries (· = ·) (s.resolveCommand templates k b) := by
  obtain ⟨names⟩ := command
  unfold resolveCommand Enclosing.label
  rw [around.group]
  refine (Step.carries_self _).bind fun _ _ _ => (Step.carries_self _).bind fun raw _ same => ?_
  cases same
  exact resolveRaw_carries around names raw

theorem resolveGroup_carries (templates : Registry) (keepGoing : Bool) (globals : x.Widens y)
    {g k : GroupDecl} (group : g.Widens k) :
    (s.resolveGroup templates keepGoing x g).Carries ResolvedGroup.Widens
      (s.resolveGroup templates keepGoing y k) := by
  have parents : List.Forall₂ Scope.Widens [x] [y] := .cons globals .nil
  obtain ⟨names, each⟩ := group
  unfold resolveGroup
  refine Step.Carries.bind (V := Scope.Widens) (Step.carries_ofExcept fun scope resolved =>
    resolveScope_widens parents (effective_widens names parents) resolved) fun scope wider inner => ?_
  refine (Step.carries_note (by simp)).bind fun _ _ _ => ?_
  refine Step.Carries.bind (V := (· = ·)) (Step.carries_ofExcept fun dir expanded =>
    ⟨dir, expandWorkdir_widens inner parents expanded, rfl⟩) fun dir _ same => ?_
  cases same
  have around : Enclosing.Widens ⟨g.name, x, scope, dir⟩ ⟨g.name, y, wider, dir⟩ :=
    ⟨rfl, globals, inner, rfl⟩
  refine (Step.carries_collect keepGoing (each.imp fun c b command =>
    resolveCommand_carries templates around command)).bind fun rs qs same => ?_
  rw [List.forall₂_eq_eq_eq] at same
  cases same
  exact Step.carries_pure ⟨rfl, inner, rfl, rfl⟩

end Setting

namespace Config

variable {c b : Config} {templates : Registry} {o : ResolveOptions} {s : Setting} {x y : Scope}

theorem any_widens {groups : List GroupDecl}
    (each : List.Forall₂ GroupDecl.Widens c.groups groups) (name : String) :
    groups.any (·.name = name) = c.groups.any (·.name = name) := by
  generalize c.groups = l at each
  induction each with
  | nil => rfl
  | cons first _ ih =>
    obtain ⟨_, _⟩ := first
    rw [List.any_cons, List.any_cons, ih]

theorem checkGroup_widens (config : c.Widens b) (group : Option String) :
    b.checkGroup group = c.checkGroup group := by
  obtain ⟨names, each⟩ := config
  cases group with
  | none => rfl
  | some name => simp only [checkGroup, any_widens each name]

theorem run_carries (config : c.Widens b) (globals : x.Widens y) :
    (c.run templates o s x).Carries (List.Forall₂ ResolvedGroup.Widens) (b.run templates o s y) := by
  obtain @⟨list, groups, names, each⟩ := config
  have same {g k : GroupDecl} (group : g.Widens k) : o.selects g = true ↔ o.selects k = true := by
    cases group
    rfl
  have selected : List.Forall₂ GroupDecl.Widens (c.groups.filter o.selects)
      (groups.filter o.selects) := List.rel_filter (fun g k group => same group) each
  refine (Step.carries_note (by simp)).bind fun _ _ _ => ?_
  exact Step.carries_collect o.keepGoing (selected.imp fun g k group =>
    Setting.resolveGroup_carries templates o.keepGoing globals group)

theorem resolve_carries (config : c.Widens b) {r : Resolution}
    (resolved : c.resolve templates o = .ok r) (complete : r.failures = []) :
    ∃ q, b.resolve templates o = .ok q ∧ q.failures = [] ∧ r.Widens q := by
  obtain ⟨s, x, groups, selected, set, outer, ran, rfl⟩ := resolve_eq_ok.1 resolved
  have globals : ∃ y, s.resolveScope (.ofGlobals b.globals) [] = .ok y ∧ x.Widens y := by
    obtain ⟨names, _⟩ := config
    exact Setting.resolveScope_widens .nil (Setting.effective_widens names .nil) outer
  obtain ⟨y, outer', wider⟩ := globals
  obtain ⟨groups', done, all⟩ := run_carries config wider groups ⟨ran, complete⟩
  refine ⟨_, resolve_eq_ok.2 ⟨s, y, groups', ?_, set, outer', done.outcome, rfl⟩, done.failures,
    wider, all⟩
  rw [checkGroup_widens config, selected]

/-- Names added to lists change no value: not of a scope, nor of a field in it, nor of a run that
has no failures. -/
theorem resolve_widens :
    (∀ (s : Setting) (d : ScopeDecl) (list : Option (List String)) (parents outer : List Scope)
        (x : Scope), List.Forall₂ Scope.Widens parents outer →
      (∀ name, (d.effective parents).allows name = true →
        ({ d with allowlist := list }.effective outer).allows name = true) →
      s.resolveScope d parents = .ok x →
      ∃ y, s.resolveScope { d with allowlist := list } outer = .ok y ∧ x.Widens y ∧
        ∀ field raw value, s.expandField x parents field raw = .ok value →
          s.expandField y outer field raw = .ok value) ∧
    ∀ (c b : Config) (templates : Registry) (o : ResolveOptions) (r : Resolution), c.Widens b →
      c.resolve templates o = .ok r → r.failures = [] →
      ∃ q, b.resolve templates o = .ok q ∧ q.failures = [] ∧ r.Widens q := by
  constructor
  · intro s d list parents outer x around allows resolved
    obtain ⟨y, given, wider⟩ := Setting.resolveScope_widens around allows resolved
    exact ⟨y, given, wider, fun _ _ _ => Setting.expandField_widens wider around⟩
  · intro c b templates o r config resolved complete
    exact resolve_carries config resolved complete

def withTerm : Config where
  globals := { allowlist := some ["TERM"] }
  groups := [{
    name := "g"
    vars := ["LOG=%{TERM}.log"]
    commands := [{ name := "c", cmd := some "tail", args := some ["%{LOG}"], allowlist := some [] }] }]

def withUser : Config where
  globals := { allowlist := some ["USER", "TERM"] }
  groups := [{
    name := "g"
    vars := ["LOG=%{TERM}.log"]
    commands := [{
      name := "c", cmd := some "tail", args := some ["%{LOG}"], allowlist := some ["LOG"] }] }]

def onTerminal : ResolveOptions where
  environment := Dict.ofList [("LOG", "log"), ("TERM", "xterm"), ("USER", "me")]
  rules := ⟨"none", []⟩

theorem resolve_widens_withTerm :
    (∃ y, Setting.terminal.resolveScope
        { ScopeDecl.logging with allowlist := some ["HOME", "USER", "TERM"] } [.outside] = .ok y ∧
      y.vars.get? "LOG" = some "/home/me/xterm.log") ∧
    ∃ r q, withTerm.Widens withUser ∧ withTerm.resolve .empty onTerminal = .ok r ∧
      withUser.resolve .empty onTerminal = .ok q ∧ q.failures = [] ∧ r.Widens q ∧
      r.commands.map (·.args) = [["xterm.log"]] := by
  constructor
  · obtain ⟨x, resolved, value⟩ : ∃ x, Setting.terminal.resolveScope .logging [.outside] = .ok x ∧
        x.vars.get? "LOG" = some "/home/me/xterm.log" :=
      map_toOption_eq_some.1 (by decide +kernel)
    have more (name : String) (allowed : (ScopeDecl.logging.effective [.outside]).allows name = true) :
        ({ ScopeDecl.logging with allowlist := some ["HOME", "USER", "TERM"] }.effective
          [.outside]).allows name = true :=
      Setting.effective_widens (.some (by decide)) (.cons (.refl _) .nil) name allowed
    obtain ⟨y, given, wider, _⟩ := resolve_widens.1 .terminal .logging _ [.outside] [.outside] x
      (.cons (.refl _) .nil) more resolved
    exact ⟨y, given, wider.vars ▸ value⟩
  · obtain ⟨r, resolved, args⟩ : ∃ r, withTerm.resolve .empty onTerminal = .ok r ∧
        (r.failures, r.commands.map (·.args)) = ([], [["xterm.log"]]) :=
      map_toOption_eq_some.1 (by decide +kernel)
    obtain ⟨complete, same⟩ := Prod.mk.inj args
    have config : withTerm.Widens withUser :=
      .more (.some (by decide)) (.cons (.more .none (.cons (.more (.some (by decide))) .nil)) .nil)
    obtain ⟨q, given, none, wider⟩ := resolve_widens.2 withTerm withUser .empty onTerminal r config
      resolved complete
    exact ⟨r, q, config, resolved, given, none, wider, same⟩

end Config
end ScopedCommands
