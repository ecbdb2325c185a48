import ScopedCommands.Proofs.Config.Reordered
import ScopedCommands.Proofs.Resolution.Independent

namespace ScopedCommands

open Outcome

namespace Setting

variable {s : Setting} {d other : ScopeDecl} {parents outer : List Scope} {scope x y : Scope}

theorem resolveScope_reordered (resolved : s.resolveScope d parents = .ok scope)
    (order : d.Reordered other) : s.resolveScope other parents = .ok scope := by
  obtain ⟨read, imported, vars, env, parsed, first, second, third, shape⟩ :=
    resolveScope_eq_ok.1 resolved
  have reads := ScopeDecl.declarations_eq_ok_iff.1 parsed
  obtain ⟨again, reads', imports, same, entries⟩ := order.reads reads
  rw [addImport_eq] at first
  rw [addEnv_eq] at third
  have first' := foldlM_insert_perm reads.imports.distinct imports first
  have third' := foldlM_insert_perm reads.env.distinct entries third
  rw [← addImport_eq, ← order.label] at first'
  rw [← same, ← order.label] at second
  rw [← addEnv_eq, ← order.label] at third'
  refine resolveScope_eq_ok.2 ⟨again, imported, vars, env,
    ScopeDecl.declarations_eq_ok_iff.2 reads', first', second, third', ?_⟩
  rw [shape, order.label, order.allowlist_eq]

theorem resolveScope_lessEnv (resolved : s.resolveScope d parents = .ok scope) {part : List String}
    (fewer : part.Sublist d.env) :
    s.resolveScope { d with env := part } parents =
      .ok { scope with env := scope.env.filter fun key _ => key ∈ Declaration.names part } := by
  obtain ⟨read, imported, vars, env, parsed, first, second, third, rfl⟩ :=
    resolveScope_eq_ok.1 resolved
  have reads := ScopeDecl.declarations_eq_ok_iff.1 parsed
  obtain ⟨entries, within, names, reads'⟩ := reads.lessEnv fewer
  rw [addEnv_eq] at third
  have third' := foldlM_insert_sublist reads.env.distinct within third
  rw [names, ← addEnv_eq] at third'
  exact resolveScope_eq_ok.2 ⟨_, imported, vars, _, ScopeDecl.declarations_eq_ok_iff.2 reads', first,
    second, third', rfl⟩

end Setting

structure Scope.SameButEnv (x y : Scope) : Prop where
  label : x.label = y.label
  vars : x.vars = y.vars
  allowlist : x.allowlist = y.allowlist

namespace Setting

variable {s : Setting} {parents outer : List Scope} {x y : Scope}

theorem lookup_sameButEnv (around : List.Forall₂ Scope.SameButEnv parents outer)
    (current : Dict String) : s.lookup current parents = s.lookup current outer := by
  have same (name : String) :
      parents.findSome? (·.vars.get? name) = outer.findSome? (·.vars.get? name) := by
    induction around with
    | nil => rfl
    | cons first _ ih => rw [List.findSome?_cons, List.findSome?_cons, first.vars, ih]
  funext name
  unfold lookup visible
  rw [same]

theorem expandField_sameButEnv (inner : x.SameButEnv y)
    (around : List.Forall₂ Scope.SameButEnv parents outer) (field raw : String) :
    s.expandField x parents field raw = s.expandField y outer field raw := by
  unfold expandField
  rw [inner.label, inner.allowlist, inner.vars, lookup_sameButEnv around]

theorem resolveScope_sameButEnv (around : List.Forall₂ Scope.SameButEnv parents outer)
    (d : ScopeDecl) : s.resolveScope d parents = s.resolveScope d outer := by
  have lists : parents.head?.map (·.allowlist) = outer.head?.map (·.allowlist) := by
    cases around with
    | nil => rfl
    | cons first _ => exact congrArg some first.allowlist
  have addVar (allowlist : Allowlist) :
      s.addVar d.label allowlist parents = s.addVar d.label allowlist outer := by
    funext vars a
    unfold Setting.addVar expandVar
    rw [lookup_sameButEnv around]
  have addEnv (allowlist : Allowlist) (vars : Dict String) :
      s.addEnv d.label allowlist parents vars = s.addEnv d.label allowlist outer vars := by
    funext env a
    unfold Setting.addEnv
    rw [lookup_sameButEnv around]
  unfold resolveScope
  simp only [lists, addVar, addEnv]

/-- A scope that resolves is the same in any order of its imports, its env entries and its list.
With fewer env entries it is the same but for their keys, which are all that they count for: no text
sees the env of its own scope or of one around it. -/
theorem resolveScope_unordered (s : Setting) :
    (∀ d parents scope, s.resolveScope d parents = .ok scope →
      (∀ other, d.Reordered other → s.resolveScope other parents = .ok scope) ∧
      ∀ part, part.Sublist d.env → s.resolveScope { d with env := part } parents =
        .ok { scope with env := scope.env.filter fun key _ => key ∈ Declaration.names part }) ∧
    ∀ x y parents outer, x.SameButEnv y → List.Forall₂ Scope.SameButEnv parents outer →
      (∀ field raw, s.expandField x parents field raw = s.expandField y outer field raw) ∧
      ∀ d, s.resolveScope d (x :: parents) = s.resolveScope d (y :: outer) := by
  constructor
  · intro d parents scope resolved
    exact ⟨fun _ => resolveScope_reordered resolved, fun _ => resolveScope_lessEnv resolved⟩
  · intro x y parents outer inner around
    exact ⟨expandField_sameButEnv inner around, resolveScope_sameButEnv (.cons inner around)⟩

def serving : ScopeDecl where
  label := .globals
  allowlist := some ["USER", "TERM", "USER"]
  imports := ["who=USER", "term=TERM"]
  vars := ["LOG=%{who}.log"]
  env := ["LOG=/tmp/%{LOG}", "NAME=%{LOG}", "TERM=%{term}"]

def servingReordered : ScopeDecl where
  label := .globals
  allowlist := some ["TERM", "USER"]
  imports := ["term=TERM", "who=USER"]
  vars := ["LOG=%{who}.log"]
  env := ["NAME=%{LOG}", "TERM=%{term}", "LOG=/tmp/%{LOG}"]

theorem serving_reordered : serving.Reordered servingReordered where
  label := rfl
  allowlist := .some fun name => by simp only [List.mem_cons, List.not_mem_nil]; tauto
  imports := by decide
  vars := rfl
  env := by decide

theorem resolveScope_unordered_serving :
    ∃ scope, terminal.resolveScope serving [] = .ok scope ∧
      terminal.resolveScope servingReordered [] = .ok scope ∧
      scope.env.get? "NAME" = some "me.log" ∧
      terminal.resolveScope { serving with env := ["NAME=%{LOG}"] } [] =
        .ok { scope with env := Dict.ofList [("NAME", "me.log")] } ∧
      terminal.expandField { scope with env := .empty } [] "cmd" "%{LOG}" = .ok "me.log" := by
  obtain ⟨scope, resolved, kept⟩ : ∃ scope, terminal.resolveScope serving [] = .ok scope ∧
      (scope.env, (terminal.expandField scope [] "cmd" "%{LOG}").toOption) =
        (Dict.ofList [("LOG", "/tmp/me.log"), ("NAME", "me.log"), ("TERM", "xterm")],
          some "me.log") :=
    map_toOption_eq_some.1 (by decide +kernel)
  obtain ⟨env, field⟩ := Prod.mk.inj kept
  obtain ⟨unordered, unseen⟩ := resolveScope_unordered terminal
  obtain ⟨reordered, dropped⟩ := unordered serving [] scope resolved
  have name : scope.env.get? "NAME" = some "me.log" := by
    rw [env]
    decide
  have single : scope.env.filter (fun key _ => key ∈ Declaration.names ["NAME=%{LOG}"]) =
      Dict.ofList [("NAME", "me.log")] := by
    rw [env]
    decide
  have fewer := dropped ["NAME=%{LOG}"] (by decide)
  rw [single] at fewer
  obtain ⟨same, _⟩ := unseen { scope with env := .empty } scope [] [] ⟨rfl, rfl, rfl⟩ .nil
  refine ⟨scope, resolved, reordered _ serving_reordered, name, fewer, ?_⟩
  rw [same]
  exact toOption_eq_some.1 field

end Setting
end ScopedCommands
