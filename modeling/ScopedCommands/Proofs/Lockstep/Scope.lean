import ScopedCommands.Proofs.Lockstep.Expansion
import ScopedCommands.Proofs.Resolution.Inversion

/-!
The same scope resolved in two settings that differ in the process environment. Values are compared
by `V` and expansion errors by `E`. What has to hold of the two environments is said in
`Setting.Related`: it concerns the listed names and the errors about the others.
-/
namespace ScopedCommands

namespace ResolveError

inductive Along (E : ExpansionError → ExpansionError → Prop) : ResolveError → ResolveError → Prop where
  | same (e : ResolveError) : Along E e e
  | expansion (scope field : String) {e f : ExpansionError} (causes : E e f) :
      Along E (.expansion scope field e) (.expansion scope field f)

theorem Along.place {E : ExpansionError → ExpansionError → Prop} {e f : ResolveError}
    (h : e.Along E f) : e.scope? = f.scope? ∧ e.field? = f.field? := by
  cases h with
  | same => exact ⟨rfl, rfl⟩
  | expansion scope field causes => exact ⟨rfl, rfl⟩

end ResolveError

/-- Two settings as far as a run can tell them apart. -/
structure Setting.Related (E : ExpansionError → ExpansionError → Prop)
    (V : String → String → Prop) (listed : String → Prop) (s t : Setting) : Prop where
  errors : ∀ e, E e e
  texts : Congruent V
  checks : ∀ name {v w}, V v w → s.safeguard.check name v = t.safeguard.check name w
  automatic : s.automatic.Related V t.automatic
  isSet : ∀ name, listed name → s.environment.contains name = t.environment.contains name
  reads : ∀ name, listed name →
    V ((s.environment.get? name).getD "") ((t.environment.get? name).getD "")
  denies : ∀ scope user name,
    E (.denial s.environment scope user name) (.denial t.environment scope user name)

structure Scope.Related (V : String → String → Prop) (listed : String → Prop) (x y : Scope) :
    Prop where
  label : x.label = y.label
  vars : x.vars.Related V y.vars
  env : x.env.Related V y.env
  allowlist : x.allowlist = y.allowlist
  names : ∀ name, x.allowlist.allows name = true → listed name

/-- Whatever a scope may read was declared by it or by a scope around it. -/
theorem Allowlist.allows_resolve {declared : Option (List String)} {enclosing : Option Allowlist}
    {name : String} (h : (Allowlist.resolve declared enclosing).allows name = true) :
    name ∈ declared.getD [] ∨ ∃ outer, enclosing = some outer ∧ outer.allows name = true := by
  rw [allows_resolve_iff] at h
  cases declared with
  | none => exact .inr h
  | some names => exact .inl h

section

variable {E : ExpansionError → ExpansionError → Prop} {V : String → String → Prop}
  {listed : String → Prop} {s t : Setting} {ps qs : List Scope} {vars others : Dict String}

namespace Setting

theorem Related.visible (h : s.Related E V listed t) (current : vars.Related V others)
    (parents : List.Forall₂ (Scope.Related V listed) ps qs) (name : String) :
    Option.Rel V (s.visible vars ps name) (t.visible others qs name) := by
  have outer : Option.Rel V (ps.findSome? (·.vars.get? name)) (qs.findSome? (·.vars.get? name)) := by
    induction parents with
    | nil => exact .none
    | @cons p q ps qs related _ ih =>
      have here := related.vars.get? name
      rw [List.findSome?_cons, List.findSome?_cons]
      generalize p.vars.get? name = x at here ⊢
      generalize q.vars.get? name = y at here ⊢
      cases here with
      | some value => exact .some value
      | none => exact ih
  have own := current.get? name
  unfold Setting.visible
  generalize vars.get? name = x at own ⊢
  generalize others.get? name = y at own ⊢
  cases own with
  | some value => exact .some value
  | none =>
    generalize ps.findSome? (·.vars.get? name) = x at outer ⊢
    generalize qs.findSome? (·.vars.get? name) = y at outer ⊢
    cases outer with
    | some value => exact .some value
    | none => exact h.automatic.get? name

theorem Related.lookup (h : s.Related E V listed t) (current : vars.Related V others)
    (parents : List.Forall₂ (Scope.Related V listed) ps qs) (name : String) :
    Option.Rel (Binding.Related V) (s.lookup vars ps name) (t.lookup others qs name) := by
  have value := h.visible current parents name
  unfold Setting.lookup
  generalize s.visible vars ps name = x at value ⊢
  generalize t.visible others qs name = y at value ⊢
  cases value with
  | none => exact .none
  | some values => exact .some (.resolved values)

section

variable (label : ScopeLabel) {allowlist : Allowlist}

theorem Related.context (h : s.Related E V listed t)
    (names : ∀ name, allowlist.allows name = true → listed name) (field : String) :
    (s.context label allowlist field).Related E V (t.context label allowlist field) :=
  ⟨rfl, rfl, rfl, rfl, .some ⟨rfl, fun name allowed => h.reads name (names name allowed), h.denies⟩⟩

theorem Related.checkSafe (h : s.Related E V listed t) (field name : String) {v w : String}
    (value : V v w) : s.checkSafe label field name v = t.checkSafe label field name w := by
  unfold Setting.checkSafe
  rw [h.checks name value]

theorem Related.keep (h : s.Related E V listed t) (dicts : vars.Related V others)
    (field name : String) {v w : String} (value : V v w) :
    Lockstep (ResolveError.Along E) (Dict.Related V)
      (do s.checkSafe label field name v; return vars.insert name v)
      (do t.checkSafe label field name w; return others.insert name w) := by
  rw [h.checkSafe label field name value]
  cases t.checkSafe label field name w with
  | error e => exact .error (.same e)
  | ok => exact .ok (dicts.insert name value)

theorem Related.addImport (h : s.Related E V listed t)
    (names : ∀ name, allowlist.allows name = true → listed name) (dicts : vars.Related V others)
    (a : Assignment) :
    Lockstep (ResolveError.Along E) (Dict.Related V) (s.addImport label allowlist vars a)
      (t.addImport label allowlist others a) := by
  unfold Setting.addImport
  split
  next allowed => exact h.keep label dicts _ _ (h.reads _ (names _ allowed))
  next => exact .error (.same _)

theorem Related.addVar (h : s.Related E V listed t)
    (names : ∀ name, allowlist.allows name = true → listed name)
    (parents : List.Forall₂ (Scope.Related V listed) ps qs) (dicts : vars.Related V others)
    (a : Assignment) :
    Lockstep (ResolveError.Along E) (Dict.Related V) (s.addVar label allowlist ps vars a)
      (t.addVar label allowlist qs others a) := by
  have value : Lockstep E V (s.expandVar label allowlist ps vars a)
      (t.expandVar label allowlist qs others a) := by
    have entered := (h.context label names s!"vars.{a.name}").enter h.errors a.name
    unfold Setting.expandVar
    generalize (s.context label allowlist s!"vars.{a.name}").enter a.name = x at entered ⊢
    generalize (t.context label allowlist s!"vars.{a.name}").enter a.name = y at entered ⊢
    cases entered with
    | error related => exact .error related
    | ok contexts =>
      exact expandIn_lockstep h.errors h.texts (h.lookup dicts parents) contexts a.value
  unfold Setting.addVar
  refine (value.mapError fun _ _ causes => .expansion _ _ causes).bind fun v w related => ?_
  exact h.keep label dicts _ _ related

theorem Related.addEnv (h : s.Related E V listed t)
    (names : ∀ name, allowlist.allows name = true → listed name)
    (parents : List.Forall₂ (Scope.Related V listed) ps qs) (dicts : vars.Related V others)
    {env added : Dict String} (entries : env.Related V added) (a : Assignment) :
    Lockstep (ResolveError.Along E) (Dict.Related V) (s.addEnv label allowlist ps vars env a)
      (t.addEnv label allowlist qs others added a) := by
  have value := expandIn_lockstep h.errors h.texts (h.lookup dicts parents)
    (h.context label names s!"env.{a.name}") a.value
  unfold Setting.addEnv
  refine (value.mapError fun _ _ causes => .expansion _ _ causes).bind fun v w related => ?_
  exact h.keep label entries _ _ related

end

theorem Related.resolveScope (h : s.Related E V listed t) (d : ScopeDecl)
    (declared : ∀ name ∈ d.allowlist.getD [], listed name)
    (parents : List.Forall₂ (Scope.Related V listed) ps qs) :
    Lockstep (ResolveError.Along E) (Scope.Related V listed) (s.resolveScope d ps)
      (t.resolveScope d qs) := by
  have enclosing : ps.head?.map (·.allowlist) = qs.head?.map (·.allowlist) := by
    cases parents with
    | nil => rfl
    | cons first _ => exact congrArg some first.allowlist
  have names : ∀ name, (Allowlist.resolve d.allowlist (ps.head?.map (·.allowlist))).allows name = true →
      listed name := by
    intro name allowed
    rcases Allowlist.allows_resolve allowed with own | ⟨outer, found, inherited⟩
    · exact declared name own
    · cases parents with
      | nil => cases found
      | cons first _ =>
        cases Option.some.inj found
        exact first.names name inherited
  unfold Setting.resolveScope
  rw [← enclosing]
  refine (Lockstep.refl ResolveError.Along.same (fun _ => rfl) d.declarations).bind ?_
  rintro read _ rfl
  refine (Lockstep.foldlM (fun _ _ a dicts => h.addImport d.label names dicts a) read.imports
    Dict.related_empty).bind fun imported arrived first => ?_
  refine (Lockstep.foldlM (fun _ _ a dicts => h.addVar d.label names parents dicts a) read.vars
    first).bind fun vars others second => ?_
  refine (Lockstep.foldlM (fun _ _ a dicts => h.addEnv d.label names parents second dicts a) read.env
    Dict.related_empty).bind fun env added third => ?_
  exact .ok ⟨rfl, second, third, rfl, names⟩

end Setting
end
end ScopedCommands
