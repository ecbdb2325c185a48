import ScopedCommands.Proofs.Lockstep.Run

/-!
What a configuration may not read of the process environment has no influence on its resolution. Two
environments that agree on every name of every allowlist give the same scopes, commands and
warnings. All that a denied name can show is whether it is set, and only in the error of the text
that refers to it.
-/
namespace ScopedCommands

inductive ExpansionError.Alike : ExpansionError → ExpansionError → Prop where
  | same (e : ExpansionError) : Alike e e
  | setFirst (scope user name : String) : Alike (.notAllowed scope user name) (.undefined name)
  | setSecond (scope user name : String) : Alike (.undefined name) (.notAllowed scope user name)

/-- Errors of one place that differ at most in whether a denied name is set. -/
structure ResolveError.Alike (e f : ResolveError) : Prop where
  scope : e.scope? = f.scope?
  field : e.field? = f.field?
  cause : e.Along ExpansionError.Alike f

structure Resolution.Alike (x y : Resolution) : Prop where
  globals : x.globals = y.globals
  groups : x.groups = y.groups
  warnings : x.warnings = y.warnings
  failures : List.Forall₂ ResolveError.Alike x.failures y.failures

theorem ExpansionError.alike_denial (d e : Dict String) (scope user name : String) :
    (denial d scope user name).Alike (denial e scope user name) := by
  unfold denial
  split
  · split
    · exact .same _
    · exact .setFirst scope user name
  · split
    · exact .setSecond scope user name
    · exact .same _

theorem ResolveError.Along.alike {e f : ResolveError} (h : e.Along ExpansionError.Alike f) :
    e.Alike f :=
  ⟨h.place.1, h.place.2, h⟩

section

variable {listed : String → Prop}

theorem Scope.Related.eq {x y : Scope} (h : x.Related (· = ·) listed y) : x = y := by
  cases x
  cases y
  rw [Scope.mk.injEq]
  exact ⟨h.label, Dict.eq_of_related h.vars, Dict.eq_of_related h.env, h.allowlist⟩

theorem eq_of_optionRel {α : Type} {x y : Option α} (h : Option.Rel (· = ·) x y) : x = y := by
  cases h with
  | none => rfl
  | some same => rw [same]

theorem eq_of_forall₂ {α : Type} {R : α → α → Prop} (eq : ∀ a b, R a b → a = b) {l m : List α}
    (h : List.Forall₂ R l m) : l = m := by
  have same := h.imp eq
  rwa [List.forall₂_eq_eq_eq] at same

theorem ResolvedCommand.Related.eq {x y : ResolvedCommand} (h : x.Related (· = ·) y) : x = y := by
  have args := eq_of_forall₂ (fun _ _ same => same) h.args
  cases x
  cases y
  rw [ResolvedCommand.mk.injEq]
  exact ⟨h.group, h.name, h.cmd, args, Dict.eq_of_related h.env, eq_of_optionRel h.workdir, h.risk,
    h.template⟩

theorem ResolvedGroup.Related.eq {x y : ResolvedGroup} (h : x.Related (· = ·) listed y) :
    x = y := by
  have commands := eq_of_forall₂ (fun _ _ related => related.eq) h.commands
  cases x
  cases y
  rw [ResolvedGroup.mk.injEq]
  exact ⟨h.name, h.scope.eq, eq_of_optionRel h.workdir, commands⟩

theorem Resolution.Related.alike {x y : Resolution}
    (h : x.Related ExpansionError.Alike (· = ·) listed y) : x.Alike y :=
  ⟨h.globals.eq, eq_of_forall₂ (fun _ _ related => related.eq) h.groups, h.warnings,
    h.failures.imp fun _ _ along => along.alike⟩

theorem Setting.related_of_agree (safeguard : Safeguard) (automatic : Dict String)
    {first second : Dict String}
    (agree : ∀ name, listed name → first.get? name = second.get? name) :
    Setting.Related ExpansionError.Alike (· = ·) listed ⟨safeguard, first, automatic⟩
      ⟨safeguard, second, automatic⟩ where
  errors := .same
  texts := ⟨fun _ => rfl, fun h k => by rw [h, k]⟩
  checks _ _ _ same := by rw [same]
  automatic := Dict.related_refl (fun _ => rfl) automatic
  isSet name named := by simp only [Dict.contains, agree name named]
  reads name named := by rw [agree name named]
  denies := ExpansionError.alike_denial first second

end

namespace Config

/-- Environments that agree on all listed names cannot be told apart by a run, but for the way in
which a denied name is reported. -/
theorem resolve_noninterference (c : Config) (templates : Registry) (o : ResolveOptions)
    (first second : Dict String)
    (agree : ∀ name ∈ c.listed, first.get? name = second.get? name) :
    Lockstep ResolveError.Alike Resolution.Alike
      (c.resolve templates { o with environment := first })
      (c.resolve templates { o with environment := second }) := by
  have settings : Lockstep (ResolveError.Along ExpansionError.Alike)
      (Setting.Related ExpansionError.Alike (· = ·) (· ∈ c.listed))
      (setting { o with environment := first }) (setting { o with environment := second }) := by
    unfold setting
    cases Safeguard.compile o.rules o.matcher with
    | error e => exact .error (.same _)
    | ok safeguard => exact .ok (Setting.related_of_agree safeguard o.automatic agree)
  have runs := resolve_lockstep c templates settings rfl rfl
  exact runs.imp (fun _ _ along => along.alike) fun _ _ related => related.alike

def homeOnly : Config where
  globals := { allowlist := some ["HOME"] }
  groups := [{
    name := "tools"
    commands := [
      { name := "allowed", cmd := some "%{BASE}/bin", imports := ["BASE=HOME"] },
      { name := "denied", cmd := some "%{TOKEN}" }] }]

theorem resolve_noninterference_homeOnly :
    let first := Dict.ofList [("HOME", "/root")]
    let second := first.insert "TOKEN" "secret"
    (∀ name ∈ homeOnly.listed, first.get? name = second.get? name) ∧
      Lockstep ResolveError.Alike Resolution.Alike
        (homeOnly.resolve .empty { keepGoing := true, environment := first })
        (homeOnly.resolve .empty { keepGoing := true, environment := second }) := by
  intro first second
  have agree : ∀ name ∈ homeOnly.listed, first.get? name = second.get? name := by decide
  exact ⟨agree, homeOnly.resolve_noninterference .empty { keepGoing := true } _ _ agree⟩

-- A denied name shows whether it is set, so the failures need not be equal.
example :
    (homeOnly.resolve .empty { keepGoing := true }).toOption.map (·.failures) ≠
      (homeOnly.resolve .empty
        { keepGoing := true
          environment := Dict.ofList [("TOKEN", "secret")] }).toOption.map (·.failures) := by
  decide +kernel

end Config
end ScopedCommands
