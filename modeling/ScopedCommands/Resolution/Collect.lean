import ScopedCommands.Resolution.Error

/-!
Running one step for each of several declarations. A step gives warnings and failures along the
way and ends with a value or an error. Going on after an error turns it into one more failure;
otherwise the first error ends the run.
-/
namespace ScopedCommands

inductive Warning
  | unusedParameter (scope template param : String)
  | emptyGlobalAllowlist
  | redundantAllowlist (scope : String)
  | unsetVariable (scope name : String)
deriving DecidableEq

def Warning.message : Warning → String
  | .unusedParameter scope template param =>
    s!"{scope}: parameter '{param}' is not used by template '{template}'"
  | .emptyGlobalAllowlist =>
    "global: env_allowlist is empty; all process environment references are rejected"
  | .redundantAllowlist scope =>
    s!"{scope}: env_allowlist is identical to the inherited list and can be removed"
  | .unsetVariable scope name =>
    s!"{scope}: allowlisted variable '{name}' is not set in the process environment"

structure Findings where
  warnings : List Warning := []
  failures : List ResolveError := []
deriving DecidableEq

namespace Findings

instance : Append Findings := ⟨fun a b => ⟨a.warnings ++ b.warnings, a.failures ++ b.failures⟩⟩

def warn (w : Warning) : Findings := { warnings := [w] }

def fail (e : ResolveError) : Findings := { failures := [e] }

@[simp] theorem warnings_append (a b : Findings) :
    (a ++ b).warnings = a.warnings ++ b.warnings := rfl

@[simp] theorem failures_append (a b : Findings) :
    (a ++ b).failures = a.failures ++ b.failures := rfl

theorem append_of_failures_eq_nil {a : Findings} (none : a.failures = []) (b : Findings) :
    a ++ b = ⟨a.warnings ++ b.warnings, b.failures⟩ := by
  obtain ⟨warnings, failures⟩ := a
  cases none
  rfl

@[simp] theorem failures_fail (e : ResolveError) : (fail e).failures = [e] := rfl

@[simp] theorem failures_warn (w : Warning) : (warn w).failures = [] := rfl

end Findings

structure Step (α : Type) where
  findings : Findings := {}
  outcome : Except ResolveError α

namespace Step

variable {α β : Type}

def ofExcept (outcome : Except ResolveError α) : Step α := ⟨{}, outcome⟩

/-- What was found before an error stays found. -/
def bind (s : Step α) (next : α → Step β) : Step β :=
  match s.outcome with
  | .error e => ⟨s.findings, .error e⟩
  | .ok a =>
    let after := next a
    ⟨s.findings ++ after.findings, after.outcome⟩

instance : Monad Step where
  pure a := ⟨{}, .ok a⟩
  bind := bind

def note (findings : Findings) : Step Unit := ⟨findings, .ok ()⟩

def collect (keepGoing : Bool) (one : α → Step β) : List α → Step (List β)
  | [] => pure []
  | a :: rest =>
    let first := one a
    match first.outcome with
    | .ok b =>
      let later := collect keepGoing one rest
      ⟨first.findings ++ later.findings, later.outcome.map (b :: ·)⟩
    | .error e =>
      if keepGoing then
        let later := collect keepGoing one rest
        ⟨first.findings ++ Findings.fail e ++ later.findings, later.outcome⟩
      else ⟨first.findings, .error e⟩

end Step
end ScopedCommands
