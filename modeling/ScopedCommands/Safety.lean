import ScopedCommands.Pattern.Parse
import ScopedCommands.Safety.Decode

/-!
Values checked against a set of rules. The enabled rules are tried in order and the first that
applies is reported. An error names the value but never shows it.
-/
namespace ScopedCommands

inductive PolicyError
  | unsafeValue (name rule description : String)
  | badPattern (rule : String)
deriving DecidableEq

def PolicyError.message : PolicyError → String
  | .unsafeValue name rule description =>
    s!"Unsafe value for {name}: matches rule '{rule}' ({description})"
  | .badPattern rule => s!"Invalid rule pattern in '{rule}': "

/-- What a written pattern says of a text, if it is a pattern at all. -/
abbrev Matcher := String → Option (String → Bool)

def Pattern.matcher : Matcher := fun written => (parse written).map occurs

structure Safeguard where
  rules : List (SafetyRule × (String → Bool))

namespace Safeguard

def compileRule (matcher : Matcher) (rule : SafetyRule) :
    Except PolicyError (SafetyRule × (String → Bool)) :=
  match matcher rule.pattern with
  | none => .error (.badPattern rule.id)
  | some occurs => .ok (rule, occurs)

def compile (set : RuleSet) (matcher : Matcher := Pattern.matcher) :
    Except PolicyError Safeguard :=
  (set.enabled.mapM (compileRule matcher)).map Safeguard.mk

def violated (g : Safeguard) (value : String) : Option SafetyRule :=
  (g.rules.find? fun r => r.2 value).map (·.1)

def check (g : Safeguard) (name value : String) : Except PolicyError Unit :=
  match g.violated value with
  | none => .ok ()
  | some rule => .error (.unsafeValue name rule.id rule.description)

end Safeguard
end ScopedCommands
