import ScopedCommands.Text.Basic
import ScopedCommands.Text.Quoted

namespace ScopedCommands

inductive RiskLevel
  | low
  | medium
  | high
deriving DecidableEq

inductive RiskFault
  | critical
  | unknown
deriving DecidableEq

namespace RiskLevel

def rank : RiskLevel → Nat
  | low => 0
  | medium => 1
  | high => 2

instance : LE RiskLevel := ⟨fun a b => a.rank ≤ b.rank⟩
instance (a b : RiskLevel) : Decidable (a ≤ b) := inferInstanceAs (Decidable (a.rank ≤ b.rank))
instance : Inhabited RiskLevel := ⟨low⟩

def label : RiskLevel → String
  | low => "low"
  | medium => "medium"
  | high => "high"

/-- Surrounding white space and letter case do not count. Folding ASCII letters is enough: outside
ASCII only the Kelvin sign folds to a single ASCII letter, and no level has a `k`. -/
def ofText (value : String) : Except RiskFault RiskLevel :=
  let word := String.ofList ((Text.trimChars value.toList).map Char.toLower)
  if word = "low" then .ok low
  else if word = "medium" then .ok medium
  else if word = "high" then .ok high
  else if word = "critical" then .error .critical
  else .error .unknown

end RiskLevel

def RiskFault.message : RiskFault → String
  | .critical => "'critical' is reserved and cannot be declared"
  | .unknown => "expected one of: low, medium, high"

structure RiskError where
  value : String
  fault : RiskFault
deriving DecidableEq

def RiskError.message (e : RiskError) : String :=
  s!"Invalid risk level {Text.quote e.value}: {e.fault.message}"

def RiskLevel.parse (value : String) : Except RiskError RiskLevel :=
  match ofText value with
  | .ok level => .ok level
  | .error fault => .error ⟨value, fault⟩

def RiskLevel.parseDeclared : Option String → Except RiskError (Option RiskLevel)
  | none => .ok none
  | some value => (parse value).map some

end ScopedCommands
