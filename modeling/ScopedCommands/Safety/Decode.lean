import ScopedCommands.Document.Decode

namespace ScopedCommands

structure SafetyRule where
  id : String
  name : String
  description : String := ""
  pattern : String
  enabled : Bool := true
deriving DecidableEq

structure RuleSet where
  name : String
  rules : List SafetyRule := []
deriving DecidableEq

namespace RuleSet

/-- The shell constructs that would start, chain or redirect a second command. -/
def standard : RuleSet := ⟨"Shell Injection", [
  ⟨"command-separator", "Command Separator", "';' sequences a second command", ";", true⟩,
  ⟨"logical-and", "AND Chaining", "'&&' chains a second command", "&&", true⟩,
  ⟨"pipe", "Pipe", "'|' or '||' pipes or chains into a second command", "\\|", true⟩,
  ⟨"background", "Background Operator", "a standalone '&' backgrounds a command",
    "(?:^|\\s)&(?:\\s|$)", true⟩,
  ⟨"subshell-substitution", "Command Substitution", "'$(' starts command substitution",
    "\\$\\(", true⟩,
  ⟨"backtick-substitution", "Backtick Substitution", "backticks start command substitution",
    "\x60", true⟩,
  ⟨"output-redirection", "Output Redirection", "'>' redirects output", ">", true⟩,
  ⟨"input-redirection", "Input Redirection", "'<' redirects input", "<", true⟩,
  ⟨"line-break", "Line Break", "a line break terminates the current command", "[\\r\\n]", true⟩]⟩

def enabled (set : RuleSet) : List SafetyRule := set.rules.filter (·.enabled)

end RuleSet

open Decoder

def SafetyRule.decode : Decoder SafetyRule := fun t doc => do
  let f ← fields ["id", "name", "description", "pattern", "enabled"] false t doc
  return {
    id := ← required text t f "id"
    name := ← required text t f "name"
    description := ← orElse text "" t f "description"
    pattern := ← required text t f "pattern"
    enabled := ← orElse boolean true t f "enabled" }

def RuleSet.decode : Decoder RuleSet := fun t doc => do
  let f ← fields ["name", "rules"] false t doc
  return ⟨← required text t f "name", ← required (list SafetyRule.decode) t f "rules"⟩

end ScopedCommands
