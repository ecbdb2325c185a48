import ScopedCommands.Config
import ScopedCommands.Name
import ScopedCommands.Risk

/-!
Declarations inside a scope: the `NAME=VALUE` entries of `from_env`, `vars` and `env`, and the
fields that an inline command and a template call may have.

`from_env` and `vars` of one scope share their names, so reading a sequence takes the names
already declared and gives back the set as it stands afterwards, also when an entry is refused.
-/
namespace ScopedCommands

inductive DeclarationError
  | badName (cause : NameError)
  | malformed (field entry : String)
  | duplicateVariable (field name : String)
  | duplicateKey (field key : String)
  | templateConflict (group command template field : String)
  | missingField (group command field : String)
  | badRisk (cause : RiskError)
deriving DecidableEq

def DeclarationError.message : DeclarationError → String
  | .badName cause => cause.message
  | .malformed field entry =>
    s!"Malformed declaration in {field}: {Text.quote entry} (expected NAME=VALUE)"
  | .duplicateVariable field name => s!"Duplicate variable {Text.quote name} in {field}"
  | .duplicateKey field key => s!"Duplicate env key {Text.quote key} in {field}"
  | .templateConflict group command template field =>
    s!"group[{group}] command[{command}]: cannot specify both \"template\" ({template}) and "
      ++ Text.quote field
  | .missingField group command field =>
    s!"group[{group}] command[{command}]: required field {Text.quote field} is missing"
  | .badRisk cause => cause.message

structure Assignment where
  name : String
  value : String
deriving DecidableEq

namespace Assignment

def text (a : Assignment) : String := a.name ++ "=" ++ a.value

def split : List Char → Option (List Char × List Char)
  | [] => none
  | c :: rest =>
    if c = '=' then some ([], rest)
    else (split rest).map fun p => (c :: p.1, p.2)

def parse (entry : String) : Option Assignment :=
  (split entry.toList).map fun p => ⟨String.ofList p.1, String.ofList p.2⟩

theorem split_append {name : List Char} (value : List Char) (free : '=' ∉ name) :
    split (name ++ '=' :: value) = some (name, value) := by
  induction name with
  | nil => rfl
  | cons c name ih =>
    rw [List.mem_cons, not_or] at free
    rw [List.cons_append, split, if_neg (Ne.symm free.1), ih free.2]
    rfl

theorem split_eq_some_iff {cs name value : List Char} :
    split cs = some (name, value) ↔ '=' ∉ name ∧ cs = name ++ '=' :: value := by
  constructor
  · intro h
    induction cs generalizing name with
    | nil => cases h
    | cons c rest ih =>
      rw [split] at h
      split at h
      next sign =>
        cases h
        exact ⟨List.not_mem_nil, congrArg (· :: value) sign⟩
      next other =>
        obtain ⟨p, tail, same⟩ := Option.map_eq_some_iff.1 h
        obtain ⟨rfl, rfl⟩ := Prod.mk.inj same
        obtain ⟨free, whole⟩ := ih tail
        rw [List.mem_cons, not_or]
        exact ⟨⟨Ne.symm other, free⟩, congrArg (c :: ·) whole⟩
  · rintro ⟨free, rfl⟩
    exact split_append value free

theorem split_eq_none_iff {cs : List Char} : split cs = none ↔ '=' ∉ cs := by
  induction cs with
  | nil => simp [split]
  | cons c cs ih =>
    rw [split, List.mem_cons, not_or, ← ih]
    by_cases sign : c = '='
    · simp [sign]
    · simp [sign, Ne.symm sign]

theorem parse_eq_none_iff {entry : String} : parse entry = none ↔ '=' ∉ entry.toList := by
  rw [parse, Option.map_eq_none_iff, split_eq_none_iff]

theorem parse_eq_some_iff {entry : String} {a : Assignment} :
    parse entry = some a ↔ '=' ∉ a.name.toList ∧ entry = a.text := by
  have texts : entry = a.text ↔ entry.toList = a.name.toList ++ '=' :: a.value.toList := by
    rw [← String.toList_inj, text]
    simp
  rw [texts, ← split_eq_some_iff, parse, Option.map_eq_some_iff]
  constructor
  · rintro ⟨p, found, rfl⟩
    rw [String.toList_ofList, String.toList_ofList]
    exact found
  · intro found
    refine ⟨_, found, ?_⟩
    rw [String.ofList_toList, String.ofList_toList]

end Assignment

namespace Declaration

abbrev Reader := String → Except DeclarationError Assignment

def checkName (name : String) : Except DeclarationError Unit :=
  (Name.check name).mapError .badName

def readVariable (field : String) : Reader := fun entry =>
  match Assignment.parse entry with
  | none => .error (.malformed field entry)
  | some a => (checkName a.name).map fun _ => a

def readImport (field : String) : Reader := fun entry =>
  match readVariable field entry with
  | .error e => .error e
  | .ok a => ((Name.checkSyntax a.value).mapError .badName).map fun _ => a

def readAll (read : Reader) (duplicate : String → DeclarationError) (taken : NameSet) :
    List String → Except DeclarationError (List Assignment) × NameSet
  | [] => (.ok [], taken)
  | entry :: rest =>
    match read entry with
    | .error e => (.error e, taken)
    | .ok a =>
      if taken.contains a.name then (.error (duplicate a.name), taken)
      else
        let tail := readAll read duplicate (taken.add a.name) rest
        (tail.1.map (a :: ·), tail.2)

def vars (field : String) (taken : NameSet) (entries : List String) :
    Except DeclarationError (List Assignment) × NameSet :=
  readAll (readVariable field) (.duplicateVariable field) taken entries

def imports (field : String) (taken : NameSet) (entries : List String) :
    Except DeclarationError (List Assignment) × NameSet :=
  readAll (readImport field) (.duplicateVariable field) taken entries

/-- Env keys are a namespace of their own. -/
def environment (field : String) (entries : List String) :
    Except DeclarationError (List Assignment) :=
  (readAll (readVariable field) (.duplicateKey field) .empty entries).1

end Declaration

/-- An inline command has a command text; a template call has no command, arguments or env of its
own. -/
def CommandDecl.checkFields (group : String) (c : CommandDecl) : Except DeclarationError Unit :=
  match c.template with
  | none =>
    if c.cmd.getD "" = "" then .error (.missingField group c.name "cmd") else .ok ()
  | some template =>
    let conflict := fun field => .error (.templateConflict group c.name template field)
    if c.cmd.isSome then conflict "cmd"
    else if c.args.isSome then conflict "args"
    else if c.env.isSome then conflict "env"
    else .ok ()

end ScopedCommands
