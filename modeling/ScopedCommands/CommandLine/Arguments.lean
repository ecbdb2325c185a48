import ScopedCommands.Dict

/-!
The arguments of the program: options before and after the name of one of its actions. Options are
read from left to right, and the first fault, or the first option that asks for the version or for
help, ends the reading.
-/
namespace ScopedCommands.CommandLine

inductive Opt
  | verbose
  | quiet
  | config
  | templates
  | group
  | format
  | keepGoing
  | showSecrets
  | help
  | version
deriving DecidableEq

namespace Opt

def short : Opt → Option Char
  | verbose => some 'v'
  | quiet => some 'q'
  | config => some 'c'
  | templates => some 't'
  | group => some 'g'
  | format => some 'f'
  | help => some 'h'
  | version => some 'V'
  | keepGoing | showSecrets => none

def long : Opt → String
  | verbose => "verbose"
  | quiet => "quiet"
  | config => "config"
  | templates => "templates"
  | group => "group"
  | format => "format"
  | keepGoing => "keep-going"
  | showSecrets => "show-secrets"
  | help => "help"
  | version => "version"

def takesValue : Opt → Bool
  | config | templates | group | format => true
  | _ => false

def accepts (o : Opt) (value : String) : Bool :=
  match o with
  | config | templates => value != ""
  | format => value = "text" || value = "json"
  | _ => true

end Opt

inductive Action
  | resolve
  | validate
  | templates
deriving DecidableEq

namespace Action

def name : Action → String
  | resolve => "resolve"
  | validate => "validate"
  | templates => "templates"

def ofName? (word : String) : Option Action :=
  [resolve, validate, templates].find? (·.name = word)

def options : Action → List Opt
  | resolve => [.config, .templates, .group, .format, .keepGoing, .showSecrets]
  | validate => [.config, .templates]
  | templates => [.templates]

end Action

def commonOptions : List Opt := [.verbose, .quiet, .help, .version]

/-- Why reading ended before its time. -/
inductive Stop
  | usage
  | help
  | version
deriving DecidableEq

abbrev Given := List (Opt × String)

/-- No option is given twice on one level. -/
def give (given : Given) (o : Opt) (value : String) : Except Stop Given :=
  match o with
  | .help => .error .help
  | .version => .error .version
  | _ =>
    if given.any (·.1 = o) ∨ !o.accepts value then .error .usage else .ok (given ++ [(o, value)])

/-- Options by letter in one word. The last may leave its value to the next word. -/
def readCluster (known : List Opt) (given : Given) : List Char → Except Stop (Given × Option Opt)
  | [] => .ok (given, none)
  | c :: rest =>
    match known.find? (·.short = some c) with
    | none => .error .usage
    | some o =>
      if o.takesValue then
        match rest with
        | [] => .ok (given, some o)
        | '=' :: value => (give given o (String.ofList value)).map (·, none)
        | value => (give given o (String.ofList value)).map (·, none)
      else
        match give given o "" with
        | .error stop => .error stop
        | .ok given => readCluster known given rest

def readLong (known : List Opt) (given : Given) (word : List Char) :
    Except Stop (Given × Option Opt) :=
  let name := String.ofList (word.takeWhile (· ≠ '='))
  let value := word.dropWhile (· ≠ '=')
  match known.find? (·.long = name) with
  | none => .error .usage
  | some o =>
    match o.takesValue, value with
    | true, [] => .ok (given, some o)
    | true, _ :: value => (give given o (String.ofList value)).map (·, none)
    | false, [] => (give given o "").map (·, none)
    | false, _ :: _ => .error .usage

/-- A word that starts with a hyphen is an option, but for the hyphen alone. -/
def looksLikeOption (word : List Char) : Bool :=
  match word with
  | '-' :: _ :: _ => true
  | _ => false

/-- Reads options up to the first other word, which is given back with all after it. -/
def readOptions (known : List Opt) (given : Given) (waiting : Option Opt) :
    List String → Except Stop (Given × List String)
  | [] => if waiting.isSome then .error .usage else .ok (given, [])
  | word :: rest =>
    let cs := word.toList
    match waiting with
    | some o =>
      if looksLikeOption cs then .error .usage
      else match give given o word with
        | .error stop => .error stop
        | .ok given => readOptions known given none rest
    | none =>
      match cs with
      | ['-', '-'] => if rest = [] then .ok (given, []) else .error .usage
      | '-' :: '-' :: name =>
        match readLong known given name with
        | .error stop => .error stop
        | .ok (given, waiting) => readOptions known given waiting rest
      | '-' :: c :: more =>
        match readCluster known given (c :: more) with
        | .error stop => .error stop
        | .ok (given, waiting) => readOptions known given waiting rest
      | _ => .ok (given, word :: rest)

def Given.value? (given : Given) (o : Opt) : Option String := List.lookup o given

def Given.has (given : Given) (o : Opt) : Bool := given.any (·.1 = o)

structure ResolveRequest where
  config : String
  templates : Option String
  group : Option String
  asJson : Bool
  keepGoing : Bool
  showSecrets : Bool
deriving DecidableEq

inductive Request
  | resolve (r : ResolveRequest)
  | validate (config : String) (templates : Option String)
  | templates (directory : String)
  | version (program : String)
  | help
deriving DecidableEq

def programName : String := "cmdscope"

def configVariable : String := "CMDSCOPE_CONFIG"

def configPath (environment : Dict String) (given : Given) : Option String :=
  match given.value? .config with
  | some path => some path
  | none => (environment.get? configVariable).filter (· != "")

def ofGiven (environment : Dict String) (given : Given) : Action → Option Request
  | .resolve => (configPath environment given).map fun config => .resolve {
      config
      templates := given.value? .templates
      group := given.value? .group
      asJson := given.value? .format = some "json"
      keepGoing := given.has .keepGoing
      showSecrets := given.has .showSecrets }
  | .validate => (configPath environment given).map fun config =>
      .validate config (given.value? .templates)
  | .templates => (given.value? .templates).map .templates

/-- A request, or nothing for arguments that make no sense. -/
def parse (environment : Dict String) (args : List String) : Option Request :=
  match readOptions commonOptions [] none args with
  | .error .usage => none
  | .error .help => some .help
  | .error .version => some (.version programName)
  | .ok (_, []) => none
  | .ok (_, word :: rest) =>
    match Action.ofName? word with
    | none => if word = "help" then some .help else none
    | some action =>
      match readOptions (action.options ++ commonOptions) [] none rest with
      | .error .usage => none
      | .error .help => some .help
      | .error .version => some (.version s!"{programName}-{action.name}")
      | .ok (given, []) => ofGiven environment given action
      | .ok (_, _ :: _) => none

end ScopedCommands.CommandLine
