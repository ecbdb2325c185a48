import Mathlib.Data.List.Chain
import ScopedCommands.Proofs.Config.Names
import ScopedCommands.Proofs.Expansion.Denoted
import ScopedCommands.Proofs.Resolution.Inversion

/-!
Variables resolved one after the other against variables expanded on demand. Where references inside
a sequence point back, what a scope keeps for a name is what its text stands for when no text is
expanded beforehand. The two ways differ only in how deep an expansion goes: on demand, variables that
refer to one another in a long line are all nested.
-/
namespace ScopedCommands

open Outcome

/-- Every reference to a name of the sequence points to an entry before its own. -/
def PointsBack (l : List Assignment) : Prop :=
  ∀ i j : Fin l.length, Reference.Mentions l[i].value l[j].name → j < i

instance (l : List Assignment) : Decidable (PointsBack l) :=
  inferInstanceAs (Decidable (∀ _ _ : Fin l.length, _ → _))

theorem PointsBack.head {a b : Assignment} {later : List Assignment} (h : PointsBack (a :: later))
    (listed : b ∈ a :: later) : ¬ Reference.Mentions a.value b.name := by
  intro mentioned
  obtain ⟨j, rfl⟩ := List.mem_iff_get.1 listed
  exact absurd (h ⟨0, by simp⟩ j mentioned) (Nat.not_lt_zero j)

theorem PointsBack.tail {a : Assignment} {later : List Assignment} (h : PointsBack (a :: later)) :
    PointsBack later :=
  fun i j mentioned => Nat.lt_of_succ_lt_succ (h i.succ j.succ mentioned)

/-- Variables that refer to one another in a line, from that name on. -/
structure Trail (vars : List Assignment) (name : String) (trail : List Assignment) : Prop where
  starts : trail.head?.map (·.name) = some name
  declared : ∀ a ∈ trail, a ∈ vars
  linked : trail.IsChain fun a b => Reference.Mentions a.value b.name
  distinct : (trail.map (·.name)).Nodup

namespace Setting

def importValue (s : Setting) (a : Assignment) : String := (s.environment.get? a.value).getD ""

/-- The bindings of a scope that expands nothing beforehand: its variables have their texts, its
imports their values, and other names what the enclosing scopes have. -/
def onDemand (s : Setting) (read : Declarations) (parents : List Scope) : Lookup := fun name =>
  match Assignment.named? read.vars name with
  | some a => some (.raw a.value)
  | none =>
    match Assignment.named? read.imports name with
    | some a => some (.resolved (s.importValue a))
    | none => s.lookup .empty parents name

variable {s : Setting} {label : ScopeLabel} {allowlist : Allowlist} {parents : List Scope}
  {read : Declarations} {external : Option External} {values next last : Dict String}
  {name value : String} {a : Assignment} {later : List Assignment}

theorem addImport_eq_ok (added : s.addImport label allowlist values a = .ok next) :
    next = values.insert a.name (s.importValue a) := by
  unfold addImport at added
  split at added
  · obtain ⟨_, _, same⟩ := bind_eq_ok.1 added
    cases same
    rfl
  · cases added

theorem addVar_eq_ok (added : s.addVar label allowlist parents values a = .ok next) :
    ∃ value, Substitutes (s.lookup values parents) (some ⟨s.environment, allowlist⟩) a.value value ∧
      next = values.insert a.name value := by
  obtain ⟨value, expanded, kept⟩ := bind_eq_ok.1 added
  obtain ⟨_, _, same⟩ := bind_eq_ok.1 kept
  cases same
  refine ⟨value, ?_, rfl⟩
  have its := mapError_eq_ok.1 expanded
  unfold expandVar at its
  split at its
  · cases its
  next inner entered =>
    obtain ⟨_, _, rfl⟩ := Context.enter_eq_ok.1 entered
    exact substitutes_of_expandIn its

theorem get?_addImports {imports : List Assignment} (distinct : (imports.map (·.name)).Nodup)
    (folded : imports.foldlM (s.addImport label allowlist) values = .ok last) (name : String) :
    last.get? name =
      match Assignment.named? imports name with
      | some a => some (s.importValue a)
      | none => values.get? name := by
  induction imports generalizing values with
  | nil =>
    cases folded
    rfl
  | cons first rest ih =>
    obtain ⟨new, apart⟩ := List.nodup_cons.1 distinct
    rw [List.foldlM_cons] at folded
    obtain ⟨next, added, others⟩ := bind_eq_ok.1 folded
    cases addImport_eq_ok added
    rw [ih apart others, Dict.get?_insert, Assignment.named?_cons]
    by_cases same : first.name = name
    · subst same
      rw [Assignment.named?_eq_none_iff.2 new]
      simp only [if_true]
    · rw [if_neg same, if_neg (Ne.symm same)]

theorem lookup_insert :
    s.lookup (values.insert name value) parents = fun other =>
      if other = name then some (.resolved value) else s.lookup values parents other := by
  funext other
  unfold lookup visible
  rw [Dict.get?_insert]
  by_cases same : other = name
  · rw [if_pos same, if_pos same]
    rfl
  · rw [if_neg same, if_neg same]

theorem stands_of_lookup (h : Stands (s.lookup values parents) external name value)
    {other : Lookup} (same : other name = s.lookup values parents name) :
    Stands other external name value := by
  cases h with
  | resolved bound => exact .resolved (same.trans bound)
  | raw bound =>
    obtain ⟨own, _, impossible⟩ := Option.map_eq_some_iff.1 bound
    cases impossible
  | process unbound view allowed => exact .process (same.trans unbound) view allowed

theorem onDemand_of_mem (distinct : (read.vars.map (·.name)).Nodup) (declared : a ∈ read.vars) :
    s.onDemand read parents a.name = some (.raw a.value) := by
  unfold onDemand
  rw [Assignment.named?_of_mem distinct declared]

theorem onDemand_eq_raw {text : String} (bound : s.onDemand read parents name = some (.raw text)) :
    ∃ a ∈ read.vars, a.name = name ∧ a.value = text := by
  unfold onDemand at bound
  split at bound
  next a found =>
    cases bound
    obtain ⟨member, named⟩ := Assignment.of_named? found
    exact ⟨a, member, named, rfl⟩
  · split at bound
    · cases bound
    · obtain ⟨own, _, impossible⟩ := Option.map_eq_some_iff.1 bound
      cases impossible

/-- The values of a scope before the variables `later`: each name that was declared has one, and
names stand for what they stand for on demand. -/
structure Agrees (s : Setting) (read : Declarations) (parents : List Scope)
    (external : Option External) (later : List Assignment) (values : Dict String) : Prop where
  bound : ∀ name ∈ read.variables.map (·.name), name ∉ later.map (·.name) →
    ∃ value, values.get? name = some value
  stands : ∀ name ∉ later.map (·.name), ∀ value,
    Stands (s.lookup values parents) external name value →
      Stands (s.onDemand read parents) external name value

theorem agrees_of_imports (distinct : (read.variables.map (·.name)).Nodup)
    (folded : read.imports.foldlM (s.addImport label allowlist) .empty = .ok values) :
    s.Agrees read parents external read.vars values := by
  rw [Declarations.variables, List.map_append] at distinct
  have imported := get?_addImports (List.nodup_append.1 distinct).1 folded
  constructor
  · intro name declared early
    rw [Declarations.variables, List.map_append, List.mem_append] at declared
    obtain ⟨a, member, rfl⟩ := List.mem_map.1 (declared.resolve_right early)
    refine ⟨s.importValue a, ?_⟩
    rw [imported, Assignment.named?_of_mem (List.nodup_append.1 distinct).1 member]
  · intro name early value stands
    refine stands_of_lookup stands ?_
    unfold onDemand lookup visible
    rw [Assignment.named?_eq_none_iff.2 early, imported]
    cases Assignment.named? read.imports name <;> rfl

/-- The next variable. Its text mentions no name that is still to come, so it stands for the same on
demand. -/
theorem Agrees.addVar
    (h : s.Agrees read parents (some ⟨s.environment, allowlist⟩) (a :: later) values)
    (distinct : (read.vars.map (·.name)).Nodup) (declared : a ∈ read.vars)
    (back : PointsBack (a :: later))
    (added : s.addVar label allowlist parents values a = .ok next) :
    s.Agrees read parents (some ⟨s.environment, allowlist⟩) later next := by
  obtain ⟨own, substituted, rfl⟩ := addVar_eq_ok added
  have demanded : Substitutes (s.onDemand read parents) (some ⟨s.environment, allowlist⟩) a.value
      own := by
    apply substituted.mono
    intro name mentioned
    apply h.stands name
    intro coming
    obtain ⟨b, listed, rfl⟩ := List.mem_map.1 coming
    exact back.head listed mentioned
  have elsewhere {name : String} (other : name ≠ a.name) (early : name ∉ later.map (·.name)) :
      name ∉ (a :: later).map (·.name) := by
    rw [List.map_cons, List.mem_cons]
    exact fun coming => coming.elim other early
  constructor
  · intro name known early
    rw [Dict.get?_insert]
    by_cases here : name = a.name
    · exact ⟨own, if_pos here⟩
    · rw [if_neg here]
      exact h.bound name known (elsewhere here early)
  · intro name early value stands
    by_cases here : name = a.name
    · subst here
      have bound : s.onDemand read parents a.name = some (.raw a.value) :=
        onDemand_of_mem distinct declared
      rw [lookup_insert] at stands
      rw [stands.of_resolved (if_pos rfl)]
      exact .raw bound demanded
    · apply h.stands name (elsewhere here early)
      apply stands_of_lookup stands
      rw [lookup_insert]
      simp only [if_neg here]

theorem Agrees.addVars
    (h : s.Agrees read parents (some ⟨s.environment, allowlist⟩) later values)
    (distinct : (read.vars.map (·.name)).Nodup) (declared : ∀ a ∈ later, a ∈ read.vars)
    (back : PointsBack later)
    (folded : later.foldlM (s.addVar label allowlist parents) values = .ok last) :
    s.Agrees read parents (some ⟨s.environment, allowlist⟩) [] last := by
  induction later generalizing values with
  | nil =>
    cases folded
    exact h
  | cons a later ih =>
    rw [List.foldlM_cons] at folded
    obtain ⟨next, added, others⟩ := bind_eq_ok.1 folded
    have one := h.addVar distinct (declared a List.mem_cons_self) back added
    exact ih one (fun b member => declared b (List.mem_cons_of_mem _ member)) back.tail others

theorem variables_of_leads {raw reached : String} {path : List String}
    (way : Leads (s.onDemand read parents) raw path reached) :
    ∃ trail : List Assignment, trail.map (·.name) = path ∧ (∀ a ∈ trail, a ∈ read.vars) ∧
      trail.IsChain (fun a b => Reference.Mentions a.value b.name) ∧
      ∀ a ∈ trail.head?, Reference.Mentions raw a.name := by
  induction way with
  | here => exact ⟨[], rfl, nofun, .nil, nofun⟩
  | through mentioned bound _ ih =>
    obtain ⟨trail, names, declared, linked, enters⟩ := ih
    obtain ⟨a, member, rfl, rfl⟩ := onDemand_eq_raw bound
    refine ⟨a :: trail, by rw [List.map_cons, names], ?_, ?_, ?_⟩
    · intro b listed
      rcases List.mem_cons.1 listed with rfl | after
      · exact member
      · exact declared b after
    · exact List.isChain_cons.2 ⟨enters, linked⟩
    · rintro b ⟨⟩
      exact mentioned

theorem trail_of_leads (word : Reference.IsWord name) {reached : String} {path : List String}
    (way : Leads (s.onDemand read parents) (Reference.written name) path reached)
    (distinct : path.Nodup) (some : path ≠ []) :
    ∃ trail, Trail read.vars name trail ∧ trail.length = path.length := by
  obtain ⟨trail, names, declared, linked, enters⟩ := variables_of_leads way
  refine ⟨trail, ⟨?_, declared, linked, names ▸ distinct⟩, ?_⟩
  · cases trail with
    | nil => exact absurd names.symm some
    | cons a rest =>
      have mentioned := enters a rfl
      rw [word.mentionsOnly_written.mentions_iff] at mentioned
      exact congrArg Option.some mentioned
  · rw [← names, List.length_map]

/-- A scope keeps for each of its names what an expansion on demand gives, unless that one meets more
variables in a line than may be nested. -/
theorem resolveScope_eq_onDemand {d : ScopeDecl} {x : Scope} (parsed : d.declarations = .ok read)
    (back : PointsBack read.vars) (resolved : s.resolveScope d parents = .ok x)
    (name : String) (declared : name ∈ read.variables.map (·.name)) (label : ScopeLabel)
    (field : String) :
    ∃ value, x.vars.get? name = some value ∧
      ((expand (s.onDemand read parents) (Reference.written name)
          (s.context label x.allowlist field)).1 = .ok value ∨
        ∃ deepest, (expand (s.onDemand read parents) (Reference.written name)
            (s.context label x.allowlist field)).1 = .error (.tooDeep deepest Context.depthLimit) ∧
          ∃ trail, Trail read.vars name trail ∧ Context.depthLimit < trail.length) := by
  obtain ⟨distinct, words⟩ := ScopeDecl.variables_of_declarations parsed
  obtain ⟨again, imported, vars, env, parsed', first, second, _, rfl⟩ := resolveScope_eq_ok.1 resolved
  rw [parsed] at parsed'
  cases parsed'
  have apart : (read.vars.map (·.name)).Nodup := by
    rw [Declarations.variables, List.map_append] at distinct
    exact (List.nodup_append.1 distinct).2.1
  have all := (agrees_of_imports distinct first).addVars apart (fun _ member => member) back second
  obtain ⟨value, kept⟩ := all.bound name declared (by simp)
  have word : Reference.IsWord name := by
    obtain ⟨a, member, rfl⟩ := List.mem_map.1 declared
    exact words a member
  have bound : s.lookup vars parents name = some (.resolved value) := by
    simp [lookup, visible, kept]
  have stands := all.stands name (by simp) value (.resolved bound)
  refine ⟨value, kept, ?_⟩
  rcases (word.substitutes_written stands).expandIn_or_tooDeep label.text field with
    given | ⟨path, deepest, text, way, differ, full, refused⟩
  · exact .inl given
  · refine .inr ⟨deepest, refused, ?_⟩
    obtain ⟨trail, walks, long⟩ := trail_of_leads word way differ (by simp)
    refine ⟨trail, walks, ?_⟩
    rw [long, List.length_append, full]
    exact Nat.lt_succ_self _

end Setting

def ScopeDecl.logging : ScopeDecl where
  label := .group "logging"
  allowlist := some ["USER", "TERM"]
  imports := ["WHO=USER"]
  vars := ["HOME=%{ROOT}/%{WHO}", "LOG=%{HOME}/%{TERM}.log"]

def Setting.terminal : Setting where
  safeguard := ⟨[]⟩
  environment := Dict.ofList [("USER", "me"), ("TERM", "xterm")]
  automatic := .empty

def Scope.outside : Scope where
  label := .globals
  vars := Dict.ofList [("ROOT", "/home"), ("WHO", "nobody")]
  env := .empty
  allowlist := .resolve none none

namespace Setting

open ScopeDecl (logging)
open Scope (outside)

theorem resolveScope_eq_onDemand_logging :
    ∃ read x, logging.declarations = .ok read ∧ PointsBack read.vars ∧
      terminal.resolveScope logging [outside] = .ok x ∧ x.vars.get? "LOG" = some "/home/me/xterm.log" ∧
      ((expand (terminal.onDemand read [outside]) (Reference.written "LOG")
          (terminal.context .globals x.allowlist "cmd")).1 = .ok "/home/me/xterm.log" ∨
        ∃ deepest, (expand (terminal.onDemand read [outside]) (Reference.written "LOG")
            (terminal.context .globals x.allowlist "cmd")).1 =
            .error (.tooDeep deepest Context.depthLimit) ∧
          ∃ trail, Trail read.vars "LOG" trail ∧ Context.depthLimit < trail.length) := by
  let read : Declarations :=
    ⟨[⟨"WHO", "USER"⟩], [⟨"HOME", "%{ROOT}/%{WHO}"⟩, ⟨"LOG", "%{HOME}/%{TERM}.log"⟩], []⟩
  let x : Scope := ⟨.group "logging",
    Dict.ofList [("WHO", "me"), ("HOME", "/home/me"), ("LOG", "/home/me/xterm.log")], .empty,
    .resolve (some ["USER", "TERM"]) (some outside.allowlist)⟩
  have parsed : logging.declarations = .ok read := toOption_eq_some.1 (by decide +kernel)
  have back : PointsBack read.vars := by decide +kernel
  have resolved : terminal.resolveScope logging [outside] = .ok x :=
    toOption_eq_some.1 (by decide +kernel)
  obtain ⟨value, kept, given⟩ :=
    resolveScope_eq_onDemand parsed back resolved "LOG" (by decide) .globals "cmd"
  have known : x.vars.get? "LOG" = some "/home/me/xterm.log" := by decide +kernel
  rw [kept] at known
  cases known
  exact ⟨read, x, parsed, back, resolved, kept, given⟩

-- A reference that points ahead is resolved outside, but followed on demand.
example :
    let s := terminal
    let read : Declarations := ⟨[], [⟨"PATH", "%{ROOT}/bin"⟩, ⟨"ROOT", "/opt"⟩], []⟩
    let d : ScopeDecl := { label := .globals, vars := ["PATH=%{ROOT}/bin", "ROOT=/opt"] }
    ¬ PointsBack read.vars ∧
      (s.resolveScope d [outside]).toOption.bind (·.vars.get? "PATH") = some "/home/bin" ∧
      (expand (s.onDemand read [outside]) "%{PATH}" { scope := "global" }).1.toOption =
        some "/opt/bin" := by
  decide +kernel

end Setting
end ScopedCommands
