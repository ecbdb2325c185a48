import ScopedCommands.Proofs.Config.Reading
import ScopedCommands.Proofs.Dict
import ScopedCommands.Proofs.Resolution.OnDemand

/-!
The entries of a scope as one sequence: imports, variables and env entries, each with the values that
are kept before it. A scope that is read either keeps a value for every entry or stops at the first
one that gives none.
-/
namespace ScopedCommands

open Outcome

inductive ScopeEntry
  | imported (a : Assignment)
  | var (a : Assignment)
  | env (a : Assignment)
deriving DecidableEq

namespace ScopeEntry

def assignment : ScopeEntry → Assignment
  | imported a | var a | env a => a

def field : ScopeEntry → String
  | imported a => s!"from_env.{a.name}"
  | var a => s!"vars.{a.name}"
  | env a => s!"env.{a.name}"

def varName? : ScopeEntry → Option String
  | imported a | var a => some a.name
  | env _ => none

def envKey? : ScopeEntry → Option String
  | imported _ | var _ => none
  | env a => some a.name

end ScopeEntry

def Declarations.entries (read : Declarations) : List ScopeEntry :=
  read.imports.map .imported ++ (read.vars.map .var ++ read.env.map .env)

structure Kept where
  vars : Dict String := .empty
  env : Dict String := .empty
deriving DecidableEq

def Kept.insert (kept : Kept) (x : ScopeEntry) (value : String) : Kept :=
  match x with
  | .imported a | .var a => { kept with vars := kept.vars.insert a.name value }
  | .env a => { kept with env := kept.env.insert a.name value }

def ScopeDecl.effective (d : ScopeDecl) (parents : List Scope) : Allowlist :=
  .resolve d.allowlist (parents.head?.map (·.allowlist))

namespace Setting

section

variable (s : Setting) (label : ScopeLabel) (allowlist : Allowlist) (parents : List Scope)

/-- The value of an entry before it is checked. An import has what the environment has if its list
allows that, other entries what their text expands to. -/
def entryValue (kept : Kept) : ScopeEntry → Except ExpansionError String
  | .imported a =>
    if allowlist.allows a.value then .ok (s.importValue a)
    else .error (.notAllowed label.text a.name a.value)
  | .var a => s.expandVar label allowlist parents kept.vars a
  | .env a =>
    expandIn (s.context label allowlist s!"env.{a.name}") (s.lookup kept.vars parents) a.value

/-- Why there is no value to keep for an entry. -/
inductive Stops (kept : Kept) (x : ScopeEntry) : ResolveError → Prop where
  | valueless {cause : ExpansionError}
      (failed : s.entryValue label allowlist parents kept x = .error cause) :
      Stops kept x (.expansion label.text x.field cause)
  | refused {value : String} {cause : PolicyError}
      (has : s.entryValue label allowlist parents kept x = .ok value)
      (unsafely : s.safeguard.check x.assignment.name value = .error cause) :
      Stops kept x (.unsafeValue label.text x.field cause)

/-- Entries that one after another have values, each safe and kept for the next ones. -/
inductive Keeps : Kept → List ScopeEntry → Kept → Prop where
  | nil (kept : Kept) : Keeps kept [] kept
  | cons {kept last : Kept} {x : ScopeEntry} {rest : List ScopeEntry} {value : String}
      (has : s.entryValue label allowlist parents kept x = .ok value)
      (safely : s.safeguard.check x.assignment.name value = .ok ())
      (later : Keeps (kept.insert x value) rest last) : Keeps kept (x :: rest) last

def keep (kept : Kept) (x : ScopeEntry) : Except ResolveError Kept := do
  let value ← (s.entryValue label allowlist parents kept x).mapError (.expansion label.text x.field)
  s.checkSafe label x.field x.assignment.name value
  return kept.insert x value

end

variable {s : Setting} {label : ScopeLabel} {allowlist : Allowlist} {parents : List Scope}
  {kept next last : Kept} {x : ScopeEntry} {l later : List ScopeEntry} {e : ResolveError}

theorem keep_eq_ok :
    s.keep label allowlist parents kept x = .ok next ↔
      ∃ value, s.entryValue label allowlist parents kept x = .ok value ∧
        s.safeguard.check x.assignment.name value = .ok () ∧ kept.insert x value = next := by
  simp only [keep, checkSafe, bind_eq_ok, mapError_eq_ok]
  constructor
  · rintro ⟨value, has, _, safely, same⟩
    exact ⟨value, has, safely, Except.ok.inj same⟩
  · rintro ⟨value, has, safely, rfl⟩
    exact ⟨value, has, (), safely, rfl⟩

theorem keep_eq_error :
    s.keep label allowlist parents kept x = .error e ↔ s.Stops label allowlist parents kept x e := by
  simp only [keep, checkSafe, bind_eq_error, mapError_eq_ok, mapError_eq_error]
  constructor
  · rintro (⟨cause, failed, rfl⟩ | ⟨value, has, ⟨cause, unsafely, rfl⟩ | ⟨_, _, impossible⟩⟩)
    · exact .valueless failed
    · exact .refused has unsafely
    · cases impossible
  · rintro (⟨failed⟩ | ⟨has, unsafely⟩)
    · exact .inl ⟨_, failed, rfl⟩
    · exact .inr ⟨_, has, .inl ⟨_, unsafely, rfl⟩⟩

theorem foldlM_keep_eq_ok :
    l.foldlM (s.keep label allowlist parents) kept = .ok last ↔
      s.Keeps label allowlist parents kept l last := by
  induction l generalizing kept with
  | nil =>
    constructor
    · intro same
      cases same
      exact .nil _
    · rintro ⟨⟩
      rfl
  | cons x rest ih =>
    simp only [List.foldlM_cons, bind_eq_ok, keep_eq_ok, ih]
    constructor
    · rintro ⟨_, ⟨value, has, safely, rfl⟩, later⟩
      exact .cons has safely later
    · intro kept
      cases kept with
      | cons has safely later => exact ⟨_, ⟨_, has, safely, rfl⟩, later⟩

theorem foldlM_keep_eq_error :
    l.foldlM (s.keep label allowlist parents) kept = .error e ↔
      ∃ before x after mid, l = before ++ x :: after ∧
        s.Keeps label allowlist parents kept before mid ∧
        s.Stops label allowlist parents mid x e := by
  simp only [foldlM_eq_error, foldlM_keep_eq_ok, keep_eq_error]

section

variable (entries : List Assignment) (vars env : Dict String)

theorem foldlM_keep_imports :
    (entries.map .imported).foldlM (s.keep label allowlist parents) ⟨vars, env⟩ =
      (entries.foldlM (s.addImport label allowlist) vars).map (⟨·, env⟩) := by
  refine foldlM_map ScopeEntry.imported (Kept.mk · env) (fun values a => ?_) entries vars
  unfold keep addImport
  simp only [entryValue]
  split
  · simp only [map_eq_bind, bind_assoc, pure_bind]
    rfl
  · rfl

theorem foldlM_keep_vars :
    (entries.map .var).foldlM (s.keep label allowlist parents) ⟨vars, env⟩ =
      (entries.foldlM (s.addVar label allowlist parents) vars).map (⟨·, env⟩) := by
  refine foldlM_map ScopeEntry.var (Kept.mk · env) (fun values a => ?_) entries vars
  simp only [addVar, map_eq_bind, bind_assoc, pure_bind]
  rfl

theorem foldlM_keep_env :
    (entries.map .env).foldlM (s.keep label allowlist parents) ⟨vars, env⟩ =
      (entries.foldlM (s.addEnv label allowlist parents vars) env).map (⟨vars, ·⟩) := by
  refine foldlM_map ScopeEntry.env (Kept.mk vars) (fun values a => ?_) entries env
  simp only [addEnv, map_eq_bind, bind_assoc, pure_bind]
  rfl

end

/-- Resolution of a scope is one fold over its entries. -/
theorem resolveScope_eq_foldlM (d : ScopeDecl) (parents : List Scope) :
    s.resolveScope d parents = d.declarations >>= fun read =>
      (read.entries.foldlM (s.keep d.label (d.effective parents) parents) {}).map fun kept =>
        ⟨d.label, kept.vars, kept.env, d.effective parents⟩ := by
  simp only [Declarations.entries, List.foldlM_append, foldlM_keep_imports, foldlM_keep_vars,
    foldlM_keep_env, map_eq_bind, bind_assoc, pure_bind]
  rfl

variable {d : ScopeDecl} {read : Declarations} {field name : String} {cause : DeclarationError}

theorem resolveScope_of_misread (misread : d.Misread field cause) (parents : List Scope) :
    s.resolveScope d parents = .error (.declaration d.label.text field cause) := by
  rw [resolveScope_eq_foldlM, ScopeDecl.declarations_eq_error_iff.2 ⟨field, cause, misread, rfl⟩]
  rfl

theorem resolveScope_of_reads (reads : d.Reads read) (parents : List Scope) :
    s.resolveScope d parents =
      (read.entries.foldlM (s.keep d.label (d.effective parents) parents) {}).map fun kept =>
        ⟨d.label, kept.vars, kept.env, d.effective parents⟩ := by
  rw [resolveScope_eq_foldlM, ScopeDecl.declarations_eq_ok_iff.2 reads]
  rfl

theorem resolveScope_eq_ok_iff_keeps (reads : d.Reads read) {scope : Scope} :
    s.resolveScope d parents = .ok scope ↔
      ∃ kept, s.Keeps d.label (d.effective parents) parents {} read.entries kept ∧
        scope = ⟨d.label, kept.vars, kept.env, d.effective parents⟩ := by
  simp only [resolveScope_of_reads reads, map_eq_ok, foldlM_keep_eq_ok, @eq_comm _ scope]

theorem reads_of_resolveScope {scope : Scope} (resolved : s.resolveScope d parents = .ok scope) :
    ∃ read, d.Reads read := by
  obtain ⟨read, _, _, _, parsed, _⟩ := resolveScope_eq_ok.1 resolved
  exact ⟨read, ScopeDecl.declarations_eq_ok_iff.1 parsed⟩

theorem resolveScope_eq_error_iff_stops (reads : d.Reads read) :
    s.resolveScope d parents = .error e ↔
      ∃ before x after mid, read.entries = before ++ x :: after ∧
        s.Keeps d.label (d.effective parents) parents {} before mid ∧
        s.Stops d.label (d.effective parents) parents mid x e := by
  rw [resolveScope_of_reads reads, map_eq_error, foldlM_keep_eq_error]

theorem Stops.place (h : s.Stops label allowlist parents kept x e) :
    e.scope? = some label.text ∧ e.field? = some x.field := by
  cases h with
  | valueless failed => exact ⟨rfl, rfl⟩
  | refused has unsafely => exact ⟨rfl, rfl⟩

theorem Keeps.get?_vars (h : s.Keeps label allowlist parents kept l last)
    (other : name ∉ l.filterMap ScopeEntry.varName?) : last.vars.get? name = kept.vars.get? name := by
  induction h with
  | nil => rfl
  | @cons kept last x rest value has safely later ih =>
    cases x with
    | env a => exact ih other
    | imported a | var a =>
      simp only [List.filterMap_cons, ScopeEntry.varName?, List.mem_cons, not_or] at other
      rw [ih other.2]
      exact (Dict.get?_insert ..).trans (if_neg other.1)

theorem Keeps.contains_vars (h : s.Keeps label allowlist parents kept l last) :
    last.vars.contains name = true ↔
      kept.vars.contains name = true ∨ name ∈ l.filterMap ScopeEntry.varName? := by
  induction h with
  | nil => simp
  | @cons kept last x rest value has safely later ih =>
    rw [ih]
    cases x with
    | env a => rfl
    | imported a | var a =>
      simp only [Kept.insert, Dict.contains_insert, List.filterMap_cons, ScopeEntry.varName?,
        List.mem_cons]
      tauto

theorem Keeps.contains_env (h : s.Keeps label allowlist parents kept l last) :
    last.env.contains name = true ↔
      kept.env.contains name = true ∨ name ∈ l.filterMap ScopeEntry.envKey? := by
  induction h with
  | nil => simp
  | @cons kept last x rest value has safely later ih =>
    rw [ih]
    cases x with
    | imported a | var a => rfl
    | env a =>
      simp only [Kept.insert, Dict.contains_insert, List.filterMap_cons, ScopeEntry.envKey?,
        List.mem_cons]
      tauto

end Setting

namespace Declarations

theorem varNames_entries (read : Declarations) :
    read.entries.filterMap ScopeEntry.varName? = read.variables.map (·.name) := by
  have unnamed : read.env.filterMap (ScopeEntry.varName? ∘ ScopeEntry.env) = [] :=
    List.filterMap_eq_nil_iff.2 fun _ _ => rfl
  rw [entries, Declarations.variables, List.filterMap_append, List.filterMap_append,
    List.filterMap_map, List.filterMap_map, List.filterMap_map, unnamed, List.append_nil,
    List.map_append, ← List.filterMap_eq_map]
  rfl

theorem envKeys_entries (read : Declarations) :
    read.entries.filterMap ScopeEntry.envKey? = read.env.map (·.name) := by
  have imports : read.imports.filterMap (ScopeEntry.envKey? ∘ ScopeEntry.imported) = [] :=
    List.filterMap_eq_nil_iff.2 fun _ _ => rfl
  have vars : read.vars.filterMap (ScopeEntry.envKey? ∘ ScopeEntry.var) = [] :=
    List.filterMap_eq_nil_iff.2 fun _ _ => rfl
  rw [entries, List.filterMap_append, List.filterMap_append, List.filterMap_map,
    List.filterMap_map, List.filterMap_map, imports, vars, List.nil_append, List.nil_append,
    ← List.filterMap_eq_map]
  rfl

end Declarations

namespace Setting

theorem names_of_resolveScope {s : Setting} {parents : List Scope} {d : ScopeDecl}
    {read : Declarations} {scope : Scope} (reads : d.Reads read)
    (resolved : s.resolveScope d parents = .ok scope) (name : String) :
    (scope.vars.contains name = true ↔ name ∈ read.variables.map (·.name)) ∧
      (scope.env.contains name = true ↔ name ∈ read.env.map (·.name)) := by
  obtain ⟨kept, values, rfl⟩ := (resolveScope_eq_ok_iff_keeps reads).1 resolved
  rw [values.contains_vars, values.contains_env, read.varNames_entries, read.envKeys_entries]
  simp

end Setting
end ScopedCommands
