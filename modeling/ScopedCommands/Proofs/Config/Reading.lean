import Mathlib.Data.List.Forall2
import ScopedCommands.Proofs.Config.Names

/-!
Which declarations can be read. Every entry of a sequence has to be readable on its own and to bring
a name that no entry before it has; the first one that does not is the error of the sequence. The
imports of a scope are read first, then its variables, which share their names, then its env entries.
-/
namespace ScopedCommands

open Outcome

namespace Declaration

/-- All entries are read, with names that differ from one another and from those before. -/
structure AllRead (read : Reader) (known : List String) (entries : List String)
    (items : List Assignment) : Prop where
  each : List.Forall₂ (fun entry a => read entry = .ok a) entries items
  distinct : (items.map (·.name)).Nodup
  fresh : ∀ a ∈ items, a.name ∉ known

inductive Refused (read : Reader) (duplicate : String → DeclarationError) (known : List String)
    (entry : String) : DeclarationError → Prop where
  | unread {e : DeclarationError} (failed : read entry = .error e) :
      Refused read duplicate known entry e
  | repeated {a : Assignment} (its : read entry = .ok a) (again : a.name ∈ known) :
      Refused read duplicate known entry (duplicate a.name)

def FirstRefused (read : Reader) (duplicate : String → DeclarationError) (known : List String)
    (entries : List String) (e : DeclarationError) : Prop :=
  ∃ before entry after items, entries = before ++ entry :: after ∧
    AllRead read known before items ∧
    Refused read duplicate (known ++ items.map (·.name)) entry e

variable {read : Reader} {duplicate : String → DeclarationError} {taken : NameSet}
  {known entries rest : List String} {entry : String} {items : List Assignment}
  {e : DeclarationError}

theorem allRead_nil_iff : AllRead read known [] items ↔ items = [] := by
  constructor
  · rintro ⟨each, _, _⟩
    cases each
    rfl
  · rintro rfl
    exact ⟨.nil, .nil, fun _ member => by cases member⟩

theorem allRead_cons_iff :
    AllRead read known (entry :: rest) items ↔
      ∃ a later, items = a :: later ∧ read entry = .ok a ∧ a.name ∉ known ∧
        AllRead read (known ++ [a.name]) rest later := by
  constructor
  · rintro ⟨each, distinct, fresh⟩
    cases each with
    | @cons _ a _ later own others =>
      obtain ⟨new, apart⟩ := List.nodup_cons.1 distinct
      refine ⟨a, later, rfl, own, fresh a List.mem_cons_self, others, apart, ?_⟩
      intro b member listed
      rcases List.mem_append.1 listed with old | same
      · exact fresh b (List.mem_cons_of_mem a member) old
      · exact new (List.mem_map.2 ⟨b, member, List.mem_singleton.1 same⟩)
  · rintro ⟨a, later, rfl, own, new, each, distinct, fresh⟩
    refine ⟨.cons own each, List.nodup_cons.2 ⟨?_, distinct⟩, ?_⟩
    · intro again
      obtain ⟨b, member, same⟩ := List.mem_map.1 again
      exact fresh b member (List.mem_append_right known (List.mem_singleton.2 same))
    · intro b member
      rcases List.mem_cons.1 member with rfl | after
      · exact new
      · exact fun old => fresh b after (List.mem_append_left _ old)

theorem allRead_append_iff {more : List String} :
    AllRead read known (entries ++ more) items ↔
      ∃ first later, items = first ++ later ∧ AllRead read known entries first ∧
        AllRead read (known ++ first.map (·.name)) more later := by
  induction entries generalizing known items with
  | nil => simp [allRead_nil_iff]
  | cons entry rest ih =>
    simp only [List.cons_append, allRead_cons_iff, ih]
    constructor
    · rintro ⟨a, _, rfl, own, new, first, later, rfl, early, late⟩
      refine ⟨a :: first, later, rfl, ⟨a, first, rfl, own, new, early⟩, ?_⟩
      simpa using late
    · rintro ⟨_, later, rfl, ⟨a, first, rfl, own, new, early⟩, late⟩
      refine ⟨a, first ++ later, rfl, own, new, first, later, rfl, early, ?_⟩
      simpa using late

theorem AllRead.mem_iff {field : String} (h : AllRead (readVariable field) known entries items)
    (a : Assignment) : a ∈ items ↔ ∃ entry ∈ entries, Assignment.parse entry = some a := by
  have each := h.each
  clear h
  induction each with
  | nil => simp
  | cons own _ ih => simp [ih, parse_of_readVariable own, eq_comm]

theorem firstRefused_cons_iff :
    FirstRefused read duplicate known (entry :: rest) e ↔
      Refused read duplicate known entry e ∨
        ∃ a, read entry = .ok a ∧ a.name ∉ known ∧
          FirstRefused read duplicate (known ++ [a.name]) rest e := by
  constructor
  · rintro ⟨before, bad, after, items, split, early, refused⟩
    cases before with
    | nil =>
      cases split
      cases allRead_nil_iff.1 early
      rw [List.map_nil, List.append_nil] at refused
      exact .inl refused
    | cons first before =>
      cases split
      obtain ⟨a, later, rfl, own, new, others⟩ := allRead_cons_iff.1 early
      refine .inr ⟨a, own, new, before, bad, after, later, rfl, others, ?_⟩
      simpa using refused
  · rintro (refused | ⟨a, own, new, before, bad, after, items, rfl, others, refused⟩)
    · refine ⟨[], entry, rest, [], rfl, allRead_nil_iff.2 rfl, ?_⟩
      rwa [List.map_nil, List.append_nil]
    · refine ⟨entry :: before, bad, after, a :: items, rfl, ?_, by simpa using refused⟩
      exact allRead_cons_iff.2 ⟨a, items, rfl, own, new, others⟩

section

variable (same : ∀ name, taken.contains name = true ↔ name ∈ known)

include same

theorem contains_eq_false_iff {name : String} : taken.contains name = false ↔ name ∉ known := by
  rw [← same, Bool.not_eq_true]

theorem contains_add_iff (added name : String) :
    (taken.add added).contains name = true ↔ name ∈ known ++ [added] := by
  rw [NameSet.contains_add, same, List.mem_append, List.mem_singleton, or_comm]

theorem readAll_eq_ok_iff :
    (readAll read duplicate taken entries).1 = .ok items ↔ AllRead read known entries items := by
  induction entries generalizing taken known items with
  | nil =>
    rw [allRead_nil_iff, readAll, Except.ok.injEq]
    exact eq_comm
  | cons entry rest ih =>
    rw [readAll_cons_eq_ok, allRead_cons_iff]
    constructor
    · rintro ⟨a, later, own, new, tail, rfl⟩
      have others := (ih (contains_add_iff same a.name)).1 tail
      exact ⟨a, later, rfl, own, (contains_eq_false_iff same).1 new, others⟩
    · rintro ⟨a, later, rfl, own, new, others⟩
      have tail := (ih (contains_add_iff same a.name)).2 others
      exact ⟨a, later, own, (contains_eq_false_iff same).2 new, tail, rfl⟩

theorem readAll_eq_error_iff :
    (readAll read duplicate taken entries).1 = .error e ↔
      FirstRefused read duplicate known entries e := by
  induction entries generalizing taken known with
  | nil =>
    constructor
    · intro failed
      cases failed
    · rintro ⟨before, _, _, _, impossible, _⟩
      simp at impossible
  | cons entry rest ih =>
    rw [firstRefused_cons_iff, readAll]
    cases own : read entry with
    | error cause =>
      simp only [Except.error.injEq, reduceCtorEq, false_and, exists_false, or_false]
      constructor
      · rintro rfl
        exact .unread own
      · rintro (⟨failed⟩ | ⟨its, _⟩)
        · rw [own] at failed
          exact Except.error.inj failed
        · rw [own] at its
          cases its
    | ok a =>
      have refused_iff : Refused read duplicate known entry e ↔
          a.name ∈ known ∧ duplicate a.name = e := by
        constructor
        · rintro (⟨failed⟩ | ⟨its, again⟩)
          · rw [own] at failed
            cases failed
          · rw [own] at its
            cases its
            exact ⟨again, rfl⟩
        · rintro ⟨again, rfl⟩
          exact .repeated own again
      have tail := ih (contains_add_iff same a.name)
      simp only [refused_iff, Except.ok.injEq, exists_eq_left', ← tail, ← same]
      cases taken.contains a.name with
      | true => simp
      | false => simp [map_eq_error]

end

end Declaration

open Declaration

namespace ScopeDecl

variable {d : ScopeDecl} {read : Declarations} {field : String} {cause : DeclarationError}

/-- The three sequences of a scope as they are read. Env keys are names of their own. -/
structure Reads (d : ScopeDecl) (read : Declarations) : Prop where
  imports : AllRead (readImport "from_env") [] d.imports read.imports
  vars : AllRead (readVariable "vars") (read.imports.map (·.name)) d.vars read.vars
  env : AllRead (readVariable "env") [] d.env read.env

/-- The sequence that cannot be read, where those before it can, and the first entry's error. -/
inductive Misread (d : ScopeDecl) : String → DeclarationError → Prop where
  | imports {cause : DeclarationError}
      (first : FirstRefused (readImport "from_env") (.duplicateVariable "from_env") [] d.imports
        cause) : Misread d "from_env" cause
  | vars {imported : List Assignment} {cause : DeclarationError}
      (imports : AllRead (readImport "from_env") [] d.imports imported)
      (first : FirstRefused (readVariable "vars") (.duplicateVariable "vars")
        (imported.map (·.name)) d.vars cause) : Misread d "vars" cause
  | env {imported declared : List Assignment} {cause : DeclarationError}
      (imports : AllRead (readImport "from_env") [] d.imports imported)
      (vars : AllRead (readVariable "vars") (imported.map (·.name)) d.vars declared)
      (first : FirstRefused (readVariable "env") (.duplicateKey "env") [] d.env cause) :
      Misread d "env" cause

theorem contains_empty_iff (name : String) :
    (Dict.empty : NameSet).contains name = true ↔ name ∈ ([] : List String) := by
  simp

theorem imports_eq_ok_iff {imported : List Assignment} :
    (Declaration.imports "from_env" .empty d.imports).1 = .ok imported ↔
      AllRead (readImport "from_env") [] d.imports imported :=
  readAll_eq_ok_iff contains_empty_iff

theorem taken_iff {imported : List Assignment}
    (imports : (Declaration.imports "from_env" .empty d.imports).1 = .ok imported) (name : String) :
    (Declaration.imports "from_env" .empty d.imports).2.contains name = true ↔
      name ∈ imported.map (·.name) := by
  obtain ⟨_, _, taken⟩ := distinct_of_readAll imports
  have grown := taken name
  rw [contains_empty_iff, List.mem_nil_iff, false_or] at grown
  exact grown

theorem vars_eq_ok_iff {imported declared : List Assignment}
    (imports : (Declaration.imports "from_env" .empty d.imports).1 = .ok imported) :
    (Declaration.vars "vars" (Declaration.imports "from_env" .empty d.imports).2 d.vars).1 =
        .ok declared ↔
      AllRead (readVariable "vars") (imported.map (·.name)) d.vars declared :=
  readAll_eq_ok_iff (taken_iff imports)

theorem declarations_eq_ok_iff : d.declarations = .ok read ↔ d.Reads read := by
  simp only [declarations, bind_eq_ok, mapError_eq_ok]
  constructor
  · rintro ⟨imported, first, vars, second, env, third, same⟩
    cases same
    exact ⟨imports_eq_ok_iff.1 first, (vars_eq_ok_iff first).1 second,
      (readAll_eq_ok_iff contains_empty_iff).1 third⟩
  · rintro ⟨imports, vars, env⟩
    have first := imports_eq_ok_iff.2 imports
    exact ⟨read.imports, first, read.vars, (vars_eq_ok_iff first).2 vars, read.env,
      (readAll_eq_ok_iff contains_empty_iff).2 env, rfl⟩

theorem Reads.unique {other : Declarations} (h : d.Reads read) (again : d.Reads other) :
    read = other := by
  have both := (declarations_eq_ok_iff.2 h).symm.trans (declarations_eq_ok_iff.2 again)
  exact Except.ok.inj both

theorem declarations_eq_error_iff {e : ResolveError} :
    d.declarations = .error e ↔
      ∃ field cause, d.Misread field cause ∧ .declaration d.label.text field cause = e := by
  simp only [declarations, bind_eq_error, mapError_eq_ok, mapError_eq_error]
  constructor
  · rintro (⟨cause, failed, same⟩ | ⟨imported, first, ⟨cause, failed, same⟩ |
      ⟨vars, second, ⟨cause, failed, same⟩ | ⟨env, _, impossible⟩⟩⟩)
    · exact ⟨_, cause, .imports ((readAll_eq_error_iff contains_empty_iff).1 failed), same⟩
    · have first_fault := (readAll_eq_error_iff (taken_iff first)).1 failed
      exact ⟨_, cause, .vars (imports_eq_ok_iff.1 first) first_fault, same⟩
    · have declared := (vars_eq_ok_iff first).1 second
      have first_fault := (readAll_eq_error_iff contains_empty_iff).1 failed
      exact ⟨_, cause, .env (imports_eq_ok_iff.1 first) declared first_fault, same⟩
    · cases impossible
  · rintro ⟨field, cause, misread, rfl⟩
    cases misread with
    | imports first =>
      exact .inl ⟨cause, (readAll_eq_error_iff contains_empty_iff).2 first, rfl⟩
    | @vars imported _ imports first =>
      have known := imports_eq_ok_iff.2 imports
      have failed := (readAll_eq_error_iff (taken_iff known)).2 first
      exact .inr ⟨imported, known, .inl ⟨cause, failed, rfl⟩⟩
    | @env imported declared _ imports vars first =>
      have known := imports_eq_ok_iff.2 imports
      have second := (vars_eq_ok_iff known).2 vars
      have failed := (readAll_eq_error_iff contains_empty_iff).2 first
      exact .inr ⟨imported, known, .inr ⟨declared, second, .inl ⟨cause, failed, rfl⟩⟩⟩

theorem reads_or_misread (d : ScopeDecl) :
    (∃ read, d.Reads read) ∨ ∃ field cause, d.Misread field cause := by
  cases parsed : d.declarations with
  | ok read => exact .inl ⟨read, declarations_eq_ok_iff.1 parsed⟩
  | error e =>
    obtain ⟨field, cause, misread, _⟩ := declarations_eq_error_iff.1 parsed
    exact .inr ⟨field, cause, misread⟩

def upTo (d : ScopeDecl) (vars : List String) : ScopeDecl := { d with vars, env := [] }

variable {before after : List String}

theorem Reads.upTo (h : d.Reads read) (split : d.vars = before ++ after) :
    ∃ early late, read.vars = early ++ late ∧ before.length = early.length ∧
      (d.upTo before).Reads ⟨read.imports, early, []⟩ := by
  have vars := h.vars
  rw [split, allRead_append_iff] at vars
  obtain ⟨early, late, whole, first, _⟩ := vars
  exact ⟨early, late, whole, first.each.length_eq, h.imports, first, allRead_nil_iff.2 rfl⟩

end ScopeDecl
end ScopedCommands
