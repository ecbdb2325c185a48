import ScopedCommands.Proofs.Expansion.Paths
import ScopedCommands.Proofs.Outcome
import ScopedCommands.Resolution.Scope

namespace ScopedCommands

open Outcome

theorem Name.WellFormed.isWord {name : String} (h : Name.WellFormed name) :
    Reference.IsWord name := by
  obtain ⟨c, rest, letters, start, inside⟩ := h
  constructor
  · rintro rfl
    cases letters
  · rw [letters, List.all_cons, Bool.and_eq_true, List.all_eq_true]
    refine ⟨?_, inside⟩
    rcases Bool.or_eq_true_iff.1 start with alpha | underscore
    · exact Bool.or_eq_true_iff.2 (.inl (Bool.or_eq_true_iff.2 (.inl alpha)))
    · exact Bool.or_eq_true_iff.2 (.inr underscore)

theorem Name.wellFormed_of_check {name : String} (h : Name.check name = .ok ()) :
    Name.WellFormed name := by
  unfold check at h
  split at h
  · cases h
  next valid => exact (checkSyntax_eq_ok_iff name).1 valid

theorem Name.isReserved_eq_false_of_check {name : String} (h : Name.check name = .ok ()) :
    isReserved name = false := by
  unfold check at h
  split at h
  · cases h
  · split at h
    · cases h
    next free => exact Bool.eq_false_iff.2 free

theorem Name.check_eq_ok_iff {name : String} :
    check name = .ok () ↔ WellFormed name ∧ isReserved name = false := by
  constructor
  · intro h
    exact ⟨wellFormed_of_check h, isReserved_eq_false_of_check h⟩
  · rintro ⟨named, free⟩
    simp [check, (checkSyntax_eq_ok_iff name).2 named, free]

namespace Assignment

def named? (l : List Assignment) (name : String) : Option Assignment := l.find? (·.name == name)

variable {l : List Assignment} {a : Assignment} {name : String}

theorem named?_cons :
    named? (a :: l) name = if a.name = name then some a else named? l name := by
  by_cases same : a.name = name
  · rw [if_pos same]
    exact List.find?_cons_of_pos (by simpa using same)
  · rw [if_neg same]
    exact List.find?_cons_of_neg (by simpa using same)

theorem named?_eq_none_iff : named? l name = none ↔ name ∉ l.map (·.name) := by
  simp [named?, List.find?_eq_none]

theorem of_named? (found : named? l name = some a) : a ∈ l ∧ a.name = name :=
  ⟨List.mem_of_find?_eq_some found, by simpa using List.find?_some found⟩

theorem named?_of_mem (distinct : (l.map (·.name)).Nodup) (member : a ∈ l) :
    named? l a.name = some a := by
  induction l with
  | nil => cases member
  | cons first rest ih =>
    obtain ⟨new, later⟩ := List.nodup_cons.1 distinct
    rw [named?_cons]
    rcases List.mem_cons.1 member with rfl | after
    · rw [if_pos rfl]
    · have differ : first.name ≠ a.name := fun same =>
        new (List.mem_map.2 ⟨a, after, same.symm⟩)
      rw [if_neg differ]
      exact ih later after

end Assignment

namespace Declaration

variable {field entry : String} {a : Assignment}

theorem parse_of_readVariable (h : readVariable field entry = .ok a) :
    Assignment.parse entry = some a := by
  unfold readVariable at h
  split at h
  · cases h
  next parsed =>
    obtain ⟨_, _, rfl⟩ := map_eq_ok.1 h
    exact parsed

theorem check_of_readVariable (h : readVariable field entry = .ok a) :
    Name.check a.name = .ok () := by
  unfold readVariable at h
  split at h
  · cases h
  next parsed _ =>
    obtain ⟨_, checked, rfl⟩ := map_eq_ok.1 h
    exact mapError_eq_ok.1 checked

theorem readVariable_eq_ok_iff :
    readVariable field entry = .ok a ↔
      Assignment.parse entry = some a ∧ Name.WellFormed a.name ∧ Name.isReserved a.name = false := by
  constructor
  · intro h
    exact ⟨parse_of_readVariable h, Name.check_eq_ok_iff.1 (check_of_readVariable h)⟩
  · rintro ⟨parsed, named⟩
    simp only [readVariable, parsed, checkName, Name.check_eq_ok_iff.2 named]
    rfl

theorem readVariable_of_readImport (h : readImport field entry = .ok a) :
    readVariable field entry = .ok a := by
  unfold readImport at h
  split at h
  · cases h
  next b read =>
    obtain ⟨_, _, rfl⟩ := map_eq_ok.1 h
    exact read

theorem check_of_readImport (h : readImport field entry = .ok a) : Name.check a.name = .ok () :=
  check_of_readVariable (readVariable_of_readImport h)

variable {read : Reader} {duplicate : String → DeclarationError} {taken : NameSet}
  {entries : List String} {items : List Assignment}

theorem readAll_cons_eq_ok {rest : List String} :
    (readAll read duplicate taken (entry :: rest)).1 = .ok items ↔
      ∃ a later, read entry = .ok a ∧ taken.contains a.name = false ∧
        (readAll read duplicate (taken.add a.name) rest).1 = .ok later ∧ items = a :: later := by
  rw [readAll]
  cases entered : read entry with
  | error e => simp
  | ok first =>
    cases known : taken.contains first.name with
    | true =>
      simp only [known, if_true, reduceCtorEq, Except.ok.injEq, false_iff]
      rintro ⟨_, _, rfl, new, _⟩
      rw [known] at new
      cases new
    | false =>
      simp only [known, Bool.false_eq_true, if_false, map_eq_ok, Except.ok.injEq]
      constructor
      · rintro ⟨later, tail, rfl⟩
        exact ⟨first, later, rfl, known, tail, rfl⟩
      · rintro ⟨_, later, rfl, _, tail, rfl⟩
        exact ⟨later, tail, rfl⟩

theorem mem_of_readAll (h : (readAll read duplicate taken entries).1 = .ok items)
    (member : a ∈ items) : ∃ entry ∈ entries, read entry = .ok a := by
  induction entries generalizing taken items with
  | nil =>
    cases h
    cases member
  | cons entry rest ih =>
    obtain ⟨first, later, own, _, tail, rfl⟩ := readAll_cons_eq_ok.1 h
    rcases List.mem_cons.1 member with rfl | after
    · exact ⟨entry, List.mem_cons_self, own⟩
    · obtain ⟨other, listed, its⟩ := ih tail after
      exact ⟨other, List.mem_cons_of_mem _ listed, its⟩

/-- Names that were read are new, differ, and are taken from then on. -/
theorem distinct_of_readAll (h : (readAll read duplicate taken entries).1 = .ok items) :
    (items.map (·.name)).Nodup ∧ (∀ name ∈ items.map (·.name), taken.contains name = false) ∧
      ∀ name, (readAll read duplicate taken entries).2.contains name = true ↔
        taken.contains name = true ∨ name ∈ items.map (·.name) := by
  induction entries generalizing taken items with
  | nil =>
    cases h
    simp [readAll]
  | cons entry rest ih =>
    obtain ⟨first, later, own, new, tail, rfl⟩ := readAll_cons_eq_ok.1 h
    obtain ⟨apart, fresh, grown⟩ := ih tail
    have whole : (readAll read duplicate taken (entry :: rest)).2 =
        (readAll read duplicate (taken.add first.name) rest).2 := by
      simp [readAll, own, new]
    refine ⟨?_, fun name listed => ?_, fun name => ?_⟩
    · refine List.nodup_cons.2 ⟨fun again => ?_, apart⟩
      have out := fresh first.name again
      rw [NameSet.contains_add.2 (.inl rfl)] at out
      cases out
    · rcases List.mem_cons.1 listed with rfl | after
      · exact new
      · have out := fresh name after
        rw [Bool.eq_false_iff, ne_eq, NameSet.contains_add] at out
        exact Bool.eq_false_iff.2 fun old => out (.inr old)
    · rw [whole, grown, NameSet.contains_add, List.map_cons, List.mem_cons]
      tauto

end Declaration

def Declarations.variables (read : Declarations) : List Assignment := read.imports ++ read.vars

namespace ScopeDecl

variable {d : ScopeDecl} {read : Declarations}

theorem check_of_declarations (h : d.declarations = .ok read) :
    ∀ a ∈ read.variables, Name.check a.name = .ok () := by
  simp only [declarations, bind_eq_ok, mapError_eq_ok] at h
  obtain ⟨imports, first, vars, second, env, _, same⟩ := h
  cases same
  intro a member
  rcases List.mem_append.1 member with imported | declared
  · obtain ⟨entry, _, its⟩ := Declaration.mem_of_readAll first imported
    exact Declaration.check_of_readImport its
  · obtain ⟨entry, _, its⟩ := Declaration.mem_of_readAll second declared
    exact Declaration.check_of_readVariable its

theorem variables_of_declarations (h : d.declarations = .ok read) :
    (read.variables.map (·.name)).Nodup ∧ ∀ a ∈ read.variables, Reference.IsWord a.name := by
  refine ⟨?_, fun a member => (Name.wellFormed_of_check (check_of_declarations h a member)).isWord⟩
  simp only [declarations, bind_eq_ok, mapError_eq_ok] at h
  obtain ⟨imports, first, vars, second, env, _, same⟩ := h
  cases same
  obtain ⟨apart, _, taken⟩ := Declaration.distinct_of_readAll first
  obtain ⟨later, fresh, _⟩ := Declaration.distinct_of_readAll second
  rw [Declarations.variables, List.map_append, List.nodup_append]
  refine ⟨apart, later, ?_⟩
  rintro name imported _ declared rfl
  have new := fresh name declared
  rw [show (Declaration.imports "from_env" .empty d.imports).2.contains name = true from
    (taken name).2 (.inr imported)] at new
  cases new

end ScopeDecl
end ScopedCommands
