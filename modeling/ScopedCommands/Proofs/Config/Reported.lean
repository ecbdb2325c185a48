import Mathlib.Algebra.GroupWithZero.Nat
import ScopedCommands.Proofs.Config.Audit
import ScopedCommands.Proofs.Config.Labels
import ScopedCommands.Proofs.Config.Reading
import ScopedCommands.Proofs.Dict

/-!
How much of the sequences of a configuration an audit reports. Each sequence that cannot be read
gives one problem, that of the first entry refused. Faults of the entries behind it are not found
before that entry is mended.
-/
namespace ScopedCommands

open Outcome Declaration

/-- No name is declared: the sign is missing, or what stands before it is no name or reserved. -/
def Declaration.Nameless (entry : String) : Prop :=
  '=' ∉ entry.toList ∨ ∃ a, Assignment.parse entry = some a ∧
    (¬ Name.WellFormed a.name ∨ Name.isReserved a.name = true)

theorem Declaration.nameless_iff {field entry : String} :
    Nameless entry ↔ ∀ a, readVariable field entry ≠ .ok a := by
  rw [Nameless, ← Assignment.parse_eq_none_iff]
  constructor
  · rintro (none | ⟨a, parsed, unnamed⟩) b read
    · rw [parse_of_readVariable read] at none
      cases none
    · obtain ⟨other, named, free⟩ := readVariable_eq_ok_iff.1 read
      cases Option.some.inj (parsed.symm.trans other)
      rcases unnamed with unnamed | reserved
      · exact unnamed named
      · rw [free] at reserved
        cases reserved
  · intro unread
    cases parsed : Assignment.parse entry with
    | none => exact .inl rfl
    | some a =>
      refine .inr ⟨a, rfl, ?_⟩
      by_contra fine
      simp only [not_or, not_not, Bool.not_eq_true] at fine
      exact unread a (readVariable_eq_ok_iff.2 ⟨parsed, fine⟩)

structure Sequence where
  label : ScopeLabel
  read : Reader
  duplicate : String → DeclarationError
  taken : NameSet
  entries : List String

namespace Sequence

variable (s : Sequence)

def error? : Option DeclarationError :=
  Outcome.error? (readAll s.read s.duplicate s.taken s.entries).1

def problems : List Problem := s.error?.toList.map (.declaration s.label.text)

def faulty (entry : String) : Bool := (Outcome.error? (s.read entry)).isSome

def faults : Nat := s.entries.countP s.faulty

/-- Every entry can be read, but a name comes twice. -/
def repeats : Bool := s.faults == 0 && s.error?.isSome

end Sequence

def ScopeDecl.sequences (d : ScopeDecl) : List Sequence :=
  [⟨d.label, readImport "from_env", .duplicateVariable "from_env", .empty, d.imports⟩,
    ⟨d.label, readVariable "vars", .duplicateVariable "vars",
      (Declaration.imports "from_env" .empty d.imports).2, d.vars⟩,
    ⟨d.label, readVariable "env", .duplicateKey "env", .empty, d.env⟩]

def Config.sequences (c : Config) : List Sequence := c.scopes.flatMap (·.sequences)

namespace Sequence

variable {s : Sequence}

theorem error?_eq_some_iff {e : DeclarationError} :
    s.error? = some e ↔ FirstRefused s.read s.duplicate s.taken.keys s.entries e :=
  error?_eq_some.trans (readAll_eq_error_iff fun name => (Dict.mem_keys_iff s.taken name).symm)

theorem not_faulty_of_read {entry : String} {a : Assignment} (read : s.read entry = .ok a) :
    s.faulty entry = false := by
  rw [faulty, read]
  rfl

theorem refused_of_faults (some_ : 0 < s.faults) : s.error?.isSome = true := by
  obtain ⟨entry, member, faulty⟩ := List.countP_pos_iff.1 some_
  cases outcome : (readAll s.read s.duplicate s.taken s.entries).1 with
  | error e =>
    rw [error?, outcome]
    rfl
  | ok items =>
    have all := (readAll_eq_ok_iff fun name => (Dict.mem_keys_iff s.taken name).symm).1 outcome
    obtain ⟨before, after, split⟩ := List.append_of_mem member
    rw [split, allRead_append_iff] at all
    obtain ⟨_, _, _, _, rest⟩ := all
    obtain ⟨a, _, _, own, _⟩ := allRead_cons_iff.1 rest
    rw [not_faulty_of_read own] at faulty
    cases faulty

/-- One problem stands for all faults of a sequence. -/
theorem length_problems_add :
    s.problems.length + (s.faults - 1) = s.faults + s.repeats.toNat := by
  unfold problems repeats
  rw [List.length_map]
  by_cases none : s.faults = 0
  · cases s.error? <;> simp [none]
  · have refused := refused_of_faults (Nat.pos_of_ne_zero none)
    obtain ⟨e, error⟩ := Option.isSome_iff_exists.1 refused
    have faulty : (s.faults == 0) = false := beq_eq_false_iff_ne.2 none
    simp only [error, faulty, Option.toList_some, List.length_singleton, Bool.false_and,
      Bool.toNat_false]
    omega

theorem length_flatMap_problems_add (l : List Sequence) :
    (l.flatMap (·.problems)).length + (l.map (·.faults - 1)).sum =
      (l.map (·.faults)).sum + l.countP (·.repeats) := by
  induction l with
  | nil => rfl
  | cons s rest ih =>
    have own := s.length_problems_add
    rw [List.flatMap_cons, List.length_append, List.map_cons, List.map_cons, List.sum_cons,
      List.sum_cons, List.countP_cons]
    cases repeated : s.repeats with
    | false =>
      simp only [repeated, Bool.toNat_false, Bool.false_eq_true, if_false] at own ⊢
      omega
    | true =>
      simp only [repeated, Bool.toNat_true, if_true] at own ⊢
      omega

end Sequence

theorem ScopeDecl.faulty_of_nameless {d : ScopeDecl} {s : Sequence} (member : s ∈ d.sequences)
    {entry : String} (nameless : Nameless entry) : s.faulty entry = true := by
  have unread : ∀ a, s.read entry ≠ .ok a := by
    simp only [sequences, List.mem_cons, List.not_mem_nil, or_false] at member
    rcases member with rfl | rfl | rfl
    · exact fun a read => nameless_iff.1 nameless a (readVariable_of_readImport read)
    · exact nameless_iff.1 nameless
    · exact nameless_iff.1 nameless
  rw [Sequence.faulty]
  cases outcome : s.read entry with
  | ok a => exact absurd outcome (unread a)
  | error e => rfl

def DeclarationError.ofEntry : DeclarationError → Bool
  | .badName _ | .malformed _ _ | .duplicateVariable _ _ | .duplicateKey _ _ => true
  | .templateConflict _ _ _ _ | .missingField _ _ _ | .badRisk _ => false

def Problem.ofSequence : Problem → Bool
  | .declaration place cause => place != "global.env_allowlist" && cause.ofEntry
  | .duplicateGroup _ | .emptyGroupName | .duplicateCommand _ _ => false

theorem Declaration.ofEntry_readVariable {field entry : String} {e : DeclarationError}
    (failed : readVariable field entry = .error e) : e.ofEntry = true := by
  unfold readVariable at failed
  split at failed
  · cases failed
    rfl
  · obtain ⟨_, _, rfl⟩ := mapError_eq_error.1 (map_eq_error.1 failed)
    rfl

theorem Declaration.ofEntry_readImport {field entry : String} {e : DeclarationError}
    (failed : readImport field entry = .error e) : e.ofEntry = true := by
  unfold readImport at failed
  split at failed
  next cause read =>
    cases failed
    exact ofEntry_readVariable read
  · obtain ⟨_, _, rfl⟩ := mapError_eq_error.1 (map_eq_error.1 failed)
    rfl

theorem ScopeDecl.ofSequence_of_mem {d : ScopeDecl} {s : Sequence} (member : s ∈ d.sequences)
    {p : Problem} (found : p ∈ s.problems) : p.ofSequence = true := by
  obtain ⟨e, error, rfl⟩ := List.mem_map.1 found
  rw [Option.mem_toList, Sequence.error?_eq_some_iff] at error
  have elsewhere := s.label.text_ne_allowlist
  have entry : e.ofEntry = true := by
    obtain ⟨_, _, _, _, _, _, refused⟩ := error
    simp only [sequences, List.mem_cons, List.not_mem_nil, or_false] at member
    rcases member with rfl | rfl | rfl
    · cases refused with
      | unread failed => exact ofEntry_readImport failed
      | repeated => rfl
    · cases refused with
      | unread failed => exact ofEntry_readVariable failed
      | repeated => rfl
    · cases refused with
      | unread failed => exact ofEntry_readVariable failed
      | repeated => rfl
  simp [Problem.ofSequence, elsewhere, entry]

namespace Audit

def sequenceProblems (a : Audit) : List Problem := a.problems.filter (·.ofSequence)

theorem sequenceProblems_append (a b : Audit) :
    (a ++ b).sequenceProblems = a.sequenceProblems ++ b.sequenceProblems :=
  List.filter_append a.problems b.problems

theorem problems_record {α : Type} (place : String) (result : Except DeclarationError α) :
    (record place result).problems = (Outcome.error? result).toList.map (.declaration place) := by
  cases result <;> rfl

theorem sequenceProblems_record {α : Type} {place : String} {result : Except DeclarationError α}
    (field : ∀ e, result = .error e → (Problem.declaration place e).ofSequence = false) :
    (record place result).sequenceProblems = [] := by
  cases result with
  | ok a => rfl
  | error e => exact List.filter_cons_of_neg (by simp [field e rfl])

theorem sequenceProblems_if {found : Prop} [Decidable found] {p : Problem}
    (other : p.ofSequence = false) :
    (if found then ({ problems := [p] } : Audit) else {}).sequenceProblems = [] := by
  split
  · exact List.filter_cons_of_neg (by simp [other])
  · rfl

theorem sequenceProblems_scope (d : ScopeDecl) :
    (ofNames d.label.text d.imports d.vars).sequenceProblems ++
        (ofEnv d.label.text d.env).sequenceProblems =
      d.sequences.flatMap (·.problems) := by
  have whole : (ofNames d.label.text d.imports d.vars ++ ofEnv d.label.text d.env).problems =
      d.sequences.flatMap (·.problems) := by
    simp only [ofNames, ofEnv, problems_append, problems_record, ScopeDecl.sequences, List.flatMap_cons,
      List.flatMap_nil, List.append_nil, List.append_assoc]
    rfl
  rw [← sequenceProblems_append, sequenceProblems, whole, List.filter_eq_self]
  intro p found
  obtain ⟨s, member, own⟩ := List.mem_flatMap.1 found
  exact ScopeDecl.ofSequence_of_mem member own

theorem sequenceProblems_ofCommand (group : String) (c : CommandDecl) :
    (ofCommand group c).sequenceProblems = (c.scope group).sequences.flatMap (·.problems) := by
  have fields : ∀ e, c.checkFields group = .error e → e.ofEntry = false := by
    intro e failed
    unfold CommandDecl.checkFields at failed
    split at failed
    · split_ifs at failed
      cases failed
      rfl
    · split_ifs at failed <;> cases failed <;> rfl
  have risk : ∀ e, (RiskLevel.parseDeclared c.riskLevel).mapError DeclarationError.badRisk =
      .error e → e.ofEntry = false := by
    intro e failed
    obtain ⟨_, _, rfl⟩ := mapError_eq_error.1 failed
    rfl
  have unlisted {place : String} {e : DeclarationError} (other : e.ofEntry = false) :
      (Problem.declaration place e).ofSequence = false := by
    rw [Problem.ofSequence, other, Bool.and_false]
  rw [← sequenceProblems_scope, ofCommand, sequenceProblems_append, sequenceProblems_append,
    sequenceProblems_append, sequenceProblems_record fun e failed => unlisted (fields e failed),
    sequenceProblems_record fun e failed => unlisted (risk e failed), List.nil_append,
    List.append_nil, CommandDecl.scope, ScopeDecl.ofCommand]
  cases c.env <;> rfl

theorem sequenceProblems_ofCommands (group : String) (seen : NameSet)
    (commands : List CommandDecl) :
    (ofCommands group seen commands).sequenceProblems =
      commands.flatMap fun c => (c.scope group).sequences.flatMap (·.problems) := by
  induction commands generalizing seen with
  | nil => rfl
  | cons c rest ih =>
    rw [ofCommands, sequenceProblems_append, sequenceProblems_append, sequenceProblems_if rfl,
      sequenceProblems_ofCommand, ih, List.nil_append, List.flatMap_cons]

theorem sequenceProblems_ofGroup (g : GroupDecl) :
    (ofGroup g).sequenceProblems =
      g.scopes.flatMap fun d => d.sequences.flatMap (·.problems) := by
  have advised : (if g.commands = [] then
      ({ advice := [.noCommands g.name] } : Audit) else {}).sequenceProblems = [] := by
    split <;> rfl
  rw [GroupDecl.scopes, List.flatMap_cons, List.flatMap_map, ← sequenceProblems_scope, ofGroup,
    sequenceProblems_append, sequenceProblems_append, sequenceProblems_append,
    sequenceProblems_append, sequenceProblems_if rfl, advised, sequenceProblems_ofCommands,
    List.nil_append, List.append_nil]
  rfl

theorem sequenceProblems_ofGroups (seen : NameSet) (groups : List GroupDecl) :
    (ofGroups seen groups).sequenceProblems =
      groups.flatMap fun g => g.scopes.flatMap fun d => d.sequences.flatMap (·.problems) := by
  induction groups generalizing seen with
  | nil => rfl
  | cons g rest ih =>
    rw [ofGroups, sequenceProblems_append, sequenceProblems_append, sequenceProblems_if rfl,
      sequenceProblems_ofGroup, ih, List.nil_append, List.flatMap_cons]

theorem sequenceProblems_ofAllowlistNames (names : List String) :
    (ofAllowlistNames names).sequenceProblems = [] := by
  induction names with
  | nil => rfl
  | cons name rest ih =>
    rw [ofAllowlistNames, sequenceProblems_append, ih, List.append_nil]
    exact sequenceProblems_record fun e _ => rfl

theorem sequenceProblems_ofGlobals (g : GlobalDecl) :
    (ofGlobals g).sequenceProblems =
      (ScopeDecl.ofGlobals g).sequences.flatMap (·.problems) := by
  unfold ofGlobals
  rw [sequenceProblems_append, sequenceProblems_append, ← sequenceProblems_scope]
  split
  · exact List.append_nil _
  · exact List.append_nil _
  · rw [sequenceProblems_ofAllowlistNames]
    exact List.append_nil _

end Audit

namespace Config

def faults (c : Config) : Nat := (c.sequences.map (·.faults)).sum

/-- Faults behind the first one of their sequence. -/
def hidden (c : Config) : Nat := (c.sequences.map (·.faults - 1)).sum

theorem sequenceProblems_audit (c : Config) :
    c.audit.sequenceProblems = c.sequences.flatMap (·.problems) := by
  rw [audit, Audit.sequenceProblems_append, Audit.sequenceProblems_ofGlobals,
    Audit.sequenceProblems_ofGroups, sequences, List.flatMap_assoc, scopes, List.flatMap_cons,
    List.flatMap_assoc]

/-- An audit gives the first error of each sequence that cannot be read, for all faults in it. So it
has a problem for every faulty entry unless more of them are hidden than there are other problems,
and always if no sequence has two of them. -/
theorem audit_reports (c : Config) :
    c.audit.problems.filter (·.ofSequence) = c.sequences.flatMap (·.problems) ∧
      (∀ s ∈ c.sequences, (∀ entry, Nameless entry → s.faulty entry = true) ∧
        (0 < s.faults → ∃ e, s.problems = [.declaration s.label.text e] ∧
          FirstRefused s.read s.duplicate s.taken.keys s.entries e)) ∧
      c.audit.problems.length + c.hidden =
        c.faults + c.sequences.countP (·.repeats) + c.audit.problems.countP (!·.ofSequence) ∧
      ((∀ s ∈ c.sequences, s.faults ≤ 1) → c.faults ≤ c.audit.problems.length) := by
  have reported := c.sequenceProblems_audit
  have count : c.audit.problems.length + c.hidden =
      c.faults + c.sequences.countP (·.repeats) + c.audit.problems.countP (!·.ofSequence) := by
    have parts := List.length_eq_countP_add_countP (·.ofSequence) (l := c.audit.problems)
    rw [List.countP_eq_length_filter] at parts
    have whole := Sequence.length_flatMap_problems_add c.sequences
    rw [← reported, Audit.sequenceProblems] at whole
    have others : c.audit.problems.countP (fun p => decide ¬ p.ofSequence = true) =
        c.audit.problems.countP (!·.ofSequence) :=
      List.countP_congr fun p _ => by simp
    rw [others] at parts
    simp only [hidden, faults]
    omega
  refine ⟨reported, fun s member => ⟨fun entry nameless => ?_, fun faulty => ?_⟩, count, ?_⟩
  · obtain ⟨d, _, its⟩ := List.mem_flatMap.1 member
    exact d.faulty_of_nameless its nameless
  · obtain ⟨e, error⟩ := Option.isSome_iff_exists.1 (Sequence.refused_of_faults faulty)
    refine ⟨e, ?_, Sequence.error?_eq_some_iff.1 error⟩
    rw [Sequence.problems, error]
    rfl
  · intro single
    have none : c.hidden = 0 := by
      refine List.sum_eq_zero_iff_forall_eq_nat.2 fun n member => ?_
      obtain ⟨s, listed, rfl⟩ := List.mem_map.1 member
      have := single s listed
      omega
    omega

def ofVars (vars : List String) : Config where
  globals := { allowlist := some ["HOME"], vars }

theorem audit_reports_single :
    (Config.ofVars ["one", "A=1", "B=%{A}"]).faults ≤
      (Config.ofVars ["one", "A=1", "B=%{A}"]).audit.problems.length :=
  (audit_reports (Config.ofVars ["one", "A=1", "B=%{A}"])).2.2.2 (by decide +kernel)

/-- The second of two entries without a sign is not reported. -/
theorem audit_hides :
    ¬ ∀ c : Config, c.faults ≤ c.audit.problems.length := by
  intro told
  have two := told (Config.ofVars ["one", "two"])
  revert two
  decide +kernel

end Config

end ScopedCommands
