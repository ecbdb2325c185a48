import ScopedCommands.Proofs.Config.Reading
import ScopedCommands.Proofs.Dict

namespace ScopedCommands

open Outcome

inductive Name.Flaw : String → NameError → Prop
  | empty : Flaw "" .empty
  | start {name : String} {c : Char} {rest : List Char} (letters : name.toList = c :: rest)
      (bad : isNameStart c = false) : Flaw name (.invalid name (.start c))
  | inside {name : String} {c d : Char} {before after : List Char}
      (letters : name.toList = c :: (before ++ d :: after)) (start : isNameStart c = true)
      (fine : ∀ e ∈ before, isNameChar e = true) (bad : isNameChar d = false) :
      Flaw name (.invalid name (.inside d))

theorem Name.checkSyntax_eq_error_iff {name : String} {cause : NameError} :
    checkSyntax name = .error cause ↔ Flaw name cause := by
  unfold checkSyntax
  constructor
  · intro refused
    split at refused
    next letters =>
      cases refused
      obtain rfl : name = "" := String.toList_inj.1 letters
      exact .empty
    next c rest letters =>
      split at refused
      next start =>
        split at refused
        · cases refused
        next d found =>
          cases refused
          obtain ⟨bad, before, after, rfl, fine⟩ := List.find?_eq_some_iff_append.1 found
          refine .inside letters start (fun e member => ?_) (by simpa using bad)
          simpa using fine e member
      next start =>
        cases refused
        exact .start letters (Bool.eq_false_iff.2 start)
  · intro flaw
    cases flaw with
    | empty => rfl
    | start letters bad => simp [letters, bad]
    | @inside _ c d before after letters start fine bad =>
      have found : (before ++ d :: after).find? (fun e => !isNameChar e) = some d := by
        refine List.find?_eq_some_iff_append.2 ⟨by simp [bad], before, after, rfl, ?_⟩
        simpa using fine
      simp [letters, start, found]

theorem Name.check_eq_error_iff {name : String} {cause : NameError} :
    check name = .error cause ↔
      Flaw name cause ∨ WellFormed name ∧ isReserved name = true ∧ cause = .reserved name := by
  rw [← checkSyntax_eq_error_iff, ← checkSyntax_eq_ok_iff, check]
  cases checkSyntax name with
  | error other => simp
  | ok _ => cases isReserved name <;> simp [eq_comm]

theorem Name.WellFormed.sign_not_mem {name : String} (named : WellFormed name) :
    '=' ∉ name.toList := by
  obtain ⟨c, rest, letters, start, inside⟩ := named
  rw [letters]
  intro member
  rcases List.mem_cons.1 member with rfl | later
  · cases start
  · cases inside '=' later

namespace Declaration

inductive VariableKind
  | imports
  | vars
deriving DecidableEq

structure Batch where
  kind : VariableKind
  field : String
  entries : List String
deriving DecidableEq

namespace Batch

abbrev Outcome := Except DeclarationError (List Assignment)

def read (b : Batch) (taken : NameSet) : Outcome × NameSet :=
  match b.kind with
  | .imports => imports b.field taken b.entries
  | .vars => vars b.field taken b.entries

/-- Each batch finds the names that those before it have taken, also if they were refused. -/
def readInTurn (taken : NameSet) : List Batch → List Outcome × NameSet
  | [] => ([], taken)
  | b :: rest =>
    let first := b.read taken
    let later := readInTurn first.2 rest
    (first.1 :: later.1, later.2)

end Batch

namespace VariableKind

def reader (kind : VariableKind) (field : String) : Reader :=
  match kind with
  | imports => readImport field
  | vars => readVariable field

/-- The entry consists of a name of its own, the sign and a value. The value of an import is the name
of a variable of the process. -/
structure Declares (kind : VariableKind) (entry : String) (a : Assignment) : Prop where
  text : entry = a.name ++ "=" ++ a.value
  named : Name.WellFormed a.name
  free : Name.isReserved a.name = false
  system : kind = imports → Name.WellFormed a.value

/-- Why an entry declares nothing. Each fault supposes that the checks before it are passed. -/
inductive Fault (kind : VariableKind) (field entry : String) : DeclarationError → Prop
  | malformed (unsigned : '=' ∉ entry.toList) : Fault kind field entry (.malformed field entry)
  | name {a : Assignment} {cause : NameError} (text : entry = a.text)
      (first : '=' ∉ a.name.toList) (flaw : Name.Flaw a.name cause) :
      Fault kind field entry (.badName cause)
  | reserved {a : Assignment} (text : entry = a.text) (named : Name.WellFormed a.name)
      (reserved : Name.isReserved a.name = true) :
      Fault kind field entry (.badName (.reserved a.name))
  | system {a : Assignment} {cause : NameError} (text : entry = a.text) (imported : kind = imports)
      (named : Name.WellFormed a.name) (free : Name.isReserved a.name = false)
      (flaw : Name.Flaw a.value cause) : Fault kind field entry (.badName cause)

variable {kind : VariableKind} {field entry : String} {a : Assignment} {e : DeclarationError}

theorem parse_eq_some_of_named (named : Name.WellFormed a.name) :
    Assignment.parse entry = some a ↔ entry = a.text := by
  rw [Assignment.parse_eq_some_iff]
  exact ⟨And.right, fun text => ⟨named.sign_not_mem, text⟩⟩

theorem readImport_eq_ok_iff :
    readImport field entry = .ok a ↔
      readVariable field entry = .ok a ∧ Name.WellFormed a.value := by
  unfold readImport
  cases readVariable field entry with
  | error e => simp
  | ok b =>
    simp only [map_eq_ok, mapError_eq_ok, Except.ok.injEq, ← Name.checkSyntax_eq_ok_iff]
    constructor
    · rintro ⟨_, checked, rfl⟩
      exact ⟨rfl, checked⟩
    · rintro ⟨rfl, checked⟩
      exact ⟨(), checked, rfl⟩

theorem reader_eq_ok_iff : kind.reader field entry = .ok a ↔ kind.Declares entry a := by
  have read_iff : readVariable field entry = .ok a ↔
      entry = a.text ∧ Name.WellFormed a.name ∧ Name.isReserved a.name = false := by
    rw [readVariable_eq_ok_iff]
    exact and_congr_left fun named => parse_eq_some_of_named named.1
  cases kind with
  | imports =>
    rw [reader, readImport_eq_ok_iff, read_iff]
    constructor
    · rintro ⟨⟨text, named, free⟩, system⟩
      exact ⟨text, named, free, fun _ => system⟩
    · rintro ⟨text, named, free, system⟩
      exact ⟨⟨text, named, free⟩, system rfl⟩
  | vars =>
    rw [reader, read_iff]
    constructor
    · rintro ⟨text, named, free⟩
      exact ⟨text, named, free, nofun⟩
    · rintro ⟨text, named, free, _⟩
      exact ⟨text, named, free⟩

theorem readVariable_eq_error_iff :
    readVariable field entry = .error e ↔ Fault .vars field entry e := by
  unfold readVariable checkName
  constructor
  · intro failed
    split at failed
    next parsed =>
      cases failed
      exact .malformed (Assignment.parse_eq_none_iff.1 parsed)
    next a parsed =>
      obtain ⟨cause, refused, rfl⟩ := mapError_eq_error.1 (map_eq_error.1 failed)
      obtain ⟨first, text⟩ := Assignment.parse_eq_some_iff.1 parsed
      rcases Name.check_eq_error_iff.1 refused with flaw | ⟨named, reserved, rfl⟩
      · exact .name text first flaw
      · exact .reserved text named reserved
  · have named {a : Assignment} {cause : NameError} (parsed : Assignment.parse entry = some a)
        (refused : Name.check a.name = .error cause) :
        readVariable field entry = .error (.badName cause) := by
      simp only [readVariable, parsed, checkName, refused]
      rfl
    intro fault
    cases fault with
    | malformed unsigned => simp only [Assignment.parse_eq_none_iff.2 unsigned]
    | name text first flaw =>
      exact named (Assignment.parse_eq_some_iff.2 ⟨first, text⟩)
        (Name.check_eq_error_iff.2 (.inl flaw))
    | reserved text well reserved =>
      exact named ((parse_eq_some_of_named well).2 text)
        (Name.check_eq_error_iff.2 (.inr ⟨well, reserved, rfl⟩))
    | system text imported => cases imported

theorem readImport_eq_error_iff :
    readImport field entry = .error e ↔
      readVariable field entry = .error e ∨ ∃ a cause, readVariable field entry = .ok a ∧
        Name.Flaw a.value cause ∧ .badName cause = e := by
  unfold readImport
  cases readVariable field entry with
  | error other => simp
  | ok a => simp [map_eq_error, mapError_eq_error, Name.checkSyntax_eq_error_iff]

theorem Fault.of_vars (fault : Fault .vars field entry e) : Fault kind field entry e := by
  cases fault with
  | malformed unsigned => exact .malformed unsigned
  | name text first flaw => exact .name text first flaw
  | reserved text named reserved => exact .reserved text named reserved
  | system text imported => cases imported

theorem reader_eq_error_iff : kind.reader field entry = .error e ↔ kind.Fault field entry e := by
  cases kind with
  | vars => exact readVariable_eq_error_iff
  | imports =>
    rw [reader, readImport_eq_error_iff, readVariable_eq_error_iff]
    constructor
    · rintro (fault | ⟨a, cause, read, flaw, rfl⟩)
      · exact fault.of_vars
      · have declared : Declares vars entry a := reader_eq_ok_iff.1 read
        exact .system declared.text rfl declared.named declared.free flaw
    · intro fault
      cases fault with
      | malformed unsigned => exact .inl (.malformed unsigned)
      | name text first flaw => exact .inl (.name text first flaw)
      | reserved text named reserved => exact .inl (.reserved text named reserved)
      | @system a cause text _ named free flaw =>
        have read : vars.reader field entry = .ok a :=
          reader_eq_ok_iff.2 ⟨text, named, free, nofun⟩
        exact .inr ⟨a, cause, read, flaw, rfl⟩

end VariableKind

section

variable {read : Reader} {duplicate : String → DeclarationError} {taken after : NameSet}
  {before entries rest : List String} {entry : String} {items : List Assignment}
  {e : DeclarationError}

theorem mem_keys_comm (taken : NameSet) (name : String) :
    taken.contains name = true ↔ name ∈ taken.keys :=
  (Dict.mem_keys_iff taken name).symm

theorem readAll_eq_ok_grown_iff :
    readAll read duplicate taken entries = (.ok items, after) ↔
      AllRead read taken.keys entries items ∧
        ∀ name, after.contains name = true ↔
          taken.contains name = true ∨ name ∈ items.map (·.name) := by
  constructor
  · intro whole
    have first := congrArg Prod.fst whole
    have grown := (distinct_of_readAll first).2.2
    rw [whole] at grown
    exact ⟨(readAll_eq_ok_iff (mem_keys_comm taken)).1 first, grown⟩
  · rintro ⟨all, grown⟩
    have first : (readAll read duplicate taken entries).1 = .ok items :=
      (readAll_eq_ok_iff (mem_keys_comm taken)).2 all
    refine Prod.ext first (NameSet.ext_contains fun name => ?_)
    rw [grown, (distinct_of_readAll first).2.2]

theorem readAll_of_refused (early : readAll read duplicate taken before = (.ok items, after))
    (refused : Refused read duplicate after.keys entry e) :
    readAll read duplicate taken (before ++ entry :: rest) = (.error e, after) := by
  induction before generalizing taken items with
  | nil =>
    cases early
    rw [List.nil_append, readAll]
    cases refused with
    | unread failed => rw [failed]
    | repeated its again => simp [its, (mem_keys_comm after _).2 again]
  | cons first others ih =>
    obtain ⟨a, later, own, new, tail, rfl⟩ := readAll_cons_eq_ok.1 (congrArg Prod.fst early)
    have grown : (readAll read duplicate (taken.add a.name) others).2 = after := by
      have whole := congrArg Prod.snd early
      simpa [readAll, own, new] using whole
    have stopped := ih (Prod.ext tail grown)
    simp [readAll, own, new, stopped, Except.map]

theorem readAll_eq_error_taken_iff :
    readAll read duplicate taken entries = (.error e, after) ↔
      ∃ before entry rest items, entries = before ++ entry :: rest ∧
        readAll read duplicate taken before = (.ok items, after) ∧
        Refused read duplicate after.keys entry e := by
  constructor
  · intro failed
    have first := (readAll_eq_error_iff (mem_keys_comm taken)).1 (congrArg Prod.fst failed)
    obtain ⟨before, entry, rest, items, rfl, early, refused⟩ := first
    obtain ⟨mid, whole⟩ : ∃ mid, readAll read duplicate taken before = (.ok items, mid) :=
      ⟨_, Prod.ext ((readAll_eq_ok_iff (mem_keys_comm taken)).2 early) rfl⟩
    have grown := (readAll_eq_ok_grown_iff.1 whole).2
    have again : Refused read duplicate mid.keys entry e := by
      cases refused with
      | unread failed => exact .unread failed
      | repeated its old =>
        rw [List.mem_append, ← mem_keys_comm, ← grown, mem_keys_comm] at old
        exact .repeated its old
    have stopped := failed.symm.trans (readAll_of_refused whole again)
    obtain rfl := (Prod.mk.inj stopped).2
    exact ⟨before, entry, rest, items, rfl, whole, again⟩
  · rintro ⟨before, entry, rest, items, rfl, early, refused⟩
    exact readAll_of_refused early refused

end

namespace Batch

/-- Entry by entry there is a declaration with a new name, and these names are taken from then on. -/
structure Accepted (kind : VariableKind) (taken : NameSet) (entries : List String)
    (items : List Assignment) (after : NameSet) : Prop where
  each : List.Forall₂ kind.Declares entries items
  distinct : (items.map (·.name)).Nodup
  fresh : ∀ a ∈ items, taken.contains a.name = false
  grown : ∀ name, after.contains name = true ↔
    taken.contains name = true ∨ name ∈ items.map (·.name)

/-- What reading a batch amounts to: either all entries are accepted, or those before the first that
has a fault of its own or repeats a name. -/
inductive Told (b : Batch) (taken : NameSet) : Outcome → NameSet → Prop
  | accepted {items : List Assignment} {after : NameSet}
      (all : Accepted b.kind taken b.entries items after) : Told b taken (.ok items) after
  | faulty {before rest : List String} {entry : String} {items : List Assignment}
      {after : NameSet} {e : DeclarationError} (split : b.entries = before ++ entry :: rest)
      (early : Accepted b.kind taken before items after) (fault : b.kind.Fault b.field entry e) :
      Told b taken (.error e) after
  | repeated {before rest : List String} {entry : String} {items : List Assignment}
      {after : NameSet} {a : Assignment} (split : b.entries = before ++ entry :: rest)
      (early : Accepted b.kind taken before items after) (its : b.kind.Declares entry a)
      (again : taken.contains a.name = true ∨ a.name ∈ items.map (·.name)) :
      Told b taken (.error (.duplicateVariable b.field a.name)) after

/-- The batches of a run, each told with the names taken when its turn comes. -/
inductive InTurn : NameSet → List Batch → List Outcome → NameSet → Prop
  | nil {taken : NameSet} : InTurn taken [] [] taken
  | cons {taken mid last : NameSet} {b : Batch} {rest : List Batch} {outcome : Outcome}
      {outcomes : List Outcome} (first : b.Told taken outcome mid)
      (later : InTurn mid rest outcomes last) :
      InTurn taken (b :: rest) (outcome :: outcomes) last

variable {b : Batch} {kind : VariableKind} {field : String} {taken after last : NameSet}
  {entries : List String} {items : List Assignment} {outcome : Outcome}

theorem read_eq_readAll (b : Batch) (taken : NameSet) :
    b.read taken =
      readAll (b.kind.reader b.field) (.duplicateVariable b.field) taken b.entries := by
  obtain ⟨kind, field, entries⟩ := b
  cases kind <;> rfl

theorem accepted_iff {duplicate : String → DeclarationError} :
    readAll (kind.reader field) duplicate taken entries = (.ok items, after) ↔
      Accepted kind taken entries items after := by
  rw [readAll_eq_ok_grown_iff]
  have each_iff : List.Forall₂ (fun entry a => kind.reader field entry = .ok a) entries items ↔
      List.Forall₂ kind.Declares entries items := by
    simp only [VariableKind.reader_eq_ok_iff]
  have fresh_iff (a : Assignment) : a.name ∉ taken.keys ↔ taken.contains a.name = false := by
    rw [← mem_keys_comm, Bool.not_eq_true]
  constructor
  · rintro ⟨⟨each, distinct, fresh⟩, grown⟩
    exact ⟨each_iff.1 each, distinct, fun a member => (fresh_iff a).1 (fresh a member), grown⟩
  · rintro ⟨each, distinct, fresh, grown⟩
    exact ⟨⟨each_iff.2 each, distinct, fun a member => (fresh_iff a).2 (fresh a member)⟩, grown⟩

theorem read_eq_iff : b.read taken = (outcome, after) ↔ b.Told taken outcome after := by
  rw [read_eq_readAll]
  constructor
  · intro read
    cases outcome with
    | ok items => exact .accepted (accepted_iff.1 read)
    | error e =>
      obtain ⟨before, entry, rest, items, split, early, refused⟩ :=
        readAll_eq_error_taken_iff.1 read
      have early := accepted_iff.1 early
      cases refused with
      | unread failed => exact .faulty split early (VariableKind.reader_eq_error_iff.1 failed)
      | repeated its again =>
        have again := (early.grown _).1 ((mem_keys_comm after _).2 again)
        exact .repeated split early (VariableKind.reader_eq_ok_iff.1 its) again
  · intro told
    cases told with
    | accepted all => exact accepted_iff.2 all
    | faulty split early fault =>
      rw [split]
      exact readAll_of_refused (accepted_iff.2 early)
        (.unread (VariableKind.reader_eq_error_iff.2 fault))
    | repeated split early its again =>
      have again := (mem_keys_comm after _).1 ((early.grown _).2 again)
      rw [split]
      exact readAll_of_refused (accepted_iff.2 early)
        (.repeated (VariableKind.reader_eq_ok_iff.2 its) again)

/-- Batches that share their names are read as they are told, from any names taken before. -/
theorem readInTurn_iff {batches : List Batch} {outcomes : List Outcome} :
    readInTurn taken batches = (outcomes, last) ↔ InTurn taken batches outcomes last := by
  induction batches generalizing taken outcomes with
  | nil =>
    constructor
    · rintro ⟨⟩
      exact .nil
    · rintro ⟨⟩
      rfl
  | cons b rest ih =>
    constructor
    · intro run
      have outcomes_eq := congrArg Prod.fst run
      have last_eq := congrArg Prod.snd run
      subst outcomes_eq
      exact .cons (read_eq_iff.1 rfl) (ih.1 (Prod.ext rfl last_eq))
    · rintro ⟨⟩
      next mid outcome outcomes first later =>
        simp only [readInTurn, read_eq_iff.2 first, ih.2 later]

example :
    readInTurn .empty [⟨.imports, "from_env", ["home=HOME", "user=1"]⟩,
        ⟨.vars, "vars", ["base=/srv", "home=%{base}"]⟩] =
      ([.error (.badName (.invalid "1" (.start '1'))),
        .error (.duplicateVariable "vars" "home")], .ofNames ["base", "home"]) := by
  decide +kernel

end Batch
end Declaration
end ScopedCommands
