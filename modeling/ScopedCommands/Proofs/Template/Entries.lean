import ScopedCommands.Proofs.Config.Names
import ScopedCommands.Proofs.Template.Settling

/-!
The env entries of a bound template. Reading an entry as a whole and reading its key and its value
by themselves come to the same, so the entries that binding gives are those of the fields filled in,
unless a key of them is no name in either reading.
-/
namespace ScopedCommands.Template

open Outcome

def entryKey (entry : String) : String := String.ofList (entry.toList.takeWhile (· ≠ '='))

structure Keyed (entry : String) : Prop where
  sign : '=' ∈ entry.toList
  name : Name.check (entryKey entry) = .ok ()

structure KeyedApart (before entries : List String) : Prop where
  keyed : ∀ entry ∈ entries, Keyed entry
  distinct : (before ++ entries.map entryKey).Nodup

/-- The same entry, or two that have a sign but no name before it. -/
def Alike (entry other : String) : Prop :=
  entry = other ∨ ('=' ∈ entry.toList ∧ ¬ Keyed entry) ∧ '=' ∈ other.toList ∧ ¬ Keyed other

theorem Alike.eq_of_unsigned {entry other : String} (h : Alike entry other)
    (unsigned : '=' ∉ entry.toList) : entry = other :=
  h.resolve_right fun unnamed => unsigned unnamed.1.1

theorem Alike.eq_of_keyed {entry other : String} (h : Alike entry other) (keyed : Keyed entry) :
    entry = other :=
  h.resolve_right fun unnamed => unnamed.1.2 keyed

theorem Alike.unnamed {entry other : String} (h : Alike entry other) (sign : '=' ∈ entry.toList)
    (unkeyed : ¬ Keyed entry) : '=' ∈ other.toList ∧ ¬ Keyed other := by
  rcases h with rfl | both
  · exact ⟨sign, unkeyed⟩
  · exact both.2

theorem entryKey_pair {key : String} (free : '=' ∉ key.toList) (value : String) :
    entryKey (key ++ "=" ++ value) = key := by
  have before : ∀ c ∈ key.toList, (c ≠ '=') := fun c member same => free (same ▸ member)
  rw [entryKey, String.toList_append, String.toList_append, List.append_assoc,
    List.takeWhile_append_of_pos (by simpa using before)]
  simp [String.ofList_toList]

theorem sign_mem_pair (key value : String) : '=' ∈ (key ++ "=" ++ value).toList := by
  simp

theorem entryKey_of_parse {entry : String} {a : Assignment}
    (parsed : Assignment.parse entry = some a) :
    '=' ∈ entry.toList ∧ entryKey entry = a.name := by
  obtain ⟨free, rfl⟩ := Assignment.parse_eq_some_iff.1 parsed
  exact ⟨sign_mem_pair a.name a.value, entryKey_pair free a.value⟩

theorem not_check_of_foreign {name : String} (foreign : ∃ c ∈ name.toList, Name.isNameChar c = false) :
    Name.check name ≠ .ok () := by
  rintro checked
  obtain ⟨c, member, other⟩ := foreign
  have word := (Name.wellFormed_of_check checked).isWord.2
  rw [List.all_eq_true.1 word c member] at other
  cases other

theorem unnamed_pair {key : String} (free : '=' ∉ key.toList)
    (foreign : ∃ c ∈ key.toList, Name.isNameChar c = false) (value : String) :
    '=' ∈ (key ++ "=" ++ value).toList ∧ ¬ Keyed (key ++ "=" ++ value) := by
  refine ⟨sign_mem_pair key value, fun keyed => not_check_of_foreign foreign ?_⟩
  rw [← entryKey_pair free value]
  exact keyed.name

inductive Shaped (raw : String) : EnvShape → Prop where
  | spread {p : Placeholder} (alone : Placeholder.sole (parts raw) = some p)
      (spreads : p.kind = .spread) : Shaped raw (.spread p)
  | sole {p : Placeholder} (alone : Placeholder.sole (parts raw) = some p)
      (scalar : p.kind ≠ .spread) : Shaped raw (.sole p)
  | pair {a : Assignment} {whole key value : List FieldPart} (read : parseField raw = .ok whole)
      (mixed : Placeholder.sole whole = none) (parsed : Assignment.parse raw = some a)
      (own : parseField a.name = .ok key) (plain : Placeholder.allOf key = [])
      (other : parseField a.value = .ok value) : Shaped raw (.pair a.name value)

theorem shaped_of_classifyEntry {template raw : String} {shape : EnvShape}
    (read : classifyEntry template raw = .ok shape) : Shaped raw shape := by
  obtain ⟨whole, parsed, rest⟩ := bind_eq_ok.1 read
  cases alone : Placeholder.sole whole with
  | some p =>
    rw [alone] at rest
    rw [← parts_of_parseField parsed] at alone
    by_cases spreads : p.kind = .spread
    · simp only [if_pos spreads] at rest
      cases rest
      exact .spread alone spreads
    · simp only [if_neg spreads] at rest
      cases rest
      exact .sole alone spreads
  | none =>
    rw [alone] at rest
    cases cut : Assignment.parse raw with
    | none =>
      rw [cut] at rest
      dsimp only at rest
      split at rest <;> cases rest
    | some a =>
      rw [cut] at rest
      obtain ⟨key, own, rest⟩ := bind_eq_ok.1 rest
      split at rest
      next plain =>
        obtain ⟨value, other, done⟩ := bind_eq_ok.1 rest
        cases done
        exact .pair parsed alone cut own plain other
      · cases rest

theorem Shaped.pair_eq {raw key : String} {value : List FieldPart}
    (h : Shaped raw (.pair key value)) :
    Placeholder.sole (parts raw) = none ∧
      Placeholder.allOf (parts raw) = Placeholder.allOf value ∧
      ∀ params, Alike (key ++ "=" ++ FieldPart.fill params value)
        (FieldPart.fill params (parts raw)) := by
  obtain - | - | ⟨read, mixed, parsed, own, plain, other⟩ := h
  rename_i a whole keyParts
  obtain ⟨free, rfl⟩ := Assignment.parse_eq_some_iff.1 parsed
  obtain ⟨items, spelled, rfl⟩ := Placeholder.parse_eq_ok_iff.1 (mapError_eq_ok.1 read)
  rw [parts_of_parseField read]
  have letters : a.text.toList = a.name.toList ++ '=' :: a.value.toList := by
    simp [Assignment.text]
  rw [letters] at spelled
  obtain ⟨before, after, first, second, rfl⟩ := spelled.cut free
  have keyParts : keyParts = Placeholder.merge before := by
    have again := Placeholder.parse_eq_ok_iff.2 ⟨before, first, rfl⟩
    rw [mapError_eq_ok.1 own] at again
    exact Except.ok.inj again
  have valueParts : value = Placeholder.merge after := by
    have again := Placeholder.parse_eq_ok_iff.2 ⟨after, second, rfl⟩
    rw [mapError_eq_ok.1 other] at again
    exact Except.ok.inj again
  subst keyParts valueParts
  rw [Placeholder.allOf_merge] at plain
  refine ⟨mixed, ?_, fun params => ?_⟩
  · rw [Placeholder.allOf_merge, Placeholder.allOf_merge, List.filterMap_append, plain]
    rfl
  · have cut : FieldPart.fill params (Placeholder.merge (before ++ .plain '=' :: after)) =
        String.ofList (before.flatMap (Placeholder.Item.shown (·.value params))) ++ "=" ++
          FieldPart.fill params (Placeholder.merge after) := by
      rw [FieldPart.fill_merge, FieldPart.fill_merge, List.flatMap_append, List.flatMap_cons,
        String.ofList_append, String.ofList_append, String.append_assoc]
      rfl
    rw [cut]
    rcases first.shown_eq_or plain (·.value params) with same | ⟨foreign, shown⟩
    · rw [same, String.ofList_toList]
      exact .inl rfl
    · have unsigned := fun sign => free (first.shown_subset plain (·.value params) sign)
      refine .inr ⟨unnamed_pair free foreign _, unnamed_pair ?_ ?_ _⟩
      · rwa [String.toList_ofList]
      · rwa [String.toList_ofList]

namespace Call

inductive EntryFault (template : String) (before entries : List String) : TemplateError → Prop where
  | malformed {entry : String} {origin : EnvOrigin} (member : entry ∈ entries)
      (unsigned : '=' ∉ entry.toList) (bound : origin ≠ .definition) :
      EntryFault template before entries (.malformedEntry template entry origin)
  | badKey {key : String} {cause : NameError} (origin : EnvOrigin)
      (invalid : Name.check key = .error cause)
      (unnamed : ∃ entry ∈ entries, '=' ∈ entry.toList ∧ ¬ Keyed entry) :
      EntryFault template before entries (.badKey template key origin cause)
  | duplicateKey {key : String} (first second : EnvOrigin)
      (twice : 2 ≤ (before ++ entries.map entryKey).count key) :
      EntryFault template before entries (.duplicateKey template key first second)

theorem EntryFault.cons {template : String} {before entries : List String} {e : TemplateError}
    {entry : String} (h : EntryFault template (before ++ [entryKey entry]) entries e) :
    EntryFault template before (entry :: entries) e := by
  cases h with
  | malformed member unsigned bound =>
    exact .malformed (List.mem_cons_of_mem entry member) unsigned bound
  | badKey origin invalid unnamed =>
    obtain ⟨other, member, unnamed⟩ := unnamed
    exact .badKey origin invalid ⟨other, List.mem_cons_of_mem entry member, unnamed⟩
  | duplicateKey first second twice =>
    refine .duplicateKey first second ?_
    rwa [List.append_assoc] at twice

theorem keyedApart_cons {before entries : List String} {entry : String} (keyed : Keyed entry) :
    KeyedApart before (entry :: entries) ↔ KeyedApart (before ++ [entryKey entry]) entries := by
  constructor
  · intro h
    refine ⟨fun other member => h.keyed other (List.mem_cons_of_mem entry member), ?_⟩
    rw [List.append_assoc]
    exact h.distinct
  · intro h
    refine ⟨List.forall_mem_cons.2 ⟨keyed, h.keyed⟩, ?_⟩
    rw [List.map_cons, List.append_cons]
    exact h.distinct

structure Seen (seen : Dict EnvOrigin) (before : List String) : Prop where
  same : ∀ key, seen.contains key = true ↔ key ∈ before
  distinct : before.Nodup

theorem Seen.insert {seen : Dict EnvOrigin} {before : List String} {key : String}
    (h : Seen seen before) (new : seen.get? key = none) (origin : EnvOrigin) :
    Seen (seen.insert key origin) (before ++ [key]) where
  same other := by
    rw [Dict.contains, Dict.get?_insert, List.mem_append, List.mem_singleton, ← h.same]
    split <;> simp [*, Dict.contains]
  distinct := by
    have absent : key ∉ before := by
      rw [← h.same, Dict.contains, new]
      decide
    refine List.nodup_append.2 ⟨h.distinct, List.nodup_singleton key, fun name member other own => ?_⟩
    rintro rfl
    rw [List.mem_singleton.1 own] at member
    exact absent member

/-- The check of one more entry: it has no sign, or no valid key, or a key that was seen before, or
the check goes on with its key seen. -/
theorem checkEnv_cons (template : String) (seen : Dict EnvOrigin) (entry : String)
    (origin : EnvOrigin) (rest : List (String × EnvOrigin)) :
    '=' ∉ entry.toList ∧ checkEnv template seen ((entry, origin) :: rest) =
        .error (.malformedEntry template entry origin) ∨
      ('=' ∈ entry.toList ∧ ¬ Keyed entry) ∧ (∃ cause, Name.check (entryKey entry) = .error cause ∧
        checkEnv template seen ((entry, origin) :: rest) =
          .error (.badKey template (entryKey entry) origin cause)) ∨
      Keyed entry ∧ (∃ first, seen.get? (entryKey entry) = some first ∧
        checkEnv template seen ((entry, origin) :: rest) =
          .error (.duplicateKey template (entryKey entry) first origin)) ∨
      Keyed entry ∧ seen.get? (entryKey entry) = none ∧
        checkEnv template seen ((entry, origin) :: rest) =
          checkEnv template (seen.insert (entryKey entry) origin) rest := by
  rw [checkEnv]
  cases parsed : Assignment.parse entry with
  | none => exact .inl ⟨Assignment.parse_eq_none_iff.1 parsed, rfl⟩
  | some a =>
    obtain ⟨sign, key⟩ := entryKey_of_parse parsed
    rw [key]
    cases named : Name.check a.name with
    | error cause =>
      have unkeyed : ¬ Keyed entry := by
        intro keyed
        have valid := keyed.name
        rw [key, named] at valid
        cases valid
      exact .inr (.inl ⟨⟨sign, unkeyed⟩, cause, rfl, by simp only [named]⟩)
    | ok _ =>
      have keyed : Keyed entry := ⟨sign, by rw [key, named]⟩
      cases found : seen.get? a.name with
      | some first => exact .inr (.inr (.inl ⟨keyed, first, rfl, by simp only [named, found]⟩))
      | none => exact .inr (.inr (.inr ⟨keyed, rfl, by simp only [named, found]⟩))

theorem checkEnv_settled (template : String) {bound : List (String × EnvOrigin)}
    {entries : List String} {seen : Dict EnvOrigin} {before : List String}
    (alike : List.Forall₂ Alike (bound.map (·.1)) entries)
    (origins : ∀ b ∈ bound, b.2 ≠ .definition) (known : Seen seen before) :
    (KeyedApart before entries ∧ checkEnv template seen bound = .ok () ∧
      bound.map (·.1) = entries) ∨
    (¬ KeyedApart before entries ∧
      ∃ e, checkEnv template seen bound = .error e ∧ EntryFault template before entries e) := by
  induction bound generalizing entries seen before with
  | nil =>
    cases alike
    exact .inl ⟨⟨nofun, by simpa using known.distinct⟩, rfl, rfl⟩
  | cons first rest ih =>
    obtain ⟨entry, origin⟩ := first
    obtain ⟨bound, later⟩ := List.forall_mem_cons.1 origins
    rw [List.map_cons] at alike
    obtain - | ⟨one, others⟩ := alike
    rename_i other entries
    rcases checkEnv_cons template seen entry origin rest with ⟨unsigned, failed⟩ |
      ⟨unnamed, cause, invalid, failed⟩ | ⟨keyed, first, found, failed⟩ | ⟨keyed, new, goes⟩
    · obtain rfl := one.eq_of_unsigned unsigned
      exact .inr ⟨fun h => unsigned (h.keyed entry List.mem_cons_self).sign, _, failed,
        .malformed List.mem_cons_self unsigned bound⟩
    · have unnamed := one.unnamed unnamed.1 unnamed.2
      exact .inr ⟨fun h => unnamed.2 (h.keyed other List.mem_cons_self), _, failed,
        .badKey origin invalid ⟨other, List.mem_cons_self, unnamed⟩⟩
    · obtain rfl := one.eq_of_keyed keyed
      have repeated : entryKey entry ∈ before := by
        rw [← known.same, Dict.contains, found]
        rfl
      refine .inr ⟨fun h => ?_, _, failed, .duplicateKey first origin ?_⟩
      · exact (List.nodup_append.1 h.distinct).2.2 _ repeated _ List.mem_cons_self rfl
      · have once := List.count_pos_iff.2 repeated
        rw [List.map_cons, List.count_append, List.count_cons_self]
        omega
    · obtain rfl := one.eq_of_keyed keyed
      rw [goes]
      rcases ih others later (known.insert new origin) with
        ⟨apart, checked, same⟩ | ⟨clash, e, failed, fault⟩
      · exact .inl ⟨(keyedApart_cons keyed).2 apart, checked, congrArg (entry :: ·) same⟩
      · exact .inr ⟨fun h => clash ((keyedApart_cons keyed).1 h), e, failed, fault.cons⟩

variable (call : Call)

theorem fst_elements (index : Nat) (p : Placeholder) (position : Nat) (items : List String) :
    (elements index p position items).map (·.1) = items := by
  induction items generalizing position with
  | nil => rfl
  | cons item rest ih => exact congrArg (item :: ·) (ih (position + 1))

theorem origin_elements {index : Nat} {p : Placeholder} {position : Nat} {items : List String} :
    ∀ b ∈ elements index p position items, b.2 ≠ .definition := by
  induction items generalizing position with
  | nil => nofun
  | cons item rest ih => exact List.forall_mem_cons.2 ⟨nofun, ih⟩

theorem alike_refl (entries : List String) : List.Forall₂ Alike entries entries :=
  List.forall₂_same.2 fun _ _ => .inl rfl

theorem fills_envEntry {raw : String} (h : Entry call.template raw) (index : Nat) :
    ∃ bound, call.Fills (call.envEntry index raw) (placeholdersIn [raw]) bound ∧
      List.Forall₂ Alike (bound.map (·.1)) (valuesOf call.params [raw]) ∧
      ∀ b ∈ bound, b.2 ≠ .definition := by
  obtain ⟨shape, read, pairs⟩ := h
  have shaped := shaped_of_classifyEntry read
  rw [placeholdersIn_singleton, valuesOf_singleton]
  unfold Call.envEntry FieldPart.values
  rw [read]
  simp only [lift_ok_bind]
  cases shape with
  | spread p =>
    obtain ⟨alone, spreads⟩ := shaped
    rw [Placeholder.allOf_of_sole alone, alone]
    refine ⟨_, (call.fills_spread spreads _).map fun _ => rfl, ?_, origin_elements⟩
    simp only [fst_elements, Placeholder.values, spreads]
    exact alike_refl _
  | sole p =>
    obtain - | ⟨alone, scalar⟩ := shaped
    rw [Placeholder.allOf_of_sole alone, alone]
    refine ⟨_, (call.fills_sole scalar _).map fun _ => rfl, ?_, by simp⟩
    have kept : (·.1) ∘ (·, EnvOrigin.placeholder index p) = (id : String → String) := rfl
    rw [Placeholder.toList_head?_values call.params scalar, List.map_map, kept, List.map_id]
    exact alike_refl _
  | pair key value =>
    obtain ⟨mixed, same, alike⟩ := shaped.pair_eq
    have scalar := Placeholder.firstSpread_eq_none_iff.1 pairs
    rw [mixed, same]
    refine ⟨_, (call.fills_text _ scalar).map fun _ => rfl, ?_, by simp⟩
    exact .cons (alike call.params) .nil

theorem fills_envEntries {raws : List String} (h : ∀ raw ∈ raws, Entry call.template raw)
    (index : Nat) :
    ∃ bound, call.Fills (call.envEntries index raws) (placeholdersIn raws) bound ∧
      List.Forall₂ Alike (bound.map (·.1)) (valuesOf call.params raws) ∧
      ∀ b ∈ bound, b.2 ≠ .definition := by
  induction raws generalizing index with
  | nil => exact ⟨[], fills_pure [], .nil, nofun⟩
  | cons raw rest ih =>
    obtain ⟨own, others⟩ := List.forall_mem_cons.1 h
    obtain ⟨first, fills, alike, origins⟩ := call.fills_envEntry own index
    obtain ⟨later, fillsLater, alikeLater, originsLater⟩ := ih others (index + 1)
    refine ⟨first ++ later, ?_, ?_, List.forall_mem_append.2 ⟨origins, originsLater⟩⟩
    · rw [placeholdersIn_cons, ← placeholdersIn_singleton]
      exact fills.bind fun _ => fillsLater.map fun _ => rfl
    · rw [List.map_append, valuesOf_cons, ← valuesOf_singleton]
      exact List.rel_append alike alikeLater

/-- The env of a call is that of the fields filled in, if its entries have keys of their own. -/
theorem settles_env {raws : List String} (h : ∀ raw ∈ raws, Entry call.template raw) :
    Settles (call.env raws)
      ((∀ p ∈ placeholdersIn raws, call.Supplies p) ∧ KeyedApart [] (valuesOf call.params raws))
      (call.note · (placeholdersIn raws)) (valuesOf call.params raws)
      (fun e => call.Fault (placeholdersIn raws) e ∨
        EntryFault call.template [] (valuesOf call.params raws) e) := by
  obtain ⟨bound, fills, alike, origins⟩ := call.fills_envEntries h 0
  have known : Seen .empty [] := ⟨by simp [Dict.contains, Dict.get?_empty], List.nodup_nil⟩
  have settled := checkEnv_settled call.template alike origins known
  generalize valuesOf call.params raws = entries at settled
  let fault := fun e => call.Fault (placeholdersIn raws) e ∨ EntryFault call.template [] entries e
  have first : Settles (call.envEntries 0 raws) (∀ p ∈ placeholdersIn raws, call.Supplies p)
      (call.note · (placeholdersIn raws)) bound fault :=
    Settles.congr fills Iff.rfl fun e fault => .inl fault
  have checked : Settles (liftM (checkEnv call.template .empty bound) : Bind Unit)
      (KeyedApart [] entries) id () fault := by
    refine Settles.lift (fun apart => ?_) fun clash => ?_
    · rcases settled with ⟨_, checked, _⟩ | ⟨clash, _⟩
      · exact checked
      · exact absurd apart clash
    · rcases settled with ⟨apart, _⟩ | ⟨_, e, failed, fault⟩
      · exact absurd apart clash
      · exact ⟨e, failed, .inr fault⟩
  have last : KeyedApart [] entries →
      Settles (pure (bound.map (·.1)) : Bind _) True id entries fault := by
    intro apart
    rcases settled with ⟨_, _, same⟩ | ⟨clash, _⟩
    · rw [same]
      exact Settles.pure entries
    · exact absurd apart clash
  let next := fun bound : List (String × EnvOrigin) => (do
    checkEnv call.template .empty bound
    return bound.map (·.1) : Bind (List String))
  have rest : Settles (next bound) (KeyedApart [] entries ∧ True) (id ∘ id) entries fault :=
    checked.bind last
  have whole := first.bind (k := next) fun _ => rest
  exact whole.congr (by rw [and_true]) fun _ => id

end Call
end ScopedCommands.Template
