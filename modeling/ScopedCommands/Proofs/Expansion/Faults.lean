import ScopedCommands.Proofs.Expansion.Grounded

namespace ScopedCommands

open Outcome

/-- What is wrong in `text`, to which the names of `path` lead. -/
inductive Fault (lookup : Lookup) (external : Option External) (scope field : String)
    (path : List String) (text : String) : ExpansionError → Prop where
  | malformed {cause : ReferenceError} (unread : Reference.parse text = .error cause) :
      Fault lookup external scope field path text (.malformed cause)
  | circular {name : String} (mentioned : Reference.Mentions text name) (passed : name ∈ path) :
      Fault lookup external scope field path text (.circular (path ++ [name]))
  | tooDeep {name inner : String} (mentioned : Reference.Mentions text name)
      (bound : lookup name = some (.raw inner)) (new : name ∉ path)
      (full : path.length = Context.depthLimit) :
      Fault lookup external scope field path text (.tooDeep name Context.depthLimit)
  | undefined {name : String} (mentioned : Reference.Mentions text name)
      (unbound : lookup name = none)
      (unseen : ∀ env, external = some env →
        env.allowlist.allows name = false ∧ env.values.contains name = false) :
      Fault lookup external scope field path text (.undefined name)
  | notAllowed {name : String} {env : External} (mentioned : Reference.Mentions text name)
      (unbound : lookup name = none) (view : external = some env)
      (denied : env.allowlist.allows name = false) (isSet : env.values.contains name = true) :
      Fault lookup external scope field path text
        (.notAllowed scope (path.getLast?.getD field) name)

theorem Context.enter_eq_error {ctx : Context} {name : String} {e : ExpansionError}
    (failed : ctx.enter name = .error e) :
    (ctx.chain.contains name = true ∧ e = .circular (ctx.chain.order ++ [name])) ∨
      ctx.chain.contains name = false ∧ depthLimit ≤ ctx.depth ∧ e = .tooDeep name depthLimit := by
  unfold enter at failed
  cases onChain : ctx.chain.contains name with
  | true =>
    simp only [onChain, if_true] at failed
    cases failed
    exact .inl ⟨rfl, rfl⟩
  | false =>
    by_cases deep : depthLimit ≤ ctx.depth
    · simp only [onChain, Bool.false_eq_true, if_false, deep, if_true] at failed
      cases failed
      exact .inr ⟨rfl, deep, rfl⟩
    · simp [onChain, deep] at failed

namespace Expansion

variable {lookup : Lookup} {ctx : Context} {name : String} {e : ExpansionError}

theorem join_eq_error_iff {value : String → Except ExpansionError String}
    {segments : List Segment} :
    join value segments = .error e ↔
      ∃ before name position after, segments = before ++ .reference name position :: after ∧
        (∀ earlier place, .reference earlier place ∈ before → ∃ v, value earlier = .ok v) ∧
        value name = .error e := by
  constructor
  · intro failed
    induction segments with
    | nil => cases failed
    | cons segment rest ih =>
      cases segment with
      | literal text =>
        obtain ⟨before, name, position, after, rfl, known, its⟩ := ih (map_eq_error.1 failed)
        refine ⟨.literal text :: before, name, position, after, rfl, ?_, its⟩
        intro earlier place member
        rcases List.mem_cons.1 member with impossible | listed
        · cases impossible
        · exact known earlier place listed
      | reference first place =>
        rcases bind_eq_error.1 failed with own | ⟨v, has, tail⟩
        · refine ⟨[], first, place, rest, rfl, ?_, own⟩
          intro _ _ member
          cases member
        · obtain ⟨before, name, position, after, rfl, known, its⟩ := ih (map_eq_error.1 tail)
          refine ⟨.reference first place :: before, name, position, after, rfl, ?_, its⟩
          intro earlier place member
          rcases List.mem_cons.1 member with same | listed
          · cases same
            exact ⟨v, has⟩
          · exact known earlier place listed
  · rintro ⟨before, name, position, after, rfl, known, its⟩
    induction before with
    | nil => exact bind_eq_error.2 (.inl its)
    | cons segment rest ih =>
      have later := ih fun earlier place member =>
        known earlier place (List.mem_cons_of_mem segment member)
      cases segment with
      | literal text => exact map_eq_error.2 later
      | reference first place =>
        obtain ⟨v, has⟩ := known first place List.mem_cons_self
        exact bind_eq_error.2 (.inr ⟨v, has, map_eq_error.2 later⟩)

theorem expandIn_eq_error {raw : String} (failed : expandIn ctx lookup raw = .error e) :
    (∃ cause, Reference.parse raw = .error cause ∧ e = .malformed cause) ∨
      ∃ name, Reference.Mentions raw name ∧ valueIn ctx lookup name = .error e := by
  rw [expandIn_eq] at failed
  cases read : Reference.parse raw with
  | error cause =>
    rw [read] at failed
    cases failed
    exact .inl ⟨cause, rfl, rfl⟩
  | ok segments =>
    rw [read] at failed
    obtain ⟨before, name, position, after, rfl, _, its⟩ := join_eq_error_iff.1 failed
    exact .inr ⟨name, ⟨_, position, read, by simp⟩, its⟩

theorem valueIn_eq_error (failed : valueIn ctx lookup name = .error e) :
    (∃ text, lookup name = some (.raw text) ∧
      (ctx.enter name = .error e ∨
        ∃ inner, ctx.enter name = .ok inner ∧ expandIn inner lookup text = .error e)) ∨
    lookup name = none ∧ unbound name ctx = .error e := by
  unfold valueIn at failed
  cases bound : lookup name with
  | none =>
    rw [bound] at failed
    exact .inr ⟨rfl, failed⟩
  | some binding =>
    rw [bound] at failed
    cases binding with
    | resolved own => cases failed
    | raw text => exact .inl ⟨text, rfl, bind_eq_error.1 failed⟩

theorem unbound_eq_error (failed : unbound name ctx = .error e) :
    (ctx.chain.contains name = true ∧ e = .circular (ctx.chain.order ++ [name])) ∨
    (∃ env, ctx.external = some env ∧ env.allowlist.allows name = false ∧
      env.values.contains name = true ∧ e = .notAllowed ctx.scope ctx.user name) ∨
    (∀ env, ctx.external = some env →
      env.allowlist.allows name = false ∧ env.values.contains name = false) ∧
        e = .undefined name := by
  unfold unbound at failed
  cases onChain : ctx.chain.contains name with
  | true =>
    refine .inl ⟨rfl, ?_⟩
    cases view : ctx.external with
    | none =>
      simp only [view, onChain, if_true] at failed
      cases failed
      rfl
    | some env =>
      simp only [view, onChain, if_true] at failed
      split at failed
      · cases failed
      · cases failed
        rfl
  | false =>
    refine .inr ?_
    cases view : ctx.external with
    | none =>
      simp only [view, onChain, Bool.false_eq_true, if_false] at failed
      cases failed
      exact .inr ⟨nofun, rfl⟩
    | some env =>
      simp only [view, onChain, Bool.false_eq_true, if_false] at failed
      split at failed
      · cases failed
      next denied =>
        split at failed
        next isSet =>
          cases failed
          exact .inl ⟨env, rfl, by simpa using denied, isSet, rfl⟩
        next isUnset =>
          cases failed
          refine .inr ⟨fun other same => ?_, rfl⟩
          cases same
          exact ⟨by simpa using denied, by simpa using isUnset⟩

end Expansion

open Expansion

variable {lookup : Lookup}

/-- The error of an expansion, with the names that led to it behind those that were being expanded
before. -/
theorem fault_of_expandIn {ctx : Context} {raw : String} {e : ExpansionError}
    (coherent : ctx.Coherent) (failed : expandIn ctx lookup raw = .error e) :
    ∃ path last, Leads lookup raw path last ∧ (ctx.chain.order ++ path).Nodup ∧
      (ctx.chain.order ++ path).length ≤ Context.depthLimit ∧
      Fault lookup ctx.external ctx.scope ctx.field (ctx.chain.order ++ path) last e := by
  induction ctx using Context.induction_on_enter generalizing raw with
  | step ctx ih =>
    have size : ctx.chain.order.length = ctx.depth := coherent.depth.symm
    have limited := coherent.limited
    -- A fault of the text itself ends the path where it starts.
    have here (own : Fault lookup ctx.external ctx.scope ctx.field ctx.chain.order raw e) :
        ∃ path last, Leads lookup raw path last ∧ (ctx.chain.order ++ path).Nodup ∧
          (ctx.chain.order ++ path).length ≤ Context.depthLimit ∧
          Fault lookup ctx.external ctx.scope ctx.field (ctx.chain.order ++ path) last e := by
      refine ⟨[], raw, .here raw, ?_⟩
      rw [List.append_nil]
      exact ⟨coherent.distinct, by omega, own⟩
    rcases expandIn_eq_error failed with ⟨cause, unread, rfl⟩ | ⟨name, mentioned, its⟩
    · exact here (.malformed unread)
    rcases valueIn_eq_error its with ⟨text, bound, refused | ⟨inner, entered, inside⟩⟩ | ⟨none, its⟩
    · rcases Context.enter_eq_error refused with ⟨onChain, rfl⟩ | ⟨off, deep, rfl⟩
      · exact here (.circular mentioned ((coherent.members name).1 onChain))
      · have new : name ∉ ctx.chain.order := by
          rw [← coherent.members, off]
          nofun
        exact here (.tooDeep mentioned bound new (by omega))
    · obtain ⟨path, last, way, apart, room, fault⟩ := ih name inner entered
        (coherent.enter entered) inside
      obtain ⟨_, _, rfl⟩ := Context.enter_eq_ok.1 entered
      simp only [List.append_assoc, List.singleton_append] at apart room fault
      exact ⟨name :: path, last, .through mentioned bound way, apart, room, fault⟩
    · rcases unbound_eq_error its with ⟨onChain, rfl⟩ | ⟨env, view, denied, isSet, rfl⟩ | ⟨unseen, rfl⟩
      · exact here (.circular mentioned ((coherent.members name).1 onChain))
      · exact here (.notAllowed mentioned none view denied isSet)
      · exact here (.undefined mentioned none unseen)

/-- Variables that refer to one another in a ring of that size: the names come back after so many
steps and no sooner. -/
structure Ring (lookup : Lookup) (size : Nat) (name : Nat → String) : Prop where
  positive : 1 ≤ size
  same_iff : ∀ i j, name i = name j ↔ i % size = j % size
  next : ∀ i, ∃ text, lookup (name i) = some (.raw text) ∧
    Reference.MentionsOnly text (name (i + 1))

namespace Ring

variable {size : Nat} {name : Nat → String} {raw : String}

def stretch (name : Nat → String) (i length : Nat) : List String :=
  (List.range length).map fun j => name (i + j)

theorem stretch_succ (i length : Nat) :
    stretch name i (length + 1) = name i :: stretch name (i + 1) length := by
  simp only [stretch, List.range_succ_eq_map, List.map_cons, List.map_map, Nat.add_zero,
    Function.comp_def]
  congr 1
  refine List.map_congr_left fun j _ => ?_
  rw [Nat.succ_eq_add_one, show i + (j + 1) = i + 1 + j by omega]

theorem stretch_succ_last (i length : Nat) :
    stretch name i (length + 1) = stretch name i length ++ [name (i + length)] := by
  simp only [stretch, List.range_succ, List.map_append, List.map_cons, List.map_nil]

theorem length_stretch (i length : Nat) : (stretch name i length).length = length := by
  simp only [stretch, List.length_map, List.length_range]

theorem leads (h : Ring lookup size name) {i : Nat} (start : Reference.MentionsOnly raw (name i))
    (length : Nat) : ∃ last, Leads lookup raw (stretch name i length) last := by
  induction length generalizing i raw with
  | zero => exact ⟨raw, .here raw⟩
  | succ length ih =>
    obtain ⟨text, bound, only⟩ := h.next i
    obtain ⟨last, way⟩ := ih only
    rw [stretch_succ]
    exact ⟨last, .through ((start.mentions_iff _).2 rfl) bound way⟩

theorem eq_stretch (h : Ring lookup size name) {i : Nat} {path : List String} {last : String}
    (start : Reference.MentionsOnly raw (name i)) (way : Leads lookup raw path last) :
    path = stretch name i path.length ∧
      Reference.MentionsOnly last (name (i + path.length)) := by
  induction way generalizing i with
  | here => exact ⟨rfl, start⟩
  | @through raw first text path last mentioned bound _ ih =>
    cases (start.mentions_iff first).1 mentioned
    obtain ⟨own, its, only⟩ := h.next i
    rw [bound] at its
    cases its
    obtain ⟨names, ends⟩ := ih only
    have shifted : i + (path.length + 1) = i + 1 + path.length := by omega
    rw [List.length_cons, stretch_succ, ← names, shifted]
    exact ⟨rfl, ends⟩

theorem mem_stretch {first : String} {length : Nat} :
    first ∈ stretch name 0 length ↔ ∃ i < length, name i = first := by
  simp [stretch]

theorem length_le_of_nodup (h : Ring lookup size name) {length : Nat}
    (distinct : (stretch name 0 length).Nodup) : length ≤ size := by
  refine Nat.le_of_not_lt fun long => ?_
  have positive := h.positive
  have first : 0 ∈ List.range length := List.mem_range.2 (by omega)
  have again : size ∈ List.range length := List.mem_range.2 long
  have same : name (0 + 0) = name (0 + size) := (h.same_iff _ _).2 (by simp)
  have back := List.inj_on_of_nodup_map distinct first again same
  omega

/-- Among at most a round of names, the one that comes next is there only if the round is whole. -/
theorem mem_stretch_self_iff (h : Ring lookup size name) {length : Nat} (short : length ≤ size)
    (some : 1 ≤ length) : name length ∈ stretch name 0 length ↔ length = size := by
  rw [mem_stretch]
  constructor
  · rintro ⟨i, before, same⟩
    rw [h.same_iff] at same
    rcases Nat.lt_or_eq_of_le short with less | whole
    · rw [Nat.mod_eq_of_lt (by omega), Nat.mod_eq_of_lt less] at same
      omega
    · exact whole
  · rintro rfl
    exact ⟨0, some, (h.same_iff _ _).2 (by simp)⟩

/-- One round of a ring that is small enough is a cycle; in a larger one the depth ends first. -/
theorem expandIn_eq (h : Ring lookup size name) (start : Reference.MentionsOnly raw (name 0))
    (scope field : String) (external : Option External) :
    expandIn { scope, field, external } lookup raw =
      .error (if size ≤ Context.depthLimit then .circular (stretch name 0 (size + 1))
        else .tooDeep (name Context.depthLimit) Context.depthLimit) := by
  have coherent := Context.coherent_fresh scope field external
  cases outcome : expandIn { scope, field, external } lookup raw with
  | ok value =>
    obtain ⟨last, way⟩ := h.leads start (Context.depthLimit + 1)
    have short := (way.of_expandIn coherent outcome).2.2.2
    rw [length_stretch] at short
    omega
  | error e =>
    obtain ⟨path, last, way, distinct, room, fault⟩ := fault_of_expandIn coherent outcome
    obtain ⟨names, only⟩ := h.eq_stretch start way
    simp only [Chain.empty, List.nil_append, Nat.zero_add] at distinct room fault only
    generalize path.length = length at names room only
    subst names
    have round := h.length_le_of_nodup distinct
    have positive := h.positive
    obtain ⟨text, bound, _⟩ := h.next length
    congr 1
    cases fault with
    | malformed unread =>
      obtain ⟨segments, read⟩ := only.readable
      rw [read] at unread
      cases unread
    | circular mentioned passed =>
      cases (only.mentions_iff _).1 mentioned
      obtain ⟨i, before, _⟩ := mem_stretch.1 passed
      have whole := (h.mem_stretch_self_iff round (by omega)).1 passed
      subst whole
      rw [if_pos room, stretch_succ_last, Nat.zero_add]
    | tooDeep mentioned _ new full =>
      cases (only.mentions_iff _).1 mentioned
      rw [length_stretch] at full
      have larger : length ≠ size := fun whole =>
        new ((h.mem_stretch_self_iff round (by rw [full]; decide)).2 whole)
      rw [if_neg (by omega), full]
    | undefined mentioned unbound =>
      rw [(only.mentions_iff _).1 mentioned, bound] at unbound
      cases unbound
    | notAllowed mentioned unbound =>
      rw [(only.mentions_iff _).1 mentioned, bound] at unbound
      cases unbound

end Ring

def ringName (size i : Nat) : String := String.ofList (List.replicate (i % size + 1) 'x')

def ringLookup (size : Nat) : Lookup := fun name =>
  some (.raw (Reference.written (ringName size name.length)))

theorem isWord_ringName (size i : Nat) : Reference.IsWord (ringName size i) := by
  constructor <;> simp [ringName, Name.isNameChar]

theorem ring_ofSize {size : Nat} (positive : 1 ≤ size) :
    Ring (ringLookup size) size (ringName size) where
  positive := positive
  same_iff i j := by simp [ringName, String.ofList_inj, List.replicate_inj]
  next i := by
    refine ⟨_, rfl, ?_⟩
    have same : ringName size (ringName size i).length = ringName size (i + 1) := by
      simp [ringName, Nat.add_mod]
    rw [same]
    exact (isWord_ringName size (i + 1)).mentionsOnly_written

/-- An expansion that fails has a path of different names from its text to the fault. One of a ring
of variables fails with the whole ring if its names may all be nested, else with the first name that
may not. -/
theorem expand_error_has_path (lookup : Lookup) (external : Option External)
    (scope field : String) :
    (∀ raw e, (expand lookup raw { scope, field, external }).1 = .error e →
      ∃ path last, Leads lookup raw path last ∧ path.Nodup ∧ path.length ≤ Context.depthLimit ∧
        Fault lookup external scope field path last e) ∧
    ∀ size name raw, Ring lookup size name → Reference.MentionsOnly raw (name 0) →
      (expand lookup raw { scope, field, external }).1 =
        .error (if size ≤ Context.depthLimit then .circular (Ring.stretch name 0 (size + 1))
          else .tooDeep (name Context.depthLimit) Context.depthLimit) := by
  refine ⟨fun raw e failed => ?_, fun size name raw ring start => ?_⟩
  · exact fault_of_expandIn (Context.coherent_fresh scope field external) failed
  · exact ring.expandIn_eq start scope field external

/-- `B` has its value when the cycle through `A` is found. -/
def knot : Lookup
  | "A" => some (.raw "%{B}%{C}")
  | "B" => some (.raw "b")
  | "C" => some (.raw "%{A}")
  | _ => none

theorem expand_error_has_path_knot :
    (∃ path last, Leads knot "%{A}" path last ∧ path.Nodup ∧
      Fault knot none "global" "" path last (.circular ["A", "C", "A"])) ∧
    (expand (ringLookup 100) (Reference.written (ringName 100 0)) { scope := "global" }).1 =
      .error (.circular (Ring.stretch (ringName 100) 0 101)) ∧
    (expand (ringLookup 101) (Reference.written (ringName 101 0)) { scope := "global" }).1 =
      .error (.tooDeep (ringName 101 100) 100) := by
  have failed : (expand knot "%{A}" { scope := "global" }).1 = .error (.circular ["A", "C", "A"]) :=
    error?_eq_some.1 (by decide +kernel)
  obtain ⟨path, last, way, apart, _, fault⟩ :=
    (expand_error_has_path knot none "global" "").1 "%{A}" _ failed
  have enter (size : Nat) := (isWord_ringName size 0).mentionsOnly_written
  refine ⟨⟨path, last, way, apart, fault⟩, ?_, ?_⟩
  · exact (expand_error_has_path (ringLookup 100) none "global" "").2 100 _ _
      (ring_ofSize (by decide)) (enter 100)
  · exact (expand_error_has_path (ringLookup 101) none "global" "").2 101 _ _
      (ring_ofSize (by decide)) (enter 101)

end ScopedCommands
