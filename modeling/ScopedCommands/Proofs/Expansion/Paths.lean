import Mathlib.Data.List.Nodup
import ScopedCommands.Proofs.Expansion.Unfolding

/-!
What a text leads to. A path goes from a text through names that are bound raw, each mentioned in
the text of the one before, to the text of the last one. What a text stands for is said without any
context: literals as they are, and for each name the value of its binding.
-/
namespace ScopedCommands

def Reference.Mentions (raw name : String) : Prop :=
  ∃ segments position, Reference.parse raw = .ok segments ∧ .reference name position ∈ segments

structure Reference.MentionsOnly (raw name : String) : Prop where
  readable : ∃ segments, Reference.parse raw = .ok segments
  mentions_iff : ∀ other, Reference.Mentions raw other ↔ other = name

def Reference.written (name : String) : String := Segment.render (.reference name 0)

structure Reference.IsWord (name : String) : Prop where
  nonempty : name ≠ ""
  chars : name.toList.all Name.isNameChar = true

namespace Reference

instance (name : String) : Decidable (IsWord name) :=
  decidable_of_iff (name ≠ "" ∧ name.toList.all Name.isNameChar = true)
    ⟨fun h => ⟨h.1, h.2⟩, fun h => ⟨h.nonempty, h.chars⟩⟩

theorem Mentions.mem {raw name : String} {segments : List Segment} (h : Mentions raw name)
    (read : parse raw = .ok segments) : ∃ position, .reference name position ∈ segments := by
  obtain ⟨others, position, also, member⟩ := h
  rw [read] at also
  cases also
  exact ⟨position, member⟩

def mentions (raw name : String) : Bool :=
  match parse raw with
  | .error _ => false
  | .ok segments => segments.any fun segment =>
    match segment with
    | .literal _ => false
    | .reference other _ => other == name

theorem mentions_eq_true_iff {raw name : String} : mentions raw name = true ↔ Mentions raw name := by
  unfold mentions Mentions
  cases parse raw with
  | error e => simp
  | ok segments =>
    simp only [List.any_eq_true, Except.ok.injEq, exists_and_left, exists_eq_left']
    constructor
    · rintro ⟨segment, member, same⟩
      cases segment with
      | literal text => cases same
      | reference other position =>
        rw [beq_iff_eq] at same
        exact ⟨position, same ▸ member⟩
    · rintro ⟨position, member⟩
      exact ⟨_, member, beq_self_eq_true name⟩

instance (raw name : String) : Decidable (Mentions raw name) :=
  decidable_of_iff _ mentions_eq_true_iff

theorem toList_written (name : String) :
    (written name).toList = '%' :: '{' :: (name.toList ++ ['}']) := by
  simp [written, Segment.render]

theorem IsWord.parse_written {name : String} (h : IsWord name) :
    parse (written name) = .ok [.reference name 0] := by
  have inside : '}' ∉ name.toList := by
    intro member
    have word := List.all_eq_true.1 h.chars _ member
    revert word
    decide
  have nonempty : name.toList ≠ [] := by simpa using h.nonempty
  have closed := Text.untilClose_append [] inside
  unfold parse
  rw [toList_written, scan]
  split
  next unclosed =>
    rw [closed] at unclosed
    cases unclosed
  next word tail found =>
    rw [closed] at found
    cases found
    rw [if_neg nonempty, if_pos h.chars, scan]
    simp [Except.map, merge]

theorem IsWord.mentionsOnly_written {name : String} (h : IsWord name) :
    MentionsOnly (written name) name := by
  refine ⟨⟨_, h.parse_written⟩, fun other => ?_⟩
  unfold Mentions
  rw [h.parse_written]
  constructor
  · rintro ⟨segments, position, read, member⟩
    cases read
    cases List.mem_singleton.1 member
    rfl
  · rintro rfl
    exact ⟨_, 0, rfl, by simp⟩

end Reference

/-- The path that goes from a text through raw bindings to another text, as the names passed. -/
inductive Leads (lookup : Lookup) : String → List String → String → Prop where
  | here (raw : String) : Leads lookup raw [] raw
  | through {raw name text : String} {path : List String} {last : String}
      (mentioned : Reference.Mentions raw name) (bound : lookup name = some (.raw text))
      (rest : Leads lookup text path last) : Leads lookup raw (name :: path) last

namespace Leads

variable {lookup : Lookup} {a b c name : String} {p q : List String}

theorem append (h : Leads lookup a p b) (k : Leads lookup b q c) : Leads lookup a (p ++ q) c := by
  induction h with
  | here => exact k
  | through mentioned bound _ ih => exact .through mentioned bound (ih k)

theorem one {text : String} (mentioned : Reference.Mentions a name)
    (bound : lookup name = some (.raw text)) : Leads lookup a [name] text :=
  .through mentioned bound (.here text)

theorem cut (h : Leads lookup a p b) (member : name ∈ p) :
    ∃ before after text, Leads lookup a (before ++ [name]) text ∧
      lookup name = some (.raw text) ∧ Leads lookup text after b := by
  induction h with
  | here => cases member
  | @through raw head text path last mentioned bound later ih =>
    rcases List.mem_cons.1 member with rfl | inside
    · exact ⟨[], path, text, one mentioned bound, bound, later⟩
    · obtain ⟨before, after, its, way, found, onward⟩ := ih inside
      exact ⟨head :: before, after, its, .through mentioned bound way, found, onward⟩

theorem upTo (h : Leads lookup a p b) (member : name ∈ p) :
    ∃ first text, lookup name = some (.raw text) ∧ Leads lookup a (first ++ [name]) text := by
  obtain ⟨before, _, text, way, bound, _⟩ := h.cut member
  exact ⟨before, text, bound, way⟩

/-- A path that comes back can be walked again and again. -/
theorem around (h : Leads lookup a p a) (moves : p ≠ []) (m : Nat) :
    ∃ q, Leads lookup a q a ∧ m ≤ q.length := by
  induction m with
  | zero => exact ⟨[], .here a, Nat.le_refl 0⟩
  | succ m ih =>
    obtain ⟨q, walked, long⟩ := ih
    have more : 0 < p.length := List.length_pos_of_ne_nil moves
    refine ⟨q ++ p, walked.append h, ?_⟩
    rw [List.length_append]
    omega

end Leads

/-- What segments stand for: literal texts verbatim, resolved values verbatim, for a raw binding what
its own text stands for, and for a name without binding its value in the process environment, empty
if it is not set. -/
inductive Denotes (lookup : Lookup) (external : Option External) : List Segment → String → Prop where
  | nil : Denotes lookup external [] ""
  | literal (text : String) {rest : List Segment} {value : String}
      (later : Denotes lookup external rest value) :
      Denotes lookup external (.literal text :: rest) (text ++ value)
  | resolved {name own : String} (position : Nat) {rest : List Segment} {value : String}
      (bound : lookup name = some (.resolved own)) (later : Denotes lookup external rest value) :
      Denotes lookup external (.reference name position :: rest) (own ++ value)
  | raw {name text own : String} {inside : List Segment} (position : Nat) {rest : List Segment}
      {value : String} (bound : lookup name = some (.raw text))
      (read : Reference.parse text = .ok inside) (expanded : Denotes lookup external inside own)
      (later : Denotes lookup external rest value) :
      Denotes lookup external (.reference name position :: rest) (own ++ value)
  | process {name : String} {env : External} (position : Nat) {rest : List Segment} {value : String}
      (unbound : lookup name = none) (view : external = some env)
      (allowed : env.allowlist.allows name = true) (later : Denotes lookup external rest value) :
      Denotes lookup external (.reference name position :: rest)
        ((env.values.get? name).getD "" ++ value)

theorem Denotes.unique {lookup : Lookup} {external : Option External} {segments : List Segment}
    {v w : String} (h : Denotes lookup external segments v) (k : Denotes lookup external segments w) :
    v = w := by
  induction h generalizing w with
  | nil =>
    cases k
    rfl
  | literal text _ ih =>
    cases k with
    | literal _ later => rw [ih later]
  | resolved position bound _ ih =>
    cases k with
    | resolved _ bound' later =>
      rw [bound] at bound'
      cases bound'
      rw [ih later]
    | raw _ bound' => simp [bound] at bound'
    | process _ unbound => simp [bound] at unbound
  | raw position bound read _ _ inner ih =>
    cases k with
    | resolved _ bound' => simp [bound] at bound'
    | raw _ bound' read' expanded later =>
      rw [bound] at bound'
      cases bound'
      rw [read] at read'
      cases read'
      rw [inner expanded, ih later]
    | process _ unbound => simp [bound] at unbound
  | process position unbound view _ _ ih =>
    cases k with
    | resolved _ bound => simp [unbound] at bound
    | raw _ bound => simp [unbound] at bound
    | process _ _ view' _ later =>
      rw [view] at view'
      cases view'
      rw [ih later]

def Substitutes (lookup : Lookup) (external : Option External) (raw value : String) : Prop :=
  ∃ segments, Reference.parse raw = .ok segments ∧ Denotes lookup external segments value

theorem Substitutes.unique {lookup : Lookup} {external : Option External} {raw v w : String}
    (h : Substitutes lookup external raw v) (k : Substitutes lookup external raw w) : v = w := by
  obtain ⟨segments, read, first⟩ := h
  obtain ⟨others, also, second⟩ := k
  rw [read] at also
  cases also
  exact first.unique second

end ScopedCommands
