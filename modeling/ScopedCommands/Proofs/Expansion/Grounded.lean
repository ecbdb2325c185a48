import ScopedCommands.Proofs.Expansion.Paths
import ScopedCommands.Proofs.Outcome

namespace ScopedCommands

open Outcome

/-- The names of the chain are those it has as a set, no name twice, and the depth is their number. -/
structure Context.Coherent (ctx : Context) : Prop where
  members : ∀ name, ctx.chain.contains name = true ↔ name ∈ ctx.chain.order
  distinct : ctx.chain.order.Nodup
  depth : ctx.depth = ctx.chain.length
  limited : ctx.depth ≤ Context.depthLimit

/-- What has to hold of all that a text leads to, where the names of `chain` are being expanded and
there is room for `room` names more. -/
structure Grounded (lookup : Lookup) (external : Option External) (chain : List String)
    (room : Nat) (raw : String) : Prop where
  readable : ∀ path last, Leads lookup raw path last →
    ∃ segments, Reference.parse last = .ok segments
  known : ∀ path last name, Leads lookup raw path last → Reference.Mentions last name →
    lookup name ≠ none ∨ ∃ env, external = some env ∧ env.allowlist.allows name = true
  bounded : ∀ path last, Leads lookup raw path last →
    (∀ name ∈ path, name ∉ chain) ∧ path.length ≤ room

namespace Context

theorem coherent_fresh (scope field : String) (external : Option External) :
    Coherent { scope, field, external } where
  members name := by simp [Chain.contains, Chain.empty, Dict.contains, Dict.get?_empty]
  distinct := .nil
  depth := rfl
  limited := Nat.zero_le _

theorem Coherent.enter {ctx inner : Context} {name : String} (h : ctx.Coherent)
    (entered : ctx.enter name = .ok inner) : inner.Coherent := by
  obtain ⟨fresh, shallow, rfl⟩ := enter_eq_ok.1 entered
  have new : name ∉ ctx.chain.order := by
    intro member
    rw [(h.members name).2 member] at fresh
    cases fresh
  constructor
  · intro other
    have old := h.members other
    unfold Chain.contains at old ⊢
    rw [NameSet.contains_add, old, List.mem_append, List.mem_singleton, or_comm]
  · exact List.nodup_append.2 ⟨h.distinct, by simp, by
      intro a member b single same
      rw [List.mem_singleton.1 single] at same
      exact new (same ▸ member)⟩
  · simp [Chain.length, h.depth]
  · exact shallow

end Context

namespace Expansion

variable {value : String → Except ExpansionError String}

theorem join_isOk_iff {segments : List Segment} :
    (∃ v, join value segments = .ok v) ↔
      ∀ name position, .reference name position ∈ segments → ∃ w, value name = .ok w := by
  induction segments with
  | nil => simp [join]
  | cons segment rest ih =>
    cases segment with
    | literal text =>
      simp only [join, map_eq_ok, List.mem_cons, reduceCtorEq, false_or, ← ih]
      constructor
      · rintro ⟨_, v, joined, _⟩
        exact ⟨v, joined⟩
      · rintro ⟨v, joined⟩
        exact ⟨_, v, joined, rfl⟩
    | reference name position =>
      simp only [join, bind_eq_ok, map_eq_ok, List.mem_cons, Segment.reference.injEq]
      constructor
      · rintro ⟨_, w, own, v, joined, _⟩ other place (⟨rfl, _⟩ | member)
        · exact ⟨w, own⟩
        · exact ih.1 ⟨v, joined⟩ other place member
      · intro each
        obtain ⟨w, own⟩ := each name position (.inl ⟨rfl, rfl⟩)
        obtain ⟨v, joined⟩ := ih.2 fun other place member => each other place (.inr member)
        exact ⟨_, w, own, v, joined, rfl⟩

theorem unbound_eq_ok {name : String} {ctx : Context} {v : String} :
    unbound name ctx = .ok v ↔
      ∃ env, ctx.external = some env ∧ env.allowlist.allows name = true ∧
        v = (env.values.get? name).getD "" := by
  unfold unbound
  cases ctx.external with
  | none =>
    simp only [reduceCtorEq, false_and, exists_false, iff_false]
    split <;> nofun
  | some env =>
    simp only [Option.some.injEq, exists_eq_left']
    cases env.allowlist.allows name with
    | true => simp [eq_comm]
    | false =>
      simp only [Bool.false_eq_true, if_false, false_and, iff_false]
      split
      · nofun
      · split <;> nofun

theorem valueIn_eq_ok {ctx : Context} {lookup : Lookup} {name v : String} :
    valueIn ctx lookup name = .ok v ↔
      lookup name = some (.resolved v) ∨
      (∃ text inner, lookup name = some (.raw text) ∧ ctx.enter name = .ok inner ∧
        expandIn inner lookup text = .ok v) ∨
      lookup name = none ∧ unbound name ctx = .ok v := by
  unfold valueIn
  cases lookup name with
  | none => simp
  | some binding =>
    cases binding with
    | resolved own => simp
    | raw text => simp [bind_eq_ok]

end Expansion

open Expansion

variable {lookup : Lookup} {ctx : Context} {raw : String}

theorem expandIn_eq_ok {v : String} :
    expandIn ctx lookup raw = .ok v ↔
      ∃ segments, Reference.parse raw = .ok segments ∧ join (valueIn ctx lookup) segments = .ok v := by
  rw [expandIn_eq]
  cases Reference.parse raw with
  | error e => simp
  | ok segments => simp

theorem expandIn_isOk_iff :
    (∃ v, expandIn ctx lookup raw = .ok v) ↔
      (∃ segments, Reference.parse raw = .ok segments) ∧
        ∀ name, Reference.Mentions raw name → ∃ w, valueIn ctx lookup name = .ok w := by
  simp only [expandIn_eq_ok]
  constructor
  · rintro ⟨v, segments, read, joined⟩
    refine ⟨⟨segments, read⟩, ?_⟩
    intro name mentioned
    obtain ⟨position, member⟩ := mentioned.mem read
    exact join_isOk_iff.1 ⟨v, joined⟩ name position member
  · rintro ⟨⟨segments, read⟩, each⟩
    obtain ⟨v, joined⟩ := join_isOk_iff.2 fun name position member =>
      each name ⟨segments, position, read, member⟩
    exact ⟨v, segments, read, joined⟩

theorem substitutes_of_expandIn {v : String} (expanded : expandIn ctx lookup raw = .ok v) :
    Substitutes lookup ctx.external raw v := by
  induction ctx using Context.induction_on_enter generalizing raw v with
  | step ctx ih =>
    obtain ⟨segments, read, joined⟩ := expandIn_eq_ok.1 expanded
    refine ⟨segments, read, ?_⟩
    clear read expanded
    induction segments generalizing v with
    | nil =>
      cases joined
      exact .nil
    | cons segment rest later =>
      cases segment with
      | literal text =>
        obtain ⟨tail, others, rfl⟩ := map_eq_ok.1 joined
        exact .literal text (later others)
      | reference name position =>
        obtain ⟨own, here, tailed⟩ := bind_eq_ok.1 joined
        obtain ⟨tail, others, rfl⟩ := map_eq_ok.1 tailed
        rcases valueIn_eq_ok.1 here with bound | ⟨text, inner, bound, entered, inside⟩ | ⟨none, found⟩
        · exact .resolved position bound (later others)
        · obtain ⟨pieces, parsed, stands⟩ := ih name inner entered inside
          obtain ⟨_, _, rfl⟩ := Context.enter_eq_ok.1 entered
          exact .raw position bound parsed stands (later others)
        · obtain ⟨env, view, allowed, rfl⟩ := unbound_eq_ok.1 found
          exact .process position none view allowed (later others)

theorem Leads.of_expandIn {path : List String} {last v : String} (h : Leads lookup raw path last)
    (coherent : ctx.Coherent) (expanded : expandIn ctx lookup raw = .ok v) :
    (∃ segments, Reference.parse last = .ok segments) ∧
      (∀ name, Reference.Mentions last name → lookup name ≠ none ∨
        ∃ env, ctx.external = some env ∧ env.allowlist.allows name = true) ∧
      (∀ name ∈ path, name ∉ ctx.chain.order) ∧
      path.length ≤ Context.depthLimit - ctx.depth := by
  induction h generalizing ctx v with
  | here raw =>
    obtain ⟨read, values⟩ := expandIn_isOk_iff.1 ⟨v, expanded⟩
    refine ⟨read, fun name mentioned => ?_, by simp, Nat.zero_le _⟩
    obtain ⟨w, has⟩ := values name mentioned
    rcases valueIn_eq_ok.1 has with bound | ⟨text, _, bound, _⟩ | ⟨_, found⟩
    · exact .inl (by simp [bound])
    · exact .inl (by simp [bound])
    · obtain ⟨env, view, allowed, _⟩ := unbound_eq_ok.1 found
      exact .inr ⟨env, view, allowed⟩
  | @through raw name text path last mentioned bound _ ih =>
    obtain ⟨w, has⟩ := (expandIn_isOk_iff.1 ⟨v, expanded⟩).2 name mentioned
    rcases valueIn_eq_ok.1 has with resolved | ⟨text', inner, bound', entered, inside⟩ | ⟨none, _⟩
    · simp [bound] at resolved
    · rw [bound] at bound'
      cases bound'
      obtain ⟨read, known, avoids, short⟩ := ih (coherent.enter entered) inside
      obtain ⟨fresh, shallow, rfl⟩ := Context.enter_eq_ok.1 entered
      simp only at short
      refine ⟨read, known, fun other member => ?_, ?_⟩
      · rcases List.mem_cons.1 member with rfl | later
        · rw [← coherent.members, fresh]
          nofun
        · exact fun onChain => avoids other later (List.mem_append_left _ onChain)
      · rw [List.length_cons]
        omega
    · simp [bound] at none

/-- No name of a grounded text is on a cycle: it could be walked until there is no room left. -/
theorem Grounded.not_back {external : Option External} {chain : List String} {room : Nat}
    (h : Grounded lookup external chain room raw) {name text : String}
    (mentioned : Reference.Mentions raw name) (bound : lookup name = some (.raw text))
    {path : List String} {last : String} (way : Leads lookup text path last) : name ∉ path := by
  intro member
  obtain ⟨first, again, bound', back⟩ := way.upTo member
  rw [bound] at bound'
  cases bound'
  obtain ⟨rounds, walked, long⟩ := back.around (by simp) room
  have short := (h.bounded _ _ (.through mentioned bound walked)).2
  rw [List.length_cons] at short
  omega

theorem Grounded.inside {external : Option External} {chain : List String} {room : Nat}
    (h : Grounded lookup external chain room raw) {name text : String}
    (mentioned : Reference.Mentions raw name) (bound : lookup name = some (.raw text)) :
    Grounded lookup external (chain ++ [name]) (room - 1) text := by
  constructor
  · exact fun path last way => h.readable _ last (.through mentioned bound way)
  · exact fun path last other way => h.known _ last other (.through mentioned bound way)
  · intro path last way
    have outer := h.bounded _ last (.through mentioned bound way)
    have short := outer.2
    rw [List.length_cons] at short
    refine ⟨fun other member onChain => ?_, by omega⟩
    rcases List.mem_append.1 onChain with old | new
    · exact outer.1 other (List.mem_cons_of_mem _ member) old
    · rw [List.mem_singleton.1 new] at member
      exact h.not_back mentioned bound way member

theorem Grounded.enter (coherent : ctx.Coherent)
    (h : Grounded lookup ctx.external ctx.chain.order (Context.depthLimit - ctx.depth) raw)
    {name text : String} (mentioned : Reference.Mentions raw name)
    (bound : lookup name = some (.raw text)) : ∃ inner, ctx.enter name = .ok inner := by
  have one := h.bounded _ _ (.one mentioned bound)
  have off : ctx.chain.contains name = false := by
    rw [Bool.eq_false_iff, ne_eq, coherent.members]
    exact one.1 name (by simp)
  have room := one.2
  rw [List.length_singleton] at room
  exact ⟨_, Context.enter_eq_ok.2 ⟨off, by omega, rfl⟩⟩

theorem Grounded.expandIn_isOk (coherent : ctx.Coherent)
    (h : Grounded lookup ctx.external ctx.chain.order (Context.depthLimit - ctx.depth) raw) :
    ∃ v, expandIn ctx lookup raw = .ok v := by
  induction ctx using Context.induction_on_enter generalizing raw with
  | step ctx ih =>
    refine expandIn_isOk_iff.2 ⟨h.readable [] raw (.here raw), fun name mentioned => ?_⟩
    simp only [valueIn_eq_ok]
    cases bound : lookup name with
    | none =>
      rcases h.known [] raw name (.here raw) mentioned with some | ⟨env, view, allowed⟩
      · exact absurd bound some
      · exact ⟨_, .inr (.inr ⟨rfl, unbound_eq_ok.2 ⟨env, view, allowed, rfl⟩⟩)⟩
    | some binding =>
      cases binding with
      | resolved own => exact ⟨own, .inl rfl⟩
      | raw text =>
        obtain ⟨inner, entered⟩ := h.enter coherent mentioned bound
        have within : Grounded lookup inner.external inner.chain.order
            (Context.depthLimit - inner.depth) text := by
          obtain ⟨_, _, rfl⟩ := Context.enter_eq_ok.1 entered
          exact h.inside mentioned bound
        obtain ⟨v, expanded⟩ := ih name inner entered (coherent.enter entered) within
        exact ⟨v, .inr (.inl ⟨text, inner, rfl, entered, expanded⟩)⟩

/-- An expansion gives a value exactly if its text is grounded. The value is the one thing that the
text stands for, so it is the same in every context with this environment that gives one. -/
theorem expand_eq_ok_iff_grounded (lookup : Lookup) (raw : String) (ctx : Context)
    (coherent : ctx.Coherent) :
    ((∃ value, (expand lookup raw ctx).1 = .ok value) ↔
      Grounded lookup ctx.external ctx.chain.order (Context.depthLimit - ctx.depth) raw) ∧
    ∀ value, (expand lookup raw ctx).1 = .ok value →
      Substitutes lookup ctx.external raw value ∧
      (∀ other, Substitutes lookup ctx.external raw other → other = value) ∧
      ∀ elsewhere other, elsewhere.external = ctx.external →
        (expand lookup raw elsewhere).1 = .ok other → other = value := by
  refine ⟨⟨?_, fun grounded => grounded.expandIn_isOk coherent⟩, fun value expanded => ?_⟩
  · rintro ⟨value, expanded⟩
    exact {
      readable := fun path last way => (way.of_expandIn coherent expanded).1
      known := fun path last name way mentioned =>
        (way.of_expandIn coherent expanded).2.1 name mentioned
      bounded := fun path last way => (way.of_expandIn coherent expanded).2.2 }
  · have stands := substitutes_of_expandIn expanded
    refine ⟨stands, fun other also => also.unique stands, ?_⟩
    intro elsewhere other same also
    have there := substitutes_of_expandIn also
    rw [same] at there
    exact there.unique stands

/-- `D` is reached on two ways, and one name on them is left to the environment. -/
def diamond : Lookup
  | "A" => some (.raw "%{B}-%{C}")
  | "B" => some (.raw "%{D}")
  | "C" => some (.raw "%{D}%{HOME}")
  | "D" => some (.resolved "end")
  | "TOP" => some (.raw "%{A}")
  | _ => none

def insideTop : Context where
  scope := "global"
  field := "cmd"
  external := some ⟨Dict.ofList [("HOME", "/root")], .resolve (some ["HOME"]) none⟩
  chain := ⟨["TOP"], .ofNames ["TOP"]⟩
  depth := 1

theorem expand_eq_ok_iff_grounded_diamond :
    insideTop.Coherent ∧ (expand diamond "%{A}" insideTop).1 = .ok "end-end/root" ∧
      Grounded diamond insideTop.external ["TOP"] 99 "%{A}" ∧
      Substitutes diamond insideTop.external "%{A}" "end-end/root" ∧
      ¬ Grounded diamond insideTop.external ["TOP"] 99 "%{A}%{TOP}" := by
  have coherent : insideTop.Coherent :=
    (Context.coherent_fresh "global" "cmd" insideTop.external).enter
      (show Context.enter _ "TOP" = .ok insideTop from rfl)
  have given : (expand diamond "%{A}" insideTop).1 = .ok "end-end/root" :=
    toOption_eq_some.1 (by decide +kernel)
  have refused : (expand diamond "%{A}%{TOP}" insideTop).1.toOption = none := by decide +kernel
  obtain ⟨grounded, value⟩ := expand_eq_ok_iff_grounded diamond "%{A}" insideTop coherent
  refine ⟨coherent, given, grounded.1 ⟨_, given⟩, (value _ given).1, fun back => ?_⟩
  obtain ⟨v, expanded⟩ :=
    (expand_eq_ok_iff_grounded diamond "%{A}%{TOP}" insideTop coherent).1.2 back
  rw [expanded] at refused
  cases refused

end ScopedCommands
