import ScopedCommands.Proofs.Reference.Collected

namespace ScopedCommands

/-- The least set of names that has those that the text refers to and, with each of its names that
is bound raw, those that this other text refers to. A text that cannot be read refers to nothing. -/
inductive Consulted (lookup : Lookup) (raw : String) : String → Prop where
  | here {name : String} {names : List String} (collected : Reference.collect raw = .ok names)
      (listed : name ∈ names) : Consulted lookup raw name
  | through {outer text name : String} {names : List String} (reached : Consulted lookup raw outer)
      (bound : lookup outer = some (.raw text)) (collected : Reference.collect text = .ok names)
      (listed : name ∈ names) : Consulted lookup raw name

structure External.AlikeOn (names : String → Prop) (a b : External) : Prop where
  allows : ∀ name, names name → a.allowlist.allows name = b.allowlist.allows name
  values : ∀ name, names name → a.values.get? name = b.values.get? name

def Context.before (ctx : Context) (view : Option External) : Context :=
  { ctx with external := view }

theorem Context.enter_before (ctx : Context) (view : Option External) (name : String) :
    (ctx.before view).enter name = (ctx.enter name).map (·.before view) := by
  unfold enter before
  split
  · rfl
  · split
    · rfl
    · rfl

namespace Expansion

variable {value other : String → Except ExpansionError String}

theorem join_congr {segments : List Segment}
    (same : ∀ name position, .reference name position ∈ segments → value name = other name) :
    join value segments = join other segments := by
  induction segments with
  | nil => rfl
  | cons segment rest ih =>
    have later := ih fun name position member => same name position (List.mem_cons_of_mem _ member)
    cases segment with
    | literal text => rw [join, join, later]
    | reference name position =>
      rw [join, join, later, same name position List.mem_cons_self]

theorem unbound_congr {names : String → Prop} {view also : Option External} {name : String}
    (views : Option.Rel (External.AlikeOn names) view also) (inside : names name) (ctx : Context) :
    unbound name (ctx.before view) = unbound name (ctx.before also) := by
  cases views with
  | none => rfl
  | some alike =>
    have allows := alike.allows name inside
    have value := alike.values name inside
    unfold unbound Context.before
    simp only [allows, Dict.contains, value]
    rfl

end Expansion

open Expansion

/-- What is alike on a set of names that is closed under raw bindings gives the same result for every
text with names of the set. -/
theorem expandIn_congr {names : String → Prop} {lookup other : Lookup} {view also : Option External}
    (closed : ∀ name text inner, names name → lookup name = some (.raw text) →
      Reference.Mentions text inner → names inner)
    (bindings : ∀ name, names name → lookup name = other name)
    (views : Option.Rel (External.AlikeOn names) view also) (ctx : Context) {raw : String}
    (covers : ∀ name, Reference.Mentions raw name → names name) :
    expandIn (ctx.before view) lookup raw = expandIn (ctx.before also) other raw := by
  induction ctx using Context.induction_on_enter generalizing raw with
  | step ctx ih =>
    rw [expandIn_eq, expandIn_eq]
    cases read : Reference.parse raw with
    | error cause => rfl
    | ok segments =>
      refine join_congr fun name position member => ?_
      have inside : names name := covers name ⟨segments, position, read, member⟩
      unfold valueIn
      rw [← bindings name inside, Context.enter_before, Context.enter_before]
      cases bound : lookup name with
      | none => exact unbound_congr views inside ctx
      | some binding =>
        cases binding with
        | resolved own => rfl
        | raw text =>
          cases entered : ctx.enter name with
          | error e => rfl
          | ok inner =>
            exact ih name inner entered fun further => closed name text further inside bound

/-- Two expansions of a text agree, in whatever context, if the bindings and the process environments
are alike on the names that are consulted. The list of the names of a text has each of them once, by
first occurrence, and exists unless the text cannot be read. -/
theorem expand_looks_only_at_collected (raw : String) :
    (∀ (lookup other : Lookup) (view also : Option External),
      (∀ name, Consulted lookup raw name → lookup name = other name) →
      Option.Rel (External.AlikeOn (Consulted lookup raw)) view also →
      ∀ ctx : Context, (expand lookup raw { ctx with external := view }).1 =
        (expand other raw { ctx with external := also }).1) ∧
    (∀ e, Reference.collect raw = .error e ↔ Reference.parse raw = .error e) ∧
    ∀ names, Reference.collect raw = .ok names ↔ ∃ segments, Reference.parse raw = .ok segments ∧
      Reference.ListsOnce (Reference.occurrences segments) names := by
  refine ⟨fun lookup other view also bindings views ctx => ?_,
    fun e => Reference.collect_eq_error_iff, fun names => Reference.collect_eq_ok_iff⟩
  refine expandIn_congr (fun name text inner reached bound mentioned => ?_) bindings views ctx
    fun name mentioned => ?_
  · obtain ⟨names, collected, listed⟩ := Reference.mentions_iff_collected.1 mentioned
    exact .through reached bound collected listed
  · obtain ⟨names, collected, listed⟩ := Reference.mentions_iff_collected.1 mentioned
    exact .here collected listed

def loop : Lookup
  | "A" => some (.raw "%{HOME}:%{B}:%{HOME}")
  | "B" => some (.raw "%{A}")
  | _ => none

def loopAside : Lookup
  | "C" => some (.resolved "%{A}")
  | name => loop name

def homeView : External := ⟨Dict.ofList [("HOME", "/root")], .resolve (some ["HOME"]) none⟩

def homeAndUserView : External :=
  ⟨Dict.ofList [("HOME", "/root"), ("USER", "me")], .resolve (some ["USER", "HOME"]) none⟩

theorem consulted_loop_iff {name : String} :
    Consulted loop "%{A}" name ↔ name ∈ ["A", "HOME", "B"] := by
  have first : Reference.collect "%{A}" = .ok ["A"] := Outcome.toOption_eq_some.1 (by decide +kernel)
  have second : Reference.collect "%{HOME}:%{B}:%{HOME}" = .ok ["HOME", "B"] :=
    Outcome.toOption_eq_some.1 (by decide +kernel)
  have start : Consulted loop "%{A}" "A" := .here first List.mem_cons_self
  simp only [List.mem_cons, List.not_mem_nil, or_false]
  constructor
  · intro reached
    induction reached with
    | here collected listed =>
      cases first.symm.trans collected
      exact .inl (List.mem_singleton.1 listed)
    | through _ bound collected listed ih =>
      rcases ih with rfl | rfl | rfl
      · cases bound
        cases second.symm.trans collected
        simpa using Or.inr listed
      · cases bound
      · cases bound
        cases first.symm.trans collected
        exact .inl (List.mem_singleton.1 listed)
  · rintro (rfl | rfl | rfl)
    · exact start
    · exact .through start rfl second (by simp)
    · exact .through start rfl second (by simp)

theorem expand_looks_only_at_collected_loop :
    (∀ name ∈ ["A", "HOME", "B"], loop name = loopAside name) ∧ loop "C" ≠ loopAside "C" ∧
    homeView.AlikeOn (· ∈ ["A", "HOME", "B"]) homeAndUserView ∧
    (∀ ctx : Context, (expand loop "%{A}" { ctx with external := some homeView }).1 =
      (expand loopAside "%{A}" { ctx with external := some homeAndUserView }).1) ∧
    (expand loopAside "%{A}" { scope := "global", external := some homeAndUserView }).1 =
      .error (.circular ["A", "B", "A"]) := by
  have bindings : ∀ name ∈ ["A", "HOME", "B"], loop name = loopAside name := by decide
  have views : homeView.AlikeOn (· ∈ ["A", "HOME", "B"]) homeAndUserView :=
    ⟨by decide +kernel, by decide +kernel⟩
  have same := (expand_looks_only_at_collected "%{A}").1 loop loopAside (some homeView)
    (some homeAndUserView) (fun name reached => bindings name (consulted_loop_iff.1 reached))
    (.some ⟨fun name reached => views.allows name (consulted_loop_iff.1 reached),
      fun name reached => views.values name (consulted_loop_iff.1 reached)⟩)
  refine ⟨bindings, by decide, views, same, (same { scope := "global" }).symm.trans ?_⟩
  exact Outcome.error?_eq_some.1 (by decide +kernel)

end ScopedCommands
