import ScopedCommands.Expansion.Expand
import ScopedCommands.Proofs.Lockstep

namespace ScopedCommands

/-- Holds of a text and itself, and passes from parts to the whole. -/
structure Congruent (V : String → String → Prop) : Prop where
  refl : ∀ text, V text text
  append : ∀ {a b c d}, V a b → V c d → V (a ++ c) (b ++ d)

def ExpansionError.denial (values : Dict String) (scope user name : String) : ExpansionError :=
  if values.contains name then .notAllowed scope user name else .undefined name

structure External.Related (E : ExpansionError → ExpansionError → Prop)
    (V : String → String → Prop) (a b : External) : Prop where
  allowlist : a.allowlist = b.allowlist
  reads : ∀ name, a.allowlist.allows name = true →
    V ((a.values.get? name).getD "") ((b.values.get? name).getD "")
  denies : ∀ scope user name, E (.denial a.values scope user name) (.denial b.values scope user name)

structure Context.Related (E : ExpansionError → ExpansionError → Prop)
    (V : String → String → Prop) (a b : Context) : Prop where
  scope : a.scope = b.scope
  field : a.field = b.field
  chain : a.chain = b.chain
  depth : a.depth = b.depth
  external : Option.Rel (External.Related E V) a.external b.external

inductive Binding.Related (V : String → String → Prop) : Binding → Binding → Prop where
  | raw (text : String) : Related V (.raw text) (.raw text)
  | resolved {v w : String} (values : V v w) : Related V (.resolved v) (.resolved w)

section

variable {E : ExpansionError → ExpansionError → Prop} {V : String → String → Prop} {a b : Context}

theorem Context.Related.enter (h : a.Related E V b) (errors : ∀ e, E e e) (name : String) :
    Lockstep E (Context.Related E V) (a.enter name) (b.enter name) := by
  unfold Context.enter
  rw [h.chain, h.depth]
  split
  · exact .error (errors _)
  · split
    · exact .error (errors _)
    · exact .ok ⟨h.scope, h.field, rfl, rfl, h.external⟩

theorem Context.Related.leave (h : a.Related E V b) : a.leave.Related E V b.leave := by
  unfold Context.leave
  rw [h.chain, h.depth]
  cases b.chain.pop with
  | mk popped chain =>
    cases popped with
    | none => exact h
    | some name => exact ⟨h.scope, h.field, rfl, rfl, h.external⟩

theorem Context.Related.user (h : a.Related E V b) : a.user = b.user := by
  unfold Context.user
  rw [h.chain, h.field]

namespace Expansion

def InStep (E : ExpansionError → ExpansionError → Prop) (V : String → String → Prop)
    (r q : Except ExpansionError String × Context) : Prop :=
  Lockstep E V r.1 q.1 ∧ r.2.Related E V q.2

theorem unbound_external {ctx : Context} (env : External) (h : ctx.external = some env)
    (name : String) :
    unbound name ctx =
      if env.allowlist.allows name then .ok ((env.values.get? name).getD "")
      else if ctx.chain.contains name then .error (.circular (ctx.chain.cycle name))
      else .error (.denial env.values ctx.scope ctx.user name) := by
  unfold unbound ExpansionError.denial
  simp only [h]
  repeat' split
  all_goals rfl

theorem unbound_lockstep (errors : ∀ e, E e e) (h : a.Related E V b) (name : String) :
    Lockstep E V (unbound name a) (unbound name b) := by
  have user := h.user
  obtain ⟨scope, field, external, chain, depth⟩ := a
  obtain ⟨_, _, other, _, _⟩ := b
  obtain ⟨rfl, rfl, rfl, rfl, seen⟩ := h
  cases seen with
  | none =>
    simp only [unbound]
    split
    · exact .error (errors _)
    · exact .error (errors _)
  | @some env env' related =>
    rw [unbound_external env rfl, unbound_external env' rfl, ← related.allowlist, ← user]
    split
    · exact .ok (related.reads name ‹_›)
    · split
      · exact .error (errors _)
      · exact .error (related.denies _ _ _)

section

variable {lookup other : Lookup} {room : Nat}

theorem reference_inStep (errors : ∀ e, E e e)
    (bindings : ∀ name, Option.Rel (Binding.Related V) (lookup name) (other name))
    {nested inner : String → Run}
    (texts : ∀ text {c d : Context}, c.Related E V d → InStep E V (nested text c) (inner text d))
    (name : String) (h : a.Related E V b) :
    InStep E V (reference nested lookup name a) (reference inner other name b) := by
  have binding := bindings name
  unfold reference
  generalize lookup name = x at binding ⊢
  generalize other name = y at binding ⊢
  cases binding with
  | none => exact ⟨unbound_lockstep errors h name, h⟩
  | some related =>
    cases related with
    | resolved values => exact ⟨.ok values, h⟩
    | raw text =>
      have entered := h.enter errors name
      generalize a.enter name = x at entered ⊢
      generalize b.enter name = y at entered ⊢
      cases entered with
      | error related => exact ⟨.error related, h⟩
      | ok contexts =>
        have result := texts text contexts
        exact ⟨result.1, result.2.leave⟩

theorem concat_inStep (V_ok : Congruent V) {value also : String → Run}
    (names : ∀ name {c d : Context}, c.Related E V d → InStep E V (value name c) (also name d))
    (segments : List Segment) (h : a.Related E V b) :
    InStep E V (concat value segments a) (concat also segments b) := by
  induction segments generalizing a b with
  | nil => exact ⟨.ok (V_ok.refl ""), h⟩
  | cons segment rest ih =>
    cases segment with
    | literal text =>
      have tail := ih h
      exact ⟨tail.1.map fun _ _ values => V_ok.append (V_ok.refl text) values, tail.2⟩
    | reference name position =>
      have head := names name h
      unfold concat
      generalize value name a = r at head ⊢
      generalize also name b = q at head ⊢
      obtain ⟨x, after⟩ := r
      obtain ⟨y, next⟩ := q
      obtain ⟨outcome, contexts⟩ := head
      cases outcome with
      | error related => exact ⟨.error related, contexts⟩
      | ok value =>
        have tail := ih contexts
        exact ⟨tail.1.map fun _ _ values => V_ok.append value values, tail.2⟩

theorem within_inStep (errors : ∀ e, E e e) (V_ok : Congruent V)
    (bindings : ∀ name, Option.Rel (Binding.Related V) (lookup name) (other name))
    (room : Nat) (raw : String) (h : a.Related E V b) :
    InStep E V (within room lookup raw a) (within room other raw b) := by
  induction room generalizing raw a b with
  | zero =>
    unfold within
    cases Reference.parse raw with
    | error e => exact ⟨.error (errors _), h⟩
    | ok segments =>
      refine concat_inStep V_ok (fun name c d related => ?_) segments h
      exact reference_inStep errors bindings (fun _ _ _ inner => ⟨.ok (V_ok.refl ""), inner⟩)
        name related
  | succ room ih =>
    unfold within
    cases Reference.parse raw with
    | error e => exact ⟨.error (errors _), h⟩
    | ok segments =>
      refine concat_inStep V_ok (fun name c d related => ?_) segments h
      exact reference_inStep errors bindings (fun text _ _ inner => ih text inner) name related

end
end Expansion

theorem expandIn_lockstep (errors : ∀ e, E e e) (V_ok : Congruent V) {lookup other : Lookup}
    (bindings : ∀ name, Option.Rel (Binding.Related V) (lookup name) (other name))
    (h : a.Related E V b) (raw : String) :
    Lockstep E V (expandIn a lookup raw) (expandIn b other raw) := by
  unfold expandIn expand
  rw [h.depth]
  exact (Expansion.within_inStep errors V_ok bindings _ raw h).1

end
end ScopedCommands
