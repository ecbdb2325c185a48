import ScopedCommands.Expansion.Expand

/-!
Expansion as an equation. Every expansion gives its context back as it found it, so the context can
be read as a parameter that only grows on the way into a name. What is left is the recursion
itself: a text is the concatenation of its pieces, and a raw binding is expanded in the context that
`enter` gives (`expandIn_eq`). Each `enter` takes one from the depth that is left, which is the only
induction that statements about expansion need (`Context.induction_on_enter`).
-/
namespace ScopedCommands

namespace Dict

variable {α : Type}

theorem filter_insertEntry {key : String} (value : α) {l : List (String × α)}
    (absent : ∀ e ∈ l, e.1 ≠ key) :
    (insertEntry key value l).filter (fun e => e.1 != key) = l := by
  induction l with
  | nil => simp [insertEntry]
  | cons entry rest ih =>
    have other : entry.1 ≠ key := absent entry (by simp)
    have later : ∀ e ∈ rest, e.1 ≠ key := fun e member => absent e (by simp [member])
    rw [insertEntry, if_neg (Ne.symm other)]
    split
    · rw [List.filter_cons_of_neg (by simp)]
      exact List.filter_eq_self.2 fun e member => by simpa using absent e member
    · rw [List.filter_cons_of_pos (by simpa using other), ih later]

theorem erase_insert {d : Dict α} {key : String} (absent : d.contains key = false) (value : α) :
    (d.insert key value).erase key = d := by
  refine Dict.ext (filter_insertEntry value fun e member same => ?_)
  have found : key ∈ d.keys := List.mem_map.2 ⟨e, member, same⟩
  rw [mem_keys_iff, absent] at found
  cases found

end Dict

namespace Context

theorem enter_eq_ok {ctx inner : Context} {name : String} :
    ctx.enter name = .ok inner ↔
      ctx.chain.contains name = false ∧ ctx.depth < depthLimit ∧
        inner = { ctx with
          chain := ⟨ctx.chain.order ++ [name], ctx.chain.members.add name⟩
          depth := ctx.depth + 1 } := by
  unfold enter Chain.push
  cases ctx.chain.contains name with
  | true => simp
  | false =>
    by_cases deep : depthLimit ≤ ctx.depth
    · simp [deep, Nat.not_lt.2 deep]
    · simp [deep, Nat.not_le.1 deep, eq_comm]

theorem leave_of_enter {ctx inner : Context} {name : String} (entered : ctx.enter name = .ok inner) :
    inner.leave = ctx := by
  obtain ⟨fresh, _, rfl⟩ := enter_eq_ok.1 entered
  have members : (ctx.chain.members.add name).erase name = ctx.chain.members :=
    Dict.erase_insert fresh ()
  simp [leave, Chain.pop, Chain.top, members]

/-- Names are entered no deeper than the limit, so what passes from every inner context to the outer
one holds everywhere. -/
theorem induction_on_enter {motive : Context → Prop}
    (step : ∀ ctx, (∀ name inner, ctx.enter name = .ok inner → motive inner) → motive ctx)
    (ctx : Context) : motive ctx := by
  induction room : depthLimit - ctx.depth using Nat.strongRecOn generalizing ctx with
  | ind room ih =>
    refine step ctx fun name inner entered => ?_
    obtain ⟨_, shallow, rfl⟩ := enter_eq_ok.1 entered
    exact ih _ (by simp only; omega) _ rfl

end Context

namespace Expansion

def Restoring (run : Run) : Prop := ∀ ctx, (run ctx).2 = ctx

theorem restoring_reference {nested : String → Run} (inside : ∀ text, Restoring (nested text))
    (lookup : Lookup) (name : String) : Restoring (reference nested lookup name) := by
  intro ctx
  unfold reference
  cases lookup name with
  | none => rfl
  | some binding =>
    cases binding with
    | resolved value => rfl
    | raw text =>
      cases entered : ctx.enter name with
      | error e => rfl
      | ok inner =>
        have back := inside text inner
        simp only [back]
        exact Context.leave_of_enter entered

theorem restoring_concat {value : String → Run} (each : ∀ name, Restoring (value name))
    (segments : List Segment) : Restoring (concat value segments) := by
  intro ctx
  induction segments with
  | nil => rfl
  | cons segment rest ih =>
    cases segment with
    | literal text => exact ih
    | reference name position =>
      have back := each name ctx
      unfold concat
      generalize value name ctx = result at back ⊢
      obtain ⟨outcome, after⟩ := result
      cases back
      cases outcome with
      | error e => rfl
      | ok v => exact ih

theorem restoring_within (room : Nat) (lookup : Lookup) (raw : String) :
    Restoring (within room lookup raw) := by
  induction room generalizing raw with
  | zero =>
    intro ctx
    unfold within
    cases Reference.parse raw with
    | error e => rfl
    | ok segments => exact restoring_concat (restoring_reference (fun _ _ => rfl) lookup) segments ctx
  | succ room ih =>
    intro ctx
    unfold within
    cases Reference.parse raw with
    | error e => rfl
    | ok segments => exact restoring_concat (restoring_reference ih lookup) segments ctx

def join (value : String → Except ExpansionError String) :
    List Segment → Except ExpansionError String
  | [] => .ok ""
  | .literal text :: rest => (join value rest).map (text ++ ·)
  | .reference name _ :: rest => value name >>= fun v => (join value rest).map (v ++ ·)

theorem concat_eq_join {value : String → Run} (each : ∀ name, Restoring (value name))
    (segments : List Segment) (ctx : Context) :
    (concat value segments ctx).1 = join (fun name => (value name ctx).1) segments := by
  induction segments with
  | nil => rfl
  | cons segment rest ih =>
    cases segment with
    | literal text => simp only [concat, join, ih]
    | reference name position =>
      have back := each name ctx
      unfold concat join
      generalize value name ctx = result at back ⊢
      obtain ⟨outcome, after⟩ := result
      cases back
      cases outcome with
      | error e => rfl
      | ok v => exact congrArg (Except.map (v ++ ·)) ih

def valueIn (ctx : Context) (lookup : Lookup) (name : String) : Except ExpansionError String :=
  match lookup name with
  | some (.resolved value) => .ok value
  | some (.raw text) => ctx.enter name >>= fun inner => expandIn inner lookup text
  | none => unbound name ctx

theorem reference_eq_valueIn {nested : String → Run} {ctx : Context} {lookup : Lookup}
    (inside : ∀ name inner text, ctx.enter name = .ok inner →
      (nested text inner).1 = expandIn inner lookup text) (name : String) :
    (reference nested lookup name ctx).1 = valueIn ctx lookup name := by
  unfold reference valueIn
  cases lookup name with
  | none => rfl
  | some binding =>
    cases binding with
    | resolved value => rfl
    | raw text =>
      cases entered : ctx.enter name with
      | error e => rfl
      | ok inner => exact inside name inner text entered

theorem concat_eq_join_valueIn {nested : String → Run} {ctx : Context} {lookup : Lookup}
    (restoring : ∀ text, Restoring (nested text))
    (inside : ∀ name inner text, ctx.enter name = .ok inner →
      (nested text inner).1 = expandIn inner lookup text) (segments : List Segment) :
    (concat (reference nested lookup) segments ctx).1 = join (valueIn ctx lookup) segments := by
  rw [concat_eq_join (restoring_reference restoring lookup)]
  exact congrArg (join · segments) (funext (reference_eq_valueIn inside))

end Expansion

open Expansion

theorem expand_restores (lookup : Lookup) (raw : String) (ctx : Context) :
    (expand lookup raw ctx).2 = ctx :=
  restoring_within _ lookup raw ctx

theorem expandIn_eq (ctx : Context) (lookup : Lookup) (raw : String) :
    expandIn ctx lookup raw =
      match Reference.parse raw with
      | .error e => .error (.malformed e)
      | .ok segments => join (valueIn ctx lookup) segments := by
  unfold expandIn expand within
  cases Reference.parse raw with
  | error e => rfl
  | ok segments =>
    cases room : Context.depthLimit - ctx.depth with
    | zero =>
      -- No name can be entered, so it does not matter what stands for a nested expansion.
      refine concat_eq_join_valueIn (fun _ _ => rfl) (fun name inner text entered => ?_) segments
      obtain ⟨_, shallow, _⟩ := Context.enter_eq_ok.1 entered
      omega
    | succ less =>
      refine concat_eq_join_valueIn (restoring_within less lookup)
        (fun name inner text entered => ?_) segments
      obtain ⟨_, _, rfl⟩ := Context.enter_eq_ok.1 entered
      have same : Context.depthLimit - (ctx.depth + 1) = less := by omega
      simp only [expandIn, expand, same]

end ScopedCommands
