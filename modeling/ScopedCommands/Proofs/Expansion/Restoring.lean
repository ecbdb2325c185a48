import ScopedCommands.Proofs.Dict
import ScopedCommands.Proofs.Expansion.Grounded

/-!
A context in use. Names are entered and left and texts are expanded in it, in any order; what is
refused leaves it as it is. An expansion is such a use in its turn: `Runs` says the recursion without
a bound on it, one rule for each way a step can end, and lists every context on the way. That each
expansion is such a run, which is finite, is its termination; that the run ends in the context where
it began is what makes the next expansion independent of it.
-/
namespace ScopedCommands

namespace Expansion

inductive Task where
  | text (raw : String)
  | segments (segments : List Segment)
  | name (name : String)

/-- The expansion of a task in a context: the contexts that are entered and come back to on the way,
the result, and the context at the end. -/
inductive Runs (lookup : Lookup) :
    Task → Context → List Context → Except ExpansionError String → Context → Prop where
  | unreadable {raw : String} {cause : ReferenceError} (ctx : Context)
      (failed : Reference.parse raw = .error cause) :
      Runs lookup (.text raw) ctx [] (.error (.malformed cause)) ctx
  | readable {raw : String} {segments : List Segment} {ctx after : Context}
      {passed : List Context} {result : Except ExpansionError String}
      (read : Reference.parse raw = .ok segments)
      (inside : Runs lookup (.segments segments) ctx passed result after) :
      Runs lookup (.text raw) ctx passed result after
  | nil (ctx : Context) : Runs lookup (.segments []) ctx [] (.ok "") ctx
  | literal (text : String) {rest : List Segment} {ctx after : Context} {passed : List Context}
      {result : Except ExpansionError String}
      (later : Runs lookup (.segments rest) ctx passed result after) :
      Runs lookup (.segments (.literal text :: rest)) ctx passed (result.map (text ++ ·)) after
  | value (position : Nat) {name v : String} {rest : List Segment} {ctx middle after : Context}
      {passed more : List Context} {result : Except ExpansionError String}
      (own : Runs lookup (.name name) ctx passed (.ok v) middle)
      (later : Runs lookup (.segments rest) middle more result after) :
      Runs lookup (.segments (.reference name position :: rest)) ctx (passed ++ more)
        (result.map (v ++ ·)) after
  | stopped (position : Nat) {name : String} (rest : List Segment) {ctx after : Context}
      {passed : List Context} {e : ExpansionError}
      (own : Runs lookup (.name name) ctx passed (.error e) after) :
      Runs lookup (.segments (.reference name position :: rest)) ctx passed (.error e) after
  | resolved {name v : String} (ctx : Context) (bound : lookup name = some (.resolved v)) :
      Runs lookup (.name name) ctx [] (.ok v) ctx
  | refused {name text : String} {ctx : Context} {e : ExpansionError}
      (bound : lookup name = some (.raw text)) (failed : ctx.enter name = .error e) :
      Runs lookup (.name name) ctx [] (.error e) ctx
  | entered {name text : String} {ctx inner after : Context} {passed : List Context}
      {result : Except ExpansionError String} (bound : lookup name = some (.raw text))
      (entered : ctx.enter name = .ok inner)
      (inside : Runs lookup (.text text) inner passed result after) :
      Runs lookup (.name name) ctx (inner :: passed ++ [after.leave]) result after.leave
  | outside {name : String} (ctx : Context) (none : lookup name = none) :
      Runs lookup (.name name) ctx [] (unbound name ctx) ctx

namespace Runs

variable {lookup : Lookup} {task : Task} {ctx after : Context} {passed : List Context}
  {result : Except ExpansionError String}

theorem restores (h : Runs lookup task ctx passed result after) : after = ctx := by
  induction h with
  | unreadable => rfl
  | readable _ _ ih => exact ih
  | nil => rfl
  | literal _ _ ih => exact ih
  | value _ _ _ own later => exact later.trans own
  | stopped _ _ _ ih => exact ih
  | resolved => rfl
  | refused => rfl
  | entered _ entered _ ih =>
    subst ih
    exact Context.leave_of_enter entered
  | outside => rfl

theorem unique (h : Runs lookup task ctx passed result after) {others : List Context}
    {other : Except ExpansionError String} {final : Context}
    (k : Runs lookup task ctx others other final) :
    others = passed ∧ other = result ∧ final = after := by
  induction h generalizing others other final with
  | unreadable _ failed =>
    cases k with
    | unreadable _ failed' =>
      rw [failed] at failed'
      cases failed'
      exact ⟨rfl, rfl, rfl⟩
    | readable read => simp [failed] at read
  | readable read _ ih =>
    cases k with
    | unreadable _ failed => simp [read] at failed
    | readable read' inside =>
      rw [read] at read'
      cases read'
      exact ih inside
  | nil =>
    cases k
    exact ⟨rfl, rfl, rfl⟩
  | literal _ _ ih =>
    cases k with
    | literal _ later =>
      obtain ⟨rfl, rfl, rfl⟩ := ih later
      exact ⟨rfl, rfl, rfl⟩
  | value _ _ _ own later =>
    cases k with
    | value _ own' later' =>
      obtain ⟨rfl, same, rfl⟩ := own own'
      cases same
      obtain ⟨rfl, rfl, rfl⟩ := later later'
      exact ⟨rfl, rfl, rfl⟩
    | stopped _ _ own' =>
      obtain ⟨_, impossible, _⟩ := own own'
      cases impossible
  | stopped _ _ _ ih =>
    cases k with
    | value _ own _ =>
      obtain ⟨_, impossible, _⟩ := ih own
      cases impossible
    | stopped _ _ own =>
      obtain ⟨rfl, same, rfl⟩ := ih own
      cases same
      exact ⟨rfl, rfl, rfl⟩
  | resolved _ bound =>
    cases k with
    | resolved _ bound' =>
      rw [bound] at bound'
      cases bound'
      exact ⟨rfl, rfl, rfl⟩
    | refused bound' => simp [bound] at bound'
    | entered bound' => simp [bound] at bound'
    | outside _ none => simp [bound] at none
  | refused bound failed =>
    cases k with
    | resolved _ bound' => simp [bound] at bound'
    | refused _ failed' =>
      rw [failed] at failed'
      cases failed'
      exact ⟨rfl, rfl, rfl⟩
    | entered _ entered => simp [failed] at entered
    | outside _ none => simp [bound] at none
  | entered bound entered _ ih =>
    cases k with
    | resolved _ bound' => simp [bound] at bound'
    | refused _ failed => simp [entered] at failed
    | entered bound' entered' inside =>
      rw [bound] at bound'
      cases bound'
      rw [entered] at entered'
      cases entered'
      obtain ⟨rfl, rfl, rfl⟩ := ih inside
      exact ⟨rfl, rfl, rfl⟩
    | outside _ none => simp [bound] at none
  | outside _ none =>
    cases k with
    | resolved _ bound => simp [none] at bound
    | refused bound => simp [none] at bound
    | entered bound => simp [none] at bound
    | outside => exact ⟨rfl, rfl, rfl⟩

end Runs

theorem runs_segments {lookup : Lookup} {ctx : Context}
    (names : ∀ name, ∃ passed, Runs lookup (.name name) ctx passed (valueIn ctx lookup name) ctx)
    (segments : List Segment) :
    ∃ passed, Runs lookup (.segments segments) ctx passed
      (join (valueIn ctx lookup) segments) ctx := by
  induction segments with
  | nil => exact ⟨[], .nil ctx⟩
  | cons segment rest ih =>
    obtain ⟨more, later⟩ := ih
    cases segment with
    | literal text => exact ⟨more, .literal text later⟩
    | reference name position =>
      obtain ⟨passed, own⟩ := names name
      rw [join]
      generalize valueIn ctx lookup name = value at own ⊢
      cases value with
      | error e => exact ⟨passed, .stopped position rest own⟩
      | ok v => exact ⟨passed ++ more, .value position own later⟩

theorem runs_expandIn (lookup : Lookup) (raw : String) (ctx : Context) :
    ∃ passed, Runs lookup (.text raw) ctx passed (expandIn ctx lookup raw) ctx := by
  -- By induction on the depth that is left: only `enter` starts another expansion.
  induction ctx using Context.induction_on_enter generalizing raw with
  | step ctx ih =>
    rw [expandIn_eq]
    cases read : Reference.parse raw with
    | error cause => exact ⟨[], .unreadable ctx read⟩
    | ok segments =>
      refine (runs_segments (fun name => ?_) segments).imp fun _ => .readable read
      unfold valueIn
      cases bound : lookup name with
      | none => exact ⟨[], .outside ctx bound⟩
      | some binding =>
        cases binding with
        | resolved v => exact ⟨[], .resolved ctx bound⟩
        | raw text =>
          cases entered : ctx.enter name with
          | error e => exact ⟨[], .refused bound entered⟩
          | ok inner =>
            obtain ⟨passed, inside⟩ := ih name inner entered text
            have back := Runs.entered bound entered inside
            rw [Context.leave_of_enter entered] at back
            exact ⟨_, back⟩

end Expansion

open Expansion

namespace Context

theorem Coherent.leave {ctx : Context} (h : ctx.Coherent) : ctx.leave.Coherent := by
  obtain ⟨members, distinct, depth, limited⟩ := h
  unfold Context.leave Chain.pop Chain.top
  cases last : ctx.chain.order.getLast? with
  | none => exact ⟨members, distinct, depth, limited⟩
  | some name =>
    obtain ⟨front, order⟩ := List.getLast?_eq_some_iff.1 last
    unfold Chain.length at depth
    rw [order] at members distinct depth
    have gone : name ∉ front := fun member =>
      (List.nodup_append.1 distinct).2.2 name member name (by simp) rfl
    simp only [order, List.dropLast_concat]
    refine ⟨fun other => ?_, (List.nodup_append.1 distinct).1, ?_, Nat.le_trans (Nat.sub_le _ _) limited⟩
    · have old := members other
      unfold Chain.contains at old ⊢
      rw [Dict.contains_erase, old, List.mem_append, List.mem_singleton]
      constructor
      · rintro ⟨another, listed | same⟩
        · exact listed
        · exact absurd same another
      · intro listed
        exact ⟨fun same => gone (same ▸ listed), .inl listed⟩
    · simp [Chain.length, depth]

inductive Use where
  | enter (name : String)
  | leave
  | expand (lookup : Lookup) (raw : String)

def use (ctx : Context) : Use → Context
  | .enter name => (ctx.enter name).toOption.getD ctx
  | .leave => ctx.leave
  | .expand lookup raw => (ScopedCommands.expand lookup raw ctx).2

theorem Coherent.use {ctx : Context} (h : ctx.Coherent) (u : Use) : (ctx.use u).Coherent := by
  cases u with
  | leave => exact h.leave
  | expand lookup raw =>
    rw [Context.use, expand_restores]
    exact h
  | enter name =>
    cases entered : ctx.enter name with
    | error e =>
      simp only [Context.use, entered]
      exact h
    | ok inner =>
      simp only [Context.use, entered]
      exact h.enter entered

theorem Coherent.uses {ctx : Context} (h : ctx.Coherent) (uses : List Use) :
    (uses.foldl Context.use ctx).Coherent := by
  induction uses generalizing ctx with
  | nil => exact h
  | cons u rest ih => exact ih (h.use u)

end Context

theorem Expansion.Runs.coherent {lookup : Lookup} {task : Task} {ctx after : Context}
    {passed : List Context} {result : Except ExpansionError String}
    (h : Runs lookup task ctx passed result after) (coherent : ctx.Coherent) :
    ∀ inner ∈ passed, inner.Coherent := by
  induction h with
  | unreadable => exact fun _ => nofun
  | readable _ _ ih => exact ih coherent
  | nil => exact fun _ => nofun
  | literal _ _ ih => exact ih coherent
  | value _ own _ first second =>
    intro inner member
    rcases List.mem_append.1 member with before | behind
    · exact first coherent inner before
    · rw [own.restores] at second
      exact second coherent inner behind
  | stopped _ _ _ ih => exact ih coherent
  | resolved => exact fun _ => nofun
  | refused => exact fun _ => nofun
  | @entered _ _ _ start after passed _ _ entered inside ih =>
    have within := coherent.enter entered
    intro inner member
    rw [inside.restores] at member
    simp only [List.cons_append, List.mem_cons, List.mem_append, List.not_mem_nil, or_false] at member
    rcases member with rfl | before | rfl
    · exact within
    · exact ih within inner before
    · exact within.leave
  | outside => exact fun _ => nofun

/-- However a context was used since it was new, its chain has no name twice, the set of its names is
that of the chain and its depth the length, at most the limit. An expansion in it is one finite run
through contexts of that kind, and gives the context back as it was, whatever its result. -/
theorem Context.coherent_throughout (scope field : String) (external : Option External)
    (uses : List Use) :
    let ctx := uses.foldl Context.use { scope, field, external }
    ctx.Coherent ∧
    ∀ lookup raw, ∃ passed result, Runs lookup (.text raw) ctx passed result ctx ∧
      (∀ others other after, Runs lookup (.text raw) ctx others other after →
        others = passed ∧ other = result ∧ after = ctx) ∧
      (∀ inner ∈ passed, inner.Coherent) ∧
      expand lookup raw ctx = (result, ctx) := by
  intro ctx
  have coherent : ctx.Coherent := (coherent_fresh scope field external).uses uses
  refine ⟨coherent, fun lookup raw => ?_⟩
  obtain ⟨passed, run⟩ := runs_expandIn lookup raw ctx
  refine ⟨passed, expandIn ctx lookup raw, run, fun _ _ _ => run.unique, run.coherent coherent, ?_⟩
  exact Prod.ext rfl (expand_restores lookup raw ctx)

end ScopedCommands
