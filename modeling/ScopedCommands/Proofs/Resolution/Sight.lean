import ScopedCommands.Proofs.Lockstep.Expansion
import ScopedCommands.Proofs.Resolution.Entries

/-!
What the texts of a scope see. Every visible name has a value and no text of its own, so a text is
filled in one pass, and the first of its names without a value makes the error. The only name that
can be on the chain is that of the variable whose text it is.
-/
namespace ScopedCommands

open Outcome

namespace Expansion

variable {value other : String → Except ExpansionError String} {segments : List Segment}

theorem join_mono (keeps : ∀ name v, value name = .ok v → other name = .ok v) {v : String}
    (joined : join value segments = .ok v) : join other segments = .ok v := by
  induction segments generalizing v with
  | nil => exact joined
  | cons segment rest ih =>
    cases segment with
    | literal text =>
      obtain ⟨tail, later, rfl⟩ := map_eq_ok.1 joined
      exact map_eq_ok.2 ⟨tail, ih later, rfl⟩
    | reference name position =>
      obtain ⟨own, has, more⟩ := bind_eq_ok.1 joined
      obtain ⟨tail, later, rfl⟩ := map_eq_ok.1 more
      exact bind_eq_ok.2 ⟨own, keeps name own has, map_eq_ok.2 ⟨tail, ih later, rfl⟩⟩

theorem join_reference (name : String) (position : Nat) :
    join value [.reference name position] = value name := by
  unfold join
  cases value name with
  | error e => rfl
  | ok own => exact congrArg Except.ok String.append_empty

end Expansion

def Reference.FirstUnseen (seen : String → Option String) (raw name : String) : Prop :=
  ∃ before position after, Reference.parse raw = .ok (before ++ .reference name position :: after) ∧
    (∀ earlier place, .reference earlier place ∈ before → seen earlier ≠ none) ∧ seen name = none

theorem Reference.FirstUnseen.unset {seen : String → Option String} {raw name : String}
    (h : FirstUnseen seen raw name) : Mentions raw name ∧ seen name = none := by
  obtain ⟨before, position, after, read, _, unseen⟩ := h
  exact ⟨⟨_, position, read, by simp⟩, unseen⟩

namespace Setting

def seen (s : Setting) (allowlist : Allowlist) (vars : Dict String) (parents : List Scope)
    (name : String) : Option String :=
  (s.visible vars parents name).or
    (if allowlist.allows name then some ((s.environment.get? name).getD "") else none)

def refusal (s : Setting) (ctx : Context) (name : String) : ExpansionError :=
  if ctx.chain.contains name then .circular (ctx.chain.cycle name)
  else .denial s.environment ctx.scope ctx.user name

def varContext (s : Setting) (label : ScopeLabel) (allowlist : Allowlist) (name : String) :
    Context :=
  { s.context label allowlist s!"vars.{name}" with
    chain := ⟨[name], NameSet.add .empty name⟩
    depth := 1 }

variable {s : Setting} {label : ScopeLabel} {allowlist : Allowlist} {parents : List Scope}
  {vars : Dict String} {ctx : Context} {name raw : String} {e : ExpansionError}

theorem expandVar_eq (a : Assignment) :
    s.expandVar label allowlist parents vars a =
      expandIn (s.varContext label allowlist a.name) (s.lookup vars parents) a.value := rfl

theorem refusal_context (field : String) :
    s.refusal (s.context label allowlist field) name =
      .denial s.environment label.text field name := rfl

theorem refusal_varContext (allowlist : Allowlist) (own : String) :
    s.refusal (s.varContext label allowlist own) name =
      if name = own then .circular [own, own] else .denial s.environment label.text own name := by
  have chain : (s.varContext label allowlist own).chain.contains name = true ↔ name = own := by
    refine NameSet.contains_add.trans ?_
    simp [Dict.contains, Dict.get?_empty]
  unfold refusal
  by_cases same : name = own
  · rw [if_pos (chain.2 same), if_pos same, same]
    rfl
  · rw [if_neg (fun on => same (chain.1 on)), if_neg same]
    rfl

section

variable (view : ctx.external = some ⟨s.environment, allowlist⟩)

include view

theorem valueIn_eq_seen (name : String) :
    Expansion.valueIn ctx (s.lookup vars parents) name =
      match s.seen allowlist vars parents name with
      | some value => .ok value
      | none => .error (s.refusal ctx name) := by
  unfold Expansion.valueIn lookup seen
  cases s.visible vars parents name with
  | some value => rfl
  | none =>
    simp only [Option.map_none, Option.none_or]
    rw [Expansion.unbound_external _ view]
    split
    · rfl
    · unfold refusal
      split <;> rfl

theorem valueIn_eq_ok_iff_seen {value : String} :
    Expansion.valueIn ctx (s.lookup vars parents) name = .ok value ↔
      s.seen allowlist vars parents name = some value := by
  rw [valueIn_eq_seen view]
  cases s.seen allowlist vars parents name with
  | none => simp
  | some own => simp

theorem valueIn_eq_error_iff_unseen :
    Expansion.valueIn ctx (s.lookup vars parents) name = .error e ↔
      s.seen allowlist vars parents name = none ∧ s.refusal ctx name = e := by
  rw [valueIn_eq_seen view]
  cases s.seen allowlist vars parents name with
  | none => simp
  | some own => simp

/-- A text fails for what is wrong with it, or for the first name that it cannot see. -/
theorem expandIn_eq_error_iff_unseen :
    expandIn ctx (s.lookup vars parents) raw = .error e ↔
      (∃ cause, Reference.parse raw = .error cause ∧ .malformed cause = e) ∨
      ∃ name, Reference.FirstUnseen (s.seen allowlist vars parents) raw name ∧
        s.refusal ctx name = e := by
  have known (earlier : String) :
      (∃ v, Expansion.valueIn ctx (s.lookup vars parents) earlier = .ok v) ↔
        s.seen allowlist vars parents earlier ≠ none := by
    simp only [valueIn_eq_ok_iff_seen view, Option.ne_none_iff_exists']
  rw [expandIn_eq]
  unfold Reference.FirstUnseen
  cases Reference.parse raw with
  | error cause => simp
  | ok segments =>
    simp only [Expansion.join_eq_error_iff, known, valueIn_eq_error_iff_unseen view, reduceCtorEq,
      false_and, exists_false, false_or, Except.ok.injEq]
    constructor
    · rintro ⟨before, name, position, after, split, earlier, unseen, same⟩
      exact ⟨name, ⟨before, position, after, split, earlier, unseen⟩, same⟩
    · rintro ⟨name, ⟨before, position, after, split, earlier, unseen⟩, same⟩
      exact ⟨before, name, position, after, split, earlier, unseen, same⟩

theorem expandIn_of_seen {t : Setting} {wider : Allowlist} {outer : List Scope} {own : Dict String}
    {other : Context} (view' : other.external = some ⟨t.environment, wider⟩)
    (keeps : ∀ name value, s.seen allowlist vars parents name = some value →
      t.seen wider own outer name = some value) {value : String}
    (expanded : expandIn ctx (s.lookup vars parents) raw = .ok value) :
    expandIn other (t.lookup own outer) raw = .ok value := by
  obtain ⟨segments, read, joined⟩ := expandIn_eq_ok.1 expanded
  refine expandIn_eq_ok.2 ⟨segments, read, Expansion.join_mono (fun name v has => ?_) joined⟩
  have seen := (valueIn_eq_ok_iff_seen view).1 has
  exact (valueIn_eq_ok_iff_seen view').2 (keeps name v seen)

theorem expandIn_written (word : Reference.IsWord name) :
    expandIn ctx (s.lookup vars parents) (Reference.written name) =
      match s.seen allowlist vars parents name with
      | some value => .ok value
      | none => .error (s.refusal ctx name) := by
  rw [expandIn_eq, word.parse_written, ← valueIn_eq_seen view]
  exact Expansion.join_reference name 0

end

section

variable {wider : Allowlist} {outer : List Scope} {kept last : Kept} {x : ScopeEntry}
  {l : List ScopeEntry}
  (allows : ∀ name, allowlist.allows name = true → wider.allows name = true)
  (same : ∀ vars name, s.visible vars outer name = s.visible vars parents name)

include allows same

theorem seen_wider {value : String} (seen : s.seen allowlist vars parents name = some value) :
    s.seen wider vars outer name = some value := by
  unfold Setting.seen at seen ⊢
  rw [same, Option.or_eq_some_iff]
  rw [Option.or_eq_some_iff] at seen
  obtain own | ⟨invisible, inherited⟩ := seen
  · exact .inl own
  · obtain ⟨allowed, value⟩ := Option.ite_none_right_eq_some.1 inherited
    exact .inr ⟨invisible, Option.ite_none_right_eq_some.2 ⟨allows name allowed, value⟩⟩

theorem entryValue_wider (other : ScopeLabel) {value : String}
    (has : s.entryValue label allowlist parents kept x = .ok value) :
    s.entryValue other wider outer kept x = .ok value := by
  have keeps (name value : String) (seen : s.seen allowlist kept.vars parents name = some value) :=
    seen_wider allows same seen
  cases x with
  | imported a =>
    simp only [entryValue] at has ⊢
    by_cases allowed : allowlist.allows a.value = true
    · rw [if_pos allowed] at has
      rwa [if_pos (allows a.value allowed)]
    · rw [if_neg allowed] at has
      cases has
  | var a => exact expandIn_of_seen rfl rfl keeps has
  | env a => exact expandIn_of_seen rfl rfl keeps has

theorem Keeps.widen (other : ScopeLabel) (h : s.Keeps label allowlist parents kept l last) :
    s.Keeps other wider outer kept l last := by
  induction h with
  | nil => exact .nil _
  | cons has safely _ ih => exact .cons (entryValue_wider allows same other has) safely ih

end

/-- A scope with another label, in which at least the same is seen, has the same values. -/
theorem resolveScope_widen {d : ScopeDecl} {list : Option (List String)} {outer : List Scope}
    {scope : Scope}
    (allows : ∀ name, (d.effective parents).allows name = true →
      ({ d with label, allowlist := list }.effective outer).allows name = true)
    (same : ∀ vars name, s.visible vars outer name = s.visible vars parents name)
    (resolved : s.resolveScope d parents = .ok scope) :
    s.resolveScope { d with label, allowlist := list } outer =
      .ok ⟨label, scope.vars, scope.env, { d with label, allowlist := list }.effective outer⟩ := by
  obtain ⟨read, reads⟩ := reads_of_resolveScope resolved
  obtain ⟨kept, values, rfl⟩ := (resolveScope_eq_ok_iff_keeps reads).1 resolved
  have again : { d with label, allowlist := list }.Reads read :=
    ⟨reads.imports, reads.vars, reads.env⟩
  exact (resolveScope_eq_ok_iff_keeps again).2 ⟨kept, values.widen allows same label, rfl⟩

/-- The error of a variable's text. Only a variable without a value to refer to can refer to
itself. -/
theorem entryValue_var_eq_error_iff {kept : Kept} {a : Assignment} :
    s.entryValue label allowlist parents kept (.var a) = .error e ↔
      (∃ cause, Reference.parse a.value = .error cause ∧ .malformed cause = e) ∨
      ∃ name, Reference.FirstUnseen (s.seen allowlist kept.vars parents) a.value name ∧
        (if name = a.name then .circular [a.name, a.name]
          else .denial s.environment label.text a.name name) = e := by
  simp only [entryValue, expandVar_eq, ← refusal_varContext allowlist]
  exact expandIn_eq_error_iff_unseen rfl

end Setting
end ScopedCommands
