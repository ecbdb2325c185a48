import ScopedCommands.Proofs.Template.Settling

namespace ScopedCommands.Template

open Outcome

inductive OutsideFields : TemplateError → Prop where
  | badName (name : String) (cause : NameError) : OutsideFields (.badName name cause)
  | reservedName (name : String) : OutsideFields (.reservedName name)
  | badRisk (template : String) (cause : RiskError) : OutsideFields (.badRisk template cause)

namespace Call

variable {call : Call} {raw field : String} {used after : NameSet}

theorem scalar_of_single {value : Option String}
    (bound : (call.single raw field).run used = .ok (value, after)) : Scalar raw := by
  unfold Call.single at bound
  obtain ⟨parts, _, read, rest⟩ := run_bind_eq_ok.1 bound
  cases scalar : Placeholder.firstSpread parts with
  | none => exact ⟨parts, (run_lift_eq_ok.1 read).1, scalar⟩
  | some p =>
    rw [scalar] at rest
    cases rest

theorem scalars_of_text {parts : List FieldPart} {value : String}
    (bound : (call.text field parts).run used = .ok (value, after)) :
    ∀ p ∈ Placeholder.allOf parts, p.kind ≠ .spread := by
  induction parts generalizing used after value with
  | nil => nofun
  | cons first rest ih =>
    cases first with
    | text t =>
      obtain ⟨_, _, later, _⟩ := run_bind_eq_ok.1 bound
      exact ih later
    | placeholder p =>
      unfold Call.text at bound
      by_cases spreads : p.kind = .spread
      · rw [if_pos spreads] at bound
        cases bound
      · rw [if_neg spreads] at bound
        obtain ⟨_, _, _, bound⟩ := run_bind_eq_ok.1 bound
        obtain ⟨_, _, later, _⟩ := run_bind_eq_ok.1 bound
        exact List.forall_mem_cons.2 ⟨spreads, ih later⟩

theorem eq_fill_of_text {parts : List FieldPart} {value : String}
    (bound : (call.text field parts).run used = .ok (value, after)) :
    value = FieldPart.fill call.params parts :=
  (call.fills_text field (scalars_of_text bound)).eq_of_ok bound

theorem plural_of_several {values : List String}
    (bound : (call.several raw field).run used = .ok (values, after)) : Plural raw := by
  unfold Call.several at bound
  obtain ⟨parts, _, read, rest⟩ := run_bind_eq_ok.1 bound
  refine ⟨parts, (run_lift_eq_ok.1 read).1, ?_⟩
  cases alone : Placeholder.sole parts with
  | some p => exact .inl rfl
  | none =>
    rw [alone] at rest
    obtain ⟨_, _, filled, _⟩ := run_bind_eq_ok.1 rest
    exact .inr (Placeholder.firstSpread_eq_none_iff.2 (scalars_of_text filled))

theorem plural_of_args {raws values : List String} {index : Nat}
    (bound : (call.args index raws).run used = .ok (values, after)) :
    ∀ raw ∈ raws, Plural raw := by
  induction raws generalizing index used after values with
  | nil => nofun
  | cons raw rest ih =>
    obtain ⟨_, _, own, bound⟩ := run_bind_eq_ok.1 bound
    obtain ⟨_, _, later, _⟩ := run_bind_eq_ok.1 bound
    exact List.forall_mem_cons.2 ⟨plural_of_several own, ih later⟩

theorem entry_of_envEntry {index : Nat} {bound : List (String × EnvOrigin)}
    (binds : (call.envEntry index raw).run used = .ok (bound, after)) :
    Entry call.template raw := by
  unfold Call.envEntry at binds
  obtain ⟨shape, _, read, rest⟩ := run_bind_eq_ok.1 binds
  refine ⟨shape, (run_lift_eq_ok.1 read).1, ?_⟩
  cases shape with
  | spread p => trivial
  | sole p => trivial
  | pair key value =>
    obtain ⟨_, _, filled, _⟩ := run_bind_eq_ok.1 rest
    exact Placeholder.firstSpread_eq_none_iff.2 (scalars_of_text filled)

theorem entry_of_envEntries {raws : List String} {index : Nat} {bound : List (String × EnvOrigin)}
    (binds : (call.envEntries index raws).run used = .ok (bound, after)) :
    ∀ raw ∈ raws, Entry call.template raw := by
  induction raws generalizing index used after bound with
  | nil => nofun
  | cons raw rest ih =>
    obtain ⟨_, _, own, binds⟩ := run_bind_eq_ok.1 binds
    obtain ⟨_, _, later, _⟩ := run_bind_eq_ok.1 binds
    exact List.forall_mem_cons.2 ⟨entry_of_envEntry own, ih later⟩

theorem scalar_of_optionalField {raw? value : Option String}
    (bound : (call.optionalField field raw?).run used = .ok (value, after)) :
    ∀ raw ∈ raw?, Scalar raw := by
  rintro raw ⟨rfl⟩
  exact scalar_of_single bound

end Call

/-- A blank text has no sign that is read otherwise than as itself. -/
theorem parts_of_blank {raw : String} (blank : Text.allBlank raw = true) :
    placeholdersIn [raw] = [] ∧ ∀ params, FieldPart.fill params (parts raw) = raw := by
  have free : ∀ c ∈ raw.toList, c ≠ '\\' ∧ c ≠ '$' := by
    intro c member
    have own := List.all_eq_true.1 blank c member
    constructor
    · rintro rfl
      cases own
    · rintro rfl
      cases own
  have read : Placeholder.parse raw = .ok (Placeholder.merge (raw.toList.map .plain)) :=
    Placeholder.parse_eq_ok_iff.2 ⟨_, Placeholder.spells_plain free, rfl⟩
  have whole : parts raw = Placeholder.merge (raw.toList.map .plain) := by
    rw [parts, read]
    rfl
  constructor
  · rw [placeholdersIn_singleton, whole, Placeholder.allOf_merge]
    simp [Placeholder.Item.placeholder?]
  · intro params
    rw [whole, FieldPart.fill_merge]
    simp [List.flatMap_map, Placeholder.Item.shown]

variable {name : String} {t : Template}

theorem wellFormed_of_bind {params : Dict Parameter} {b : BoundCommand}
    (bound : t.bind name params = .ok b) : t.WellFormed name := by
  obtain ⟨_, _, fields⟩ := fields_of_bind bound
  have steps := Call.bindsFields fields
  obtain ⟨text, before, noted, own, command⟩ := steps.command
  obtain ⟨_, _, arguments⟩ := steps.arguments
  obtain ⟨_, _, declared⟩ := steps.declared
  obtain ⟨_, _, entries, _⟩ := run_bind_eq_ok.1 declared
  obtain ⟨_, _, directory⟩ := steps.directory
  have scalar := Call.scalar_of_single own
  refine ⟨eq_false_of_ne_true fun blank => ?_, scalar, Call.plural_of_args arguments,
    Call.entry_of_envEntries entries, Call.scalar_of_optionalField directory⟩
  -- A blank command has no placeholder, so no parameter can make it visible.
  obtain ⟨none, same⟩ := parts_of_blank blank
  have filled := (Call.fills_single ⟨name, params⟩ scalar "cmd").gives (by simp [none]) before
  rw [own] at filled
  obtain ⟨rfl, _⟩ := Prod.mk.inj (Except.ok.inj filled)
  obtain ⟨ps, read, alone⟩ := scalar
  have visible := steps.visible
  rw [← command, valuesOf_singleton, parts_of_parseField read, FieldPart.getD_head?_values
    (Placeholder.firstSpread_eq_none_iff.1 alone), ← parts_of_parseField read, same, blank] at visible
  cases visible

theorem outsideFields_of_check {e : TemplateError} (h : t.WellFormed name)
    (refused : t.check name = .error e) : OutsideFields e := by
  rw [h.check_eq] at refused
  rcases bind_eq_error.1 refused with named | ⟨_, _, risk⟩
  · unfold checkName at named
    split at named
    next cause _ =>
      cases named
      exact .badName name cause
    next =>
      split at named
      · cases named
        exact .reservedName name
      · cases named
  · unfold checkRisk at risk
    split at risk
    next cause _ =>
      cases risk
      exact .badRisk name cause
    next => cases risk

/-- The check refuses no template that has a call that can be bound, but for its name and its risk
level; with any other fault no call of the template can be bound. -/
theorem check_refuses_only_unbindable (name : String) (t : Template) :
    (∀ params b, t.bind name params = .ok b →
      t.check name = .ok () ∨ ∃ e, t.check name = .error e ∧ OutsideFields e) ∧
    ∀ e, t.check name = .error e → ¬ OutsideFields e →
      ∀ params, ∃ failure, t.bind name params = .error failure := by
  have outside : ∀ {params b}, t.bind name params = .ok b → ∀ {e}, t.check name = .error e →
      OutsideFields e := fun bound _ refused =>
    outsideFields_of_check (wellFormed_of_bind bound) refused
  constructor
  · intro params b bound
    cases checked : t.check name with
    | ok _ => exact .inl rfl
    | error e => exact .inr ⟨e, rfl, outside bound checked⟩
  · intro e refused inside params
    cases bound : t.bind name params with
    | ok b => exact absurd (outside bound refused) inside
    | error failure => exact ⟨failure, rfl⟩

def prefixed : Template where
  cmd := "env"
  env := ["${?extra}", "APP_${key}=1"]

theorem check_refuses_only_unbindable_prefixed :
    (∃ e, ({ cmd := "${tool}" } : Template).check "__tool" = .error e ∧ OutsideFields e) ∧
      ∀ params, ∃ failure, prefixed.bind "prefixed" params = .error failure := by
  constructor
  · have bound : ({ cmd := "${tool}" } : Template).bind "__tool"
        (Dict.ofList [("tool", .text "make")]) =
        .ok ⟨"__tool", "make", [], [], none, none, []⟩ := toOption_eq_some.1 (by decide +kernel)
    have refused : (({ cmd := "${tool}" } : Template).check "__tool").toOption = none := by
      decide +kernel
    rcases (check_refuses_only_unbindable "__tool" _).1 _ _ bound with checked | outside
    · rw [checked] at refused
      cases refused
    · exact outside
  · exact (check_refuses_only_unbindable "prefixed" prefixed).2
      (.placeholderInKey "prefixed" "APP_${key}=1") (error?_eq_some.1 (by decide +kernel)) nofun

end ScopedCommands.Template
