import ScopedCommands.Proofs.Outcome
import ScopedCommands.Template.Bind

namespace ScopedCommands.Template

open Outcome

theorem run_bind_eq_ok {α β : Type} {x : Bind α} {f : α → Bind β} {used after : NameSet} {b : β} :
    (x >>= f).run used = .ok (b, after) ↔
      ∃ a noted, x.run used = .ok (a, noted) ∧ (f a).run noted = .ok (b, after) := by
  rw [StateT.run_bind, bind_eq_ok]
  constructor
  · rintro ⟨⟨a, noted⟩, first, later⟩
    exact ⟨a, noted, first, later⟩
  · rintro ⟨a, noted, first, later⟩
    exact ⟨(a, noted), first, later⟩

theorem run_lift_eq_ok {α : Type} {x : Except TemplateError α} {used after : NameSet} {a : α} :
    (liftM x : Bind α).run used = .ok (a, after) ↔ x = .ok a ∧ after = used := by
  rw [show (liftM x : Bind α).run used = x >>= fun b => .ok (b, used) from rfl, bind_eq_ok]
  constructor
  · rintro ⟨b, given, same⟩
    cases same
    exact ⟨given, rfl⟩
  · rintro ⟨given, rfl⟩
    exact ⟨a, given, rfl⟩

theorem run_bind_eq_error {α β : Type} {x : Bind α} {f : α → Bind β} {used : NameSet}
    {e : TemplateError} :
    (x >>= f).run used = .error e ↔ x.run used = .error e ∨
      ∃ a noted, x.run used = .ok (a, noted) ∧ (f a).run noted = .error e := by
  rw [StateT.run_bind, bind_eq_error, Prod.exists]

namespace Call

variable {call : Call} {used after : NameSet}

/-- The check of substituted entries is that of declared ones, with the keys seen so far for the
names taken so far. -/
theorem readAll_of_checkEnv {template field : String} {duplicate : String → DeclarationError}
    {seen : Dict EnvOrigin} {taken : NameSet} {bound : List (String × EnvOrigin)}
    (checked : checkEnv template seen bound = .ok ())
    (same : ∀ key, taken.contains key = seen.contains key) :
    ∃ read, (Declaration.readAll (Declaration.readVariable field) duplicate taken
      (bound.map (·.1))).1 = .ok read := by
  induction bound generalizing seen taken with
  | nil => exact ⟨[], rfl⟩
  | cons first rest ih =>
    obtain ⟨entry, origin⟩ := first
    unfold checkEnv at checked
    cases parsed : Assignment.parse entry with
    | none => simp [parsed] at checked
    | some a =>
      cases named : Name.check a.name with
      | error e => simp [parsed, named] at checked
      | ok _ =>
        cases found : seen.get? a.name with
        | some before => simp [parsed, named, found] at checked
        | none =>
          simp only [parsed, named, found] at checked
          have new : taken.contains a.name = false := by
            rw [same, Dict.contains, found]
            rfl
          have still : ∀ key, (taken.add a.name).contains key =
              (seen.insert a.name origin).contains key := by
            intro key
            have before := same key
            simp only [NameSet.add, Dict.contains, Dict.get?_insert] at before ⊢
            split
            · rfl
            · exact before
          have word : Declaration.checkName a.name = .ok () := by
            rw [Declaration.checkName, named, mapError_ok]
          have own : Declaration.readVariable field entry = .ok a := by
            rw [Declaration.readVariable, parsed]
            simp only [word]
            rfl
          obtain ⟨read, later⟩ := ih checked still
          refine ⟨a :: read, ?_⟩
          rw [List.map_cons, Declaration.readAll, own]
          simp only [new, Bool.false_eq_true, if_false, later]
          rfl

theorem declares_of_env {entries env : List String}
    (bound : (call.env entries).run used = .ok (env, after)) (field : String) :
    ∃ read, Declaration.environment field env = .ok read := by
  obtain ⟨items, noted, _, rest⟩ := run_bind_eq_ok.1 bound
  obtain ⟨_, _, checked, done⟩ := run_bind_eq_ok.1 rest
  cases done
  obtain ⟨checked, _⟩ := run_lift_eq_ok.1 checked
  exact readAll_of_checkEnv checked fun _ => rfl

structure BindsFields (call : Call) (t : Template) (cmd : String) (args env : List String)
    (workdir : Option String) : Prop where
  command : ∃ text before noted, (call.single t.cmd "cmd").run before = .ok (text, noted) ∧
    text.getD "" = cmd
  visible : Text.allBlank cmd = false
  arguments : ∃ before noted, (call.args 0 t.args).run before = .ok (args, noted)
  declared : ∃ before noted, (call.env t.env).run before = .ok (env, noted)
  directory : ∃ before noted, (call.optionalField "workdir" t.workdir).run before =
    .ok (workdir, noted)

theorem bindsFields {t : Template} {cmd : String} {args env : List String}
    {workdir : Option String}
    (bound : (call.fields t).run used = .ok ((cmd, args, env, workdir), after)) :
    call.BindsFields t cmd args env workdir := by
  unfold fields at bound
  obtain ⟨text, _, own, rest⟩ := run_bind_eq_ok.1 bound
  cases blank : Text.allBlank (text.getD "") with
  | true =>
    rw [if_pos blank] at rest
    obtain ⟨_, _, thrown, _⟩ := run_bind_eq_ok.1 rest
    cases thrown
  | false =>
    rw [if_neg (by simp [blank])] at rest
    obtain ⟨values, _, each, rest⟩ := run_bind_eq_ok.1 rest
    obtain ⟨entries, _, declared, rest⟩ := run_bind_eq_ok.1 rest
    obtain ⟨directory, _, last, done⟩ := run_bind_eq_ok.1 rest
    cases done
    exact ⟨⟨text, _, _, own, rfl⟩, blank, ⟨_, _, each⟩, ⟨_, _, declared⟩, _, _, last⟩

end Call

/-- What the resolution of a bound command relies on. -/
structure Binds (t : Template) (b : BoundCommand) : Prop where
  command : Text.allBlank b.cmd = false
  declares : ∀ field, ∃ read, Declaration.environment field b.env = .ok read
  risk : b.riskLevel = t.riskLevel

theorem fields_of_bind {t : Template} {name : String} {params : Dict Parameter} {b : BoundCommand}
    (bound : t.bind name params = .ok b) :
    b.riskLevel = t.riskLevel ∧ ∃ used, (Call.fields ⟨name, params⟩ t).run .empty =
      .ok ((b.cmd, b.args, b.env, b.workdir), used) := by
  unfold bind at bound
  obtain ⟨_, _, rest⟩ := bind_eq_ok.1 bound
  obtain ⟨⟨⟨cmd, args, env, workdir⟩, used⟩, fields, done⟩ := bind_eq_ok.1 rest
  cases done
  exact ⟨rfl, used, fields⟩

theorem binds_of_bind {t : Template} {name : String} {params : Dict Parameter} {b : BoundCommand}
    (bound : t.bind name params = .ok b) : t.Binds b := by
  obtain ⟨risk, _, fields⟩ := fields_of_bind bound
  have steps := Call.bindsFields fields
  obtain ⟨_, _, declared⟩ := steps.declared
  exact ⟨steps.visible, Call.declares_of_env declared, risk⟩

theorem args_of_bind {t : Template} {name : String} {params : Dict Parameter} {b : BoundCommand}
    (bound : t.bind name params = .ok b) :
    ∃ used noted, (Call.args ⟨name, params⟩ 0 t.args).run used = .ok (b.args, noted) := by
  obtain ⟨_, _, fields⟩ := fields_of_bind bound
  exact (Call.bindsFields fields).arguments

end ScopedCommands.Template
