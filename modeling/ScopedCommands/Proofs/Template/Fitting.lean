import ScopedCommands.Proofs.Template.Checking
import ScopedCommands.Proofs.Template.Entries

namespace ScopedCommands.Template

open Outcome

/-- The call has all that the placeholders ask for, and what is filled in can be used. -/
structure Fits (t : Template) (params : Dict Parameter) : Prop where
  given : ∀ p ∈ t.placeholders, p.kind = .required → params.contains p.name = true
  lists : ∀ p ∈ t.placeholders, p.kind = .spread →
    ∀ value, params.get? p.name = some value → value.kind = .list
  texts : ∀ p ∈ t.placeholders, p.kind ≠ .spread →
    ∀ value, params.get? p.name = some value → value.kind = .text
  visible : Text.allBlank (FieldPart.fill params (parts t.cmd)) = false
  signs : ∀ entry ∈ valuesOf params t.env, '=' ∈ entry.toList
  keys : ∀ entry ∈ valuesOf params t.env, Name.check (entryKey entry) = .ok ()
  distinct : ((valuesOf params t.env).map entryKey).Nodup

/-- What an error says about a call that does not fit. -/
inductive Misfit (name : String) (t : Template) (params : Dict Parameter) : TemplateError → Prop where
  | unsupplied {e : TemplateError} (fault : Call.Fault ⟨name, params⟩ t.placeholders e) :
      Misfit name t params e
  | emptyCommand (blank : Text.allBlank (FieldPart.fill params (parts t.cmd)) = true) :
      Misfit name t params (.emptyCommand name)
  | entry {e : TemplateError} (fault : Call.EntryFault name [] (valuesOf params t.env) e) :
      Misfit name t params e

variable {name : String} {t : Template} {params : Dict Parameter}

theorem supplies_iff {call : Call} {p : Placeholder} :
    call.Supplies p ↔ (p.kind = .required → call.params.contains p.name = true) ∧
      ∀ value, call.params.get? p.name = some value → value.kind = p.wants := by
  unfold Call.Supplies Dict.contains
  cases call.params.get? p.name with
  | none => simp
  | some value => simp

theorem fits_iff (name : String) : t.Fits params ↔
    (∀ p ∈ t.placeholders, Call.Supplies ⟨name, params⟩ p) ∧
      Text.allBlank (FieldPart.fill params (parts t.cmd)) = false ∧
      KeyedApart [] (valuesOf params t.env) := by
  constructor
  · intro h
    refine ⟨fun p member => supplies_iff.2 ⟨h.given p member, fun value found => ?_⟩, h.visible,
      fun entry member => ⟨h.signs entry member, h.keys entry member⟩, h.distinct⟩
    by_cases spreads : p.kind = .spread
    · rw [Placeholder.wants, if_pos spreads]
      exact h.lists p member spreads value found
    · rw [Placeholder.wants, if_neg spreads]
      exact h.texts p member spreads value found
  · rintro ⟨supplied, visible, apart⟩
    have kinds : ∀ p ∈ t.placeholders, ∀ value, params.get? p.name = some value →
        value.kind = p.wants := fun p member => (supplies_iff.1 (supplied p member)).2
    refine ⟨fun p member => (supplies_iff.1 (supplied p member)).1, ?_, ?_, visible,
      fun entry member => (apart.keyed entry member).sign,
      fun entry member => (apart.keyed entry member).name, apart.distinct⟩
    · intro p member spreads value found
      rw [kinds p member value found, Placeholder.wants, if_pos spreads]
    · intro p member scalar value found
      rw [kinds p member value found, Placeholder.wants, if_neg scalar]

namespace Call

theorem Fault.misfit {call : Call} {ps : List Placeholder} {e : TemplateError}
    (fault : call.Fault ps e) (sub : ps ⊆ t.placeholders) :
    t.Misfit call.template call.params e :=
  .unsupplied (fault.mono sub)

theorem Fills.settles {α : Type} {call : Call} {x : Bind α} {ps : List Placeholder} {a : α}
    (h : call.Fills x ps a) (sub : ps ⊆ t.placeholders) :
    Settles x (∀ p ∈ ps, call.Supplies p) (call.note · ps) a
      (t.Misfit call.template call.params) :=
  Settles.congr h Iff.rfl fun _ fault => fault.misfit sub

theorem settles_fields (call : Call) (h : t.WellFormed call.template) :
    Settles (call.fields t) (t.Fits call.params) (call.note · t.placeholders)
      (FieldPart.fill call.params (parts t.cmd), valuesOf call.params t.args,
        valuesOf call.params t.env, (valuesOf call.params t.workdir.toList).head?)
      (t.Misfit call.template call.params) := by
  have inside : ∀ {ps : List Placeholder}, ps = placeholdersIn [t.cmd] ∨
      ps = placeholdersIn t.args ∨ ps = placeholdersIn t.env ∨
        ps = placeholdersIn t.workdir.toList → ps ⊆ t.placeholders := by
    rintro ps (rfl | rfl | rfl | rfl) p member <;> simp [placeholders, member]
  have cmd := (call.fills_single h.cmd "cmd").settles (inside (.inl rfl))
  have args := (call.fills_args h.args 0).settles (inside (.inr (.inl rfl)))
  have workdir := (call.fills_optionalField h.workdir "workdir").settles
    (inside (.inr (.inr (.inr rfl))))
  have env : Settles (call.env t.env)
      ((∀ p ∈ placeholdersIn t.env, call.Supplies p) ∧
        KeyedApart [] (valuesOf call.params t.env))
      (call.note · (placeholdersIn t.env)) (valuesOf call.params t.env)
      (t.Misfit call.template call.params) :=
    (call.settles_env h.env).congr Iff.rfl fun e fault =>
      fault.elim (·.misfit (inside (.inr (.inr (.inl rfl))))) .entry
  have filled : (valuesOf call.params [t.cmd]).head?.getD "" =
      FieldPart.fill call.params (parts t.cmd) := by
    obtain ⟨ps, read, scalar⟩ := h.cmd
    rw [valuesOf_singleton, parts_of_parseField read]
    exact FieldPart.getD_head?_values (Placeholder.firstSpread_eq_none_iff.1 scalar)
  let noting := fun raws => (call.note · (placeholdersIn raws))
  have noted : (call.note · t.placeholders) =
      (((id ∘ noting t.workdir.toList) ∘ noting t.env) ∘ noting t.args) ∘ noting [t.cmd] := by
    funext used
    simp only [placeholders, note_append]
    rfl
  let supplied := fun raws => ∀ p ∈ placeholdersIn raws, call.Supplies p
  let blank := Text.allBlank (FieldPart.fill call.params (parts t.cmd)) = true
  let apart := KeyedApart [] (valuesOf call.params t.env)
  have together : supplied [t.cmd] ∧ ¬ blank ∧ supplied t.args ∧ (supplied t.env ∧ apart) ∧
      supplied t.workdir.toList ∧ True ↔ t.Fits call.params := by
    rw [fits_iff call.template]
    simp only [placeholders, List.forall_mem_append, supplied, blank, apart,
      Bool.not_eq_true, and_true]
    tauto
  rw [noted]
  refine Settles.congr ?_ together fun _ => id
  refine cmd.bind fun _ => ?_
  rw [filled]
  refine Settles.guard .emptyCommand fun _ => ?_
  exact args.bind fun _ => env.bind fun _ => workdir.bind fun _ => Settles.pure _

theorem contains_note {call : Call} {used : NameSet} {ps : List Placeholder} {name : String} :
    (call.note used ps).contains name = true ↔
      (call.params.contains name = true ∧ ∃ p ∈ ps, p.name = name) ∨ used.contains name = true := by
  induction ps generalizing used with
  | nil => simp [note]
  | cons p rest ih =>
    rw [note, List.foldl_cons, ← note, ih]
    split
    next given =>
      rw [NameSet.contains_add, List.exists_mem_cons_iff]
      constructor
      · rintro (⟨known, other⟩ | rfl | old)
        · exact .inl ⟨known, .inr other⟩
        · exact .inl ⟨given, .inl rfl⟩
        · exact .inr old
      · rintro (⟨known, rfl | other⟩ | old)
        · exact .inr (.inl rfl)
        · exact .inl ⟨known, other⟩
        · exact .inr (.inr old)
    next unknown =>
      rw [List.exists_mem_cons_iff]
      constructor
      · rintro (⟨known, other⟩ | old)
        · exact .inl ⟨known, .inr other⟩
        · exact .inr old
      · rintro (⟨known, rfl | other⟩ | old)
        · exact absurd known unknown
        · exact .inl ⟨known, other⟩
        · exact .inr old

theorem checkParams_eq_ok_iff {names : List String} :
    checkParams names = .ok () ↔ ∀ name ∈ names, Name.check name = .ok () := by
  induction names with
  | nil => simp [checkParams]
  | cons name rest ih =>
    rw [List.forall_mem_cons, checkParams, ← ih]
    cases Name.check name <;> simp

end Call

theorem unused_eq : (params.keys.filter fun p =>
      !(Call.note ⟨name, params⟩ .empty t.placeholders).contains p) =
    (t.filled params name).unusedParams := by
  refine List.filter_congr fun given member => ?_
  have known := (Dict.mem_keys_iff params given).1 member
  have none : ¬ (Dict.empty : NameSet).contains given = true := nofun
  rw [Bool.eq_iff_iff, Bool.not_eq_true', Bool.eq_false_iff, ne_eq, Call.contains_note]
  simp [known, none]

theorem bind_of_wellFormed (fields : t.WellFormed name)
    (named : ∀ given ∈ params.keys, Name.check given = .ok ()) :
    (t.Fits params ∧ t.bind name params = .ok (t.filled params name)) ∨
      (¬ t.Fits params ∧ ∃ e, t.bind name params = .error e ∧ t.Misfit name params e) := by
  have settled := Call.settles_fields ⟨name, params⟩ fields
  unfold Template.bind
  rw [Call.checkParams_eq_ok_iff.2 named]
  by_cases fits : t.Fits params
  · have given := settled.gives fits .empty
    refine .inl ⟨fits, ?_⟩
    rw [given]
    exact congrArg
      (fun unused => Except.ok { t.filled params name with unusedParams := unused }) unused_eq
  · obtain ⟨e, failed, misfit⟩ := settled.fails fits .empty
    refine .inr ⟨fits, e, ?_, misfit⟩
    rw [failed]
    rfl

theorem named_of_bind {b : BoundCommand} (bound : t.bind name params = .ok b) :
    ∀ given ∈ params.keys, Name.check given = .ok () := by
  obtain ⟨_, checked, _⟩ := bind_eq_ok.1 bound
  exact Call.checkParams_eq_ok_iff.1 checked

theorem eq_filled_of_bind {b : BoundCommand} (bound : t.bind name params = .ok b) :
    t.Fits params ∧ b = t.filled params name := by
  rcases bind_of_wellFormed (wellFormed_of_bind bound) (named_of_bind bound) with
    ⟨fits, given⟩ | ⟨_, e, failed, _⟩
  · rw [bound] at given
    exact ⟨fits, Except.ok.inj given⟩
  · rw [bound] at failed
    cases failed

/-- A template that was checked binds exactly for the calls that fit it, to the template filled in.
Otherwise the error tells what does not fit. -/
theorem bind_isOk_iff_fits (checked : t.check name = .ok ())
    (named : ∀ given ∈ params.keys, Name.check given = .ok ()) :
    ((∃ b, t.bind name params = .ok b) ↔ t.Fits params) ∧
      (∀ b, t.bind name params = .ok b → b = t.filled params name) ∧
      ∀ e, t.bind name params = .error e → t.Misfit name params e := by
  rcases bind_of_wellFormed (wellFormed_of_check checked) named with
    ⟨fits, given⟩ | ⟨misfits, e, failed, misfit⟩
  · rw [given]
    exact ⟨⟨fun _ => fits, fun _ => ⟨_, rfl⟩⟩, fun b same => (Except.ok.inj same).symm, nofun⟩
  · rw [failed]
    refine ⟨⟨nofun, fun fits => absurd fits misfits⟩, nofun, fun other same => ?_⟩
    rw [← Except.error.inj same]
    exact misfit

def launch : Template where
  cmd := "${runner}"
  args := ["--stage=${stage}", "${@flags}"]
  env := ["STAGE=${stage}", "${?extra}"]
  workdir := some "/srv/${stage}"

def launchCall (extra : String) : Dict Parameter := Dict.ofList [("runner", .text "make"),
  ("stage", .text "prod"), ("flags", .list ["-k", "-s"]), ("extra", .text extra)]

theorem bind_isOk_iff_fits_launch :
    launch.Fits (launchCall "A=1") ∧
      launch.filled (launchCall "A=1") "launch" = ⟨"launch", "make", ["--stage=prod", "-k", "-s"],
        ["STAGE=prod", "A=1"], some "/srv/prod", none, []⟩ ∧
      ¬ launch.Fits (launchCall "STAGE=test") := by
  have checked : launch.check "launch" = .ok () := toOption_eq_some.1 (by decide +kernel)
  have named : ∀ extra ∈ ["A=1", "STAGE=test"], ∀ given ∈ (launchCall extra).keys,
      (Name.check given).toOption = some () := by decide +kernel
  have fitsOne := bind_isOk_iff_fits checked fun given member =>
    toOption_eq_some.1 (named "A=1" (by simp) given member)
  have fitsTwo := bind_isOk_iff_fits checked fun given member =>
    toOption_eq_some.1 (named "STAGE=test" (by simp) given member)
  have bound : launch.bind "launch" (launchCall "A=1") = .ok ⟨"launch", "make",
      ["--stage=prod", "-k", "-s"], ["STAGE=prod", "A=1"], some "/srv/prod", none, []⟩ :=
    toOption_eq_some.1 (by decide +kernel)
  have twice : (launch.bind "launch" (launchCall "STAGE=test")).toOption = none := by decide +kernel
  refine ⟨fitsOne.1.1 ⟨_, bound⟩, (fitsOne.2.1 _ bound).symm, fun fitting => ?_⟩
  obtain ⟨b, other⟩ := fitsTwo.1.2 fitting
  rw [other] at twice
  cases twice
end ScopedCommands.Template
