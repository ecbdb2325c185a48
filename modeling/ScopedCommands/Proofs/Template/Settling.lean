import ScopedCommands.Proofs.Template.Binding
import ScopedCommands.Proofs.Template.Filling
import ScopedCommands.Proofs.Template.WellFormed

/-!
The steps of binding. A step is settled by the condition under which it gives its value and by the
errors that it fails with otherwise; steps that fill in a field ask that the call supplies each of
its placeholders, and give the field filled in.
-/
namespace ScopedCommands.Template

open Outcome

/-- A step that gives `a` under the condition and notes what it used, or else fails. -/
structure Settles {α : Type} (x : Bind α) (condition : Prop) (noted : NameSet → NameSet) (a : α)
    (fault : TemplateError → Prop) : Prop where
  gives : condition → ∀ used, x.run used = .ok (a, noted used)
  fails : ¬ condition → ∀ used, ∃ e, x.run used = .error e ∧ fault e

namespace Settles

variable {α β : Type} {x : Bind α} {k : α → Bind β} {a : α} {b : β} {C D : Prop}
  {f g : NameSet → NameSet} {P Q : TemplateError → Prop}

theorem pure (a : α) : Settles (pure a) True id a P where
  gives _ _ := rfl
  fails never := absurd trivial never

theorem lift {y : Except TemplateError α} (gives : C → y = .ok a)
    (fails : ¬ C → ∃ e, y = .error e ∧ P e) : Settles (liftM y : Bind α) C id a P where
  gives holds used := run_lift_eq_ok.2 ⟨gives holds, rfl⟩
  fails never used := by
    obtain ⟨e, failed, fault⟩ := fails never
    refine ⟨e, ?_, fault⟩
    rw [failed]
    rfl

theorem bind (first : Settles x C f a P) (later : C → Settles (k a) D g b P) :
    Settles (x >>= k) (C ∧ D) (g ∘ f) b P where
  gives holds used := by
    rw [StateT.run_bind, first.gives holds.1 used]
    exact (later holds.1).gives holds.2 _
  fails never used := by
    rw [StateT.run_bind]
    by_cases holds : C
    · rw [first.gives holds used]
      exact (later holds).fails (fun also => never ⟨holds, also⟩) _
    · obtain ⟨e, failed, fault⟩ := first.fails holds used
      rw [failed]
      exact ⟨e, rfl, fault⟩

theorem guard {refused : Prop} [Decidable refused] {e : TemplateError} {next : Unit → Bind β}
    (fault : refused → P e) (later : ¬ refused → Settles (next ()) D g b P) :
    Settles (if refused then (throw e : Bind Unit) >>= next else next ()) (¬ refused ∧ D) g b P := by
  by_cases blocked : refused
  · rw [if_pos blocked]
    exact ⟨fun holds => absurd blocked holds.1, fun _ _ => ⟨e, rfl, fault blocked⟩⟩
  · rw [if_neg blocked]
    exact ⟨fun holds => (later blocked).gives holds.2, fun never =>
      (later blocked).fails fun holds => never ⟨blocked, holds⟩⟩

theorem congr (h : Settles x C f a P) (same : C ↔ D) (weaker : ∀ e, P e → Q e) :
    Settles x D f a Q where
  gives holds := h.gives (same.2 holds)
  fails never used := by
    obtain ⟨e, failed, fault⟩ := h.fails (fun holds => never (same.1 holds)) used
    exact ⟨e, failed, weaker e fault⟩

variable {other : α} {used after : NameSet}

theorem holds_of_ok (h : Settles x C f a P) (given : x.run used = .ok (other, after)) : C := by
  refine Classical.byContradiction fun never => ?_
  obtain ⟨e, failed, _⟩ := h.fails never used
  rw [failed] at given
  cases given

theorem eq_of_ok (h : Settles x C f a P) (given : x.run used = .ok (other, after)) :
    other = a := by
  rw [h.gives (h.holds_of_ok given) used] at given
  exact (Prod.mk.inj (Except.ok.inj given)).1.symm

end Settles

namespace Call

def note (call : Call) (used : NameSet) (ps : List Placeholder) : NameSet :=
  ps.foldl (fun used p => if call.params.contains p.name then used.add p.name else used) used

theorem note_append (call : Call) (used : NameSet) (ps qs : List Placeholder) :
    call.note used (ps ++ qs) = call.note (call.note used ps) qs :=
  List.foldl_append

/-- The call gives a parameter of the right kind, or none if the placeholder does not need one. -/
def Supplies (call : Call) (p : Placeholder) : Prop :=
  match call.params.get? p.name with
  | none => p.kind ≠ .required
  | some value => value.kind = p.wants

inductive Fault (call : Call) (ps : List Placeholder) : TemplateError → Prop where
  | missing {p : Placeholder} (member : p ∈ ps) (required : p.kind = .required)
      (absent : call.params.get? p.name = none) :
      Fault call ps (.missingParameter call.template p.name)
  | wrongKind {p : Placeholder} {value : Parameter} (field : String) (member : p ∈ ps)
      (given : call.params.get? p.name = some value) (other : value.kind ≠ p.wants) :
      Fault call ps (.wrongKind call.template p.name field value.kind)
  | mixed {p : Placeholder} {items : List String} (field : String) (member : p ∈ ps)
      (given : call.params.get? p.name = some (.list items)) (scalar : p.kind ≠ .spread) :
      Fault call ps (.mixedList call.template p.name field)

theorem Fault.mono {call : Call} {ps qs : List Placeholder} {e : TemplateError}
    (h : call.Fault ps e) (sub : ps ⊆ qs) : call.Fault qs e := by
  cases h with
  | missing member required absent => exact .missing (sub member) required absent
  | wrongKind field member given other => exact .wrongKind field (sub member) given other
  | mixed field member given scalar => exact .mixed field (sub member) given scalar

def Fills {α : Type} (call : Call) (x : Bind α) (ps : List Placeholder) (a : α) : Prop :=
  Settles x (∀ p ∈ ps, call.Supplies p) (call.note · ps) a (call.Fault ps)

variable {α β : Type} {call : Call} {ps qs : List Placeholder}

theorem fills_pure (a : α) : call.Fills (pure a) [] a :=
  (Settles.pure a).congr (by simp) fun _ => id

theorem Fills.bind {x : Bind α} {k : α → Bind β} {a : α} {b : β} (first : call.Fills x ps a)
    (later : (∀ p ∈ ps, call.Supplies p) → call.Fills (k a) qs b) :
    call.Fills (x >>= k) (ps ++ qs) b := by
  have own : Settles x (∀ p ∈ ps, call.Supplies p) (call.note · ps) a (call.Fault (ps ++ qs)) :=
    Settles.congr first Iff.rfl fun e fault => fault.mono (List.subset_append_left ps qs)
  have rest : (∀ p ∈ ps, call.Supplies p) → Settles (k a) (∀ p ∈ qs, call.Supplies p)
      (call.note · qs) b (call.Fault (ps ++ qs)) := fun supplied =>
    Settles.congr (later supplied) Iff.rfl fun e fault =>
      fault.mono (List.subset_append_right ps qs)
  have both : (call.note · (ps ++ qs)) = (call.note · qs) ∘ (call.note · ps) :=
    funext fun used => call.note_append used ps qs
  rw [Fills, both]
  exact (own.bind rest).congr List.forall_mem_append.symm fun _ => id

theorem Fills.map {x : Bind α} {a : α} (first : call.Fills x ps a) {k : α → Bind β} {b : β}
    (gives : (∀ p ∈ ps, call.Supplies p) → k a = Pure.pure b) : call.Fills (x >>= k) ps b := by
  rw [← List.append_nil ps]
  refine first.bind fun supplied => ?_
  rw [gives supplied]
  exact fills_pure b

theorem run_take (call : Call) (name : String) (used : NameSet) :
    (call.take name).run used = .ok (call.params.get? name,
      if call.params.contains name then used.add name else used) := by
  unfold take Dict.contains
  cases call.params.get? name <;> rfl

theorem fills_take {p : Placeholder} {k : Option Parameter → Bind α} {a : α}
    (gives : call.Supplies p → k (call.params.get? p.name) = Pure.pure a)
    (fails : ¬ call.Supplies p →
      ∃ e, k (call.params.get? p.name) = throw e ∧ call.Fault [p] e) :
    call.Fills (call.take p.name >>= k) [p] a := by
  have supplies : (∀ q ∈ [p], call.Supplies q) ↔ call.Supplies p := List.forall_mem_singleton
  have steps : ∀ used, (call.take p.name >>= k).run used = (k (call.params.get? p.name)).run
      (if call.params.contains p.name then used.add p.name else used) := by
    intro used
    rw [StateT.run_bind, run_take]
    rfl
  constructor
  · intro supplied used
    rw [steps, gives (supplies.1 supplied)]
    rfl
  · intro unsupplied used
    obtain ⟨e, thrown, fault⟩ := fails (fun supplied => unsupplied (supplies.2 supplied))
    refine ⟨e, ?_, fault⟩
    rw [steps, thrown]
    rfl

theorem fills_scalar (call : Call) {p : Placeholder} (scalar : p.kind ≠ .spread) (field : String)
    (sole : Bool) : call.Fills (call.scalar p field sole) [p] (p.text? call.params) := by
  have wants : p.wants = .text := if_neg scalar
  unfold Call.scalar Placeholder.text?
  apply fills_take
  · intro supplied
    unfold Supplies at supplied
    cases given : call.params.get? p.name with
    | none =>
      rw [given] at supplied
      exact if_neg supplied
    | some value =>
      rw [given, wants] at supplied
      cases value with
      | text value => rfl
      | list items => cases supplied
  · intro unsupplied
    unfold Supplies at unsupplied
    cases given : call.params.get? p.name with
    | none =>
      rw [given, Classical.not_not] at unsupplied
      exact ⟨_, if_pos unsupplied, .missing List.mem_cons_self unsupplied given⟩
    | some value =>
      rw [given, wants] at unsupplied
      cases value with
      | text value => exact absurd rfl unsupplied
      | list items =>
        have other : (Parameter.list items).kind ≠ p.wants := by rwa [wants]
        cases sole with
        | true => exact ⟨_, rfl, .wrongKind field List.mem_cons_self given other⟩
        | false => exact ⟨_, rfl, .mixed field List.mem_cons_self given scalar⟩

theorem fills_spread (call : Call) {p : Placeholder} (spreads : p.kind = .spread) (field : String) :
    call.Fills (call.spread p.name field) [p] (p.items call.params) := by
  have wants : p.wants = .list := if_pos spreads
  unfold Call.spread Placeholder.items
  apply fills_take
  · intro supplied
    unfold Supplies at supplied
    cases given : call.params.get? p.name with
    | none => rfl
    | some value =>
      rw [given, wants] at supplied
      cases value with
      | text value => cases supplied
      | list items => rfl
  · intro unsupplied
    unfold Supplies at unsupplied
    cases given : call.params.get? p.name with
    | none =>
      rw [given, spreads] at unsupplied
      exact absurd nofun unsupplied
    | some value =>
      rw [given, wants] at unsupplied
      cases value with
      | text value =>
        have other : (Parameter.text value).kind ≠ p.wants := by rwa [wants]
        exact ⟨_, rfl, .wrongKind field List.mem_cons_self given other⟩
      | list items => exact absurd rfl unsupplied

theorem fills_text (call : Call) (field : String) {parts : List FieldPart}
    (scalars : ∀ p ∈ Placeholder.allOf parts, p.kind ≠ .spread) :
    call.Fills (call.text field parts) (Placeholder.allOf parts)
      (FieldPart.fill call.params parts) := by
  induction parts with
  | nil => exact fills_pure ""
  | cons first rest ih =>
    rw [FieldPart.fill_cons]
    cases first with
    | text t => exact (ih scalars).map fun _ => rfl
    | placeholder p =>
      obtain ⟨scalar, others⟩ := List.forall_mem_cons.1 scalars
      unfold Call.text
      rw [if_neg scalar]
      exact (call.fills_scalar scalar field false).bind fun _ => (ih others).map fun _ => rfl

theorem fills_sole (call : Call) {p : Placeholder} (scalar : p.kind ≠ .spread) (field : String) :
    call.Fills (call.sole p field) [p] (p.values call.params).head? := by
  refine (call.fills_scalar scalar field true).map fun supplied => ?_
  have supplied : call.Supplies p := supplied p List.mem_cons_self
  unfold Supplies at supplied
  rw [show p.wants = .text from if_neg scalar] at supplied
  unfold Placeholder.values Placeholder.value Placeholder.text?
  -- A required placeholder has a text here, and an optional one is dropped if its text is empty.
  cases given : call.params.get? p.name with
  | none =>
    rw [given] at supplied
    cases kind : p.kind with
    | spread => exact absurd kind scalar
    | optional => rfl
    | required => exact absurd kind supplied
  | some value =>
    rw [given] at supplied
    cases value with
    | list items => cases supplied
    | text value =>
      cases kind : p.kind with
      | spread => exact absurd kind scalar
      | optional => by_cases empty : value = "" <;> simp [empty]
      | required => simp

theorem fills_soleOrText (call : Call) (field : String) {parts : List FieldPart}
    (scalars : ∀ p ∈ Placeholder.allOf parts, p.kind ≠ .spread) :
    call.Fills (call.soleOrText parts field) (Placeholder.allOf parts)
      (FieldPart.values call.params parts).head? := by
  unfold Call.soleOrText FieldPart.values
  cases alone : Placeholder.sole parts with
  | some p =>
    rw [Placeholder.allOf_of_sole alone] at scalars ⊢
    exact call.fills_sole (scalars p List.mem_cons_self) field
  | none => exact (call.fills_text field scalars).map fun _ => rfl

theorem lift_ok_bind (a : α) (k : α → Bind β) :
    (liftM (.ok a : Except TemplateError α) : Bind α) >>= k = k a := rfl

theorem fills_single (call : Call) {raw : String} (h : Scalar raw) (field : String) :
    call.Fills (call.single raw field) (placeholdersIn [raw]) (valuesOf call.params [raw]).head? := by
  obtain ⟨parts, read, scalar⟩ := h
  rw [placeholdersIn_singleton, valuesOf_singleton, parts_of_parseField read]
  unfold Call.single
  rw [read, lift_ok_bind, scalar]
  exact call.fills_soleOrText field (Placeholder.firstSpread_eq_none_iff.1 scalar)

theorem fills_several (call : Call) {raw : String} (h : Plural raw) (field : String) :
    call.Fills (call.several raw field) (placeholdersIn [raw]) (valuesOf call.params [raw]) := by
  obtain ⟨parts, read, shape⟩ := h
  rw [placeholdersIn_singleton, valuesOf_singleton, parts_of_parseField read]
  unfold Call.several FieldPart.values
  rw [read, lift_ok_bind]
  cases alone : Placeholder.sole parts with
  | some p =>
    rw [Placeholder.allOf_of_sole alone]
    by_cases spreads : p.kind = .spread
    · simp only [Placeholder.values, spreads]
      exact call.fills_spread spreads field
    · simp only [if_neg spreads]
      refine (call.fills_sole spreads field).map fun _ => ?_
      rw [Placeholder.toList_head?_values call.params spreads]
  | none =>
    have scalar := shape.resolve_left (by simp [alone])
    exact (call.fills_text field (Placeholder.firstSpread_eq_none_iff.1 scalar)).map fun _ => rfl

theorem fills_args (call : Call) {raws : List String} (h : ∀ raw ∈ raws, Plural raw) (index : Nat) :
    call.Fills (call.args index raws) (placeholdersIn raws) (valuesOf call.params raws) := by
  induction raws generalizing index with
  | nil => exact fills_pure []
  | cons raw rest ih =>
    obtain ⟨own, others⟩ := List.forall_mem_cons.1 h
    rw [placeholdersIn_cons, ← placeholdersIn_singleton, valuesOf_cons, ← valuesOf_singleton]
    exact (call.fills_several own _).bind fun _ => (ih others (index + 1)).map fun _ => rfl

theorem fills_optionalField (call : Call) {raw? : Option String} (h : ∀ raw ∈ raw?, Scalar raw)
    (field : String) :
    call.Fills (call.optionalField field raw?) (placeholdersIn raw?.toList)
      (valuesOf call.params raw?.toList).head? := by
  cases raw? with
  | none => exact fills_pure none
  | some raw => exact call.fills_single (h raw rfl) field

end Call
end ScopedCommands.Template
