import Mathlib.Data.List.Forall2
import ScopedCommands.Resolution.Collect

/-!
Two computations side by side. `Lockstep E V` holds of two outcomes that are both values, related
by `V`, or both errors, related by `E`. It passes through every way of combining outcomes, so two
runs are compared by comparing their parts.
-/
namespace ScopedCommands

inductive Lockstep {ε δ α β : Type} (E : ε → δ → Prop) (V : α → β → Prop) :
    Except ε α → Except δ β → Prop where
  | ok {a : α} {b : β} (values : V a b) : Lockstep E V (.ok a) (.ok b)
  | error {e : ε} {f : δ} (errors : E e f) : Lockstep E V (.error e) (.error f)

namespace Lockstep

variable {ε δ α β γ ζ : Type} {E : ε → δ → Prop} {V : α → β → Prop} {W : γ → ζ → Prop}
  {x : Except ε α} {y : Except δ β}

theorem bind {f : α → Except ε γ} {g : β → Except δ ζ} (h : Lockstep E V x y)
    (next : ∀ a b, V a b → Lockstep E W (f a) (g b)) : Lockstep E W (x >>= f) (y >>= g) := by
  cases h with
  | ok values => exact next _ _ values
  | error errors => exact .error errors

theorem map {f : α → γ} {g : β → ζ} (h : Lockstep E V x y)
    (values : ∀ a b, V a b → W (f a) (g b)) : Lockstep E W (x.map f) (y.map g) := by
  cases h with
  | ok related => exact .ok (values _ _ related)
  | error errors => exact .error errors

theorem mapError {ε' δ' : Type} {E' : ε' → δ' → Prop} {f : ε → ε'} {g : δ → δ'}
    (h : Lockstep E V x y) (errors : ∀ a b, E a b → E' (f a) (g b)) :
    Lockstep E' V (x.mapError f) (y.mapError g) := by
  cases h with
  | ok values => exact .ok values
  | error related => exact .error (errors _ _ related)

theorem imp {E' : ε → δ → Prop} {V' : α → β → Prop} (h : Lockstep E V x y)
    (errors : ∀ e f, E e f → E' e f) (values : ∀ a b, V a b → V' a b) : Lockstep E' V' x y := by
  cases h with
  | ok related => exact .ok (values _ _ related)
  | error related => exact .error (errors _ _ related)

theorem refl {E : ε → ε → Prop} {V : α → α → Prop} (errors : ∀ e, E e e) (values : ∀ a, V a a)
    (x : Except ε α) : Lockstep E V x x := by
  cases x with
  | ok a => exact .ok (values a)
  | error e => exact .error (errors e)

theorem foldlM {step : α → γ → Except ε α} {other : β → γ → Except δ β}
    (one : ∀ a b c, V a b → Lockstep E V (step a c) (other b c)) (l : List γ) {a : α} {b : β}
    (start : V a b) : Lockstep E V (l.foldlM step a) (l.foldlM other b) := by
  induction l generalizing a b with
  | nil => exact .ok start
  | cons c rest ih =>
    rw [List.foldlM_cons, List.foldlM_cons]
    exact (one a b c start).bind fun _ _ related => ih related

end Lockstep

namespace Dict

variable {α β : Type}

def Related (V : α → β → Prop) (d : Dict α) (e : Dict β) : Prop :=
  List.Forall₂ (fun a b => a.1 = b.1 ∧ V a.2 b.2) d.entries e.entries

variable {V : α → β → Prop} {d : Dict α} {e : Dict β}

theorem related_empty : Related V (empty : Dict α) (empty : Dict β) := .nil

theorem related_refl {V : α → α → Prop} (values : ∀ a, V a a) (d : Dict α) : Related V d d :=
  List.forall₂_same.2 fun x _ => ⟨rfl, values x.2⟩

theorem eq_of_related {d e : Dict α} (h : Related (· = ·) d e) : d = e := by
  refine Dict.ext ?_
  have entries : List.Forall₂ (· = ·) d.entries e.entries := by
    refine h.imp fun a b same => ?_
    exact Prod.ext same.1 same.2
  simpa only [List.forall₂_eq_eq_eq] using entries

theorem Related.get? (h : Related V d e) (key : String) :
    Option.Rel V (d.get? key) (e.get? key) := by
  obtain ⟨l, _⟩ := d
  obtain ⟨m, _⟩ := e
  unfold Related at h
  simp only [Dict.get?] at h ⊢
  clear * - h
  induction h with
  | nil => exact .none
  | @cons a b l m related _ ih =>
    obtain ⟨k, v⟩ := a
    obtain ⟨_, w⟩ := b
    obtain ⟨rfl, value⟩ := related
    rw [List.lookup_cons, List.lookup_cons]
    cases key == k with
    | true => exact .some value
    | false => exact ih

theorem related_insertEntry {key : String} {v : α} {w : β} (value : V v w)
    {l : List (String × α)} {m : List (String × β)}
    (h : List.Forall₂ (fun a b => a.1 = b.1 ∧ V a.2 b.2) l m) :
    List.Forall₂ (fun a b => a.1 = b.1 ∧ V a.2 b.2) (insertEntry key v l) (insertEntry key w m) := by
  induction h with
  | nil => exact .cons ⟨rfl, value⟩ .nil
  | @cons a b l m related rest ih =>
    obtain ⟨k, x⟩ := a
    obtain ⟨_, y⟩ := b
    obtain ⟨rfl, old⟩ := related
    simp only [insertEntry]
    split
    · exact .cons ⟨rfl, value⟩ rest
    · split
      · exact .cons ⟨rfl, value⟩ (.cons ⟨rfl, old⟩ rest)
      · exact .cons ⟨rfl, old⟩ ih

theorem Related.insert (h : Related V d e) (key : String) {v : α} {w : β} (value : V v w) :
    Related V (d.insert key v) (e.insert key w) :=
  related_insertEntry value h

theorem Related.union {c : Dict α} {f : Dict β} (h : Related V d e) (added : Related V c f) :
    Related V (d.union c) (e.union f) := by
  unfold Dict.union
  unfold Related at added
  generalize c.entries = l at added
  generalize f.entries = m at added
  induction added generalizing d e with
  | nil => exact h
  | @cons a b l m related rest ih =>
    rw [List.foldl_cons, List.foldl_cons, ← related.1]
    exact ih (h.insert a.1 related.2)

end Dict

namespace Step

structure InStep {α β : Type} (E : ResolveError → ResolveError → Prop) (V : α → β → Prop)
    (s : Step α) (t : Step β) : Prop where
  warnings : s.findings.warnings = t.findings.warnings
  failures : List.Forall₂ E s.findings.failures t.findings.failures
  outcome : Lockstep E V s.outcome t.outcome

variable {α β γ ζ : Type} {E : ResolveError → ResolveError → Prop} {V : α → β → Prop}
  {W : γ → ζ → Prop}

theorem inStep_ofExcept {x : Except ResolveError α} {y : Except ResolveError β}
    (h : Lockstep E V x y) : (ofExcept x).InStep E V (ofExcept y) := ⟨rfl, .nil, h⟩

theorem inStep_pure {a : α} {b : β} (h : V a b) : (pure a : Step α).InStep E V (pure b) :=
  ⟨rfl, .nil, .ok h⟩

theorem inStep_note {found : Findings} (none : found.failures = []) :
    (note found).InStep E (fun _ _ => True) (note found) :=
  ⟨rfl, by simp [note, none], .ok trivial⟩

theorem inStep_refl {E : ResolveError → ResolveError → Prop} {V : α → α → Prop}
    (errors : ∀ e, E e e) (values : ∀ a, V a a) (s : Step α) : s.InStep E V s :=
  ⟨rfl, List.forall₂_same.2 fun e _ => errors e, .refl errors values _⟩

theorem InStep.bind {s : Step α} {t : Step β} {f : α → Step γ} {g : β → Step ζ}
    (h : s.InStep E V t) (next : ∀ a b, V a b → (f a).InStep E W (g b)) :
    (s >>= f).InStep E W (t >>= g) := by
  obtain ⟨found, x⟩ := s
  obtain ⟨noted, y⟩ := t
  obtain ⟨warnings, failures, outcome⟩ := h
  cases outcome with
  | error errors => exact ⟨warnings, failures, .error errors⟩
  | ok values =>
    have after := next _ _ values
    exact ⟨congrArg₂ (· ++ ·) warnings after.warnings,
      List.rel_append failures after.failures, after.outcome⟩

theorem inStep_collect (keepGoing : Bool) {one : γ → Step α} {other : γ → Step β}
    (l : List γ) (each : ∀ c ∈ l, (one c).InStep E V (other c)) :
    (collect keepGoing one l).InStep E (List.Forall₂ V) (collect keepGoing other l) := by
  induction l with
  | nil => exact inStep_pure .nil
  | cons c rest ih =>
    have first := each c (by simp)
    have later := ih fun c member => each c (by simp [member])
    simp only [collect]
    generalize one c = s at first ⊢
    generalize other c = t at first ⊢
    obtain ⟨found, x⟩ := s
    obtain ⟨noted, y⟩ := t
    obtain ⟨warnings, failures, outcome⟩ := first
    cases outcome with
    | ok values =>
      exact ⟨congrArg₂ (· ++ ·) warnings later.warnings, List.rel_append failures later.failures,
        later.outcome.map fun _ _ rest => .cons values rest⟩
    | error errors =>
      cases keepGoing with
      | false => exact ⟨warnings, failures, .error errors⟩
      | true =>
        have failed := List.rel_append failures (.cons errors .nil)
        exact ⟨congrArg₂ (· ++ ·) (congrArg₂ (· ++ ·) warnings rfl) later.warnings,
          List.rel_append failed later.failures, later.outcome⟩

end Step
end ScopedCommands
