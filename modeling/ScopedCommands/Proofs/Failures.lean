import ScopedCommands.Proofs.Outcome

/-!
Errors of a kind, and the lack of them. `FailsOnly` says which errors an outcome or a step may have
at all, `Completes` that a step gave its value with no error on the way, also none that it went on
after.
-/
namespace ScopedCommands

namespace Outcome

variable {ε δ α β : Type} {P : ε → Prop}

def FailsOnly (P : ε → Prop) (x : Except ε α) : Prop := ∀ e, x = .error e → P e

theorem failsOnly_ok (a : α) : FailsOnly P (.ok a) := by
  intro e failed
  cases failed

theorem failsOnly_error {e : ε} (h : P e) : FailsOnly P (.error e : Except ε α) := by
  intro d failed
  cases failed
  exact h

theorem FailsOnly.bind {x : Except ε α} {f : α → Except ε β} (first : FailsOnly P x)
    (later : ∀ a, x = .ok a → FailsOnly P (f a)) : FailsOnly P (x >>= f) := by
  intro e failed
  rcases bind_eq_error.1 failed with own | ⟨a, given, rest⟩
  · exact first e own
  · exact later a given e rest

theorem FailsOnly.map {x : Except ε α} (h : FailsOnly P x) (f : α → β) : FailsOnly P (x.map f) := by
  intro e failed
  exact h e (map_eq_error.1 failed)

theorem failsOnly_mapError {f : δ → ε} (kind : ∀ d, P (f d)) (x : Except δ α) :
    FailsOnly P (x.mapError f) := by
  cases x with
  | ok a => exact failsOnly_ok a
  | error d => exact failsOnly_error (kind d)

theorem FailsOnly.foldlM {step : β → α → Except ε β} (each : ∀ b a, FailsOnly P (step b a))
    (l : List α) (start : β) : FailsOnly P (l.foldlM step start) := by
  induction l generalizing start with
  | nil => exact failsOnly_ok start
  | cons a rest ih =>
    rw [List.foldlM_cons]
    exact (each start a).bind fun next _ => ih next

end Outcome

namespace Step

open Outcome

variable {α β : Type} {P : ResolveError → Prop}

structure FailsOnly (P : ResolveError → Prop) (s : Step α) : Prop where
  failures : ∀ e ∈ s.findings.failures, P e
  outcome : Outcome.FailsOnly P s.outcome

theorem failsOnly_of_outcome {s : Step α} (none : s.findings.failures = [])
    (h : Outcome.FailsOnly P s.outcome) : s.FailsOnly P where
  failures e member := by
    rw [none] at member
    cases member
  outcome := h

theorem FailsOnly.allFailures {s : Step α} (h : s.FailsOnly P) : ∀ e ∈ s.allFailures, P e := by
  intro e member
  rcases List.mem_append.1 member with noted | last
  · exact h.failures e noted
  · exact h.outcome e (error?_eq_some.1 (Option.mem_toList.1 last))

theorem failsOnly_ofExcept {x : Except ResolveError α} (h : Outcome.FailsOnly P x) :
    (ofExcept x).FailsOnly P :=
  failsOnly_of_outcome rfl h

theorem failsOnly_note {found : Findings} (none : found.failures = []) : (note found).FailsOnly P :=
  failsOnly_of_outcome none (failsOnly_ok ())

theorem FailsOnly.bind {s : Step α} {next : α → Step β} (first : s.FailsOnly P)
    (later : ∀ a, s.outcome = .ok a → (next a).FailsOnly P) : (s >>= next).FailsOnly P := by
  cases out : s.outcome with
  | error e =>
    rw [bind_of_error out]
    exact ⟨first.failures, failsOnly_error (first.outcome e out)⟩
  | ok a =>
    have rest := later a out
    rw [bind_of_ok out]
    exact ⟨List.forall_mem_append.2 ⟨first.failures, rest.failures⟩, rest.outcome⟩

theorem collect_of_ok {keepGoing : Bool} {one : α → Step β} {a : α} {b : β}
    (h : (one a).outcome = .ok b) (rest : List α) :
    collect keepGoing one (a :: rest) =
      ⟨(one a).findings ++ (collect keepGoing one rest).findings,
        (collect keepGoing one rest).outcome.map (b :: ·)⟩ := by
  simp only [collect, h]

theorem collect_of_error {keepGoing : Bool} {one : α → Step β} {a : α} {e : ResolveError}
    (h : (one a).outcome = .error e) (rest : List α) :
    collect keepGoing one (a :: rest) =
      if keepGoing then
        ⟨(one a).findings ++ Findings.fail e ++ (collect keepGoing one rest).findings,
          (collect keepGoing one rest).outcome⟩
      else ⟨(one a).findings, .error e⟩ := by
  simp only [collect, h]

theorem failsOnly_collect {keepGoing : Bool} {one : α → Step β} {l : List α}
    (each : ∀ a ∈ l, (one a).FailsOnly P) : (collect keepGoing one l).FailsOnly P := by
  induction l with
  | nil => exact failsOnly_of_outcome rfl (failsOnly_ok [])
  | cons a rest ih =>
    have first := each a List.mem_cons_self
    have later := ih fun b member => each b (List.mem_cons_of_mem a member)
    cases out : (one a).outcome with
    | ok b =>
      rw [collect_of_ok out]
      exact ⟨List.forall_mem_append.2 ⟨first.failures, later.failures⟩, later.outcome.map _⟩
    | error d =>
      have kind : P d := first.outcome d out
      rw [collect_of_error out]
      cases keepGoing with
      | false => exact ⟨first.failures, failsOnly_error kind⟩
      | true =>
        have own : ∀ e ∈ ((one a).findings ++ Findings.fail d).failures, P e :=
          List.forall_mem_append.2 ⟨first.failures, List.forall_mem_singleton.2 kind⟩
        exact ⟨List.forall_mem_append.2 ⟨own, later.failures⟩, later.outcome⟩

structure Completes (s : Step α) (a : α) : Prop where
  outcome : s.outcome = .ok a
  failures : s.findings.failures = []

theorem completes_bind_iff {s : Step α} {next : α → Step β} {b : β} :
    (s >>= next).Completes b ↔ ∃ a, s.Completes a ∧ (next a).Completes b := by
  constructor
  · rintro ⟨outcome, none⟩
    obtain ⟨a, given, gives⟩ := bind_eq_ok.1 outcome
    rw [bind_of_ok given, Findings.failures_append, List.append_eq_nil_iff] at none
    exact ⟨a, ⟨given, none.1⟩, ⟨gives, none.2⟩⟩
  · rintro ⟨a, ⟨given, first⟩, ⟨gives, second⟩⟩
    refine ⟨bind_eq_ok.2 ⟨a, given, gives⟩, ?_⟩
    rw [bind_of_ok given, Findings.failures_append, first, second]
    rfl

theorem completes_collect_cons_iff {keepGoing : Bool} {one : α → Step β} {a : α} {rest : List α}
    {bs : List β} :
    (collect keepGoing one (a :: rest)).Completes bs ↔
      ∃ b later, (one a).Completes b ∧ (collect keepGoing one rest).Completes later ∧
        b :: later = bs := by
  constructor
  · intro h
    cases out : (one a).outcome with
    | error e =>
      rw [collect_of_error out] at h
      cases keepGoing with
      | false => cases h.outcome
      | true =>
        have none := h.failures
        simp at none
    | ok b =>
      rw [collect_of_ok out] at h
      obtain ⟨later, collected, same⟩ := map_eq_ok.1 h.outcome
      have none := h.failures
      rw [Findings.failures_append, List.append_eq_nil_iff] at none
      exact ⟨b, later, ⟨out, none.1⟩, ⟨collected, none.2⟩, same⟩
  · rintro ⟨b, later, ⟨out, first⟩, ⟨collected, second⟩, rfl⟩
    rw [collect_of_ok out]
    refine ⟨map_eq_ok.2 ⟨later, collected, rfl⟩, ?_⟩
    rw [Findings.failures_append, first, second]
    rfl

theorem completes_collect {keepGoing : Bool} {one : α → Step β} {l : List α} {bs : List β}
    (h : (collect keepGoing one l).Completes bs) : ∀ a ∈ l, ∃ b, (one a).Completes b := by
  induction l generalizing bs with
  | nil => nofun
  | cons first rest ih =>
    obtain ⟨b, later, own, others, _⟩ := completes_collect_cons_iff.1 h
    intro a member
    rcases List.mem_cons.1 member with rfl | after
    · exact ⟨b, own⟩
    · exact ih others a after

end Step
end ScopedCommands
