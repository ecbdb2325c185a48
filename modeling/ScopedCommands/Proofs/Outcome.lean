import ScopedCommands.Resolution.Collect

namespace ScopedCommands

namespace Outcome

variable {ε δ α β : Type} {x : Except ε α}

def error? : Except ε α → Option ε
  | .ok _ => none
  | .error e => some e

theorem bind_eq_ok {f : α → Except ε β} {b : β} :
    x >>= f = .ok b ↔ ∃ a, x = .ok a ∧ f a = .ok b := by
  cases x <;> simp [bind, Except.bind]

theorem map_eq_ok {f : α → β} {b : β} : x.map f = .ok b ↔ ∃ a, x = .ok a ∧ f a = b := by
  cases x <;> simp [Except.map]

theorem bind_eq_error {f : α → Except ε β} {e : ε} :
    x >>= f = .error e ↔ x = .error e ∨ ∃ a, x = .ok a ∧ f a = .error e := by
  cases x <;> simp [bind, Except.bind]

theorem map_eq_error {f : α → β} {e : ε} : x.map f = .error e ↔ x = .error e := by
  cases x <;> simp [Except.map]

theorem map_eq_bind (x : Except ε α) (f : α → β) : x.map f = x >>= fun a => pure (f a) := by
  cases x <;> rfl

theorem mapError_ok (f : ε → δ) (a : α) : (.ok a : Except ε α).mapError f = .ok a := rfl

theorem mapError_eq_ok {f : ε → δ} {a : α} : x.mapError f = .ok a ↔ x = .ok a := by
  cases x with
  | ok b =>
    constructor
    · intro same
      cases same
      rfl
    · intro same
      cases same
      rfl
  | error e =>
    constructor
    · intro impossible
      cases impossible
    · intro impossible
      cases impossible

theorem mapError_eq_error {f : ε → δ} {d : δ} :
    x.mapError f = .error d ↔ ∃ e, x = .error e ∧ f e = d := by
  constructor
  · intro failed
    cases x with
    | ok a => cases failed
    | error e => exact ⟨e, rfl, Except.error.inj failed⟩
  · rintro ⟨e, rfl, rfl⟩
    rfl

theorem toOption_eq_some {a : α} : x.toOption = some a ↔ x = .ok a := by
  cases x <;> simp [Except.toOption]

theorem map_toOption_eq_some {f : α → β} {b : β} :
    x.toOption.map f = some b ↔ ∃ a, x = .ok a ∧ f a = b := by
  simp only [Option.map_eq_some_iff, toOption_eq_some]

theorem error?_eq_some {e : ε} : error? x = some e ↔ x = .error e := by
  cases x <;> simp [error?]

theorem foldlM_invariant {step : β → α → Except ε β} (P : β → Prop)
    (keeps : ∀ b a next, P b → step b a = .ok next → P next) (l : List α) {start last : β}
    (first : P start) (folded : l.foldlM step start = .ok last) : P last := by
  induction l generalizing start with
  | nil =>
    cases folded
    exact first
  | cons a rest ih =>
    rw [List.foldlM_cons, bind_eq_ok] at folded
    obtain ⟨next, stepped, later⟩ := folded
    exact ih (keeps start a next first stepped) later

theorem foldlM_eq_error {step : β → α → Except ε β} {l : List α} {start : β} {e : ε} :
    l.foldlM step start = .error e ↔
      ∃ before a after mid, l = before ++ a :: after ∧ before.foldlM step start = .ok mid ∧
        step mid a = .error e := by
  constructor
  · intro failed
    induction l generalizing start with
    | nil => cases failed
    | cons a rest ih =>
      rw [List.foldlM_cons] at failed
      rcases bind_eq_error.1 failed with here | ⟨next, stepped, later⟩
      · exact ⟨[], a, rest, start, rfl, rfl, here⟩
      · obtain ⟨before, b, after, mid, rfl, reached, stops⟩ := ih later
        refine ⟨a :: before, b, after, mid, rfl, ?_, stops⟩
        rw [List.foldlM_cons]
        exact bind_eq_ok.2 ⟨next, stepped, reached⟩
  · rintro ⟨before, a, after, mid, rfl, reached, stops⟩
    rw [List.foldlM_append]
    refine bind_eq_error.2 (.inr ⟨mid, reached, ?_⟩)
    rw [List.foldlM_cons]
    exact bind_eq_error.2 (.inl stops)

theorem foldlM_map {γ δ : Type} {step : β → α → Except ε β} {other : δ → γ → Except ε δ}
    (entry : α → γ) (state : β → δ)
    (same : ∀ b a, other (state b) (entry a) = (step b a).map state) (l : List α) (start : β) :
    (l.map entry).foldlM other (state start) = (l.foldlM step start).map state := by
  induction l generalizing start with
  | nil => rfl
  | cons a rest ih =>
    rw [List.map_cons, List.foldlM_cons, List.foldlM_cons, same]
    cases step start a with
    | error e => rfl
    | ok next => exact ih next

end Outcome

theorem Findings.append_empty (a : Findings) : a ++ ({} : Findings) = a := by
  obtain ⟨warnings, failures⟩ := a
  have whole : (⟨warnings, failures⟩ ++ {} : Findings) = ⟨warnings ++ [], failures ++ []⟩ := rfl
  rw [whole, List.append_nil, List.append_nil]

namespace Step

variable {α β : Type}

theorem bind_of_ok {s : Step α} {a : α} (h : s.outcome = .ok a) (next : α → Step β) :
    s >>= next = ⟨s.findings ++ (next a).findings, (next a).outcome⟩ := by
  obtain ⟨found, outcome⟩ := s
  cases h
  rfl

theorem bind_of_error {s : Step α} {e : ResolveError} (h : s.outcome = .error e)
    (next : α → Step β) : s >>= next = ⟨s.findings, .error e⟩ := by
  obtain ⟨found, outcome⟩ := s
  cases h
  rfl

theorem ofExcept_ok_bind (a : α) (next : α → Step β) : ofExcept (.ok a) >>= next = next a := by
  rw [bind_of_ok rfl]
  rfl

theorem note_bind (found : Findings) (next : Unit → Step β) :
    note found >>= next = ⟨found ++ (next ()).findings, (next ()).outcome⟩ := rfl

theorem bind_pure_of_ok {s : Step α} {a : α} (h : s.outcome = .ok a) (f : α → β) :
    (s >>= fun a => pure (f a)) = ⟨s.findings, .ok (f a)⟩ := by
  rw [bind_of_ok h]
  exact congrArg (Step.mk · (.ok (f a))) (Findings.append_empty s.findings)

theorem bind_eq_ok {s : Step α} {next : α → Step β} {b : β} :
    (s >>= next).outcome = .ok b ↔ ∃ a, s.outcome = .ok a ∧ (next a).outcome = .ok b := by
  obtain ⟨found, outcome⟩ := s
  cases outcome <;> simp [Bind.bind, Step.bind]

theorem failures_bind {s : Step α} {next : α → Step β} (first : s.findings.failures = [])
    (later : ∀ a, (next a).findings.failures = []) : (s >>= next).findings.failures = [] := by
  cases out : s.outcome with
  | ok a => simp [bind_of_ok out, first, later a]
  | error e => simp [bind_of_error out, first]

theorem collect_eq_ok {keepGoing : Bool} {one : α → Step β} {l : List α} {bs : List β}
    (h : (collect keepGoing one l).outcome = .ok bs) :
    bs = l.filterMap fun a => (one a).outcome.toOption := by
  induction l generalizing bs with
  | nil =>
    cases h
    rfl
  | cons a rest ih =>
    unfold collect at h
    cases first : (one a).outcome with
    | ok b =>
      simp only [first, Outcome.map_eq_ok] at h
      obtain ⟨later, collected, rfl⟩ := h
      rw [List.filterMap_cons, first, ih collected]
      rfl
    | error e =>
      cases keepGoing with
      | false => simp [first] at h
      | true =>
        simp only [first, if_true] at h
        rw [List.filterMap_cons, first, ih h]
        rfl

theorem mem_of_collect_eq_ok {keepGoing : Bool} {one : α → Step β} {l : List α} {bs : List β}
    (h : (collect keepGoing one l).outcome = .ok bs) {b : β} (member : b ∈ bs) :
    ∃ a ∈ l, (one a).outcome = .ok b := by
  rw [collect_eq_ok h, List.mem_filterMap] at member
  obtain ⟨a, listed, found⟩ := member
  exact ⟨a, listed, Outcome.toOption_eq_some.1 found⟩

def allFailures (s : Step α) : List ResolveError :=
  s.findings.failures ++ (Outcome.error? s.outcome).toList

theorem allFailures_of_ok {s : Step α} {a : α} (h : s.outcome = .ok a) :
    s.allFailures = s.findings.failures := by
  simp [allFailures, h, Outcome.error?]

theorem allFailures_of_error {s : Step α} {e : ResolveError} (h : s.outcome = .error e) :
    s.allFailures = s.findings.failures ++ [e] := by
  simp [allFailures, h, Outcome.error?]

/-- Going on after errors, no step matters to another. -/
theorem collect_keepGoing (one : α → Step β) (l : List α) :
    collect true one l =
      ⟨⟨l.flatMap fun a => (one a).findings.warnings, l.flatMap fun a => (one a).allFailures⟩,
        .ok (l.filterMap fun a => (one a).outcome.toOption)⟩ := by
  induction l with
  | nil => rfl
  | cons a rest ih =>
    rw [collect, ih, List.flatMap_cons, List.flatMap_cons, List.filterMap_cons]
    cases out : (one a).outcome with
    | ok b =>
      rw [allFailures_of_ok out]
      rfl
    | error e =>
      rw [allFailures_of_error out, ← List.append_nil (one a).findings.warnings]
      rfl

end Step
end ScopedCommands
