import ScopedCommands.Proofs.Resolution.Inversion

namespace ScopedCommands

namespace Step

variable {α β : Type}

/-- Without failures the two steps are the same; otherwise `fast` ends with the first of them. -/
structure StopsAtFirst (slow fast : Step α) : Prop where
  same : slow.findings.failures = [] → fast = slow
  first : ∀ e, slow.findings.failures.head? = some e → fast.outcome = .error e

theorem stopsAtFirst_self {s : Step α} (none : s.findings.failures = []) : s.StopsAtFirst s where
  same _ := rfl
  first e head := by simp [none] at head

theorem stopsAtFirst_of_head {slow fast : Step α} {e : ResolveError}
    (head : slow.findings.failures.head? = some e) (stopped : fast.outcome = .error e) :
    slow.StopsAtFirst fast where
  same none := by simp [none] at head
  first d found := by
    rw [head] at found
    cases found
    exact stopped

theorem StopsAtFirst.bind {slow fast : Step α} {f g : α → Step β} (h : slow.StopsAtFirst fast)
    (next : ∀ a, (f a).StopsAtFirst (g a)) : (slow >>= f).StopsAtFirst (fast >>= g) := by
  cases failures : slow.findings.failures with
  | cons e rest =>
    -- The first failure is that of `slow`, whatever comes after it.
    have stopped := h.first e (by simp [failures])
    have head : (slow >>= f).findings.failures.head? = some e := by
      cases out : slow.outcome with
      | ok a => simp [bind_of_ok out, failures]
      | error d => simp [bind_of_error out, failures]
    rw [bind_of_error stopped]
    exact stopsAtFirst_of_head head rfl
  | nil =>
    rw [h.same failures]
    cases out : slow.outcome with
    | error e =>
      rw [bind_of_error out, bind_of_error out]
      exact stopsAtFirst_self failures
    | ok a =>
      rw [bind_of_ok out, bind_of_ok out]
      constructor
      · intro none
        have later : (f a).findings.failures = [] := by simpa [failures] using none
        rw [(next a).same later]
      · intro e head
        exact (next a).first e (by simpa [failures] using head)

theorem stopsAtFirst_collect {one other : α → Step β}
    (each : ∀ a, (one a).StopsAtFirst (other a)) (l : List α) :
    (collect true one l).StopsAtFirst (collect false other l) := by
  induction l with
  | nil => exact stopsAtFirst_self rfl
  | cons a rest ih =>
    cases failures : (one a).findings.failures with
    | cons e more =>
      have stopped := (each a).first e (by simp [failures])
      have head : (collect true one (a :: rest)).findings.failures.head? = some e := by
        simp [collect_keepGoing, allFailures, failures]
      rw [show collect false other (a :: rest) = ⟨(other a).findings, .error e⟩ by
        simp [collect, stopped]]
      exact stopsAtFirst_of_head head rfl
    | nil =>
      have same := (each a).same failures
      cases out : (one a).outcome with
      | ok b =>
        rw [collect, collect, same, out]
        constructor
        · intro none
          have later : (collect true one rest).findings.failures = [] := by
            simpa [failures] using none
          simp only [ih.same later]
        · intro e head
          have stopped := ih.first e (by simpa [failures] using head)
          simp [stopped, Except.map]
      | error e =>
        rw [collect, collect, same, out]
        exact stopsAtFirst_of_head (by simp [failures]) rfl

end Step

namespace Setting

open Step

variable (s : Setting) (templates : Registry)

theorem failures_rawFields (label : String) (c : CommandDecl) :
    (rawFields templates label c).findings.failures = [] := by
  unfold rawFields
  split
  · rfl
  · refine failures_bind ?_ fun _ => rfl
    unfold bindTemplate
    repeat' split
    all_goals rfl

theorem failures_resolveCommand (g : Enclosing) (c : CommandDecl) :
    (s.resolveCommand templates g c).findings.failures = [] := by
  unfold resolveCommand
  refine failures_bind rfl fun _ => ?_
  refine failures_bind (failures_rawFields templates _ c) fun raw => ?_
  unfold resolveRaw
  refine failures_bind rfl fun risk => ?_
  refine failures_bind rfl fun scope => ?_
  exact failures_bind (s.failures_unsetNames scope) fun _ => rfl

theorem stopsAtFirst_resolveGroup (globals : Scope) (g : GroupDecl) :
    (s.resolveGroup templates true globals g).StopsAtFirst
      (s.resolveGroup templates false globals g) := by
  unfold resolveGroup
  refine (stopsAtFirst_self rfl).bind fun scope => ?_
  refine (stopsAtFirst_self (by simp [note])).bind fun _ => ?_
  refine (stopsAtFirst_self rfl).bind fun workdir => ?_
  refine (stopsAtFirst_collect (fun c => ?_) g.commands).bind fun commands => stopsAtFirst_self rfl
  exact stopsAtFirst_self (s.failures_resolveCommand templates _ c)

end Setting

def Resolution.unlessFailed (r : Resolution) : Except ResolveError Resolution :=
  match r.failures with
  | [] => .ok r
  | e :: _ => .error e

theorem Resolution.unlessFailed_of_failures {r : Resolution} {e : ResolveError}
    {rest : List ResolveError} (failed : r.failures = e :: rest) : r.unlessFailed = .error e := by
  rw [unlessFailed, failed]

theorem Resolution.unlessFailed_eq_ok {q r : Resolution} :
    q.unlessFailed = .ok r ↔ q = r ∧ r.failures = [] := by
  cases failures : q.failures with
  | nil =>
    rw [unlessFailed, failures]
    constructor
    · intro same
      cases same
      exact ⟨rfl, failures⟩
    · rintro ⟨rfl, _⟩
      rfl
  | cons e rest =>
    rw [unlessFailed_of_failures failures]
    constructor
    · intro impossible
      cases impossible
    · rintro ⟨rfl, none⟩
      rw [failures] at none
      cases none

theorem Resolution.ofRun_stopping {slow fast : Step (List ResolvedGroup)}
    (h : slow.StopsAtFirst fast) {groups : List ResolvedGroup} (going : slow.outcome = .ok groups)
    (globals : Scope) : ofRun globals fast = ofRun globals slow >>= Resolution.unlessFailed := by
  obtain ⟨⟨warnings, failures⟩, outcome⟩ := slow
  cases going
  cases failures with
  | nil =>
    rw [h.same rfl]
    rfl
  | cons e rest =>
    unfold ofRun
    rw [h.first e rfl]
    rfl

namespace Config

open Step

variable (c : Config) (templates : Registry) (o : ResolveOptions)

theorem stopsAtFirst_run (s : Setting) (globals : Scope) :
    (c.run templates { o with keepGoing := true } s globals).StopsAtFirst
      (c.run templates { o with keepGoing := false } s globals) := by
  have noted : (note (s.globalFindings globals)).StopsAtFirst (note (s.globalFindings globals)) :=
    stopsAtFirst_self (s.failures_globalFindings globals)
  exact noted.bind fun _ =>
    stopsAtFirst_collect (s.stopsAtFirst_resolveGroup templates globals) _

theorem resolveWith_stopping (s : Setting) :
    c.resolveWith templates { o with keepGoing := false } s =
      c.resolveWith templates { o with keepGoing := true } s >>= Resolution.unlessFailed := by
  rw [resolveWith_eq, resolveWith_eq]
  cases s.resolveScope (.ofGlobals c.globals) [] with
  | error e => rfl
  | ok globals =>
    have going := congrArg Step.outcome (c.run_keepGoing templates
      (show ({ o with keepGoing := true } : ResolveOptions).keepGoing = true from rfl) s globals)
    exact Resolution.ofRun_stopping (c.stopsAtFirst_run templates o s globals) going globals

theorem resolve_stopping :
    c.resolve templates { o with keepGoing := false } =
      c.resolve templates { o with keepGoing := true } >>= Resolution.unlessFailed := by
  change (c.checkGroup o.group >>= fun _ => setting o >>= fun s =>
      c.resolveWith templates { o with keepGoing := false } s) =
    (c.checkGroup o.group >>= fun _ => setting o >>= fun s =>
      c.resolveWith templates { o with keepGoing := true } s) >>= Resolution.unlessFailed
  simp only [resolveWith_stopping]
  cases c.checkGroup o.group with
  | error e => rfl
  | ok =>
    cases setting o with
    | error e => rfl
    | ok s => rfl

/-- A run that stops gives a resolution just if a run that goes on gives it without failures, and
otherwise ends with what the latter met first. -/
theorem resolve_failFast_iff_keepGoing :
    (∀ r, c.resolve templates { o with keepGoing := false } = .ok r ↔
      c.resolve templates { o with keepGoing := true } = .ok r ∧ r.failures = []) ∧
    (∀ r e rest, c.resolve templates { o with keepGoing := true } = .ok r →
      r.failures = e :: rest →
        c.resolve templates { o with keepGoing := false } = .error e) ∧
    (∀ e, c.resolve templates { o with keepGoing := true } = .error e →
      c.resolve templates { o with keepGoing := false } = .error e) := by
  refine ⟨fun r => ?_, fun r e rest resolved failures => ?_, fun e failed => ?_⟩
  · rw [resolve_stopping, Outcome.bind_eq_ok]
    constructor
    · rintro ⟨q, resolved, passed⟩
      obtain ⟨rfl, none⟩ := Resolution.unlessFailed_eq_ok.1 passed
      exact ⟨resolved, none⟩
    · rintro ⟨resolved, none⟩
      exact ⟨r, resolved, Resolution.unlessFailed_eq_ok.2 ⟨rfl, none⟩⟩
  · rw [resolve_stopping, resolved]
    exact Resolution.unlessFailed_of_failures failures
  · rw [resolve_stopping, failed]
    rfl

def broken : Config where
  groups := [
    { name := "first"
      commands := [{ name := "run", cmd := some "run" }, { name := "a", cmd := some "%{A}" }] },
    { name := "second"
      commands := [{ name := "b", cmd := some "%{B}" }, { name := "c", cmd := some "%{C}" }] }]

theorem resolve_failFast_iff_keepGoing_broken :
    ∃ r e, broken.resolve .empty { keepGoing := true } = .ok r ∧
      r.failures.length = 3 ∧ r.failures.head? = some e ∧
      broken.resolve .empty { keepGoing := false } = .error e := by
  have ran : (broken.resolve .empty { keepGoing := true }).toOption.map (·.failures.length) =
      some 3 := by
    decide +kernel
  obtain ⟨r, given, three⟩ := Option.map_eq_some_iff.1 ran
  have resolved := Outcome.toOption_eq_some.1 given
  obtain ⟨e, rest, failures⟩ := List.exists_cons_of_length_pos (by omega : 0 < r.failures.length)
  have stopped := (broken.resolve_failFast_iff_keepGoing .empty {}).2.1 r e rest resolved failures
  exact ⟨r, e, resolved, three, by rw [failures, List.head?_cons], stopped⟩

end Config
end ScopedCommands
