import ScopedCommands.Safety
import ScopedCommands.Proofs.Outcome

namespace ScopedCommands

variable {matcher : Matcher}

def SafetyRule.Forbids (matcher : Matcher) (rule : SafetyRule) (value : String) : Prop :=
  ∃ occurs, matcher rule.pattern = some occurs ∧ occurs value = true

theorem SafetyRule.forbids_iff {rule : SafetyRule} {occurs : String → Bool} {value : String}
    (read : matcher rule.pattern = some occurs) :
    rule.Forbids matcher value ↔ occurs value = true := by
  simp [Forbids, read]

namespace Safeguard

variable {g : Safeguard} {set : RuleSet} {name value : String}

def Clears (g : Safeguard) (value : String) : Prop := ∀ r ∈ g.rules, r.2 value = false

theorem check_eq_ok_iff : g.check name value = .ok () ↔ g.Clears value := by
  unfold check violated Clears
  cases found : g.rules.find? fun r => r.2 value with
  | none => simpa using found
  | some r =>
    have occurs := List.find?_some found
    have member := List.mem_of_find?_eq_some found
    constructor
    · intro impossible
      cases impossible
    · intro clear
      rw [clear r member] at occurs
      cases occurs

theorem compileRule_eq_ok {rule : SafetyRule} {r : SafetyRule × (String → Bool)}
    (h : compileRule matcher rule = .ok r) : r.1 = rule ∧ matcher rule.pattern = some r.2 := by
  unfold compileRule at h
  split at h
  · cases h
  next occurs read =>
    cases h
    exact ⟨rfl, read⟩

theorem compile_eq_ok (h : compile set matcher = .ok g) :
    g.rules.map (·.1) = set.enabled ∧ ∀ r ∈ g.rules, matcher r.1.pattern = some r.2 := by
  obtain ⟨compiled, mapped, rfl⟩ := Outcome.map_eq_ok.1 h
  clear h
  generalize set.enabled = rules at mapped
  induction rules generalizing compiled with
  | nil =>
    cases mapped
    exact ⟨rfl, fun _ member => by cases member⟩
  | cons first rest ih =>
    simp only [List.mapM_cons, Outcome.bind_eq_ok] at mapped
    obtain ⟨head, one, tail, others, same⟩ := mapped
    cases same
    obtain ⟨rfl, read⟩ := compileRule_eq_ok one
    obtain ⟨order, patterns⟩ := ih tail others
    refine ⟨congrArg (head.1 :: ·) order, fun r member => ?_⟩
    rcases List.mem_cons.1 member with rfl | later
    · exact read
    · exact patterns r later

theorem check_cases (compiled : compile set matcher = .ok g) (name value : String) :
    (g.check name value = .ok () ∧ ∀ rule ∈ set.enabled, ¬ rule.Forbids matcher value) ∨
    ∃ before rule after, set.enabled = before ++ rule :: after ∧ rule.Forbids matcher value ∧
      (∀ earlier ∈ before, ¬ earlier.Forbids matcher value) ∧
      g.check name value = .error (.unsafeValue name rule.id rule.description) := by
  obtain ⟨order, patterns⟩ := compile_eq_ok compiled
  rw [← order]
  cases found : g.rules.find? fun r => r.2 value with
  | none =>
    refine .inl ⟨by simp [check, violated, found], ?_⟩
    intro rule member
    obtain ⟨r, listed, rfl⟩ := List.mem_map.1 member
    rw [SafetyRule.forbids_iff (patterns r listed)]
    exact List.find?_eq_none.1 found r listed
  | some r =>
    obtain ⟨occurs, before, after, cut, clear⟩ := List.find?_eq_some_iff_append.1 found
    have listed : r ∈ g.rules := by simp [cut]
    refine .inr ⟨before.map (·.1), r.1, after.map (·.1), by simp [cut], ?_, ?_, ?_⟩
    · exact (SafetyRule.forbids_iff (patterns r listed)).2 occurs
    · intro earlier member
      obtain ⟨e, within, rfl⟩ := List.mem_map.1 member
      rw [SafetyRule.forbids_iff (patterns e (by simp [cut, within]))]
      simpa using clear e within
    · simp [check, violated, found]

theorem check_eq_ok_iff_forbids (compiled : compile set matcher = .ok g) :
    g.check name value = .ok () ↔ ∀ rule ∈ set.enabled, ¬ rule.Forbids matcher value := by
  rcases check_cases compiled name value with
    ⟨accepted, clear⟩ | ⟨before, rule, after, cut, forbids, _, refused⟩
  · exact iff_of_true accepted clear
  · exact iff_of_false (by simp [refused]) fun clear => clear rule (by simp [cut]) forbids

theorem exists_compile_standard : ∃ g, compile .standard = .ok g := by
  have compiled : (compile .standard).toOption.isSome = true := by decide +kernel
  obtain ⟨g, given⟩ := Option.isSome_iff_exists.1 compiled
  exact ⟨g, Outcome.toOption_eq_some.1 given⟩

end Safeguard
end ScopedCommands
