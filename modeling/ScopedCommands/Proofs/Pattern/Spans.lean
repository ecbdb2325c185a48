import ScopedCommands.Pattern.Basic

/-!
What a pattern matches, told without the search for it. A pattern spans a word that stands between
what comes before it and what comes after it; it occurs in a text exactly if the text has such a
word. The search keeps of what comes before only whether it is empty, and gives up repeating once
it has made as many rounds as there are characters left.
-/
namespace ScopedCommands.Pattern

def Rounds (spans : List Char → List Char → List Char → Prop) :
    Nat → List Char → List Char → List Char → Prop
  | 0, _, word, _ => word = []
  | count + 1, before, word, after =>
    ∃ u v, word = u ++ v ∧ spans before u (v ++ after) ∧ Rounds spans count (before ++ u) v after

def Spans : Pattern → List Char → List Char → List Char → Prop
  | empty, _, word, _ => word = []
  | one set, _, word, _ => ∃ c, set.has c = true ∧ word = [c]
  | start, before, word, _ => before = [] ∧ word = []
  | finish, _, word, after => word = [] ∧ after = []
  | seq a b, before, word, after =>
    ∃ u v, word = u ++ v ∧ a.Spans before u (v ++ after) ∧ b.Spans (before ++ u) v after
  | either a b, before, word, after => a.Spans before word after ∨ b.Spans before word after
  | times p count, before, word, after => Rounds p.Spans count before word after
  | star p, before, word, after => ∃ count, Rounds p.Spans count before word after

/-- Rounds that read nothing can be left out. -/
theorem Rounds.atMost_length {spans : List Char → List Char → List Char → Prop} {count : Nat}
    {before word after : List Char} (h : Rounds spans count before word after) :
    ∃ fewer, fewer ≤ word.length ∧ Rounds spans fewer before word after := by
  induction count generalizing before word with
  | zero => exact ⟨0, Nat.zero_le _, h⟩
  | succ count ih =>
    obtain ⟨u, v, rfl, first, later⟩ := h
    obtain ⟨fewer, bound, rest⟩ := ih later
    cases u with
    | nil => exact ⟨fewer, bound, by simpa using rest⟩
    | cons c u =>
      refine ⟨fewer + 1, ?_, _, _, rfl, first, rest⟩
      simp only [List.cons_append, List.length_cons, List.length_append]
      omega

section Steps

variable {step : Cursor → List Cursor} {c d e : Cursor} {reached frontier : List Cursor}

def Leads (step : Cursor → List Cursor) : Nat → Cursor → Cursor → Prop
  | 0, d, c => c = d
  | count + 1, d, c => ∃ e ∈ step d, Leads step count e c

theorem Leads.snoc {count : Nat} (h : Leads step count d e) (next : c ∈ step e) :
    Leads step (count + 1) d c := by
  induction count generalizing d with
  | zero =>
    cases h
    exact ⟨c, next, rfl⟩
  | succ count ih =>
    obtain ⟨first, member, later⟩ := h
    exact ⟨first, member, ih later⟩

theorem mem_iterate {count : Nat} :
    c ∈ iterate step count reached ↔ ∃ d ∈ reached, Leads step count d c := by
  induction count generalizing reached with
  | zero => simp [iterate, Leads]
  | succ count ih =>
    simp only [iterate, ih, List.mem_eraseDups, List.mem_flatMap, Leads]
    constructor
    · rintro ⟨e, ⟨d, member, next⟩, later⟩
      exact ⟨d, member, e, next, later⟩
    · rintro ⟨d, member, e, next, later⟩
      exact ⟨e, ⟨d, member, next⟩, later⟩

def added (step : Cursor → List Cursor) (reached frontier : List Cursor) : List Cursor :=
  ((frontier.flatMap step).filter fun c => !reached.contains c).eraseDups

theorem mem_added :
    c ∈ added step reached frontier ↔ (∃ d ∈ frontier, c ∈ step d) ∧ c ∉ reached := by
  simp [added, List.mem_eraseDups]

theorem closure_sound {rounds : Nat}
    (known : ∀ d ∈ reached ++ frontier, ∃ count, Leads step count e d)
    (member : c ∈ closure step rounds reached frontier) : ∃ count, Leads step count e c := by
  induction rounds generalizing reached frontier with
  | zero => exact known c (List.mem_append_left _ member)
  | succ rounds ih =>
    cases frontier with
    | nil => exact known c (List.mem_append_left _ member)
    | cons f frontier =>
      have knownAdded : ∀ d ∈ added step reached (f :: frontier),
          ∃ count, Leads step count e d := by
        intro d new
        obtain ⟨⟨a, ahead, next⟩, _⟩ := mem_added.1 new
        obtain ⟨count, leads⟩ := known a (List.mem_append_right _ ahead)
        exact ⟨count + 1, leads.snoc next⟩
      refine ih (fun d found => ?_) member
      rcases List.mem_append.1 found with (old_or_new | new)
      · rcases List.mem_append.1 old_or_new with old | new
        · exact known d (List.mem_append_left _ old)
        · exact knownAdded d new
      · exact knownAdded d new

/-- The invariant is that steps lead to what has been reached, except from the frontier. -/
theorem closure_complete {rounds count : Nat}
    (settled : ∀ d ∈ reached, d ∉ frontier → ∀ e ∈ step d, e ∈ reached)
    (member : d ∈ reached) (enough : count ≤ rounds) (leads : Leads step count d c) :
    c ∈ closure step rounds reached frontier := by
  induction rounds generalizing reached frontier count d with
  | zero =>
    cases Nat.le_zero.1 enough
    cases leads
    exact member
  | succ rounds ih =>
    cases frontier with
    | nil =>
      clear ih enough
      change c ∈ reached
      induction count generalizing d with
      | zero =>
        cases leads
        exact member
      | succ count ih =>
        obtain ⟨e, next, later⟩ := leads
        exact ih (settled d member List.not_mem_nil e next) later
    | cons f frontier =>
      have stays : ∀ d ∈ reached, ∀ e ∈ step d,
          e ∈ reached ++ added step reached (f :: frontier) := by
        intro d old e next
        by_cases seen : e ∈ reached
        · exact List.mem_append_left _ seen
        · by_cases ahead : d ∈ f :: frontier
          · exact List.mem_append_right _ (mem_added.2 ⟨⟨d, ahead, next⟩, seen⟩)
          · exact absurd (settled d old ahead e next) seen
      have settles : ∀ d ∈ reached ++ added step reached (f :: frontier),
          d ∉ added step reached (f :: frontier) →
          ∀ e ∈ step d, e ∈ reached ++ added step reached (f :: frontier) :=
        fun d found notAdded => stays d ((List.mem_append.1 found).resolve_right notAdded)
      cases count with
      | zero => exact ih settles (List.mem_append_left _ member) (Nat.zero_le _) leads
      | succ count =>
        obtain ⟨e, next, later⟩ := leads
        exact ih settles (stays d member e next) (Nat.le_of_succ_le_succ enough) later

end Steps

def Cursor.between (before after : List Char) : Cursor := ⟨before.isEmpty, after⟩

def Ends (step : Cursor → List Cursor) (spans : List Char → List Char → List Char → Prop) : Prop :=
  ∀ before text c, c ∈ step (.between before text) ↔ ∃ word after,
    text = word ++ after ∧ c = .between (before ++ word) after ∧ spans before word after

section Ends

variable {step : Cursor → List Cursor} {spans : List Char → List Char → List Char → Prop}
  {before text : List Char} {c : Cursor}

theorem Ends.leads_iff (h : Ends step spans) {count : Nat} :
    Leads step count (.between before text) c ↔ ∃ word after,
      text = word ++ after ∧ c = .between (before ++ word) after ∧
        Rounds spans count before word after := by
  induction count generalizing before text with
  | zero =>
    constructor
    · rintro rfl
      exact ⟨[], text, rfl, by simp, rfl⟩
    · rintro ⟨_, after, rfl, rfl, rfl⟩
      simp [Leads]
  | succ count ih =>
    constructor
    · rintro ⟨e, next, later⟩
      obtain ⟨u, rest, rfl, rfl, first⟩ := (h _ _ _).1 next
      obtain ⟨v, after, rfl, rfl, others⟩ := ih.1 later
      exact ⟨u ++ v, after, by simp, by simp, u, v, rfl, first, others⟩
    · rintro ⟨_, after, rfl, rfl, u, v, rfl, first, others⟩
      refine ⟨.between (before ++ u) (v ++ after), (h _ _ _).2 ⟨u, _, by simp, rfl, first⟩, ?_⟩
      exact ih.2 ⟨v, after, rfl, by simp, others⟩

theorem Ends.mem_closure (h : Ends step spans) :
    c ∈ closure step text.length [.between before text] [.between before text] ↔
      ∃ word after, text = word ++ after ∧ c = .between (before ++ word) after ∧
        ∃ count, Rounds spans count before word after := by
  constructor
  · intro member
    obtain ⟨count, leads⟩ := closure_sound (e := .between before text)
      (fun d found => ⟨0, by simpa [Leads] using found⟩) member
    obtain ⟨word, after, cut, place, rounds⟩ := h.leads_iff.1 leads
    exact ⟨word, after, cut, place, count, rounds⟩
  · rintro ⟨word, after, rfl, rfl, count, rounds⟩
    obtain ⟨fewer, bound, rounds⟩ := rounds.atMost_length
    have enough : fewer ≤ (word ++ after).length := by
      rw [List.length_append]
      omega
    exact closure_complete (fun d found ahead => absurd found ahead) List.mem_cons_self enough
      (h.leads_iff.2 ⟨word, after, rfl, rfl, rounds⟩)

end Ends

theorem ends_spans (p : Pattern) : Ends p.ends p.Spans := by
  induction p with
  | empty =>
    intro before text c
    constructor
    · intro here
      exact ⟨[], text, rfl, by simpa [ends] using here, rfl⟩
    · rintro ⟨_, after, rfl, rfl, rfl⟩
      simp [ends]
  | one set =>
    intro before text c
    constructor
    · intro next
      cases text with
      | nil => cases next
      | cons x rest =>
        simp only [ends, Cursor.between, List.mem_ite_nil_right, List.mem_singleton] at next
        obtain ⟨has, rfl⟩ := next
        exact ⟨[x], rest, rfl, by simp [Cursor.between], x, has, rfl⟩
    · rintro ⟨_, after, rfl, rfl, x, has, rfl⟩
      simp [ends, Cursor.between, has]
  | start =>
    intro before text c
    constructor
    · intro here
      simp only [ends, Cursor.between, List.mem_ite_nil_right, List.isEmpty_iff,
        List.mem_singleton] at here
      obtain ⟨rfl, rfl⟩ := here
      exact ⟨[], text, rfl, rfl, rfl, rfl⟩
    · rintro ⟨_, after, rfl, rfl, rfl, rfl⟩
      simp [ends, Cursor.between]
  | finish =>
    intro before text c
    constructor
    · intro here
      cases text with
      | nil => exact ⟨[], [], rfl, by simpa [ends, Cursor.between] using here, rfl, rfl⟩
      | cons x rest => cases here
    · rintro ⟨_, after, rfl, rfl, rfl, rfl⟩
      simp [ends, Cursor.between]
  | seq a b iha ihb =>
    intro before text c
    simp only [ends, List.mem_flatMap, Spans]
    constructor
    · rintro ⟨d, first, second⟩
      obtain ⟨u, rest, rfl, rfl, spansA⟩ := (iha _ _ _).1 first
      obtain ⟨v, after, rfl, rfl, spansB⟩ := (ihb _ _ _).1 second
      exact ⟨u ++ v, after, by simp, by simp, u, v, rfl, spansA, spansB⟩
    · rintro ⟨_, after, rfl, rfl, u, v, rfl, spansA, spansB⟩
      refine ⟨.between (before ++ u) (v ++ after), (iha _ _ _).2 ⟨u, _, by simp, rfl, spansA⟩, ?_⟩
      exact (ihb _ _ _).2 ⟨v, after, rfl, by simp, spansB⟩
  | either a b iha ihb =>
    intro before text c
    simp only [ends, List.mem_append, iha before text c, ihb before text c, Spans, and_or_left,
      exists_or]
  | times p count ih =>
    intro before text c
    simp only [ends, mem_iterate, List.mem_singleton, exists_eq_left, Spans]
    exact ih.leads_iff
  | star p ih =>
    intro before text c
    exact ih.mem_closure

theorem matchesAt_iff {p : Pattern} {before text : List Char} :
    p.matchesAt (.between before text) = true ↔
      ∃ word after, text = word ++ after ∧ p.Spans before word after := by
  simp only [matchesAt, Bool.not_eq_true', List.isEmpty_eq_false_iff_exists_mem]
  constructor
  · rintro ⟨c, found⟩
    obtain ⟨word, after, cut, _, spans⟩ := (p.ends_spans _ _ _).1 found
    exact ⟨word, after, cut, spans⟩
  · rintro ⟨word, after, cut, spans⟩
    exact ⟨_, (p.ends_spans _ _ _).2 ⟨word, after, cut, rfl, spans⟩⟩

def Found (p : Pattern) (before text : List Char) : Prop :=
  ∃ skipped word after, text = skipped ++ (word ++ after) ∧ p.Spans (before ++ skipped) word after

section Found

variable {p : Pattern} {before : List Char}

theorem found_nil : p.Found before [] ↔ p.matchesAt (.between before []) = true := by
  rw [matchesAt_iff]
  constructor
  · rintro ⟨skipped, word, after, cut, spans⟩
    obtain ⟨rfl, nothing⟩ := List.append_eq_nil_iff.1 cut.symm
    exact ⟨word, after, nothing.symm, by simpa using spans⟩
  · rintro ⟨word, after, cut, spans⟩
    exact ⟨[], word, after, cut, by simpa using spans⟩

theorem found_cons {c : Char} {rest : List Char} :
    p.Found before (c :: rest) ↔
      p.matchesAt (.between before (c :: rest)) = true ∨ p.Found (before ++ [c]) rest := by
  rw [matchesAt_iff]
  constructor
  · rintro ⟨skipped, word, after, cut, spans⟩
    cases skipped with
    | nil => exact .inl ⟨word, after, cut, by simpa using spans⟩
    | cons d skipped =>
      cases cut
      exact .inr ⟨skipped, word, after, rfl, by simpa using spans⟩
  · rintro (⟨word, after, cut, spans⟩ | ⟨skipped, word, after, rfl, spans⟩)
    · exact ⟨[], word, after, cut, by simpa using spans⟩
    · exact ⟨c :: skipped, word, after, rfl, by simpa using spans⟩

theorem matchesLater_iff {text : List Char} (read : before ≠ []) :
    p.matchesLater text = true ↔ p.Found before text := by
  induction text generalizing before with
  | nil =>
    rw [found_nil, Cursor.between, List.isEmpty_eq_false_iff.2 read]
    rfl
  | cons c rest ih =>
    rw [found_cons, Cursor.between, List.isEmpty_eq_false_iff.2 read, ← ih (by simp), matchesLater,
      Bool.or_eq_true]

/-- The search finds a pattern exactly in the texts that have a word it spans. -/
theorem occurs_iff {text : String} : p.occurs text = true ↔ p.Found [] text.toList := by
  unfold occurs
  cases text.toList with
  | nil => simp [found_nil, Cursor.between]
  | cons c rest =>
    rw [found_cons, List.nil_append, ← matchesLater_iff (List.cons_ne_nil c []), Bool.or_eq_true]
    rfl

end Found

theorem single_has_iff {c d : Char} : (CharSet.single c).has d = true ↔ d = c := by
  simp only [CharSet.single, CharSet.has, Bool.and_eq_true, decide_eq_true_eq]
  constructor
  · rintro ⟨above, below⟩
    exact Char.le_antisymm below above
  · rintro rfl
    exact ⟨Char.le_refl d, Char.le_refl d⟩

theorem found_one {set : CharSet} {text : List Char} :
    (one set).Found [] text ↔ ∃ c ∈ text, set.has c = true := by
  constructor
  · rintro ⟨skipped, _, after, rfl, c, has, rfl⟩
    exact ⟨c, by simp, has⟩
  · rintro ⟨c, member, has⟩
    obtain ⟨skipped, after, rfl⟩ := List.append_of_mem member
    exact ⟨skipped, [c], after, rfl, c, has, rfl⟩

theorem found_single {c : Char} {text : List Char} :
    (one (.single c)).Found [] text ↔ c ∈ text := by
  simp [found_one, single_has_iff]

theorem found_pair {a b : Char} {text : List Char} :
    (seq (one (.single a)) (one (.single b))).Found [] text ↔ [a, b] <:+: text := by
  constructor
  · rintro ⟨skipped, _, after, rfl, _, _, rfl, ⟨c, first, rfl⟩, ⟨d, second, rfl⟩⟩
    cases single_has_iff.1 first
    cases single_has_iff.1 second
    exact ⟨skipped, after, by simp⟩
  · rintro ⟨skipped, after, rfl⟩
    exact ⟨skipped, [a, b], after, by simp, [a], [b], rfl, ⟨a, single_has_iff.2 rfl, rfl⟩,
      ⟨b, single_has_iff.2 rfl, rfl⟩⟩

end ScopedCommands.Pattern
