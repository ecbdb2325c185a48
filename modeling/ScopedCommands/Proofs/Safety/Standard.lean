import Mathlib.Data.List.Basic
import Mathlib.Tactic.Tauto
import ScopedCommands.Proofs.Pattern.Spans
import ScopedCommands.Proofs.Safety.Checking

/-!
The standard rules, told by the characters of a value and without their patterns. All but one look
for a character or for two that stand together. The rule about background commands looks for an
ampersand with nothing or white space on either side of it, so an ampersand that touches a word on
one side only is let through.
-/
namespace ScopedCommands.RuleSet

/-- A sign between the two has nothing or white space on either side of it. -/
def Alone (before after : List Char) : Prop :=
  (∀ c ∈ before.getLast?, Text.isBlank c = true) ∧ ∀ c ∈ after.head?, Text.isBlank c = true

def LoneAmpersand (cs : List Char) : Prop :=
  ∃ before after, cs = before ++ '&' :: after ∧ Alone before after

def HasConstruct : String → List Char → Prop
  | "command-separator", cs => ';' ∈ cs
  | "logical-and", cs => ['&', '&'] <:+: cs
  | "pipe", cs => '|' ∈ cs
  | "background", cs => LoneAmpersand cs
  | "subshell-substitution", cs => ['$', '('] <:+: cs
  | "backtick-substitution", cs => '\x60' ∈ cs
  | "output-redirection", cs => '>' ∈ cs
  | "input-redirection", cs => '<' ∈ cs
  | "line-break", cs => '\r' ∈ cs ∨ '\n' ∈ cs
  | _, _ => False

structure Harmless (cs : List Char) : Prop where
  noControl : ∀ c ∈ cs, c ∉ [';', '|', '\x60', '<', '>', '\r', '\n']
  noChaining : ¬ ['&', '&'] <:+: cs
  noSubstitution : ¬ ['$', '('] <:+: cs
  noBackground : ¬ LoneAmpersand cs

theorem harmless_iff {cs : List Char} :
    Harmless cs ↔ ∀ rule ∈ standard.rules, ¬ HasConstruct rule.id cs := by
  simp only [standard, List.forall_mem_cons, HasConstruct]
  constructor
  · intro h
    have absent (c : Char) (listed : c ∈ [';', '|', '\x60', '<', '>', '\r', '\n']) : c ∉ cs :=
      fun member => h.noControl c member listed
    refine ⟨absent _ (by decide), h.noChaining, absent _ (by decide), h.noBackground,
      h.noSubstitution, absent _ (by decide), absent _ (by decide), absent _ (by decide), ?_,
      by simp⟩
    rintro (member | member)
    · exact absent _ (by decide) member
    · exact absent _ (by decide) member
  · rintro ⟨separator, chaining, pipe, background, substitution, backtick, output, input, lineBreak,
      _⟩
    refine ⟨fun c member listed => ?_, chaining, substitution, background⟩
    simp only [List.mem_cons, List.not_mem_nil, or_false] at listed
    rcases listed with rfl | rfl | rfl | rfl | rfl | rfl | rfl
    · exact separator member
    · exact pipe member
    · exact backtick member
    · exact input member
    · exact output member
    · exact lineBreak (.inl member)
    · exact lineBreak (.inr member)

section Background

open Pattern

theorem spans_left_iff (before rest : List Char) :
    (∃ skipped u, before = skipped ++ u ∧ (either start (one .blank)).Spans skipped u rest) ↔
      ∀ c ∈ before.getLast?, Text.isBlank c = true := by
  constructor
  · rintro ⟨skipped, u, rfl, ⟨rfl, rfl⟩ | ⟨c, has, rfl⟩⟩
    · simp
    · simpa using show Text.isBlank c = true from has
  · intro blank
    rcases List.eq_nil_or_concat before with rfl | ⟨skipped, c, rfl⟩
    · exact ⟨[], [], rfl, .inl ⟨rfl, rfl⟩⟩
    · exact ⟨skipped, [c], by simp, .inr ⟨c, blank c (by simp), rfl⟩⟩

theorem spans_right_iff (before after : List Char) :
    (∃ w rest, after = w ++ rest ∧ (either (one .blank) finish).Spans before w rest) ↔
      ∀ c ∈ after.head?, Text.isBlank c = true := by
  constructor
  · rintro ⟨_, rest, rfl, ⟨c, has, rfl⟩ | ⟨rfl, rfl⟩⟩
    · simpa using show Text.isBlank c = true from has
    · simp
  · intro blank
    cases after with
    | nil => exact ⟨[], [], rfl, .inr ⟨rfl, rfl⟩⟩
    | cons c rest => exact ⟨[c], rest, rfl, .inl ⟨c, blank c (by simp), rfl⟩⟩

theorem found_background {cs : List Char} :
    (seq (either start (one .blank))
      (seq (one (.single '&')) (either (one .blank) finish))).Found [] cs ↔ LoneAmpersand cs := by
  constructor
  · rintro ⟨skipped, _, rest, rfl, u, _, rfl, left, _, w, rfl, ⟨c, has, rfl⟩, right⟩
    cases single_has_iff.1 has
    exact ⟨skipped ++ u, w ++ rest, by simp, (spans_left_iff _ _).1 ⟨skipped, u, rfl, left⟩,
      (spans_right_iff _ _).1 ⟨w, rest, rfl, right⟩⟩
  · rintro ⟨before, after, rfl, blankLeft, blankRight⟩
    obtain ⟨w, rest, rfl, right⟩ := (spans_right_iff (before ++ ['&']) after).2 blankRight
    obtain ⟨skipped, u, rfl, left⟩ := (spans_left_iff before ('&' :: w ++ rest)).2 blankLeft
    exact ⟨skipped, u ++ ('&' :: w), rest, by simp, u, '&' :: w, rfl, left, ['&'], w, rfl,
      ⟨'&', single_has_iff.2 rfl, rfl⟩, right⟩

end Background

theorem forbids_iff_found {rule : SafetyRule} {p : Pattern} {value : String}
    (parsed : Pattern.parse rule.pattern = some p) :
    rule.Forbids Pattern.matcher value ↔ p.Found [] value.toList := by
  have read : Pattern.matcher rule.pattern = some p.occurs := by rw [Pattern.matcher, parsed]; rfl
  rw [SafetyRule.forbids_iff read, Pattern.occurs_iff]

theorem forbids_standard_iff {value : String} : ∀ rule ∈ standard.rules,
    (rule.Forbids Pattern.matcher value ↔ HasConstruct rule.id value.toList) := by
  simp only [standard, List.forall_mem_cons]
  refine ⟨?separator, ?chaining, ?pipe, ?background, ?substitution, ?backtick, ?output, ?input,
    ?lineBreak, by simp⟩
  case separator => exact (forbids_iff_found rfl).trans Pattern.found_single
  case chaining => exact (forbids_iff_found rfl).trans Pattern.found_pair
  case pipe => exact (forbids_iff_found rfl).trans Pattern.found_single
  case background => exact (forbids_iff_found rfl).trans found_background
  case substitution => exact (forbids_iff_found rfl).trans Pattern.found_pair
  case backtick => exact (forbids_iff_found rfl).trans Pattern.found_single
  case output => exact (forbids_iff_found rfl).trans Pattern.found_single
  case input => exact (forbids_iff_found rfl).trans Pattern.found_single
  case lineBreak =>
    refine (forbids_iff_found (p := .one (.union (.single '\r') (.single '\n'))) rfl).trans ?_
    simp only [Pattern.found_one, CharSet.has, Bool.or_eq_true, Pattern.single_has_iff, and_or_left,
      exists_or, exists_eq_right, HasConstruct]

theorem check_standard_iff {g : Safeguard} {name value : String}
    (compiled : Safeguard.compile standard = .ok g) :
    g.check name value = .ok () ↔ Harmless value.toList := by
  rw [Safeguard.check_eq_ok_iff_forbids compiled, harmless_iff]
  exact forall₂_congr fun rule listed => not_congr (forbids_standard_iff rule listed)

/-- A value passes the standard rules exactly if it is harmless; if it is not, the first rule whose
construct it has is named. -/
theorem standard_exact : ∃ g, Safeguard.compile standard = .ok g ∧ ∀ name value : String,
    (g.check name value = .ok () ↔ Harmless value.toList) ∧
    (¬ Harmless value.toList → ∃ before rule after, standard.rules = before ++ rule :: after ∧
      HasConstruct rule.id value.toList ∧
      (∀ earlier ∈ before, ¬ HasConstruct earlier.id value.toList) ∧
      g.check name value = .error (.unsafeValue name rule.id rule.description)) := by
  obtain ⟨g, compiled⟩ := Safeguard.exists_compile_standard
  refine ⟨g, compiled, fun name value => ⟨check_standard_iff compiled, fun harmful => ?_⟩⟩
  rcases Safeguard.check_cases compiled name value with
    ⟨accepted, _⟩ | ⟨before, rule, after, cut, forbids, first, refused⟩
  · exact absurd ((check_standard_iff compiled).1 accepted) harmful
  · have cut : standard.rules = before ++ rule :: after := cut
    refine ⟨before, rule, after, cut, ?_, fun earlier within present => ?_, refused⟩
    · exact (forbids_standard_iff rule (by simp [cut])).1 forbids
    · exact first earlier within ((forbids_standard_iff earlier (by simp [cut, within])).2 present)

theorem alone_append_right {before after more : List Char} (h : after ≠ []) :
    Alone before (after ++ more) ↔ Alone before after := by
  rw [Alone, List.head?_append_of_ne_nil _ h, Alone]

theorem alone_append_left {before after more : List Char} (h : before ≠ []) :
    Alone (more ++ before) after ↔ Alone before after := by
  rw [Alone, List.getLast?_append_of_ne_nil _ h, Alone]

theorem pair_infix_cons {a b x : Char} {cs : List Char} :
    [a, b] <:+: x :: cs ↔ x = a ∧ cs.head? = some b ∨ [a, b] <:+: cs := by
  have here : [a, b] <+: x :: cs ↔ x = a ∧ cs.head? = some b := by
    cases cs <;> simp [List.cons_prefix_cons, eq_comm]
  rw [List.infix_cons_iff, here]

theorem pair_infix_append {a b : Char} {u v : List Char} :
    [a, b] <:+: u ++ v ↔
      [a, b] <:+: u ∨ [a, b] <:+: v ∨ u.getLast? = some a ∧ v.head? = some b := by
  induction u with
  | nil => simp
  | cons x u ih =>
    rw [List.cons_append, pair_infix_cons, ih, pair_infix_cons]
    cases u with
    | nil => simp [or_comm]
    | cons y u => simp [or_assoc]

theorem pair_infix_ampersand {a b : Char} {u v : List Char} :
    [a, b] <:+: u ++ '&' :: v ↔ [a, b] <:+: u ∨ [a, b] <:+: v ∨
      u.getLast? = some a ∧ '&' = b ∨ '&' = a ∧ v.head? = some b := by
  rw [pair_infix_append, pair_infix_cons, List.head?_cons, Option.some_inj]
  tauto

theorem loneAmpersand_iff {u v : List Char} (notLast : u.getLast? ≠ some '&')
    (notFirst : v.head? ≠ some '&') :
    LoneAmpersand (u ++ '&' :: v) ↔ LoneAmpersand u ∨ LoneAmpersand v ∨ Alone u v := by
  have insideLeft (before after : List Char) (cut : u = before ++ '&' :: after) :
      Alone before (after ++ '&' :: v) ↔ Alone before after := by
    refine alone_append_right ?_
    rintro rfl
    simp [cut] at notLast
  have insideRight (before after : List Char) (cut : v = before ++ '&' :: after) :
      Alone (u ++ '&' :: before) after ↔ Alone before after := by
    rw [List.append_cons]
    refine alone_append_left ?_
    rintro rfl
    simp [cut] at notFirst
  constructor
  · rintro ⟨before, after, whole, alone⟩
    rcases List.append_eq_append_iff.1 whole with ⟨w, rfl, cut⟩ | ⟨w, left, cut⟩
    · rcases List.cons_eq_append_iff.1 cut with ⟨rfl, same⟩ | ⟨w, rfl, right⟩
      · cases same
        exact .inr (.inr (by simpa using alone))
      · exact .inr (.inl ⟨w, after, right, (insideRight w after right).1 alone⟩)
    · rcases List.cons_eq_append_iff.1 cut with ⟨rfl, same⟩ | ⟨w, rfl, rfl⟩
      · cases same
        exact .inr (.inr (by simpa [left] using alone))
      · exact .inl ⟨before, w, left, (insideLeft before w left).1 alone⟩
  · rintro (⟨before, after, cut, alone⟩ | ⟨before, after, cut, alone⟩ | alone)
    · exact ⟨before, after ++ '&' :: v, by simp [cut], (insideLeft before after cut).2 alone⟩
    · exact ⟨u ++ '&' :: before, after, by simp [cut], (insideRight before after cut).2 alone⟩
    · exact ⟨u, v, rfl, alone⟩

theorem harmless_ampersand_iff {u v : List Char} :
    Harmless (u ++ '&' :: v) ↔
      Harmless u ∧ Harmless v ∧ u.getLast? ≠ some '&' ∧ v.head? ≠ some '&' ∧ ¬ Alone u v := by
  constructor
  · intro h
    have chaining : ¬ ['&', '&'] <:+: u ∧ ¬ ['&', '&'] <:+: v ∧ u.getLast? ≠ some '&' ∧
        v.head? ≠ some '&' := by
      simpa [pair_infix_ampersand] using h.noChaining
    obtain ⟨chainingLeft, chainingRight, notLast, notFirst⟩ := chaining
    have substitution : ¬ ['$', '('] <:+: u ∧ ¬ ['$', '('] <:+: v := by
      simpa [pair_infix_ampersand] using h.noSubstitution
    have background : ¬ LoneAmpersand u ∧ ¬ LoneAmpersand v ∧ ¬ Alone u v := by
      simpa [loneAmpersand_iff notLast notFirst] using h.noBackground
    refine ⟨⟨?_, chainingLeft, substitution.1, background.1⟩,
      ⟨?_, chainingRight, substitution.2, background.2.1⟩, notLast, notFirst, background.2.2⟩
    · exact fun c member => h.noControl c (by simp [member])
    · exact fun c member => h.noControl c (by simp [member])
  · rintro ⟨left, right, notLast, notFirst, together⟩
    constructor
    · intro c member
      rcases List.mem_append.1 member with inLeft | sign | ⟨_, inRight⟩
      · exact left.noControl c inLeft
      · decide
      · exact right.noControl c inRight
    · simp [pair_infix_ampersand, left.noChaining, right.noChaining, notLast, notFirst]
    · simp [pair_infix_ampersand, left.noSubstitution, right.noSubstitution]
    · simp [loneAmpersand_iff notLast notFirst, left.noBackground, right.noBackground, together]

def InsideWord (before after : List Char) : Prop :=
  (∃ c ∈ before.getLast?, Text.isBlank c = false) ∧ ∃ c ∈ after.head?, Text.isBlank c = false

def AtBorder (before after : List Char) : Prop :=
  ¬ Alone before after ∧ ¬ InsideWord before after

theorem InsideWord.not_alone {before after : List Char} (h : InsideWord before after) :
    ¬ Alone before after := by
  obtain ⟨⟨c, last, visible⟩, _⟩ := h
  intro alone
  rw [alone.1 c last] at visible
  cases visible

/-- An ampersand next to no other one, between parts that are accepted, is accepted unless it is
alone. So the accepted ones stand inside a word, but for those at the border of one. -/
theorem check_ampersand {g : Safeguard} (compiled : Safeguard.compile standard = .ok g)
    (name before after : String) :
    (g.check name (before ++ "&" ++ after) = .ok () ↔
      g.check name before = .ok () ∧ g.check name after = .ok () ∧
      before.toList.getLast? ≠ some '&' ∧ after.toList.head? ≠ some '&' ∧
      ¬ Alone before.toList after.toList) ∧
    ((g.check name (before ++ "&" ++ after) = .ok () → InsideWord before.toList after.toList) ↔
      ¬ (g.check name before = .ok () ∧ g.check name after = .ok () ∧
        before.toList.getLast? ≠ some '&' ∧ after.toList.head? ≠ some '&' ∧
        AtBorder before.toList after.toList)) := by
  have whole : (before ++ "&" ++ after).toList = before.toList ++ '&' :: after.toList := by simp
  have accepted : g.check name (before ++ "&" ++ after) = .ok () ↔
      g.check name before = .ok () ∧ g.check name after = .ok () ∧
      before.toList.getLast? ≠ some '&' ∧ after.toList.head? ≠ some '&' ∧
      ¬ Alone before.toList after.toList := by
    rw [check_standard_iff compiled, check_standard_iff compiled, check_standard_iff compiled,
      whole, harmless_ampersand_iff]
  refine ⟨accepted, ?_⟩
  constructor
  · rintro inside ⟨left, right, notLast, notFirst, together, outside⟩
    exact outside (inside (accepted.2 ⟨left, right, notLast, notFirst, together⟩))
  · intro notAtBorder passed
    obtain ⟨left, right, notLast, notFirst, together⟩ := accepted.1 passed
    by_contra outside
    exact notAtBorder ⟨left, right, notLast, notFirst, together, outside⟩

theorem check_ampersand_query : ∃ g, Safeguard.compile standard = .ok g ∧
    g.check "value" ("https://host/path?a=1" ++ "&" ++ "b=2") = .ok () := by
  have ran : (Safeguard.compile standard >>= fun g => do
      g.check "value" "https://host/path?a=1"
      g.check "value" "b=2"
      return g).toOption.isSome = true := by
    decide +kernel
  obtain ⟨g, given⟩ := Option.isSome_iff_exists.1 ran
  obtain ⟨g, compiled, checked⟩ := Outcome.bind_eq_ok.1 (Outcome.toOption_eq_some.1 given)
  obtain ⟨_, left, checked⟩ := Outcome.bind_eq_ok.1 checked
  obtain ⟨_, right, _⟩ := Outcome.bind_eq_ok.1 checked
  have inside : InsideWord "https://host/path?a=1".toList "b=2".toList :=
    ⟨⟨'1', by decide, by decide⟩, 'b', by decide, by decide⟩
  exact ⟨g, compiled, (check_ampersand compiled "value" _ _).1.2
    ⟨left, right, by decide, by decide, inside.not_alone⟩⟩

/-- A command with an ampersand behind it is accepted. -/
theorem check_trailing_ampersand :
    ¬ ∀ (g : Safeguard) (name value : String) (before after : List Char),
      Safeguard.compile standard = .ok g → g.check name value = .ok () →
      value.toList = before ++ '&' :: after → InsideWord before after := by
  intro inside
  have ran : (Safeguard.compile standard >>= fun g => g.check "value" "sleep 10&").toOption =
      some () := by
    decide +kernel
  obtain ⟨g, compiled, accepted⟩ := Outcome.bind_eq_ok.1 (Outcome.toOption_eq_some.1 ran)
  obtain ⟨_, c, member, _⟩ := inside g "value" "sleep 10&" "sleep 10".toList [] compiled accepted
    (by decide)
  cases member

end ScopedCommands.RuleSet
