import Mathlib.Data.List.Basic
import ScopedCommands.Proofs.Text.Quoting
import ScopedCommands.Report.Basic

namespace ScopedCommands.Report

def IsBare (arg : String) : Prop := arg ≠ "" ∧ ∀ c ∈ arg.toList, Text.isBlank c = false

instance (arg : String) : Decidable (IsBare arg) :=
  @instDecidableAnd _ _ _ (List.decidableBAll (Text.isBlank · = false) arg.toList)

theorem shownArgument_of_bare {arg : String} (bare : IsBare arg) : shownArgument arg = arg := by
  have quoted : ¬ (arg = "" ∨ arg.toList.any Text.isBlank = true) := by
    rintro (rfl | blank)
    · exact bare.1 rfl
    · obtain ⟨c, member, blank⟩ := List.any_eq_true.1 blank
      rw [bare.2 c member] at blank
      cases blank
  rw [shownArgument, if_neg quoted]

theorem shownArgument_of_not_bare {arg : String} (quoted : ¬ IsBare arg) :
    shownArgument arg = Text.quote arg := by
  have blank : arg = "" ∨ arg.toList.any Text.isBlank = true := by
    by_cases empty : arg = ""
    · exact .inl empty
    · right
      have blank : ¬ ∀ c ∈ arg.toList, Text.isBlank c = false := fun none => quoted ⟨empty, none⟩
      push Not at blank
      obtain ⟨c, member, blank⟩ := blank
      exact List.any_eq_true.2 ⟨c, member, by simpa using blank⟩
  rw [shownArgument, if_pos blank]

def words (arg : String) : List (List Char) := (shownArgument arg).toList.splitOn ' '

def asWords (arg : String) : List String := (words arg).map String.ofList

def spaced (ws : List (List Char)) : List Char := ws.flatMap (' ' :: ·)

theorem spaced_append (v w : List (List Char)) : spaced (v ++ w) = spaced v ++ spaced w :=
  List.flatMap_append

theorem spaced_eq_intercalate {ws : List (List Char)} (some_ : ws ≠ []) :
    spaced ws = ' ' :: [' '].intercalate ws := by
  induction ws with
  | nil => exact absurd rfl some_
  | cons w ws ih =>
    cases ws with
    | nil => simp [spaced]
    | cons v ws =>
      rw [spaced, List.flatMap_cons, ← spaced, ih (List.cons_ne_nil v ws),
        List.intercalate_cons_cons]
      simp

theorem spaced_inj {v w : List (List Char)} (whole : ∀ l ∈ v, ' ' ∉ l) (whole' : ∀ l ∈ w, ' ' ∉ l)
    (same : spaced v = spaced w) : v = w := by
  by_cases left : v = []
  · by_cases right : w = []
    · rw [left, right]
    · rw [left, spaced_eq_intercalate right] at same
      cases same
  · by_cases right : w = []
    · rw [right, spaced_eq_intercalate left] at same
      cases same
    · rw [spaced_eq_intercalate left, spaced_eq_intercalate right] at same
      have joined := congrArg (List.splitOn ' ') (List.cons.inj same).2
      rwa [List.splitOn_intercalate ' ' whole left, List.splitOn_intercalate ' ' whole' right]
        at joined

theorem spaced_words (arg : String) : spaced (words arg) = ' ' :: (shownArgument arg).toList := by
  rw [words, spaced_eq_intercalate (List.splitOn_ne_nil ' ' _), List.intercalate_splitOn]

theorem not_mem_of_mem_splitOn {c : Char} {cs w : List Char} (member : w ∈ cs.splitOn c) :
    c ∉ w := by
  induction cs generalizing w with
  | nil =>
    rw [List.splitOn_nil, List.mem_singleton] at member
    rw [member]
    exact List.not_mem_nil
  | cons d cs ih =>
    rw [List.splitOn_cons_eq_if_modifyHead] at member
    split_ifs at member with cut
    · rcases List.mem_cons.1 member with rfl | rest
      · exact List.not_mem_nil
      · exact ih rest
    · obtain ⟨first, rest, eq⟩ := List.exists_cons_of_ne_nil (List.splitOn_ne_nil c cs)
      rw [eq, List.modifyHead_cons] at member
      rcases List.mem_cons.1 member with rfl | rest
      · simp only [List.mem_cons, not_or]
        exact ⟨fun same => cut (beq_iff_eq.2 same.symm), ih (eq ▸ List.mem_cons_self)⟩
      · exact ih (eq ▸ List.mem_cons_of_mem _ rest)

theorem space_not_mem_words {args : List String} : ∀ w ∈ args.flatMap words, ' ' ∉ w := by
  intro w member
  obtain ⟨_, _, word⟩ := List.mem_flatMap.1 member
  exact not_mem_of_mem_splitOn word

theorem words_bare {arg : String} (bare : IsBare arg) : words arg = [arg.toList] := by
  rw [words, shownArgument_of_bare bare]
  refine List.splitOn_eq_singleton fun space => ?_
  have := bare.2 ' ' space
  cases this

/-- Quoted arguments are read back, whatever follows. -/
theorem words_quoted_inj {a b : String} {v w : List (List Char)} (first : ¬ IsBare a)
    (second : ¬ IsBare b) (same : words a ++ v = words b ++ w) : a = b := by
  have lines := congrArg spaced same
  rw [spaced_append, spaced_append, spaced_words, spaced_words, shownArgument_of_not_bare first,
    shownArgument_of_not_bare second] at lines
  exact (Text.quote_append_inj (List.cons.inj lines).2).1

theorem words_ne_nil (arg : String) : words arg ≠ [] := List.splitOn_ne_nil ' ' _

theorem words_quoted {arg : String} (quoted : ¬ IsBare arg) :
    ∃ first rest, words arg = ('"' :: first) :: rest := by
  obtain ⟨first, rest, eq⟩ := List.exists_cons_of_ne_nil
    (List.splitOn_ne_nil ' ' (arg.toList.flatMap (Text.escapeChar '"') ++ ['"']))
  refine ⟨first, rest, ?_⟩
  rw [words, shownArgument_of_not_bare quoted, Text.toList_quote,
    List.splitOn_cons_eq_if_modifyHead, if_neg (by decide), eq, List.modifyHead_cons]

theorem isBare_of_mem_words {arg : String} {w : List Char} (quoted : ¬ IsBare arg)
    (member : w ∈ words arg) (some_ : w ≠ []) : IsBare (String.ofList w) := by
  constructor
  · intro empty
    have := congrArg String.toList empty
    rw [String.toList_ofList] at this
    exact some_ this
  · intro c inside
    rw [String.toList_ofList] at inside
    rw [Bool.eq_false_iff]
    intro blank
    have within : c ∈ spaced (words arg) :=
      List.mem_flatMap.2 ⟨w, member, List.mem_cons_of_mem _ inside⟩
    have space : c = ' ' := by
      rw [spaced_words, shownArgument_of_not_bare quoted] at within
      rcases List.mem_cons.1 within with space | mark
      · exact space
      · exact Text.blank_mem_quote mark blank
    subst space
    exact not_mem_of_mem_splitOn member inside

theorem toList_commandLine (cmd : String) (args : List String) :
    (commandLine cmd args).toList = cmd.toList ++ spaced (args.flatMap words) := by
  induction args generalizing cmd with
  | nil => simp [commandLine, spaced]
  | cons arg args ih =>
    have next : commandLine cmd (arg :: args) =
        commandLine (cmd ++ " " ++ shownArgument arg) args := rfl
    rw [next, ih, List.flatMap_cons, spaced_append, spaced_words]
    simp

theorem commandLine_eq_iff_words (cmd : String) (a b : List String) :
    commandLine cmd a = commandLine cmd b ↔ a.flatMap words = b.flatMap words := by
  rw [← String.toList_inj, toList_commandLine, toList_commandLine, List.append_cancel_left_eq]
  exact ⟨spaced_inj space_not_mem_words space_not_mem_words, congrArg spaced⟩

/-- The vectors agree up to an argument printed as it is, which is the first word of the quoted
argument that the other vector has in its place; what follows gives the same words. -/
def Mistaken (a b : List String) : Prop :=
  ∃ common bare more quoted others rest,
    a = common ++ bare :: more ∧ b = common ++ quoted :: others ∧
      IsBare bare ∧ ¬ IsBare quoted ∧
      words quoted = bare.toList :: rest ∧ more.flatMap words = rest ++ others.flatMap words

theorem Mistaken.ne {a b : List String} (h : Mistaken a b) : a ≠ b := by
  obtain ⟨common, bare, more, quoted, others, rest, rfl, rfl, isBare, isQuoted, -⟩ := h
  intro same
  have place := List.append_cancel_left same
  obtain ⟨rfl, -⟩ := List.cons.inj place
  exact isQuoted isBare

theorem Mistaken.words_eq {a b : List String} (h : Mistaken a b) :
    a.flatMap words = b.flatMap words := by
  obtain ⟨common, bare, more, quoted, others, rest, rfl, rfl, isBare, -, first, after⟩ := h
  simp only [List.flatMap_append, List.flatMap_cons, words_bare isBare, first, after,
    List.cons_append, List.nil_append]

theorem Mistaken.cons {a b : List String} (arg : String) (h : Mistaken a b) :
    Mistaken (arg :: a) (arg :: b) := by
  obtain ⟨common, bare, more, quoted, others, rest, rfl, rfl, told⟩ := h
  exact ⟨arg :: common, bare, more, quoted, others, rest, rfl, rfl, told⟩

theorem Mistaken.head {x y : String} {a b : List String} (bare : IsBare x) (quoted : ¬ IsBare y)
    (same : (x :: a).flatMap words = (y :: b).flatMap words) : Mistaken (x :: a) (y :: b) := by
  obtain ⟨first, rest, eq⟩ := List.exists_cons_of_ne_nil (words_ne_nil y)
  rw [List.flatMap_cons, List.flatMap_cons, words_bare bare, eq] at same
  obtain ⟨rfl, after⟩ := List.cons.inj same
  exact ⟨[], x, a, y, b, rest, rfl, rfl, bare, quoted, eq, after⟩

theorem eq_or_mistaken {a b : List String} (same : a.flatMap words = b.flatMap words) :
    a = b ∨ Mistaken a b ∨ Mistaken b a := by
  have nonempty (x : String) (xs : List String) : (x :: xs).flatMap words ≠ [] := by
    rw [List.flatMap_cons]
    exact List.append_ne_nil_of_left_ne_nil (words_ne_nil x) _
  induction a generalizing b with
  | nil =>
    cases b with
    | nil => exact .inl rfl
    | cons y b => exact absurd same.symm (nonempty y b)
  | cons x a ih =>
    cases b with
    | nil => exact absurd same (nonempty x a)
    | cons y b =>
      by_cases heads : x = y
      · subst heads
        rw [List.flatMap_cons, List.flatMap_cons] at same
        rcases ih (List.append_cancel_left same) with rfl | left | right
        · exact .inl rfl
        · exact .inr (.inl (left.cons x))
        · exact .inr (.inr (right.cons x))
      -- the vectors part here: two arguments of one kind would be the same
      · by_cases first : IsBare x <;> by_cases second : IsBare y
        · rw [List.flatMap_cons, List.flatMap_cons, words_bare first, words_bare second] at same
          exact absurd (String.toList_inj.1 (List.cons.inj same).1) heads
        · exact .inr (.inl (.head first second same))
        · exact .inr (.inr (.head second first same.symm))
        · rw [List.flatMap_cons, List.flatMap_cons] at same
          exact absurd (words_quoted_inj first second same) heads

def Unmarked (args : List String) : Prop :=
  ∀ arg ∈ args, IsBare arg → arg.toList.head? ≠ some '"'

instance (args : List String) : Decidable (Unmarked args) := List.decidableBAll _ args

theorem Mistaken.marked {a b : List String} (h : Mistaken a b) : ¬ Unmarked a := by
  obtain ⟨common, bare, more, quoted, others, rest, rfl, rfl, isBare, isQuoted, first, -⟩ := h
  intro unmarked
  obtain ⟨after, words', eq⟩ := words_quoted isQuoted
  rw [eq] at first
  refine unmarked bare (List.mem_append_right _ List.mem_cons_self) isBare ?_
  rw [← (List.cons.inj first).1, List.head?_cons]

/-- A quoted argument is mistaken for its words, unless one of them is empty. -/
theorem mistaken_words (common others : List String) {quoted : String} (isQuoted : ¬ IsBare quoted)
    (whole : [] ∉ words quoted) :
    Mistaken (common ++ (asWords quoted ++ others)) (common ++ quoted :: others) := by
  have bare : ∀ w ∈ words quoted, IsBare (String.ofList w) := fun w member =>
    isBare_of_mem_words isQuoted member (ne_of_mem_of_not_mem member whole)
  obtain ⟨first, rest, eq⟩ := List.exists_cons_of_ne_nil (words_ne_nil quoted)
  rw [eq] at bare
  rw [asWords, eq]
  have again : (rest.map String.ofList).flatMap words = rest := by
    have each : ∀ w ∈ rest, words (String.ofList w) = [w] := fun w member => by
      rw [words_bare (bare w (List.mem_cons_of_mem _ member)), String.toList_ofList]
    rw [List.flatMap_map, List.flatMap_congr each, List.flatMap_singleton']
  refine ⟨common, String.ofList first, rest.map String.ofList ++ others, quoted, others, rest,
    rfl, rfl, bare first List.mem_cons_self, isQuoted, ?_, ?_⟩
  · rw [String.toList_ofList, eq]
  · rw [List.flatMap_append, again]

/-- Two vectors are printed alike exactly if they are the same or one is mistaken for the other,
which takes an argument that opens with a double quote and is printed as it is. Quoted arguments
have vectors that they are mistaken for. -/
theorem commandLine_told (cmd : String) :
    (∀ a b, commandLine cmd a = commandLine cmd b ↔ a = b ∨ Mistaken a b ∨ Mistaken b a) ∧
      (∀ a b, a ≠ b → Unmarked a → Unmarked b → commandLine cmd a ≠ commandLine cmd b) ∧
      ∀ common quoted others, ¬ IsBare quoted → [] ∉ words quoted →
        commandLine cmd (common ++ (asWords quoted ++ others)) =
            commandLine cmd (common ++ quoted :: others) ∧
          common ++ (asWords quoted ++ others) ≠ common ++ quoted :: others := by
  have told (a b : List String) :
      commandLine cmd a = commandLine cmd b ↔ a = b ∨ Mistaken a b ∨ Mistaken b a := by
    rw [commandLine_eq_iff_words]
    constructor
    · exact eq_or_mistaken
    · rintro (rfl | left | right)
      · rfl
      · exact left.words_eq
      · exact right.words_eq.symm
  refine ⟨told, ?_, ?_⟩
  · intro a b differ first second same
    rcases (told a b).1 same with eq | left | right
    · exact differ eq
    · exact left.marked first
    · exact right.marked second
  · intro common quoted others isQuoted whole
    have mistaken := mistaken_words common others isQuoted whole
    exact ⟨(told _ _).2 (.inr (.inl mistaken)), mistaken.ne⟩

/-- The argument `a b` is not taken for two arguments, but the arguments `"a` and `b"` are for it. -/
theorem commandLine_told_echo :
    commandLine "echo" ["-n", "a b"] ≠ commandLine "echo" ["-n", "a", "b"] ∧
      commandLine "echo" ["-n", "\"a", "b\""] = commandLine "echo" ["-n", "a b"] :=
  ⟨(commandLine_told "echo").2.1 ["-n", "a b"] ["-n", "a", "b"] (by decide) (by decide)
      (by decide),
    ((commandLine_told "echo").2.2 ["-n"] "a b" [] (by decide) (by decide)).1⟩

/-- The empty argument is printed as the argument `""` is. -/
theorem commandLine_not_injective :
    ¬ ∀ (cmd : String) (a b : List String), a ≠ b → commandLine cmd a ≠ commandLine cmd b := by
  intro told
  exact told "echo" [""] ["\"\""] (by decide) (by decide)

end ScopedCommands.Report
