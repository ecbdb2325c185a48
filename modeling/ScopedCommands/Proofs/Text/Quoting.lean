import Mathlib.Data.List.Basic
import ScopedCommands.Text.Basic
import ScopedCommands.Text.Quoted

/-!
Quoted texts read back. No character is written as the beginning of what another one is written as,
and the closing mark is not written for any, so the quoted form of a text ends where it says. Of all
white space only the space is written as it is.
-/
namespace ScopedCommands.Text

theorem forall_mem_hexText {P : Char → Prop} (digits : ∀ d < 16, P (Nat.digitChar d)) (n : Nat) :
    ∀ c ∈ hexText n, P c := by
  induction n using Nat.strongRecOn with
  | _ n ih =>
    unfold hexText at ih ⊢
    rcases Nat.lt_or_ge n 16 with small | large
    · rw [Nat.toDigits_of_lt_base small]
      exact List.forall_mem_singleton.2 (digits n small)
    · rw [Nat.toDigits_of_base_le (by omega) large]
      refine List.forall_mem_append.2 ⟨ih (n / 16) (by omega), ?_⟩
      exact List.forall_mem_singleton.2 (digits (n % 16) (by omega))

theorem close_not_mem_hexText (n : Nat) : '}' ∉ hexText n := fun member =>
  forall_mem_hexText (P := (· ≠ '}')) (by decide) n _ member rfl

theorem digitChar_inj {d e : Nat} (first : d < 16) (second : e < 16)
    (same : d.digitChar = e.digitChar) : d = e := by
  have all : ∀ d < 16, ∀ e < 16, Nat.digitChar d = Nat.digitChar e → d = e := by decide
  exact all d first e second same

theorem hexText_ne_singleton {n : Nat} (large : 16 ≤ n) (c : Char) : hexText n ≠ [c] := by
  intro same
  rw [hexText, Nat.toDigits_of_base_le (by omega) large] at same
  have lengths := congrArg List.length same
  rw [List.length_append, List.length_singleton, List.length_singleton] at lengths
  have := Nat.length_toDigits_pos (b := 16) (n := n / 16)
  omega

theorem hexText_inj {m n : Nat} (same : hexText m = hexText n) : m = n := by
  induction m using Nat.strongRecOn generalizing n with
  | _ m ih =>
    have one {n : Nat} (small : n < 16) : hexText n = [n.digitChar] :=
      Nat.toDigits_of_lt_base small
    have more {n : Nat} (large : 16 ≤ n) : hexText n = hexText (n / 16) ++ [(n % 16).digitChar] :=
      Nat.toDigits_of_base_le (by omega) large
    rcases Nat.lt_or_ge m 16 with small | large
    · rcases Nat.lt_or_ge n 16 with small' | large'
      · rw [one small, one small'] at same
        exact digitChar_inj small small' (List.singleton_inj.1 same)
      · rw [one small] at same
        exact absurd same.symm (hexText_ne_singleton large' _)
    · rcases Nat.lt_or_ge n 16 with small' | large'
      · rw [one small'] at same
        exact absurd same (hexText_ne_singleton large _)
      · rw [more large, more large'] at same
        obtain ⟨front, last⟩ := List.append_inj' same rfl
        have quotient := ih (m / 16) (by omega) front
        have remainder := digitChar_inj (by omega) (by omega) (List.singleton_inj.1 last)
        omega

def escapes : List (Char × Char) :=
  [('\x00', '0'), ('\t', 't'), ('\n', 'n'), ('\r', 'r'), ('"', '"'), ('\\', '\\')]

inductive Written (c : Char) : List Char → Prop where
  | shown (unmarked : c ≠ '"') (unescaped : c ≠ '\\') (printable : isPrintable c = true) :
      Written c [c]
  | short {d : Char} (own : (c, d) ∈ escapes) : Written c ['\\', d]
  | long : Written c ('\\' :: 'u' :: '{' :: (hexText c.toNat ++ ['}']))

theorem written_escapeChar (c : Char) : Written c (escapeChar '"' c) := by
  unfold escapeChar
  split_ifs with zero tab newline return_ mark hidden
  · exact .short (by simp [escapes, zero])
  · exact .short (by simp [escapes, tab])
  · exact .short (by simp [escapes, newline])
  · exact .short (by simp [escapes, return_])
  · rcases mark with rfl | rfl <;> exact .short (by decide)
  · exact .long
  · simp only [not_or] at mark
    simp only [Bool.or_eq_true, Bool.not_eq_true', not_or, Bool.not_eq_false] at hidden
    exact .shown mark.1 mark.2 hidden.2

theorem escapes_inj {c d e : Char} (first : (c, e) ∈ escapes) (second : (d, e) ∈ escapes) :
    c = d := by
  have all : ∀ p ∈ escapes, ∀ q ∈ escapes, p.2 = q.2 → p.1 = q.1 := by decide
  exact all (c, e) first (d, e) second rfl

theorem escapes_ne_u {c d : Char} (own : (c, d) ∈ escapes) : d ≠ 'u' := by
  have all : ∀ p ∈ escapes, p.2 ≠ 'u' := by decide
  exact all (c, d) own

variable {c d : Char} {v w s t : List Char}

theorem Written.head_ne (h : Written c w) : ∃ first rest, w = first :: rest ∧ first ≠ '"' := by
  cases h with
  | shown unmarked => exact ⟨c, [], rfl, unmarked⟩
  | short own => exact ⟨'\\', _, rfl, by decide⟩
  | long => exact ⟨'\\', _, rfl, by decide⟩

/-- What is written for a character tells it, whatever follows. -/
theorem Written.append_inj (first : Written c v) (second : Written d w)
    (same : v ++ s = w ++ t) : c = d ∧ s = t := by
  cases first with
  | shown _ unescaped =>
    cases second with
    | shown => exact List.cons.inj same
    | short | long => exact absurd (List.cons.inj same).1 unescaped
  | @short e own =>
    cases second with
    | shown _ unescaped => exact absurd (List.cons.inj same).1.symm unescaped
    | @short e' other =>
      obtain ⟨_, code⟩ := List.cons.inj same
      obtain ⟨rfl, rest⟩ := List.cons.inj code
      exact ⟨escapes_inj own other, rest⟩
    | long =>
      obtain ⟨_, code⟩ := List.cons.inj same
      exact absurd (List.cons.inj code).1 (escapes_ne_u own)
  | long =>
    cases second with
    | shown _ unescaped => exact absurd (List.cons.inj same).1.symm unescaped
    | short other =>
      obtain ⟨_, code⟩ := List.cons.inj same
      exact absurd (List.cons.inj code).1.symm (escapes_ne_u other)
    | long =>
      simp only [List.cons_append, List.append_assoc, List.nil_append, List.cons.injEq,
        true_and] at same
      have closes (n : Nat) (rest : List Char) :
          untilClose (hexText n ++ '}' :: rest) = some (hexText n, rest) :=
        untilClose_append rest (close_not_mem_hexText n)
      have read := congrArg untilClose same
      rw [closes, closes] at read
      obtain ⟨digits, rest⟩ := Prod.mk.inj (Option.some.inj read)
      exact ⟨Char.toNat_inj.1 (hexText_inj digits), rest⟩

theorem isPrintable_of_inside {low high : Nat} (range : (low, high) ∈ unprintableRanges)
    (inside : low ≤ c.toNat ∧ c.toNat ≤ high) (above : 0x7F ≤ low) : isPrintable c = false := by
  have hidden : inRanges unprintableRanges c = true :=
    List.any_eq_true.2 ⟨(low, high), range, by simp [inside]⟩
  rw [isPrintable, if_neg (by omega), hidden]
  rfl

theorem isPrintable_blank (blank : isBlank c = true) (printable : isPrintable c = true) :
    c = ' ' := by
  have listed : (0x7F, 0xA0) ∈ unprintableRanges ∧ (0x1680, 0x1680) ∈ unprintableRanges ∧
      (0x1FFF, 0x200F) ∈ unprintableRanges ∧ (0x2028, 0x202F) ∈ unprintableRanges ∧
      (0x205F, 0x206F) ∈ unprintableRanges ∧ (0x3000, 0x3000) ∈ unprintableRanges := by
    decide +kernel
  obtain ⟨control, ogham, general, separators, mathematical, ideographic⟩ := listed
  have shown {low high : Nat} (range : (low, high) ∈ unprintableRanges) (above : 0x7F ≤ low) :
      ¬ (low ≤ c.toNat ∧ c.toNat ≤ high) := by
    intro inside
    rw [isPrintable_of_inside range inside above] at printable
    cases printable
  simp only [isBlank, Bool.or_eq_true, Bool.and_eq_true, decide_eq_true_eq, beq_iff_eq] at blank
  rcases blank with (((((((((ascii | space) | nextLine) | noBreak) | mark) | quads) | line) |
    paragraph) | narrow) | medium) | wide
  · rw [isPrintable, if_pos (by omega), decide_eq_true_eq] at printable
    omega
  · exact Char.toNat_inj.1 space
  · exact absurd (by omega) (shown control (by decide))
  · exact absurd (by omega) (shown control (by decide))
  · exact absurd (by omega) (shown ogham (by decide))
  · exact absurd (by omega) (shown general (by decide))
  · exact absurd (by omega) (shown separators (by decide))
  · exact absurd (by omega) (shown separators (by decide))
  · exact absurd (by omega) (shown separators (by decide))
  · exact absurd (by omega) (shown mathematical (by decide))
  · exact absurd (by omega) (shown ideographic (by decide))

theorem Written.blank (h : Written c w) : ∀ d ∈ w, isBlank d = true → d = ' ' := by
  cases h with
  | shown _ _ printable =>
    intro d member blank
    cases List.mem_singleton.1 member
    exact isPrintable_blank blank printable
  | @short e own =>
    have all : ∀ p ∈ escapes, isBlank p.2 = false := by decide
    intro d member blank
    simp only [List.mem_cons, List.not_mem_nil, or_false] at member
    rcases member with rfl | rfl
    · cases blank
    · rw [all (c, d) own] at blank
      cases blank
  | long =>
    have digits := forall_mem_hexText (P := (isBlank · = false)) (by decide) c.toNat
    intro d member blank
    simp only [List.mem_cons, List.mem_append, List.not_mem_nil, or_false] at member
    rcases member with rfl | rfl | rfl | digit | rfl
    · cases blank
    · cases blank
    · cases blank
    · rw [digits d digit] at blank
      cases blank
    · cases blank

theorem body_append_inj {cs ds s t : List Char}
    (same : cs.flatMap (escapeChar '"') ++ '"' :: s = ds.flatMap (escapeChar '"') ++ '"' :: t) :
    cs = ds ∧ s = t := by
  induction cs generalizing ds with
  | nil =>
    cases ds with
    | nil => exact ⟨rfl, (List.cons.inj same).2⟩
    | cons d ds =>
      obtain ⟨first, rest, eq, other⟩ := (written_escapeChar d).head_ne
      rw [List.flatMap_cons, eq] at same
      exact absurd (List.cons.inj same).1.symm other
  | cons c cs ih =>
    cases ds with
    | nil =>
      obtain ⟨first, rest, eq, other⟩ := (written_escapeChar c).head_ne
      rw [List.flatMap_cons, eq] at same
      exact absurd (List.cons.inj same).1 other
    | cons d ds =>
      rw [List.flatMap_cons, List.flatMap_cons, List.append_assoc, List.append_assoc] at same
      obtain ⟨rfl, rest⟩ := (written_escapeChar c).append_inj (written_escapeChar d) same
      obtain ⟨rfl, after⟩ := ih rest
      exact ⟨rfl, after⟩

theorem toList_quote (text : String) :
    (quote text).toList = '"' :: (text.toList.flatMap (escapeChar '"') ++ ['"']) := by
  rw [quote, String.toList_ofList, List.cons_append]

/-- A quoted text ends at its closing mark. -/
theorem quote_append_inj {a b : String} {s t : List Char}
    (same : (quote a).toList ++ s = (quote b).toList ++ t) : a = b ∧ s = t := by
  rw [toList_quote, toList_quote] at same
  simp only [List.cons_append, List.append_assoc, List.nil_append, List.cons.injEq,
    true_and] at same
  obtain ⟨texts, rest⟩ := body_append_inj same
  exact ⟨String.toList_inj.1 texts, rest⟩

theorem blank_mem_quote {text : String} {c : Char} (member : c ∈ (quote text).toList)
    (blank : isBlank c = true) : c = ' ' := by
  rw [toList_quote] at member
  simp only [List.mem_cons, List.mem_append, List.not_mem_nil, or_false] at member
  rcases member with rfl | inside | rfl
  · cases blank
  · obtain ⟨d, _, written⟩ := List.mem_flatMap.1 inside
    exact (written_escapeChar d).blank c written blank
  · cases blank

end ScopedCommands.Text
