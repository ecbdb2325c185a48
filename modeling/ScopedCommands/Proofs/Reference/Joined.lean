import Mathlib.Algebra.Group.Nat.Even
import Mathlib.Data.List.DropRight
import ScopedCommands.Proofs.Reference.Grammar

/-!
One text after another. No item reaches over the place where two texts meet that can each be read,
but for a percent sign in the last place of the first: with a brace behind it, it opens a reference
that neither text has. Where the texts do not meet like that, the items of both together are the items
of the whole, further along by the length of the first.
-/
namespace ScopedCommands.Reference

def Readable (raw : String) : Prop := ∃ segments, parse raw = .ok segments

instance (raw : String) : Decidable (Readable raw) :=
  match read : parse raw with
  | .ok segments => .isTrue ⟨segments, read⟩
  | .error _ => .isFalse fun ⟨_, given⟩ => nomatch read.symm.trans given

def lastBackslashes (cs : List Char) : Nat := (cs.rtakeWhile (· == '\\')).length

/-- Two texts that open a reference where they meet: the first one ends with a percent sign that is
not escaped, and the second one begins with a brace. -/
structure SeamAt (left right : List Char) : Prop where
  percent : left.getLast? = some '%'
  unescaped : Even (lastBackslashes left.dropLast)
  brace : right.head? = some '{'

def Seam (a b : String) : Prop := SeamAt a.toList b.toList

instance (a b : String) : Decidable (Seam a b) :=
  decidable_of_iff (a.toList.getLast? = some '%' ∧ Even (lastBackslashes a.toList.dropLast) ∧
      b.toList.head? = some '{')
    ⟨fun h => ⟨h.1, h.2.1, h.2.2⟩, fun h => ⟨h.percent, h.unescaped, h.brace⟩⟩

theorem lastBackslashes_concat (cs : List Char) (c : Char) :
    lastBackslashes (cs ++ [c]) = if c = '\\' then lastBackslashes cs + 1 else 0 := by
  unfold lastBackslashes
  rw [List.rtakeWhile_concat]
  split
  next same => rw [if_pos (beq_iff_eq.1 same), List.length_append, List.length_singleton]
  next other => rw [if_neg (fun same => other (beq_iff_eq.2 same)), List.length_nil]

variable {before text rest more : List Char} {item : Item} {items others : List Item}

/-- After an item backslashes come in pairs. -/
theorem Begins.even (h : Begins before text item rest) (even : Even (lastBackslashes before)) :
    Even (lastBackslashes (before ++ item.written)) := by
  cases h with
  | @escaped c _ escapable =>
    rw [Item.written, List.append_cons, lastBackslashes_concat, lastBackslashes_concat, if_pos rfl]
    rcases escapable with rfl | rfl
    · exact Even.zero
    · exact Nat.even_add_one.2 (fun odd => Nat.even_add_one.1 odd even)
  | @reference name _ _ _ =>
    have last : before ++ Item.written (.reference name (byteSize before)) =
        (before ++ '%' :: '{' :: name) ++ ['}'] := by simp [Item.written]
    rw [last, lastBackslashes_concat]
    exact Even.zero
  | plain _ unescaped _ =>
    rw [Item.written, lastBackslashes_concat, if_neg unescaped]
    exact Even.zero

theorem Begins.append (h : Begins before text item rest) (even : Even (lastBackslashes before))
    (clear : ¬ SeamAt (before ++ text) more) : Begins before (text ++ more) item (rest ++ more) := by
  cases h with
  | escaped _ escapable => exact .escaped _ escapable
  | @reference name _ nonempty word =>
    rw [List.cons_append, List.cons_append, List.append_assoc]
    exact .reference _ nonempty word
  | @plain c _ unescaped unopened =>
    refine .plain _ unescaped fun opened => ?_
    obtain ⟨rfl, brace⟩ := opened
    cases rest with
    | nil => exact clear ⟨by simp, by simpa using even, brace⟩
    | cons d rest => exact unopened ⟨rfl, brace⟩

theorem Spells.append (h : Spells before text items []) (even : Even (lastBackslashes before))
    (clear : ¬ SeamAt (before ++ text) more) (later : Spells (before ++ text) more others rest) :
    Spells before (text ++ more) (items ++ others) rest := by
  generalize none : ([] : List Char) = tail at h
  induction h with
  | stop before tail =>
    subst none
    rwa [List.append_nil] at later
  | @item before text middle tail first items here _ ih =>
    have whole : before ++ text = before ++ first.written ++ middle := by
      rw [here.text_eq, List.append_assoc]
    rw [whole] at later
    refine .item (here.append even clear) (ih (here.even even) ?_ later none)
    rwa [← whole]

def Item.sign : Item → Char ⊕ String
  | .escaped c => .inl c
  | .plain c => .inl c
  | .reference name _ => .inr (String.ofList name)

theorem Begins.elsewhere (h : Begins before text item rest) (other : List Char) :
    ∃ moved, Begins other text moved rest ∧ moved.sign = item.sign := by
  cases h with
  | escaped _ escapable => exact ⟨_, .escaped rest escapable, rfl⟩
  | reference _ nonempty word => exact ⟨_, .reference rest nonempty word, rfl⟩
  | plain _ unescaped unopened => exact ⟨_, .plain rest unescaped unopened, rfl⟩

theorem Spells.elsewhere (h : Spells before text items rest) (other : List Char) :
    ∃ moved, Spells other text moved rest ∧ moved.map Item.sign = items.map Item.sign := by
  induction h generalizing other with
  | stop _ rest => exact ⟨[], .stop other rest, rfl⟩
  | item here _ ih =>
    obtain ⟨first, begins, same⟩ := here.elsewhere other
    obtain ⟨moved, later, others⟩ := ih (other ++ first.written)
    refine ⟨first :: moved, .item begins later, ?_⟩
    rw [List.map_cons, same, others, List.map_cons]

theorem readable_iff {raw : String} : Readable raw ↔ ∃ items, Spells [] raw.toList items [] := by
  constructor
  · rintro ⟨segments, read⟩
    obtain ⟨items, spelled, _⟩ := parse_eq_ok_iff_spells.1 read
    exact ⟨items, spelled⟩
  · rintro ⟨items, spelled⟩
    exact ⟨merge items, parse_eq_ok_iff_spells.2 ⟨items, spelled, merges_merge items⟩⟩

theorem spells_append {a b : String} (clear : ¬ Seam a b) (h : Spells [] a.toList items [])
    (k : Spells [] b.toList others []) :
    ∃ all, Spells [] (a ++ b).toList all [] ∧
      all.map Item.sign = items.map Item.sign ++ others.map Item.sign := by
  obtain ⟨moved, later, same⟩ := k.elsewhere a.toList
  refine ⟨items ++ moved, ?_, by rw [List.map_append, same]⟩
  rw [String.toList_append]
  exact h.append Even.zero clear later

end ScopedCommands.Reference
