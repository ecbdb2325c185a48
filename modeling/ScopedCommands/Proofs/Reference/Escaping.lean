import ScopedCommands.Proofs.Expansion.Unfolding
import ScopedCommands.Proofs.Reference.Grammar

namespace ScopedCommands

namespace Reference

def escapedItem (c : Char) : Item := if c = '%' ∨ c = '\\' then .escaped c else .plain c

theorem spells_escape (before cs rest : List Char) :
    Spells before ((cs.flatMap fun c => if c = '%' ∨ c = '\\' then ['\\', c] else [c]) ++ rest)
      (cs.map escapedItem) rest := by
  induction cs generalizing before with
  | nil => exact .stop before rest
  | cons c cs ih =>
    rw [List.flatMap_cons, List.map_cons, escapedItem]
    by_cases special : c = '%' ∨ c = '\\'
    · rw [if_pos special, if_pos special]
      exact .item (.escaped _ special) (ih _)
    · rw [if_neg special, if_neg special]
      rw [not_or] at special
      exact .item (.plain _ special.2 fun opened => special.1 opened.1) (ih _)

theorem mark_escapedItem (c : Char) : (escapedItem c).mark = .inl c := by
  unfold escapedItem
  split <;> rfl

theorem parse_escape (text : String) :
    parse (escape text) = .ok (if text = "" then [] else [.literal text]) := by
  have spelled := spells_escape [] text.toList []
  rw [List.append_nil] at spelled
  refine parse_eq_ok_iff_spells.2 ⟨_, by rwa [escape, String.toList_ofList], ?_⟩
  by_cases empty : text = ""
  · subst empty
    exact merges_merge []
  · rw [if_neg empty]
    refine ⟨?_, ?_⟩
    · simp [Segment.marks, mark_escapedItem]
    · apply Tidy.literal ⟨List.not_mem_nil, .nil⟩ empty
      intro first member
      cases member

end Reference

theorem expandIn_escape (ctx : Context) (lookup : Lookup) (text : String) :
    expandIn ctx lookup (Reference.escape text) = .ok text := by
  rw [expandIn_eq, Reference.parse_escape]
  by_cases empty : text = ""
  · subst empty
    rfl
  · rw [if_neg empty]
    exact congrArg Except.ok (String.append_empty)

end ScopedCommands
