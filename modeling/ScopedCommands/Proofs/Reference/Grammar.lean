import ScopedCommands.Proofs.Outcome
import ScopedCommands.Proofs.Reference.Segments

/-!
The grammar of raw texts, said without the scanner: which items a text may begin with, what a
sequence of items amounts to as segments, and what is wrong where no item begins. Reading follows
the items as far as they go, so a text is read exactly if it is a sequence of items, and the error
of any other text is that of the first place where none begins.
-/
namespace ScopedCommands.Reference

open Outcome

def Item.written : Item → List Char
  | .escaped c => ['\\', c]
  | .plain c => [c]
  | .reference name _ => '%' :: '{' :: (name ++ ['}'])

def byteSize (cs : List Char) : Nat := (String.ofList cs).utf8ByteSize

/-- A text that stands after `before` begins with the item, and `rest` follows. -/
inductive Begins (before : List Char) : List Char → Item → List Char → Prop where
  | escaped {c : Char} (rest : List Char) (escapable : c = '%' ∨ c = '\\') :
      Begins before ('\\' :: c :: rest) (.escaped c) rest
  | reference {name : List Char} (rest : List Char) (nonempty : name ≠ [])
      (word : ∀ c ∈ name, Name.isNameChar c = true) :
      Begins before ('%' :: '{' :: (name ++ '}' :: rest)) (.reference name (byteSize before)) rest
  | plain {c : Char} (rest : List Char) (unescaped : c ≠ '\\')
      (unopened : ¬ (c = '%' ∧ rest.head? = some '{')) :
      Begins before (c :: rest) (.plain c) rest

inductive Spells : List Char → List Char → List Item → List Char → Prop where
  | stop (before rest : List Char) : Spells before rest [] rest
  | item {before text middle rest : List Char} {first : Item} {items : List Item}
      (here : Begins before text first middle)
      (later : Spells (before ++ first.written) middle items rest) :
      Spells before text (first :: items) rest

/-- What is wrong at a place where no item begins. -/
inductive Flaw (position : Nat) : List Char → ReferenceError → Prop where
  | lastEscape : Flaw position ['\\'] (.badEscape "\\" position)
  | escape {c : Char} (rest : List Char) (other : ¬ (c = '%' ∨ c = '\\')) :
      Flaw position ('\\' :: c :: rest) (.badEscape (String.ofList ['\\', c]) position)
  | unclosed {rest : List Char} (never : '}' ∉ rest) :
      Flaw position ('%' :: '{' :: rest) (.unclosed (String.ofList ('%' :: '{' :: rest)))
  | emptyName (rest : List Char) :
      Flaw position ('%' :: '{' :: '}' :: rest) (.emptyName position)
  | badName {name : List Char} (rest : List Char) (first : '}' ∉ name) (nonempty : name ≠ [])
      (foreign : ∃ c ∈ name, Name.isNameChar c = false) :
      Flaw position ('%' :: '{' :: (name ++ '}' :: rest)) (.badName (String.ofList name) position)

theorem byteLength_eq (cs : List Char) : byteLength cs = byteSize cs := by
  induction cs with
  | nil => rfl
  | cons c rest ih =>
    have split : String.ofList (c :: rest) = String.singleton c ++ String.ofList rest := by
      rw [String.singleton_eq_ofList, ← String.ofList_append]
      rfl
    rw [byteLength, ih, byteSize, byteSize, split, String.utf8ByteSize_append,
      String.utf8ByteSize_singleton]

theorem byteLength_append (cs ds : List Char) :
    byteLength (cs ++ ds) = byteLength cs + byteLength ds := by
  simp only [byteLength_eq, byteSize, String.ofList_append, String.utf8ByteSize_append]

theorem not_mem_of_word {name : List Char} (word : ∀ c ∈ name, Name.isNameChar c = true) :
    '}' ∉ name := by
  intro member
  have allowed := word _ member
  revert allowed
  decide

theorem scan_closed (position : Nat) {name : List Char} (rest : List Char) (inside : '}' ∉ name) :
    scan position ('%' :: '{' :: (name ++ '}' :: rest)) =
      if name = [] then .error (.emptyName position)
      else if name.all Name.isNameChar then
        (scan (position + byteLength name + 3) rest).map (.reference name position :: ·)
      else .error (.badName (String.ofList name) position) := by
  have closed := Text.untilClose_append rest inside
  rw [scan]
  split
  next unclosed =>
    rw [closed] at unclosed
    cases unclosed
  next found =>
    rw [closed] at found
    cases found
    rfl

theorem Begins.scan_eq {before text rest : List Char} {item : Item}
    (h : Begins before text item rest) :
    scan (byteSize before) text =
      (scan (byteSize (before ++ item.written)) rest).map (item :: ·) := by
  simp only [← byteLength_eq, byteLength_append]
  cases h with
  | escaped _ escapable =>
    rw [scan, if_pos escapable]
    rcases escapable with rfl | rfl
    · rfl
    · rfl
  | @reference name _ nonempty word =>
    have size : byteLength (Item.written (.reference name (byteSize before))) =
        byteLength name + 3 := by
      simp only [Item.written, byteLength, byteLength_append]
      have brackets : '%'.utf8Size = 1 ∧ '{'.utf8Size = 1 ∧ '}'.utf8Size = 1 := ⟨rfl, rfl, rfl⟩
      omega
    rw [scan_closed _ _ (not_mem_of_word word), if_neg nonempty,
      if_pos (List.all_eq_true.2 word), size, byteLength_eq before, Nat.add_assoc]
  | plain _ unescaped unopened =>
    rw [scan]
    · rfl
    · exact fun same _ => unescaped same
    · exact fun _ _ same _ => unescaped same
    · rintro tail rfl rfl
      exact unopened ⟨rfl, rfl⟩

theorem Flaw.scan_eq {position : Nat} {text : List Char} {e : ReferenceError}
    (h : Flaw position text e) : scan position text = .error e := by
  cases h with
  | lastEscape => rw [scan]
  | escape _ other => rw [scan, if_neg other]
  | unclosed never =>
    have unclosed := Text.untilClose_eq_none_iff.2 never
    rw [scan]
    split
    next => rfl
    next found =>
      rw [unclosed] at found
      cases found
  | emptyName rest => exact scan_closed position rest List.not_mem_nil
  | badName rest first nonempty foreign =>
    obtain ⟨c, member, other⟩ := foreign
    rw [scan_closed position rest first, if_neg nonempty, if_neg]
    intro word
    rw [List.all_eq_true.1 word c member] at other
    cases other

theorem Begins.closes {before tail rest : List Char} {item : Item}
    (h : Begins before ('%' :: '{' :: tail) item rest) :
    ∃ name, Text.untilClose tail = some (name, rest) ∧ name ≠ [] ∧
      ∀ c ∈ name, Name.isNameChar c = true := by
  cases h with
  | @reference name _ nonempty word =>
    exact ⟨name, Text.untilClose_append rest (not_mem_of_word word), nonempty, word⟩
  | plain _ _ unopened => exact absurd ⟨rfl, rfl⟩ unopened

theorem Flaw.not_begins {position : Nat} {before text rest : List Char} {e : ReferenceError}
    {item : Item} (h : Flaw position text e) : ¬ Begins before text item rest := by
  intro begun
  cases h with
  | lastEscape =>
    cases begun with
    | plain _ unescaped _ => exact unescaped rfl
  | escape _ other =>
    cases begun with
    | escaped _ escapable => exact other escapable
    | plain _ unescaped _ => exact unescaped rfl
  | unclosed never =>
    obtain ⟨name, closed, _⟩ := begun.closes
    rw [Text.untilClose_eq_none_iff.2 never] at closed
    cases closed
  | emptyName after =>
    obtain ⟨name, closed, nonempty, _⟩ := begun.closes
    have first : Text.untilClose ('}' :: after) = some ([], after) := rfl
    rw [first] at closed
    cases closed
    exact nonempty rfl
  | badName after first _ foreign =>
    obtain ⟨name, closed, _, word⟩ := begun.closes
    rw [Text.untilClose_append after first] at closed
    cases closed
    obtain ⟨c, member, other⟩ := foreign
    rw [word c member] at other
    cases other

theorem Flaw.ne_nil {position : Nat} {text : List Char} {e : ReferenceError}
    (h : Flaw position text e) : text ≠ [] := by
  cases h <;> exact List.cons_ne_nil _ _

theorem begins_or_flaw (before text : List Char) (position : Nat) :
    text = [] ∨ (∃ item rest, Begins before text item rest) ∨ ∃ e, Flaw position text e := by
  rcases text with _ | ⟨c, rest⟩
  · exact .inl rfl
  refine .inr ?_
  by_cases escape : c = '\\'
  · subst escape
    rcases rest with _ | ⟨d, rest⟩
    · exact .inr ⟨_, .lastEscape⟩
    by_cases escapable : d = '%' ∨ d = '\\'
    · exact .inl ⟨_, rest, .escaped rest escapable⟩
    · exact .inr ⟨_, .escape rest escapable⟩
  by_cases opened : c = '%' ∧ rest.head? = some '{'
  · obtain ⟨rfl, head⟩ := opened
    obtain ⟨tail, rfl⟩ := List.head?_eq_some_iff.1 head
    cases closed : Text.untilClose tail with
    | none => exact .inr ⟨_, .unclosed (Text.untilClose_eq_none_iff.1 closed)⟩
    | some found =>
      obtain ⟨name, after⟩ := found
      obtain ⟨inside, rfl⟩ := Text.untilClose_eq_some_iff.1 closed
      by_cases empty : name = []
      · subst empty
        exact .inr ⟨_, .emptyName after⟩
      by_cases word : ∀ c ∈ name, Name.isNameChar c = true
      · exact .inl ⟨_, after, .reference after empty word⟩
      · refine .inr ⟨_, .badName after inside empty ?_⟩
        simpa using word
  · exact .inl ⟨_, rest, .plain rest escape opened⟩

theorem Begins.text_eq {before text rest : List Char} {item : Item}
    (h : Begins before text item rest) : text = item.written ++ rest := by
  cases h with
  | escaped => rfl
  | reference => simp [Item.written]
  | plain => rfl

theorem Item.written_ne_nil (item : Item) : item.written ≠ [] := by
  cases item <;> exact List.cons_ne_nil _ _

/-- An item does not look at what follows, but for a last percent sign. -/
theorem Begins.alone {before text rest : List Char} {item : Item} {within : List Char}
    (h : Begins before text item (within ++ rest)) :
    Begins before (item.written ++ within) item within := by
  cases h with
  | escaped _ escapable => exact .escaped within escapable
  | @reference name _ nonempty word =>
    have split : Item.written (.reference name (byteSize before)) ++ within =
        '%' :: '{' :: (name ++ '}' :: within) := by simp [Item.written]
    rw [split]
    exact .reference within nonempty word
  | plain _ unescaped unopened =>
    refine .plain within unescaped fun opened => unopened ⟨opened.1, ?_⟩
    rw [List.head?_append, opened.2]
    rfl

namespace Spells

variable {before text rest : List Char} {items : List Item}

theorem text_eq (h : Spells before text items rest) :
    text = items.flatMap Item.written ++ rest := by
  induction h with
  | stop => rfl
  | item here _ ih => rw [here.text_eq, ih, List.flatMap_cons, List.append_assoc]

theorem scan_eq (h : Spells before text items rest) :
    scan (byteSize before) text =
      (scan (byteSize (before ++ items.flatMap Item.written)) rest).map (items ++ ·) := by
  induction h with
  | stop before rest =>
    rw [List.flatMap_nil, List.append_nil]
    cases scan (byteSize before) rest <;> rfl
  | @item before text middle rest first items here _ ih =>
    rw [here.scan_eq, ih, List.flatMap_cons, List.append_assoc]
    cases scan (byteSize (before ++ (first.written ++ items.flatMap Item.written))) rest <;> rfl

theorem alone (h : Spells before text items rest) :
    Spells before (items.flatMap Item.written) items [] := by
  induction h with
  | stop before _ => exact .stop before []
  | item here later ih =>
    rw [later.text_eq] at here
    rw [List.flatMap_cons]
    exact .item here.alone ih

end Spells

/-- Items follow one another up to the end or to a flaw. -/
theorem spells_to_flaw (before text : List Char) :
    ∃ items rest, Spells before text items rest ∧
      (rest = [] ∨
        ∃ e, Flaw (byteSize (before ++ items.flatMap Item.written)) rest e) := by
  -- By induction on the length of what is still to be read; every item takes some of it.
  induction size : text.length using Nat.strongRecOn generalizing before text with
  | ind length ih =>
    rcases begins_or_flaw before text (byteSize before) with none | ⟨first, middle, here⟩ | flawed
    · exact ⟨[], text, .stop before text, .inl none⟩
    · have some := List.length_pos_of_ne_nil first.written_ne_nil
      have less : middle.length < length := by
        rw [← size, here.text_eq, List.length_append]
        omega
      obtain ⟨items, rest, later, ends⟩ := ih _ less (before ++ first.written) middle rfl
      refine ⟨first :: items, rest, .item here later, ?_⟩
      rwa [List.flatMap_cons, ← List.append_assoc]
    · refine ⟨[], text, .stop before text, .inr ?_⟩
      rwa [List.flatMap_nil, List.append_nil]

theorem scan_eq_ok_iff (before : List Char) {text : List Char} {items : List Item} :
    scan (byteSize before) text = .ok items ↔ Spells before text items [] := by
  constructor
  · intro read
    obtain ⟨found, rest, spelled, rfl | ⟨e, flaw⟩⟩ := spells_to_flaw before text
    · rw [spelled.scan_eq, scan] at read
      cases read
      simpa using spelled
    · rw [spelled.scan_eq, flaw.scan_eq] at read
      cases read
  · intro spelled
    rw [spelled.scan_eq, scan]
    exact congrArg Except.ok (List.append_nil items)

theorem scan_eq_error_iff (before : List Char) {text : List Char} {e : ReferenceError} :
    scan (byteSize before) text = .error e ↔
      ∃ items rest, Spells before text items rest ∧
        Flaw (byteSize (before ++ items.flatMap Item.written)) rest e := by
  constructor
  · intro failed
    obtain ⟨items, rest, spelled, rfl | ⟨other, flaw⟩⟩ := spells_to_flaw before text
    · rw [spelled.scan_eq, scan] at failed
      cases failed
    · rw [spelled.scan_eq, flaw.scan_eq] at failed
      cases failed
      exact ⟨items, rest, spelled, flaw⟩
  · rintro ⟨items, rest, spelled, flaw⟩
    rw [spelled.scan_eq, flaw.scan_eq]
    rfl

theorem parse_eq_ok_iff_spells {raw : String} {segments : List Segment} :
    parse raw = .ok segments ↔
      ∃ items, Spells [] raw.toList items [] ∧ Merges items segments := by
  simp only [parse, map_eq_ok, merges_iff, ← scan_eq_ok_iff [], eq_comm (a := segments)]
  rfl

/-- A raw text is read exactly if it is a sequence of items, and gives the segments into which these
merge. Any other text starts with items up to a place where none begins: what stands before that
place could be read by itself, and what stands there is the error. -/
theorem parse_accepts_exactly_grammar (raw : String) :
    (∀ segments, parse raw = .ok segments ↔
      ∃ items, Spells [] raw.toList items [] ∧ Merges items segments) ∧
    ∀ e, parse raw = .error e ↔
      ∃ items before rest, raw.toList = before ++ rest ∧ Spells [] raw.toList items rest ∧
        before = items.flatMap Item.written ∧
        (∃ segments, parse (String.ofList before) = .ok segments) ∧
        rest ≠ [] ∧ (∀ item after, ¬ Begins before rest item after) ∧
        Flaw (byteSize before) rest e := by
  refine ⟨fun segments => parse_eq_ok_iff_spells, fun e => ?_⟩
  rw [parse, map_eq_error]
  constructor
  · intro failed
    obtain ⟨items, rest, spelled, flaw⟩ := (scan_eq_error_iff []).1 failed
    refine ⟨items, _, rest, spelled.text_eq, spelled, rfl, ?_, flaw.ne_nil,
      fun _ _ => flaw.not_begins, flaw⟩
    refine ⟨merge items, parse_eq_ok_iff_spells.2 ⟨items, ?_, merges_merge items⟩⟩
    rw [String.toList_ofList]
    exact spelled.alone
  · rintro ⟨items, _, rest, _, spelled, rfl, _, _, _, flaw⟩
    exact (scan_eq_error_iff []).2 ⟨items, rest, spelled, flaw⟩

-- A percent sign that opens nothing is text, also right before a reference.
example : parse "é%%{B}" = .ok [.literal "é%", .reference "B" 3] :=
  toOption_eq_some.1 (by decide +kernel)

end ScopedCommands.Reference
