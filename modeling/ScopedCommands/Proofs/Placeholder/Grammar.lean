import ScopedCommands.Placeholder
import ScopedCommands.Proofs.Outcome

namespace ScopedCommands

open Outcome

namespace PlaceholderKind

theorem mark_ofToken (token : List Char) :
    (ofToken token).1.mark ++ (ofToken token).2 = token := by
  unfold ofToken
  split <;> rfl

theorem ofToken_mark (kind : PlaceholderKind) {c : Char} (cs : List Char)
    (start : Name.isNameStart c = true) : ofToken (kind.mark ++ c :: cs) = (kind, c :: cs) := by
  cases kind with
  | optional => rfl
  | spread => rfl
  | required =>
    have question : c ≠ '?' := by
      rintro rfl
      cases start
    have at' : c ≠ '@' := by
      rintro rfl
      cases start
    rw [mark, List.nil_append, ofToken]
    · intro rest same
      exact question (List.cons.inj same).1
    · intro rest same
      exact at' (List.cons.inj same).1

end PlaceholderKind

namespace Placeholder

theorem ofToken_eq_ok_iff {field : String} {token : List Char} {p : Placeholder} :
    ofToken field token = .ok p ↔
      token = p.kind.mark ++ p.name.toList ∧ Name.WellFormed p.name := by
  constructor
  · intro read
    unfold ofToken at read
    dsimp only at read
    split at read
    next checked =>
      cases read
      rw [String.toList_ofList]
      exact ⟨(PlaceholderKind.mark_ofToken token).symm, (Name.checkSyntax_eq_ok_iff _).1 checked⟩
    · cases read
    · cases read
  · rintro ⟨rfl, word⟩
    obtain ⟨c, cs, letters, start, _⟩ := id word
    unfold ofToken
    rw [letters, PlaceholderKind.ofToken_mark _ cs start, ← letters]
    dsimp only
    rw [String.ofList_toList, (Name.checkSyntax_eq_ok_iff _).2 word]

inductive Begins : List Char → Item → List Char → Prop where
  | dollar (rest : List Char) : Begins ('\\' :: '$' :: rest) .dollar rest
  | pair (rest : List Char) : Begins ('\\' :: '\\' :: rest) .pair rest
  | placeholder {p : Placeholder} (rest : List Char) (word : Name.WellFormed p.name) :
      Begins ('$' :: '{' :: (p.kind.mark ++ p.name.toList ++ '}' :: rest)) (.placeholder p) rest
  | plain {c : Char} (rest : List Char)
      (unescaping : ¬ (c = '\\' ∧ (rest.head? = some '$' ∨ rest.head? = some '\\')))
      (unopened : ¬ (c = '$' ∧ rest.head? = some '{')) : Begins (c :: rest) (.plain c) rest

inductive Spells : List Char → List Item → Prop where
  | nil : Spells [] []
  | cons {text rest : List Char} {first : Item} {items : List Item}
      (here : Begins text first rest) (later : Spells rest items) : Spells text (first :: items)

theorem not_mem_token {p : Placeholder} (word : Name.WellFormed p.name) {c : Char}
    (foreign : c ∉ p.kind.mark ∧ Name.isNameStart c = false ∧ Name.isNameChar c = false) :
    c ∉ p.kind.mark ++ p.name.toList := by
  obtain ⟨unmarked, start, inside⟩ := foreign
  obtain ⟨d, ds, letters, first, others⟩ := word
  rw [letters, List.mem_append, List.mem_cons]
  rintro (marked | rfl | later)
  · exact unmarked marked
  · rw [first] at start
    cases start
  · rw [others c later] at inside
    cases inside

theorem brace_not_mem_token {p : Placeholder} (word : Name.WellFormed p.name) :
    '}' ∉ p.kind.mark ++ p.name.toList :=
  not_mem_token word ⟨by cases p.kind <;> decide, by decide, by decide⟩

theorem sign_not_mem_token {p : Placeholder} (word : Name.WellFormed p.name) :
    '=' ∉ p.kind.mark ++ p.name.toList :=
  not_mem_token word ⟨by cases p.kind <;> decide, by decide, by decide⟩

theorem Begins.scan_eq {text rest : List Char} {item : Item} (h : Begins text item rest)
    (field : String) : scan field text = (scan field rest).map (item :: ·) := by
  cases h with
  | dollar => rw [scan]
  | pair => rw [scan]
  | @placeholder p _ word =>
    have closed := Text.untilClose_append rest (brace_not_mem_token word)
    have token : ofToken field (p.kind.mark ++ p.name.toList) = .ok p :=
      ofToken_eq_ok_iff.2 ⟨rfl, word⟩
    rw [scan]
    split
    next unclosed =>
      rw [closed] at unclosed
      cases unclosed
    next found =>
      rw [closed] at found
      cases found
      rw [token]
  | plain _ unescaping unopened =>
    rw [scan]
    · rintro tail rfl rfl
      exact unescaping ⟨rfl, .inl rfl⟩
    · rintro tail rfl rfl
      exact unescaping ⟨rfl, .inr rfl⟩
    · rintro tail rfl rfl
      exact unopened ⟨rfl, rfl⟩

theorem scan_eq_ok_iff {field : String} {text : List Char} {items : List Item} :
    scan field text = .ok items ↔ Spells text items := by
  constructor
  · intro read
    fun_induction scan field text generalizing items with
    | case1 =>
      cases read
      exact .nil
    | case2 rest ih =>
      obtain ⟨later, scanned, rfl⟩ := map_eq_ok.1 read
      exact .cons (.dollar rest) (ih scanned)
    | case3 rest ih =>
      obtain ⟨later, scanned, rfl⟩ := map_eq_ok.1 read
      exact .cons (.pair rest) (ih scanned)
    | case4 => cases read
    | case5 => cases read
    | case6 rest token tail closed p named ih =>
      obtain ⟨later, scanned, rfl⟩ := map_eq_ok.1 read
      obtain ⟨rfl, word⟩ := ofToken_eq_ok_iff.1 named
      rw [Text.eq_of_untilClose closed]
      exact .cons (.placeholder tail word) (ih scanned)
    | case7 c rest noDollar noPair noOpening ih =>
      obtain ⟨later, scanned, rfl⟩ := map_eq_ok.1 read
      refine .cons (.plain rest ?_ ?_) (ih scanned)
      · rintro ⟨rfl, head | head⟩
        · obtain ⟨tail, rfl⟩ := List.head?_eq_some_iff.1 head
          exact noDollar tail rfl rfl
        · obtain ⟨tail, rfl⟩ := List.head?_eq_some_iff.1 head
          exact noPair tail rfl rfl
      · rintro ⟨rfl, head⟩
        obtain ⟨tail, rfl⟩ := List.head?_eq_some_iff.1 head
        exact noOpening tail rfl rfl
  · intro spelled
    induction spelled with
    | nil => rw [scan]
    | cons here _ ih =>
      rw [here.scan_eq, ih]
      rfl

theorem parse_eq_ok_iff {field : String} {parts : List FieldPart} :
    parse field = .ok parts ↔ ∃ items, Spells field.toList items ∧ parts = merge items := by
  simp only [parse, map_eq_ok, scan_eq_ok_iff, eq_comm (b := parts)]

theorem eq_append_of_cut {token rest key value : List Char} (free : '=' ∉ token)
    (whole : key ++ '=' :: value = token ++ '}' :: rest) :
    ∃ others, key = token ++ '}' :: others ∧ rest = others ++ '=' :: value := by
  rcases List.append_eq_append_iff.1 whole with ⟨others, rfl, tail⟩ | ⟨others, rfl, tail⟩
  · cases others with
    | nil => simp at tail
    | cons c others =>
      cases tail
      simp at free
  · cases others with
    | nil => simp at tail
    | cons c others =>
      cases tail
      exact ⟨others, rfl, rfl⟩

/-- A text is cut at its first equals sign into two sequences of items. -/
theorem Spells.cut {key value : List Char} {items : List Item} (free : '=' ∉ key)
    (h : Spells (key ++ '=' :: value) items) :
    ∃ before after, Spells key before ∧ Spells value after ∧
      items = before ++ .plain '=' :: after := by
  generalize whole : key ++ '=' :: value = text at h
  induction h generalizing key with
  | nil => simp at whole
  | @cons text rest first items here later ih =>
    -- Either the sign comes at once, or the first item ends before it.
    cases here with
    | dollar =>
      obtain - | ⟨c, - | ⟨d, key⟩⟩ := key
      · cases whole
      · cases whole
      · cases whole
        obtain ⟨before, after, own, other, rfl⟩ := ih (by simp_all) rfl
        exact ⟨_, after, .cons (.dollar key) own, other, rfl⟩
    | pair =>
      obtain - | ⟨c, - | ⟨d, key⟩⟩ := key
      · cases whole
      · cases whole
      · cases whole
        obtain ⟨before, after, own, other, rfl⟩ := ih (by simp_all) rfl
        exact ⟨_, after, .cons (.pair key) own, other, rfl⟩
    | @placeholder p _ word =>
      obtain - | ⟨c, - | ⟨d, key⟩⟩ := key
      · cases whole
      · cases whole
      · obtain ⟨rfl, opened⟩ := List.cons.inj whole
        obtain ⟨rfl, tail⟩ := List.cons.inj opened
        obtain ⟨others, rfl, rfl⟩ := eq_append_of_cut (sign_not_mem_token word) tail
        obtain ⟨before, after, own, other, rfl⟩ := ih (by simp_all) rfl
        exact ⟨_, after, .cons (.placeholder others word) own, other, rfl⟩
    | @plain c _ unescaping unopened =>
      obtain - | ⟨d, key⟩ := key
      · cases whole
        exact ⟨[], items, .nil, later, rfl⟩
      · cases whole
        obtain ⟨before, after, own, other, rfl⟩ := ih (by simp_all) rfl
        have kept : ∀ d, key.head? = some d → (key ++ '=' :: value).head? = some d := by
          intro d head
          rw [List.head?_append, head]
          rfl
        refine ⟨_, after, .cons (.plain key ?_ ?_) own, other, rfl⟩
        · rintro ⟨escape, next⟩
          exact unescaping ⟨escape, next.imp (kept _) (kept _)⟩
        · rintro ⟨dollar, next⟩
          exact unopened ⟨dollar, kept _ next⟩

end Placeholder
end ScopedCommands
