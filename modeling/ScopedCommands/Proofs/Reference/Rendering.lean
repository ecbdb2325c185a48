import ScopedCommands.Proofs.Expansion.Paths
import ScopedCommands.Proofs.Reference.Escaping

namespace ScopedCommands

open Outcome

def Segment.movedTo (position : Nat) : Segment → Segment
  | .literal text => .literal text
  | .reference name _ => .reference name position

namespace Reference

def render (segments : List Segment) : String := String.join (segments.map Segment.render)

structure Renderable (segments : List Segment) : Prop where
  tidy : Tidy segments
  words : ∀ name position, .reference name position ∈ segments → IsWord name

/-- The segments as they are written after a text: each reference stands behind that text and the
segments before it. -/
def placed (before : String) (segments : List Segment) : List Segment :=
  segments.mapIdx fun i s => s.movedTo (before ++ render (segments.take i)).utf8ByteSize

@[simp] theorem render_nil : render [] = "" := rfl

@[simp] theorem render_cons (first : Segment) (rest : List Segment) :
    render (first :: rest) = Segment.render first ++ render rest :=
  String.join_cons

theorem placed_cons (before : String) (first : Segment) (rest : List Segment) :
    placed before (first :: rest) =
      first.movedTo before.utf8ByteSize :: placed (before ++ Segment.render first) rest := by
  simp [placed, List.mapIdx_cons, String.append_assoc]

@[simp] theorem isLiteral_movedTo {segment : Segment} {position : Nat} :
    (segment.movedTo position).IsLiteral ↔ segment.IsLiteral := by
  cases segment <;> rfl

@[simp] theorem movedTo_eq_literal_iff {segment : Segment} {position : Nat} {text : String} :
    segment.movedTo position = .literal text ↔ segment = .literal text := by
  cases segment <;> simp [Segment.movedTo]

theorem tidy_movedTo {segments : List Segment} {position : Nat} :
    Tidy (segments.map (Segment.movedTo position)) ↔ Tidy segments := by
  have nonempty : .literal "" ∈ segments.map (Segment.movedTo position) ↔
      .literal "" ∈ segments := by simp
  constructor
  · rintro ⟨none, apart⟩
    exact ⟨mt nonempty.2 none, by simpa [List.isChain_map] using apart⟩
  · rintro ⟨none, apart⟩
    exact ⟨mt nonempty.1 none, by simpa [List.isChain_map] using apart⟩

theorem movedTo_placed (before : String) (segments : List Segment) (position : Nat) :
    (placed before segments).map (Segment.movedTo position) =
      segments.map (Segment.movedTo position) := by
  induction segments generalizing before with
  | nil => rfl
  | cons first rest ih => cases first <;> simp [placed_cons, ih, Segment.movedTo]

theorem Tidy.placed {segments : List Segment} (h : Tidy segments) (before : String) :
    Tidy (placed before segments) := by
  have moved : Tidy ((Reference.placed before segments).map (Segment.movedTo 0)) := by
    rw [movedTo_placed]
    exact tidy_movedTo.2 h
  exact tidy_movedTo.1 moved

theorem Spells.trans {before text middle rest : List Char} {items others : List Item}
    (h : Spells before text items middle)
    (later : Spells (before ++ items.flatMap Item.written) middle others rest) :
    Spells before text (items ++ others) rest := by
  induction h with
  | stop before middle => simpa using later
  | item here _ ih => exact .item here (ih (by simpa using later))

def itemsAt (position : Nat) : Segment → List Item
  | .literal text => text.toList.map escapedItem
  | .reference name _ => [.reference name.toList position]

theorem marks_itemsAt (segment : Segment) (position : Nat) :
    (itemsAt position segment).map Item.mark = (segment.movedTo position).marks := by
  cases segment with
  | literal text => simp [itemsAt, Segment.movedTo, Segment.marks, mark_escapedItem]
  | reference name _ => simp [itemsAt, Segment.movedTo, Segment.marks, Item.mark]

theorem spells_segment {segment : Segment} (before : String) (rest : List Char)
    (word : ∀ name position, segment = .reference name position → IsWord name) :
    Spells before.toList ((Segment.render segment).toList ++ rest)
      (itemsAt before.utf8ByteSize segment) rest := by
  cases segment with
  | literal text =>
    rw [Segment.render, escape, String.toList_ofList]
    exact spells_escape before.toList text.toList rest
  | reference name position =>
    obtain ⟨nonempty, chars⟩ := word name position rfl
    have size : before.utf8ByteSize = byteSize before.toList := by simp [byteSize]
    have written : (Segment.render (.reference name position)).toList ++ rest =
        '%' :: '{' :: (name.toList ++ '}' :: rest) := by simp [Segment.render]
    rw [written, itemsAt, size]
    refine .item (.reference rest (by simpa using nonempty) (by simpa using chars)) ?_
    exact .stop _ rest

theorem spells_render {segments : List Segment} (before : String)
    (words : ∀ name position, .reference name position ∈ segments → IsWord name) :
    ∃ items, Spells before.toList (render segments).toList items [] ∧
      items.map Item.mark = (placed before segments).flatMap Segment.marks := by
  induction segments generalizing before with
  | nil => exact ⟨[], .stop _ [], rfl⟩
  | cons first rest ih =>
    obtain ⟨items, later, marks⟩ := ih (before ++ Segment.render first) fun name position member =>
      words name position (List.mem_cons_of_mem first member)
    have own := @spells_segment first before (render rest).toList fun name position same =>
      words name position (same ▸ List.mem_cons_self)
    have letters : (Segment.render first).toList =
        (itemsAt before.utf8ByteSize first).flatMap Item.written :=
      List.append_cancel_right own.text_eq
    refine ⟨itemsAt before.utf8ByteSize first ++ items, ?_, ?_⟩
    · rw [render_cons, String.toList_append]
      apply own.trans
      rwa [← letters, ← String.toList_append]
    · rw [List.map_append, marks_itemsAt, marks, placed_cons, List.flatMap_cons]

theorem Renderable.parse_eq {segments : List Segment} (h : Renderable segments) :
    parse (render segments) = .ok (placed "" segments) := by
  obtain ⟨items, spelled, marks⟩ := spells_render "" h.words
  exact parse_eq_ok_iff_spells.2 ⟨items, spelled, marks.symm, h.tidy.placed ""⟩

theorem Begins.isWord {before text rest name : List Char} {position : Nat}
    (h : Begins before text (.reference name position) rest) : IsWord (String.ofList name) := by
  cases h with
  | reference _ nonempty word => exact ⟨by simpa using nonempty, by simpa using word⟩

theorem Spells.isWord {before text rest name : List Char} {items : List Item} {position : Nat}
    (h : Spells before text items rest) (member : .reference name position ∈ items) :
    IsWord (String.ofList name) := by
  induction h with
  | stop => cases member
  | item here _ ih =>
    rcases List.mem_cons.1 member with rfl | later
    · exact here.isWord
    · exact ih later

theorem renderable_of_parse {raw : String} {segments : List Segment}
    (read : parse raw = .ok segments) : Renderable segments := by
  obtain ⟨items, spelled, marks, tidy⟩ := parse_eq_ok_iff_spells.1 read
  refine ⟨tidy, fun name position member => ?_⟩
  have marked : .inr (name, position) ∈ items.map Item.mark := by
    rw [← marks]
    exact List.mem_flatMap.2 ⟨_, member, List.mem_singleton_self _⟩
  obtain ⟨item, listed, same⟩ := List.mem_map.1 marked
  cases item with
  | escaped c => cases same
  | plain c => cases same
  | reference letters place =>
    cases same
    exact spelled.isWord listed

theorem expand_escape (lookup : Lookup) (ctx : Context) (text : String) :
    expand lookup (escape text) ctx = (.ok text, ctx) :=
  Prod.ext (expandIn_escape ctx lookup text) (expand_restores lookup (escape text) ctx)

/-- Reading undoes writing: segments that are written out are read as they are, each reference at
the place where it was written. What was read from any text is such segments, and so is the same
again when it is written out, but for the places; an escaped text stands for itself. -/
theorem parse_render :
    (∀ segments, Renderable segments → parse (render segments) =
      .ok (segments.mapIdx fun i s => s.movedTo (render (segments.take i)).utf8ByteSize)) ∧
    (∀ raw segments, parse raw = .ok segments →
      ∃ again, parse (render segments) = .ok again ∧
        again.map (Segment.movedTo 0) = segments.map (Segment.movedTo 0)) ∧
    ∀ (text : String) (lookup : Lookup) (ctx : Context),
      expand lookup (escape text) ctx = (.ok text, ctx) := by
  refine ⟨fun segments renderable => ?_, fun raw segments read => ?_, fun text lookup ctx => ?_⟩
  · rw [renderable.parse_eq]
    simp [placed]
  · exact ⟨_, (renderable_of_parse read).parse_eq, movedTo_placed "" segments 0⟩
  · exact expand_escape lookup ctx text

def discounted : List Segment := [.literal "é%\\", .reference "1_a" 0, .literal "{b}%"]

theorem parse_render_discounted :
    Renderable discounted ∧ render discounted = "é\\%\\\\%\x7b1_a\x7d{b}\\%" ∧
      parse (render discounted) =
        .ok [.literal "é%\\", .reference "1_a" 6, .literal "{b}%"] ∧
      ∃ again, parse (render [.literal "100%", .reference "a" 4]) = .ok again ∧
        again.map (Segment.movedTo 0) = [.literal "100%", .reference "a" 0] := by
  have renderable : Renderable discounted := by
    refine ⟨⟨by decide, ?_⟩, fun name position member => ?_⟩
    · simp [discounted, Segment.IsLiteral]
    · obtain ⟨rfl, rfl⟩ : name = "1_a" ∧ position = 0 := by simpa [discounted] using member
      decide
  have read : parse "100%%\x7ba\x7d" = .ok [.literal "100%", .reference "a" 4] :=
    toOption_eq_some.1 (by decide +kernel)
  refine ⟨renderable, by decide, ?_, parse_render.2.1 _ _ read⟩
  rw [parse_render.1 discounted renderable]
  rfl

end Reference
end ScopedCommands
