import ScopedCommands.Proofs.Lockstep
import ScopedCommands.Proofs.Placeholder.Canonical
import ScopedCommands.Proofs.Template.ByParts

namespace ScopedCommands

open Outcome

inductive FieldPart.Spliced (params : Dict Parameter) : FieldPart → String → Prop where
  | text (t : String) : Spliced params (.text t) t
  | given {p : Placeholder} {value : String} (scalar : p.kind ≠ .spread)
      (found : params.get? p.name = some (.text value)) : Spliced params (.placeholder p) value
  | absent {p : Placeholder} (optional : p.kind = .optional) (none : params.get? p.name = none) :
      Spliced params (.placeholder p) ""

/-- The same shape: texts that are both empty or both not, or lists of the same length. -/
inductive Parameter.SameShape : Parameter → Parameter → Prop where
  | text {v w : String} (empty : v = "" ↔ w = "") : SameShape (.text v) (.text w)
  | list {vs ws : List String} (length : vs.length = ws.length) : SameShape (.list vs) (.list ws)

theorem Parameter.SameShape.refl (parameter : Parameter) : parameter.SameShape parameter := by
  cases parameter with
  | text v => exact .text Iff.rfl
  | list vs => exact .list rfl

inductive Splice
  | text (t : String)
  | parameter (name : String)
  | item (name : String) (index : Nat)
deriving DecidableEq

namespace Splice

def value (params : Dict Parameter) : Splice → Option String
  | .text t => some t
  | .parameter name =>
    match params.get? name with
    | some (.text value) => some value
    | _ => none
  | .item name index =>
    match params.get? name with
    | some (.list items) => items[index]?
    | _ => none

def spell (params : Dict Parameter) (pattern : List Splice) : Option String :=
  (pattern.mapM (value params)).map String.join

end Splice

namespace Template

/-- The arguments that one argument of a template gives. -/
inductive Argument (params : Dict Parameter) (raw : String) : List String → Prop where
  | items {name : String} {items : List String} (alone : Placeholder.Spans ⟨.spread, name⟩ raw)
      (given : params.get? name = some (.list items)) : Argument params raw items
  | noItems {name : String} (alone : Placeholder.Spans ⟨.spread, name⟩ raw)
      (absent : params.get? name = none) : Argument params raw []
  | dropped {name : String} (alone : Placeholder.Spans ⟨.optional, name⟩ raw)
      (empty : params.get? name = none ∨ params.get? name = some (.text "")) :
      Argument params raw []
  | one {parts : List FieldPart} {pieces : List String} (read : Placeholder.parse raw = .ok parts)
      (spliced : List.Forall₂ (FieldPart.Spliced params) parts pieces)
      (kept : ∀ name, Placeholder.Spans ⟨.optional, name⟩ raw →
        ∃ value, params.get? name = some (.text value) ∧ value ≠ "") :
      Argument params raw [String.join pieces]

variable {name raw : String} {t : Template} {params others : Dict Parameter} {b : BoundCommand}

theorem Call.Supplies.cases {call : Call} {p : Placeholder} (supplied : call.Supplies p) :
    (call.params.get? p.name = none ∧ p.kind ≠ .required) ∨
      (∃ items, call.params.get? p.name = some (.list items) ∧ p.kind = .spread) ∨
      ∃ value, call.params.get? p.name = some (.text value) ∧ p.kind ≠ .spread := by
  unfold Call.Supplies Placeholder.wants at supplied
  cases given : call.params.get? p.name with
  | none => simp_all
  | some parameter => cases parameter <;> by_cases spreads : p.kind = .spread <;>
      simp_all [Parameter.kind]

theorem spliced_value {p : Placeholder} (scalar : p.kind ≠ .spread)
    (supplied : Call.Supplies ⟨name, params⟩ p) :
    FieldPart.Spliced params (.placeholder p) (p.value params) := by
  unfold Placeholder.value Placeholder.text?
  rcases supplied.cases with ⟨none, optional⟩ | ⟨_, _, spreads⟩ | ⟨value, found, _⟩
  · rw [none]
    refine .absent ?_ none
    cases kind : p.kind <;> simp_all
  · exact absurd spreads scalar
  · rw [found]
    exact .given scalar found

theorem spliced_parts {parts : List FieldPart}
    (scalars : ∀ p ∈ Placeholder.allOf parts, p.kind ≠ .spread)
    (supplied : ∀ p ∈ Placeholder.allOf parts, Call.Supplies ⟨name, params⟩ p) :
    List.Forall₂ (FieldPart.Spliced params) parts (parts.map (FieldPart.filled params)) := by
  induction parts with
  | nil => exact .nil
  | cons first rest ih =>
    cases first with
    | text t => exact .cons (.text t) (ih scalars supplied)
    | placeholder p =>
      obtain ⟨scalar, others⟩ := List.forall_mem_cons.1 scalars
      obtain ⟨own, later⟩ := List.forall_mem_cons.1 supplied
      exact .cons (spliced_value scalar own) (ih others later)

theorem argument_of_spans {p : Placeholder} (spans : p.Spans raw)
    (supplied : Call.Supplies ⟨name, params⟩ p) : Argument params raw (p.values params) := by
  have read := spans.parse_eq
  -- A scalar placeholder that is kept is an argument of one piece.
  have kept (scalar : p.kind ≠ .spread) (some : p.kind = .optional → p.value params ≠ "") :
      Argument params raw [p.value params] := by
    have join : String.join [p.value params] = p.value params := by simp
    rw [← join]
    refine .one read (.cons (spliced_value scalar supplied) .nil) fun other optional => ?_
    cases (Placeholder.sole_eq_some_iff read).2 optional
    have some := some rfl
    unfold Placeholder.value Placeholder.text? at some
    rcases supplied.cases with ⟨none, _⟩ | ⟨_, _, spreads⟩ | ⟨value, found, _⟩
    · simp [none] at some
    · cases spreads
    · exact ⟨value, found, by simpa [found] using some⟩
  obtain ⟨kind, n⟩ := p
  cases kind with
  | required => exact kept (by simp) (by simp)
  | optional =>
    dsimp only [Placeholder.values]
    split
    next empty =>
      refine .dropped spans ?_
      rcases supplied.cases with ⟨none, _⟩ | ⟨_, _, impossible⟩ | ⟨value, found, _⟩
      · exact .inl none
      · cases impossible
      · simp_all [Placeholder.value, Placeholder.text?]
    next some => exact kept (by simp) fun _ => some
  | spread =>
    dsimp only [Placeholder.values, Placeholder.items]
    rcases supplied.cases with ⟨none, _⟩ | ⟨items, found, _⟩ | ⟨_, _, impossible⟩
    · rw [none]
      exact .noItems spans none
    · rw [found]
      exact .items spans found
    · exact absurd rfl impossible

theorem argument_of_plural (plural : Plural raw)
    (supplied : ∀ p ∈ Placeholder.allOf (parts raw), Call.Supplies ⟨name, params⟩ p) :
    Argument params raw (FieldPart.values params (parts raw)) := by
  obtain ⟨ps, read, shape⟩ := plural
  rw [parts_of_parseField read] at supplied ⊢
  have read := mapError_eq_ok.1 read
  unfold FieldPart.values
  cases single : Placeholder.sole ps with
  | none =>
    have scalars := Placeholder.firstSpread_eq_none_iff.1 (shape.resolve_left (by simp [single]))
    refine .one read (spliced_parts scalars supplied) fun other spans => ?_
    rw [(Placeholder.sole_eq_some_iff read).2 spans] at single
    cases single
  | some p =>
    rw [Placeholder.allOf_of_sole single] at supplied
    exact argument_of_spans ((Placeholder.sole_eq_some_iff read).1 single)
      (supplied p List.mem_cons_self)

theorem parts_of_spans {p : Placeholder} (alone : p.Spans raw) : parts raw = [.placeholder p] := by
  rw [parts, alone.parse_eq]
  rfl

theorem eq_filled_of_spliced {part : FieldPart} {piece : String}
    (spliced : part.Spliced params piece) : part.filled params = piece := by
  cases spliced with
  | text t => rfl
  | given scalar found => simp [FieldPart.filled, Placeholder.value, Placeholder.text?, found]
  | absent optional none => simp [FieldPart.filled, Placeholder.value, Placeholder.text?, none]

theorem Argument.eq_values {values : List String} (h : Argument params raw values) :
    values = FieldPart.values params (parts raw) := by
  cases h with
  | items alone given =>
    simp [parts_of_spans alone, FieldPart.values, Placeholder.sole, Placeholder.values,
      Placeholder.items, given]
  | noItems alone absent =>
    simp [parts_of_spans alone, FieldPart.values, Placeholder.sole, Placeholder.values,
      Placeholder.items, absent]
  | dropped alone empty =>
    rcases empty with absent | given <;>
      simp [parts_of_spans alone, FieldPart.values, Placeholder.sole, Placeholder.values,
        Placeholder.value, Placeholder.text?, *]
  | @one ps pieces read spliced kept =>
    have filled : ps.map (FieldPart.filled params) = pieces := by
      rw [← List.forall₂_eq_eq_eq, List.forall₂_map_left_iff]
      exact spliced.imp fun _ _ => eq_filled_of_spliced
    have whole : parts raw = ps := by
      rw [parts, read]
      rfl
    rw [whole, ← filled, FieldPart.values]
    cases single : Placeholder.sole ps with
    | none => rfl
    | some p =>
      have spans := (Placeholder.sole_eq_some_iff read).1 single
      rw [Placeholder.eq_of_sole single] at spliced ⊢
      obtain ⟨kind, n⟩ := p
      cases kind with
      | required => simp [Placeholder.values, FieldPart.filled]
      | optional =>
        obtain ⟨value, found, some⟩ := kept n spans
        simp [Placeholder.values, FieldPart.filled, Placeholder.value, Placeholder.text?, found,
          some]
      | spread =>
        obtain - | ⟨own, _⟩ := spliced
        cases own with
        | given scalar found => exact absurd rfl scalar
        | absent optional none => cases optional

/-- The piece that a part of an argument is; an absent parameter leaves no place. -/
def pieceOf (params : Dict Parameter) : FieldPart → Splice
  | .text t => .text t
  | .placeholder p => if params.contains p.name then .parameter p.name else .text ""

def patterns (params : Dict Parameter) (raw : String) : List (List Splice) :=
  match Placeholder.sole (parts raw) with
  | none => [(parts raw).map (pieceOf params)]
  | some p =>
    if p.kind = .spread then
      (List.range (p.items params).length).map fun i => [.item p.name i]
    else if p.kind = .optional ∧ p.value params = "" then []
    else [[pieceOf params (.placeholder p)]]

theorem spell_cons (params : Dict Parameter) (first : Splice) (rest : List Splice) :
    Splice.spell params (first :: rest) =
      (first.value params).bind fun v => (Splice.spell params rest).map (v ++ ·) := by
  unfold Splice.spell
  rw [List.mapM_cons]
  cases first.value params with
  | none => rfl
  | some v => cases rest.mapM (Splice.value params) <;> simp

theorem spell_singleton (params : Dict Parameter) (piece : Splice) :
    Splice.spell params [piece] = piece.value params := by
  rw [spell_cons]
  cases piece.value params <;> simp [Splice.spell]

theorem value_pieceOf {p : Placeholder} (scalar : p.kind ≠ .spread)
    (supplied : Call.Supplies ⟨name, params⟩ p) :
    (pieceOf params (.placeholder p)).value params = some (p.value params) := by
  rcases supplied.cases with ⟨none, _⟩ | ⟨_, _, spreads⟩ | ⟨value, found, _⟩
  · simp_all [pieceOf, Dict.contains, Splice.value, Placeholder.value, Placeholder.text?]
  · exact absurd spreads scalar
  · simp_all [pieceOf, Dict.contains, Splice.value, Placeholder.value, Placeholder.text?]

theorem spell_parts {parts : List FieldPart}
    (scalars : ∀ p ∈ Placeholder.allOf parts, p.kind ≠ .spread)
    (supplied : ∀ p ∈ Placeholder.allOf parts, Call.Supplies ⟨name, params⟩ p) :
    Splice.spell params (parts.map (pieceOf params)) = some (FieldPart.fill params parts) := by
  induction parts with
  | nil => rfl
  | cons first rest ih =>
    rw [List.map_cons, spell_cons, FieldPart.fill_cons]
    cases first with
    | text t => simp [pieceOf, Splice.value, FieldPart.filled, ih scalars supplied]
    | placeholder p =>
      obtain ⟨scalar, others⟩ := List.forall_mem_cons.1 scalars
      obtain ⟨own, later⟩ := List.forall_mem_cons.1 supplied
      simp [value_pieceOf scalar own, FieldPart.filled, ih others later]

theorem spell_patterns (plural : Plural raw)
    (supplied : ∀ p ∈ Placeholder.allOf (parts raw), Call.Supplies ⟨name, params⟩ p) :
    (patterns params raw).map (Splice.spell params) =
      (FieldPart.values params (parts raw)).map some := by
  obtain ⟨ps, read, shape⟩ := plural
  unfold patterns FieldPart.values
  rw [parts_of_parseField read] at supplied ⊢
  cases single : Placeholder.sole ps with
  | none =>
    have scalars := Placeholder.firstSpread_eq_none_iff.1 (shape.resolve_left (by simp [single]))
    simp [spell_parts scalars supplied]
  | some p =>
    have own := supplied p (by simp [Placeholder.allOf_of_sole single])
    dsimp only [Placeholder.values]
    cases kind : p.kind with
    | required =>
      have scalar : p.kind ≠ .spread := by simp [kind]
      simp [spell_singleton, value_pieceOf scalar own]
    | optional =>
      have scalar : p.kind ≠ .spread := by simp [kind]
      by_cases empty : p.value params = ""
      · simp [empty]
      · simp [empty, spell_singleton, value_pieceOf scalar own]
    | spread =>
      rcases own.cases with ⟨none, _⟩ | ⟨items, found, _⟩ | ⟨_, _, scalar⟩
      · simp [Placeholder.items, none]
      · apply List.ext_getElem
        · simp
        · simp +contextual [spell_singleton, Splice.value, Placeholder.items, found]
      · exact absurd kind scalar

theorem shape_cases (same : params.Related Parameter.SameShape others) (name : String) :
    (params.get? name = none ∧ others.get? name = none) ∨
      (∃ v w, params.get? name = some (.text v) ∧ others.get? name = some (.text w) ∧
        (v = "" ↔ w = "")) ∨
      ∃ vs ws, params.get? name = some (.list vs) ∧ others.get? name = some (.list ws) ∧
        vs.length = ws.length := by
  have related := same.get? name
  generalize params.get? name = given at related ⊢
  generalize others.get? name = other at related ⊢
  rcases related with ⟨empty | length⟩ | _
  · exact .inr (.inl ⟨_, _, rfl, rfl, empty⟩)
  · exact .inr (.inr ⟨_, _, rfl, rfl, length⟩)
  · exact .inl ⟨rfl, rfl⟩

/-- The patterns depend on the shape of the parameters only. -/
theorem patterns_congr (same : params.Related Parameter.SameShape others) (raw : String) :
    patterns params raw = patterns others raw := by
  have piece (part : FieldPart) : pieceOf params part = pieceOf others part := by
    cases part with
    | text t => rfl
    | placeholder p => rcases shape_cases same p.name with h | ⟨_, _, h⟩ | ⟨_, _, h⟩ <;>
        simp [pieceOf, Dict.contains, h]
  have items (p : Placeholder) : (p.items params).length = (p.items others).length := by
    rcases shape_cases same p.name with h | ⟨_, _, h⟩ | ⟨_, _, h⟩ <;> simp [Placeholder.items, h]
  have empty (p : Placeholder) : p.value params = "" ↔ p.value others = "" := by
    rcases shape_cases same p.name with h | ⟨_, _, h⟩ | ⟨_, _, h⟩ <;>
      simp [Placeholder.value, Placeholder.text?, h]
  unfold patterns
  cases Placeholder.sole (parts raw) with
  | none => simp [funext piece]
  | some p => simp [piece, items, empty]

theorem supplies_congr (same : params.Related Parameter.SameShape others) (p : Placeholder) :
    Call.Supplies ⟨name, params⟩ p ↔ Call.Supplies ⟨name, others⟩ p := by
  rcases shape_cases same p.name with h | ⟨_, _, h⟩ | ⟨_, _, h⟩ <;>
    simp [Call.Supplies, h, Parameter.kind]

theorem args_of_sameShape (plural : ∀ raw ∈ t.args, Plural raw)
    (supplied : ∀ p ∈ placeholdersIn t.args, Call.Supplies ⟨name, params⟩ p)
    (same : params.Related Parameter.SameShape others) :
    (t.args.flatMap (patterns params)).map (Splice.spell others) =
        (valuesOf others t.args).map some ∧
      ∀ used, ∃ noted, (Call.args ⟨name, others⟩ 0 t.args).run used =
        .ok (valuesOf others t.args, noted) := by
  have supplied : ∀ p ∈ placeholdersIn t.args, Call.Supplies ⟨name, others⟩ p :=
    fun p member => (supplies_congr same p).1 (supplied p member)
  constructor
  · simp only [funext (patterns_congr same), valuesOf, List.map_flatMap]
    apply List.flatMap_congr
    intro raw member
    apply spell_patterns (plural raw member)
    intro p inside
    exact supplied p (List.mem_flatMap.2 ⟨raw, member, inside⟩)
  · intro used
    exact ⟨_, (Call.fills_args ⟨name, others⟩ plural 0).gives supplied used⟩

/-- Binding gives the arguments of each argument of the template in order, and each can give these
only. Parameters of the same shape give as many, of the same patterns. -/
theorem bind_args_spliced (bound : t.bind name params = .ok b) :
    (∃ lists, List.Forall₂ (Argument params) t.args lists ∧ b.args = lists.flatten ∧
      ∀ others, List.Forall₂ (Argument params) t.args others → others = lists) ∧
    ∃ patterns : List (List Splice),
      patterns.map (Splice.spell params) = b.args.map some ∧
      ∀ others, params.Related Parameter.SameShape others →
        ∃ args, patterns.map (Splice.spell others) = args.map some ∧
          args.length = b.args.length ∧
          (∀ used, ∃ noted, (Call.args ⟨name, others⟩ 0 t.args).run used = .ok (args, noted)) ∧
          ∀ c, t.bind name others = .ok c → c.args = args := by
  have plural := (wellFormed_of_bind bound).args
  obtain ⟨fits, rfl⟩ := eq_filled_of_bind bound
  have supplied : ∀ p ∈ placeholdersIn t.args, Call.Supplies ⟨name, params⟩ p := by
    intro p member
    apply ((fits_iff name).1 fits).1
    simp [placeholders, member]
  have own := (args_of_sameShape plural supplied (Dict.related_refl .refl params)).1
  constructor
  · refine ⟨t.args.map fun raw => FieldPart.values params (parts raw), ?_, List.flatMap_def, ?_⟩
    · apply List.forall₂_map_right_iff.2
      apply List.forall₂_same.2
      intro raw member
      apply argument_of_plural (plural raw member)
      intro p inside
      exact supplied p (List.mem_flatMap.2 ⟨raw, member, inside⟩)
    · intro others given
      symm
      rw [← List.forall₂_eq_eq_eq, List.forall₂_map_left_iff]
      exact given.imp fun _ _ own => own.eq_values.symm
  · refine ⟨_, own, fun others same => ?_⟩
    obtain ⟨spelled, gives⟩ := args_of_sameShape plural supplied same
    have count := congrArg List.length own
    have others := congrArg List.length spelled
    simp only [List.length_map] at count others
    refine ⟨_, spelled, others.symm.trans count, gives, ?_⟩
    · intro c bound
      obtain ⟨_, rfl⟩ := eq_filled_of_bind bound
      rfl

def brackets : Template where
  cmd := "show"
  args := ["${@files}", "${?level}", "<\\${body}=${body}>${?note}", "${?mark}"]
  env := []
  workdir := none

def bracketsCall (files : List String) (body mark : String) : Dict Parameter :=
  Dict.ofList [("files", .list files), ("level", .text ""), ("body", .text body),
    ("mark", .text mark)]

theorem bind_args_spliced_brackets :
    ∃ b c, brackets.bind "brackets" (bracketsCall ["${x}", "%"] "${@files}$" "\\$") = .ok b ∧
      brackets.bind "brackets" (bracketsCall ["x", "y"] "z" "!") = .ok c ∧
      b.args = ["${x}", "%", "<${body}=${@files}$>", "\\$"] ∧
      c.args = ["x", "y", "<${body}=z>", "!"] ∧ b.args.length = c.args.length := by
  have bound : brackets.bind "brackets" (bracketsCall ["${x}", "%"] "${@files}$" "\\$") =
      .ok ⟨"brackets", "show", ["${x}", "%", "<${body}=${@files}$>", "\\$"], [], none, none, []⟩ :=
    toOption_eq_some.1 (by decide +kernel)
  have other : brackets.bind "brackets" (bracketsCall ["x", "y"] "z" "!") =
      .ok ⟨"brackets", "show", ["x", "y", "<${body}=z>", "!"], [], none, none, []⟩ :=
    toOption_eq_some.1 (by decide +kernel)
  have same : (bracketsCall ["${x}", "%"] "${@files}$" "\\$").Related Parameter.SameShape
      (bracketsCall ["x", "y"] "z" "!") := by
    unfold bracketsCall Dict.ofList
    refine (((Dict.related_empty.insert _ ?_).insert _ ?_).insert _ ?_).insert _ ?_
    · exact .list rfl
    · exact .text Iff.rfl
    · exact .text (by decide)
    · exact .text (by decide)
  obtain ⟨_, _, _, shapes⟩ := bind_args_spliced bound
  obtain ⟨args, _, length, _, given⟩ := shapes _ same
  refine ⟨_, _, bound, other, rfl, rfl, ?_⟩
  rw [given _ other]
  exact length.symm

end Template
end ScopedCommands
