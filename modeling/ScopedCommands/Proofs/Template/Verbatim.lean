import ScopedCommands.Proofs.Reference.Escaping
import ScopedCommands.Proofs.Template.Binding
import ScopedCommands.Resolution.Scope

/-!
Literal text through both grammars. A backslash belongs to both: binding takes those before a
dollar sign and leaves pairs and those before a percent sign to the expansion, which takes the rest.
So a text with a backslash before each of the three signs is bound to its escaped form and resolved
to itself.
-/
namespace ScopedCommands

open Outcome

namespace Placeholder

def verbatimChar (c : Char) : List Char :=
  if c = '\\' ∨ c = '%' ∨ c = '$' then ['\\', c] else [c]

def verbatim (text : String) : String := String.ofList (text.toList.flatMap verbatimChar)

def verbatimItems (c : Char) : List Item :=
  if c = '\\' then [.pair]
  else if c = '%' then [.plain '\\', .plain '%']
  else if c = '$' then [.dollar]
  else [.plain c]

theorem scan_verbatim (field : String) (cs : List Char) :
    scan field (cs.flatMap verbatimChar) = .ok (cs.flatMap verbatimItems) := by
  induction cs with
  | nil => rw [List.flatMap_nil, scan, List.flatMap_nil]
  | cons c cs ih =>
    rw [List.flatMap_cons, List.flatMap_cons]
    generalize cs.flatMap verbatimChar = rest at ih ⊢
    by_cases backslash : c = '\\'
    · subst backslash
      simp [verbatimChar, scan, ih, verbatimItems, Except.map]
    by_cases percent : c = '%'
    · subst percent
      simp [verbatimChar, scan, ih, verbatimItems, Except.map]
    by_cases dollar : c = '$'
    · subst dollar
      simp [verbatimChar, scan, ih, verbatimItems, Except.map]
    simp [verbatimChar, scan, ih, verbatimItems, Except.map, backslash, percent, dollar]

def literalParts (cs : List Char) : List FieldPart :=
  if cs = [] then [] else [.text (String.ofList cs)]

theorem prepend_literalParts {cs : List Char} (some : cs ≠ []) (ds : List Char) :
    prepend cs (literalParts ds) = literalParts (cs ++ ds) := by
  have more : cs ++ ds ≠ [] := List.append_ne_nil_of_left_ne_nil some ds
  rw [literalParts, literalParts, if_neg more]
  split
  next none =>
    rw [none, List.append_nil, prepend]
    intro text rest impossible
    cases impossible
  next => rw [prepend, String.ofList_append]

theorem prepend_prepend (cs ds : List Char) (parts : List FieldPart) :
    prepend cs (prepend ds parts) = prepend (cs ++ ds) parts := by
  rcases parts with _ | ⟨text | p, rest⟩
  · simp [prepend, String.ofList_append]
  · simp [prepend, String.ofList_append, String.append_assoc]
  · simp [prepend, String.ofList_append]

theorem merge_verbatimItems (c : Char) (items : List Item) :
    merge (verbatimItems c ++ items) =
      prepend (if c = '%' ∨ c = '\\' then ['\\', c] else [c]) (merge items) := by
  unfold verbatimItems
  by_cases backslash : c = '\\'
  · subst backslash
    rfl
  by_cases percent : c = '%'
  · subst percent
    exact prepend_prepend ['\\'] ['%'] (merge items)
  by_cases dollar : c = '$'
  · subst dollar
    rfl
  simp [backslash, percent, dollar, merge]

theorem merge_verbatim (cs : List Char) :
    merge (cs.flatMap verbatimItems) =
      literalParts (cs.flatMap fun c => if c = '%' ∨ c = '\\' then ['\\', c] else [c]) := by
  induction cs with
  | nil => rfl
  | cons c cs ih =>
    rw [List.flatMap_cons, List.flatMap_cons, merge_verbatimItems, ih, prepend_literalParts]
    split <;> exact List.cons_ne_nil _ _

theorem parse_verbatim (text : String) :
    parse (verbatim text) = .ok (literalParts (Reference.escape text).toList) := by
  rw [parse, verbatim, String.toList_ofList, scan_verbatim, Reference.escape, String.toList_ofList,
    ← merge_verbatim]
  rfl

theorem sole_literalParts (cs : List Char) : sole (literalParts cs) = none := by
  unfold literalParts
  split <;> rfl

end Placeholder

namespace Template.Call

variable (call : Call)

theorem run_text_literalParts (field : String) (cs : List Char) (used : NameSet) :
    (call.text field (Placeholder.literalParts cs)).run used = .ok (String.ofList cs, used) := by
  unfold Placeholder.literalParts
  split
  next none =>
    subst none
    rfl
  next => exact congrArg (fun value => Except.ok (value, used)) String.append_empty

theorem run_several_verbatim (text field : String) (used : NameSet) :
    (call.several (Placeholder.verbatim text) field).run used =
      .ok ([Reference.escape text], used) := by
  unfold several parseField
  refine run_bind_eq_ok.2 ⟨Placeholder.literalParts (Reference.escape text).toList, used,
    run_lift_eq_ok.2 ⟨?_, rfl⟩, ?_⟩
  · rw [Placeholder.parse_verbatim, mapError_ok]
  · rw [Placeholder.sole_literalParts]
    refine run_bind_eq_ok.2 ⟨_, used, call.run_text_literalParts field _ used, ?_⟩
    rw [String.ofList_toList]
    rfl

inductive EachArgument (call : Call) : Nat → List String → List (List String) → Prop where
  | nil (index : Nat) : EachArgument call index [] []
  | cons {index : Nat} {raw : String} {rest values : List String} {lists : List (List String)}
      {used noted : NameSet}
      (first : (call.several raw s!"args[{index}]").run used = .ok (values, noted))
      (later : EachArgument call (index + 1) rest lists) :
      EachArgument call index (raw :: rest) (values :: lists)

theorem eachArgument_of_args {call : Call} {index : Nat} {raws values : List String}
    {used after : NameSet} (bound : (call.args index raws).run used = .ok (values, after)) :
    ∃ lists, call.EachArgument index raws lists ∧ values = lists.flatten := by
  induction raws generalizing index values used with
  | nil =>
    cases bound
    exact ⟨[], .nil index, rfl⟩
  | cons raw rest ih =>
    obtain ⟨own, noted, first, tail⟩ := run_bind_eq_ok.1 bound
    obtain ⟨others, _, later, done⟩ := run_bind_eq_ok.1 tail
    cases done
    obtain ⟨lists, each, rfl⟩ := ih later
    exact ⟨own :: lists, .cons first each, rfl⟩

theorem EachArgument.verbatim {call : Call} {index i : Nat} {raws : List String}
    {lists : List (List String)} {text : String} (h : call.EachArgument index raws lists)
    (given : raws[i]? = some (Placeholder.verbatim text)) :
    lists[i]? = some [Reference.escape text] := by
  induction h generalizing i with
  | nil => cases given
  | @cons index raw rest values lists used noted first _ ih =>
    cases i with
    | succ i => exact ih given
    | zero =>
      cases Option.some.inj given
      rw [run_several_verbatim] at first
      cases first
      rfl

end Template.Call

/-- A verbatim argument of a template is bound to one value, whatever the parameters are, and this
value resolves to the text itself in every scope. -/
theorem Template.verbatim_argument_resolves_to_itself (text : String) {t : Template} {name : String}
    {params : Dict Parameter} {b : BoundCommand} (bound : t.bind name params = .ok b) {i : Nat}
    (given : t.args[i]? = some (Placeholder.verbatim text)) :
    ∃ lists value, Call.EachArgument ⟨name, params⟩ 0 t.args lists ∧ b.args = lists.flatten ∧
      lists[i]? = some [value] ∧
      ∀ (s : Setting) (scope : Scope) (parents : List Scope) (field : String),
        s.expandField scope parents field value = .ok text := by
  obtain ⟨_, _, args⟩ := args_of_bind bound
  obtain ⟨lists, each, whole⟩ := Call.eachArgument_of_args args
  refine ⟨lists, Reference.escape text, each, whole, each.verbatim given, ?_⟩
  intro s scope parents field
  rw [Setting.expandField, expandIn_escape, mapError_ok]

def Template.priced : Template where
  cmd := "echo"
  args := ["${@flags}", Placeholder.verbatim "100% \\ ${cost} %{HOME}"]

theorem Template.verbatim_argument_resolves_to_itself_priced :
    ∃ (b : BoundCommand) (lists : List (List String)) (value : String),
      Template.priced.bind "priced" (Dict.ofList [("flags", .list ["-n", "-e"])]) = .ok b ∧
      b.args = lists.flatten ∧ lists[1]? = some [value] ∧
      ∀ (s : Setting) (scope : Scope) (parents : List Scope) (field : String),
        s.expandField scope parents field value = .ok "100% \\ ${cost} %{HOME}" := by
  obtain ⟨b, bound⟩ : ∃ b, Template.priced.bind "priced"
      (Dict.ofList [("flags", .list ["-n", "-e"])]) = .ok b := by
    refine ⟨⟨"priced", "echo", ["-n", "-e", "100\\% \\\\ ${cost} \\%{HOME}"], [], none, none, []⟩, ?_⟩
    exact toOption_eq_some.1 (by decide +kernel)
  obtain ⟨lists, value, _, whole, one, resolves⟩ :=
    verbatim_argument_resolves_to_itself _ bound (i := 1) rfl
  exact ⟨b, lists, value, bound, whole, one, resolves⟩

end ScopedCommands
