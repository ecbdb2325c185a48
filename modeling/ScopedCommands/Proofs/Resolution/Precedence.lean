import ScopedCommands.Proofs.Resolution.InOrder
import ScopedCommands.Time.Instant

namespace ScopedCommands

open Outcome

namespace Setting

inductive Stack (s : Setting) : List (ScopeDecl × Scope) → Prop where
  | nil : Stack s []
  | cons {d : ScopeDecl} {scope : Scope} {outer : List (ScopeDecl × Scope)} (around : Stack s outer)
      (resolved : s.resolveScope d (outer.map (·.2)) = .ok scope) : Stack s ((d, scope) :: outer)

def listed (stack : List (ScopeDecl × Scope)) : List String :=
  (stack.findSome? (·.1.allowlist)).getD []

/-- What a reference to the name gives in the innermost scope. -/
def answer (s : Setting) (stack : List (ScopeDecl × Scope)) (label : ScopeLabel)
    (field name : String) : Except ResolveError String :=
  match stack.findSome? (·.2.vars.get? name) with
  | some value => .ok value
  | none =>
    match s.automatic.get? name with
    | some value => .ok value
    | none =>
      if name ∈ listed stack then .ok ((s.environment.get? name).getD "")
      else if s.environment.contains name then
        .error (.expansion label.text field (.notAllowed label.text field name))
      else .error (.expansion label.text field (.undefined name))

variable {s : Setting} {stack outer : List (ScopeDecl × Scope)} {d : ScopeDecl} {top : Scope}
  {name : String}

theorem Stack.allows_iff (stacked : s.Stack ((d, top) :: outer)) :
    top.allowlist.allows name = true ↔ name ∈ listed ((d, top) :: outer) := by
  induction outer generalizing d top with
  | nil =>
    cases stacked with
    | cons around resolved =>
      rw [allowlist_of_resolveScope resolved, Allowlist.allows_resolve_iff]
      unfold listed
      rw [List.findSome?_cons]
      cases d.allowlist with
      | none => simp
      | some names => exact .rfl
  | cons next outer ih =>
    cases stacked with
    | cons around resolved =>
      rw [allowlist_of_resolveScope resolved, Allowlist.allows_resolve_iff]
      have inherited := ih around
      unfold listed at inherited ⊢
      rw [List.findSome?_cons]
      cases d.allowlist with
      | none => simp [inherited]
      | some names => exact .rfl

theorem contains_of_reserved {parents : List Scope} {scope : Scope}
    (resolved : s.resolveScope d parents = .ok scope) (reserved : Name.isReserved name = true) :
    scope.vars.contains name = false := by
  obtain ⟨read, reads⟩ := reads_of_resolveScope resolved
  rw [Bool.eq_false_iff, ne_eq, (names_of_resolveScope reads resolved name).1]
  intro declared
  obtain ⟨a, member, rfl⟩ := List.mem_map.1 declared
  have parsed := ScopeDecl.declarations_eq_ok_iff.2 reads
  have checked := ScopeDecl.check_of_declarations parsed a member
  rw [Name.isReserved_eq_false_of_check checked] at reserved
  cases reserved

theorem Stack.contains_of_reserved (stacked : s.Stack stack) {x : ScopeDecl × Scope}
    (listed : x ∈ stack) (reserved : Name.isReserved name = true) :
    x.2.vars.contains name = false := by
  induction stacked with
  | nil => cases listed
  | cons around resolved ih =>
    rcases List.mem_cons.1 listed with rfl | further
    · exact Setting.contains_of_reserved resolved reserved
    · exact ih further

theorem expandField_eq_answer (stacked : s.Stack ((d, top) :: outer)) (field : String)
    (word : Reference.IsWord name) :
    s.expandField top (outer.map (·.2)) field (Reference.written name) =
      s.answer ((d, top) :: outer) top.label field name := by
  have nearest : ((d, top) :: outer).findSome? (·.2.vars.get? name) =
      (top.vars.get? name).or ((outer.map (·.2)).findSome? (·.vars.get? name)) := by
    rw [List.findSome?_cons, List.findSome?_map]
    cases top.vars.get? name <;> rfl
  have allowed : top.allowlist.allows name = true ↔ name ∈ listed ((d, top) :: outer) :=
    stacked.allows_iff
  unfold expandField answer
  rw [expandIn_written rfl word, nearest, refusal_context]
  unfold seen visible ExpansionError.denial
  cases top.vars.get? name with
  | some value => rfl
  | none =>
    cases (outer.map (·.2)).findSome? (·.vars.get? name) with
    | some value => rfl
    | none =>
      cases s.automatic.get? name with
      | some value => rfl
      | none =>
        simp only [allowed, Option.none_or]
        by_cases known : name ∈ listed ((d, top) :: outer)
        · rw [if_pos known, if_pos known]
          rfl
        · rw [if_neg known, if_neg known]
          cases s.environment.contains name <;> rfl

theorem answer_of_reserved (stacked : s.Stack stack) (reserved : Name.isReserved name = true)
    {value : String} (has : s.automatic.get? name = some value) (label : ScopeLabel)
    (field : String) : s.answer stack label field name = .ok value := by
  have unset : stack.findSome? (·.2.vars.get? name) = none := by
    refine List.findSome?_eq_none_iff.2 fun x listed => ?_
    have free := stacked.contains_of_reserved listed reserved
    simpa [Dict.contains] using free
  unfold answer
  rw [unset, has]

/-- The order in which a name is looked for in scopes around one another. Automatic variables are
never hidden. -/
theorem expandField_precedence (stacked : s.Stack ((d, top) :: outer)) (field : String) :
    (∀ name, Reference.IsWord name →
      s.expandField top (outer.map (·.2)) field (Reference.written name) =
        s.answer ((d, top) :: outer) top.label field name) ∧
    (∀ x ∈ (d, top) :: outer, ∀ name, Name.isReserved name = true →
      x.2.vars.contains name = false) ∧
    ∀ now pid, s.automatic = Automatic.vars now pid →
      s.expandField top (outer.map (·.2)) field "%{__runner_datetime}" = .ok now.stamp ∧
        s.expandField top (outer.map (·.2)) field "%{__runner_pid}" = .ok (toString pid) := by
  refine ⟨fun name word => expandField_eq_answer stacked field word,
    fun x listed name reserved => stacked.contains_of_reserved listed reserved, ?_⟩
  intro now pid provided
  have stamped := Automatic.get?_datetime now pid
  have numbered := Automatic.get?_pid now pid
  rw [← provided] at stamped numbered
  have datetime : Reference.IsWord Automatic.datetimeName := by decide
  have process : Reference.IsWord Automatic.pidName := by decide
  constructor
  · refine (expandField_eq_answer stacked field datetime).trans ?_
    exact answer_of_reserved stacked (by decide) stamped top.label field
  · refine (expandField_eq_answer stacked field process).trans ?_
    exact answer_of_reserved stacked (by decide) numbered top.label field

def started : Setting where
  safeguard := ⟨[]⟩
  environment := Dict.ofList [("TERM", "xterm"), ("USER", "me")]
  automatic := Automatic.vars { seconds := 86400 } 7

def startedScopes : List ScopeDecl :=
  [{ label := .command "g" "c", vars := ["NAME=inner"] },
    { label := .group "g", allowlist := some ["TERM"], vars := ["NAME=outer", "LOG=%{TERM}.log"] },
    { label := .globals, allowlist := some ["USER"], imports := ["WHO=USER"] }]

theorem expandField_precedence_started :
    ∃ command group globals, started.Stack (startedScopes.zip [command, group, globals]) ∧
      (["NAME", "LOG", "WHO", "TERM", "USER", "HOME"].map fun name =>
        started.expandField command [group, globals] "cmd" (Reference.written name)) =
        [.ok "inner", .ok "xterm.log", .ok "me", .ok "xterm",
          .error (.expansion command.label.text "cmd"
            (.notAllowed command.label.text "cmd" "USER")),
          .error (.expansion command.label.text "cmd" (.undefined "HOME"))] ∧
      started.expandField command [group, globals] "cmd" "%{__runner_datetime}" =
        .ok "19700102000000.000" ∧
      started.expandField command [group, globals] "cmd" "%{__runner_pid}" = .ok "7" := by
  let globals : Scope :=
    ⟨.globals, Dict.ofList [("WHO", "me")], .empty, .resolve (some ["USER"]) none⟩
  let group : Scope :=
    ⟨.group "g", Dict.ofList [("NAME", "outer"), ("LOG", "xterm.log")], .empty,
      .resolve (some ["TERM"]) none⟩
  let command : Scope :=
    ⟨.command "g" "c", Dict.ofList [("NAME", "inner")], .empty,
      .resolve none (some group.allowlist)⟩
  have outermost : started.Stack (startedScopes.zip [command, group, globals] |>.drop 2) :=
    .cons .nil (toOption_eq_some.1 (by decide +kernel))
  have middle : started.Stack (startedScopes.zip [command, group, globals] |>.drop 1) :=
    .cons outermost (toOption_eq_some.1 (by decide +kernel))
  have stacked : started.Stack (startedScopes.zip [command, group, globals]) :=
    .cons middle (toOption_eq_some.1 (by decide +kernel))
  obtain ⟨answers, _, provided⟩ := expandField_precedence stacked "cmd"
  obtain ⟨datetime, pid⟩ := provided { seconds := 86400 } 7 rfl
  refine ⟨command, group, globals, stacked, ?_, ?_, pid⟩
  · have each (name : String) (listed : name ∈ ["NAME", "LOG", "WHO", "TERM", "USER", "HOME"]) :
        started.expandField command [group, globals] "cmd" (Reference.written name) =
          started.answer (startedScopes.zip [command, group, globals]) command.label "cmd" name := by
      apply answers name
      revert name
      decide
    rw [List.map_congr_left each]
    decide +kernel
  · exact datetime.trans (congrArg Except.ok (by decide +kernel))

end Setting
end ScopedCommands
