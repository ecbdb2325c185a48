import ScopedCommands.Proofs.Lockstep.Run

namespace ScopedCommands

inductive Piece
  | constant (text : String)
  | process (name : String)
deriving DecidableEq

namespace Piece

def value (environment : Dict String) : Piece → String
  | constant text => text
  | process name => (environment.get? name).getD ""

def render (environment : Dict String) : List Piece → String
  | [] => ""
  | p :: rest => p.value environment ++ render environment rest

theorem render_append (environment : Dict String) (p q : List Piece) :
    render environment (p ++ q) = render environment p ++ render environment q := by
  induction p with
  | nil => simp [render]
  | cons first rest ih => rw [List.cons_append, render, render, ih, String.append_assoc]

theorem render_singleton (environment : Dict String) (p : Piece) :
    render environment [p] = p.value environment := by
  simp [render]

end Piece

/-- One sequence of constants and listed names gives both texts. -/
def Inert (listed : String → Prop) (first second : Dict String) (v w : String) : Prop :=
  ∃ pieces : List Piece, (∀ name, .process name ∈ pieces → listed name) ∧
    v = Piece.render first pieces ∧ w = Piece.render second pieces

section

variable {listed : String → Prop} {first second : Dict String}

theorem inert_constant (text : String) : Inert listed first second text text := by
  refine ⟨[.constant text], by simp, ?_, ?_⟩
  · rw [Piece.render_singleton, Piece.value]
  · rw [Piece.render_singleton, Piece.value]

theorem inert_process {name : String} (named : listed name) :
    Inert listed first second ((first.get? name).getD "") ((second.get? name).getD "") := by
  refine ⟨[.process name], by simpa using named, ?_, ?_⟩
  · rw [Piece.render_singleton, Piece.value]
  · rw [Piece.render_singleton, Piece.value]

theorem congruent_inert : Congruent (Inert listed first second) where
  refl := inert_constant
  append := by
    rintro _ _ _ _ ⟨p, named, rfl, rfl⟩ ⟨q, also, rfl, rfl⟩
    refine ⟨p ++ q, fun name member => ?_, (Piece.render_append ..).symm,
      (Piece.render_append ..).symm⟩
    rcases List.mem_append.1 member with inFirst | inSecond
    · exact named name inFirst
    · exact also name inSecond

theorem Setting.related_of_sameNames (automatic : Dict String)
    (sameNames : ∀ name, first.contains name = second.contains name) :
    Setting.Related (· = ·) (Inert listed first second) listed ⟨⟨[]⟩, first, automatic⟩
      ⟨⟨[]⟩, second, automatic⟩ where
  errors _ := rfl
  texts := congruent_inert
  checks _ _ _ _ := rfl
  automatic := Dict.related_refl inert_constant automatic
  isSet name _ := sameNames name
  reads _ named := inert_process named
  denies scope user name := by
    unfold ExpansionError.denial
    rw [sameNames name]

end

theorem ResolveError.Along.eq {e f : ResolveError} (h : e.Along (· = ·) f) : e = f := by
  cases h with
  | same => rfl
  | expansion scope field causes => rw [causes]

/-- The same shape, with texts that differ in the values of the environment only. -/
structure Resolution.Inert (listed : String → Prop) (first second : Dict String)
    (x y : Resolution) : Prop where
  globals : x.globals.Related (ScopedCommands.Inert listed first second) listed y.globals
  groups : List.Forall₂
    (ResolvedGroup.Related (ScopedCommands.Inert listed first second) listed) x.groups y.groups
  warnings : x.warnings = y.warnings
  failures : x.failures = y.failures

theorem Safeguard.compile_of_unchecked {set : RuleSet} (unchecked : set.enabled = [])
    (matcher : Matcher) : compile set matcher = .ok ⟨[]⟩ := by
  rw [compile, unchecked]
  rfl

def ResolveOptions.unchecked : ResolveOptions := { keepGoing := true, rules := ⟨"none", []⟩ }

namespace Config

open ResolveOptions (unchecked)

/-- Runs without rules in environments that set the same names have the same shape or the same
error, and no value of the environment is interpreted. -/
theorem resolve_values_inert (c : Config) (templates : Registry) (o : ResolveOptions)
    (unchecked : o.rules.enabled = []) (first second : Dict String)
    (sameNames : ∀ name, first.contains name = second.contains name) :
    Lockstep (· = ·) (Resolution.Inert (· ∈ c.listed) first second)
      (c.resolve templates { o with environment := first })
      (c.resolve templates { o with environment := second }) := by
  have settings : Lockstep (ResolveError.Along (· = ·))
      (Setting.Related (· = ·) (Inert (· ∈ c.listed) first second) (· ∈ c.listed))
      (setting { o with environment := first }) (setting { o with environment := second }) := by
    unfold setting
    rw [Safeguard.compile_of_unchecked unchecked o.matcher]
    exact .ok (Setting.related_of_sameNames o.automatic sameNames)
  have runs := resolve_lockstep c templates settings rfl rfl
  refine runs.imp (fun _ _ along => along.eq) fun x y related => ?_
  refine ⟨related.globals, related.groups, related.warnings, ?_⟩
  have failures := related.failures.imp fun _ _ along => along.eq
  rwa [List.forall₂_eq_eq_eq] at failures

def echoed : Config where
  globals := { allowlist := some ["INPUT"], imports := ["RAW=INPUT"], vars := ["COPY=<%{RAW}>"] }
  groups := [{
    name := "tools"
    vars := ["TWICE=%{COPY}%{COPY}"]
    commands := [
      { name := "show", cmd := some "echo", args := some ["%{TWICE}", "\\%{RAW}"] },
      { name := "broken", cmd := some "%{MISSING}" }] }]

/-- The first input is a reference to the variable that it is imported as. -/
theorem resolve_values_inert_echoed :
    let first := Dict.ofList [("INPUT", "%{RAW}\\")]
    let second := Dict.ofList [("INPUT", "plain")]
    unchecked.rules.enabled = [] ∧ (∀ name, first.contains name = second.contains name) ∧
      Lockstep (· = ·) (Resolution.Inert (· ∈ echoed.listed) first second)
        (echoed.resolve .empty { unchecked with environment := first })
        (echoed.resolve .empty { unchecked with environment := second }) := by
  intro first second
  have sameNames : ∀ name, first.contains name = second.contains name := by
    intro name
    have one (value : String) : (Dict.ofList [("INPUT", value)]).contains name =
        decide (name = "INPUT") := by
      by_cases input : name = "INPUT"
      · simp [Dict.ofList, Dict.contains, Dict.get?_insert, input]
      · simp [Dict.ofList, Dict.contains, Dict.get?_insert, Dict.get?_empty, input]
    rw [one, one]
  exact ⟨rfl, sameNames, echoed.resolve_values_inert .empty unchecked rfl first second sameNames⟩

example :
    (echoed.resolve .empty { unchecked with
      environment := Dict.ofList [("INPUT", "%{RAW}\\")] }).toOption.map
        (fun r => (r.commands.map (·.args), r.failures.length)) =
      some ([["<%{RAW}\\><%{RAW}\\>", "%{RAW}"]], 1) := by
  decide +kernel

end Config
end ScopedCommands
