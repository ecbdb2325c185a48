import ScopedCommands.Proofs.Resolution.Errors
import ScopedCommands.Proofs.Resolution.Sight

namespace ScopedCommands

open Outcome

/-- The text of the variable refers to the variable, and nothing else has a value for its name. -/
structure Setting.SelfReference (s : Setting) (d : ScopeDecl) (parents : List Scope)
    (name : String) : Prop where
  text : ∃ read text, d.Reads read ∧ ⟨name, text⟩ ∈ read.vars ∧ Reference.Mentions text name
  free : ∀ p ∈ parents, p.vars.contains name = false
  manual : s.automatic.contains name = false
  unlisted : (d.effective parents).allows name = false

/-- The scopes that are resolved in a run, each with the scopes around it. -/
inductive Config.Reaches (c : Config) (templates : Registry) (s : Setting) :
    ScopeDecl → List Scope → Prop where
  | globals : Reaches c templates s (.ofGlobals c.globals) []
  | group {g : GroupDecl} {globals : Scope} (member : g ∈ c.groups)
      (outer : s.resolveScope (.ofGlobals c.globals) [] = .ok globals) :
      Reaches c templates s (.ofGroup g) [globals]
  | command {g : GroupDecl} {b : CommandDecl} {globals scope : Scope} {raw : RawCommand}
      (member : g ∈ c.groups) (listed : b ∈ g.commands)
      (outer : s.resolveScope (.ofGlobals c.globals) [] = .ok globals)
      (inner : s.resolveScope (.ofGroup g) [globals] = .ok scope)
      (fields : (Setting.rawFields templates (ScopeLabel.command g.name b.name).text b).outcome =
        .ok raw) :
      Reaches c templates s (.ofCommand g.name b raw.env) [scope, globals]

def ResolveError.SelfOnly (s : Setting) (reaches : ScopeDecl → List Scope → Prop) :
    ResolveError → Prop
  | .expansion _ _ (.tooDeep _ _) => False
  | .expansion scope field (.circular chain) =>
    ∃ d parents name, reaches d parents ∧ s.SelfReference d parents name ∧
      scope = d.label.text ∧ field = s!"vars.{name}" ∧ chain = [name, name]
  | _ => True

namespace Setting

variable {s : Setting} {reaches : ScopeDecl → List Scope → Prop} {label : ScopeLabel}
  {allowlist : Allowlist} {vars : Dict String} {parents : List Scope} {name : String}

theorem selfOnly_denial (values : Dict String) (scope field place user name : String) :
    ResolveError.SelfOnly s reaches (.expansion scope field (.denial values place user name)) := by
  unfold ExpansionError.denial
  split <;> trivial

theorem selfOnly_context {field raw : String} {cause : ExpansionError}
    (failed : expandIn (s.context label allowlist field) (s.lookup vars parents) raw =
      .error cause) (scope place : String) :
    ResolveError.SelfOnly s reaches (.expansion scope place cause) := by
  rcases (expandIn_eq_error_iff_unseen rfl).1 failed with ⟨_, _, rfl⟩ | ⟨name, _, rfl⟩
  · trivial
  · exact selfOnly_denial s.environment scope place label.text field name

theorem unset_of_seen (unseen : s.seen allowlist vars parents name = none) :
    (∀ p ∈ parents, p.vars.contains name = false) ∧ s.automatic.contains name = false ∧
      allowlist.allows name = false := by
  unfold Setting.seen visible at unseen
  cases current : vars.get? name with
  | some value => simp [current] at unseen
  | none =>
    cases outer : parents.findSome? (·.vars.get? name) with
    | some value => simp [current, outer] at unseen
    | none =>
      simp only [current, outer, Option.or_eq_none_iff, ite_eq_right_iff, reduceCtorEq,
        imp_false, Bool.not_eq_true] at unseen
      refine ⟨fun p member => ?_, ?_, unseen.2⟩
      · have unbound := List.findSome?_eq_none_iff.1 outer p member
        rw [Dict.contains, unbound]
        rfl
      · rw [Dict.contains, unseen.1]
        rfl

theorem selfReference_of_firstUnseen {d : ScopeDecl} {read : Declarations} {a : Assignment}
    (reads : d.Reads read) (declared : a ∈ read.vars)
    (first : Reference.FirstUnseen (s.seen (d.effective parents) vars parents) a.value a.name) :
    s.SelfReference d parents a.name := by
  obtain ⟨mentioned, unseen⟩ := first.unset
  obtain ⟨free, manual, unlisted⟩ := unset_of_seen unseen
  exact ⟨⟨read, a.value, reads, declared, mentioned⟩, free, manual, unlisted⟩

theorem selfOnly_stops {d : ScopeDecl} {read : Declarations} {kept : Kept} {x : ScopeEntry}
    {e : ResolveError} (reached : reaches d parents) (reads : d.Reads read)
    (listed : x ∈ read.entries) (stops : s.Stops d.label (d.effective parents) parents kept x e) :
    e.SelfOnly s reaches := by
  cases stops with
  | refused => trivial
  | valueless failed =>
    cases x with
    | imported a =>
      simp only [entryValue] at failed
      split at failed
      · cases failed
      · cases failed
        trivial
    | env a => exact selfOnly_context failed _ _
    | var a =>
      rcases entryValue_var_eq_error_iff.1 failed with ⟨_, _, rfl⟩ | ⟨name, first, rfl⟩
      · trivial
      · by_cases same : name = a.name
        · subst same
          have declared : a ∈ read.vars := by simpa [Declarations.entries] using listed
          have itself := selfReference_of_firstUnseen reads declared first
          rw [if_pos rfl]
          exact ⟨d, parents, a.name, reached, itself, rfl, rfl, rfl⟩
        · rw [if_neg same]
          exact selfOnly_denial s.environment _ _ d.label.text a.name name

theorem selfOnly_resolveScope {d : ScopeDecl} (reached : reaches d parents) :
    FailsOnly (ResolveError.SelfOnly s reaches) (s.resolveScope d parents) := by
  intro e failed
  rcases d.reads_or_misread with ⟨read, reads⟩ | ⟨field, cause, misread⟩
  · obtain ⟨before, x, after, kept, split, _, stops⟩ :=
      (resolveScope_eq_error_iff_stops reads).1 failed
    exact selfOnly_stops reached reads (by simp [split]) stops
  · rw [resolveScope_of_misread misread] at failed
    cases failed
    trivial

theorem selfOnly_expandField (scope : Scope) (parents : List Scope) (field raw : String) :
    FailsOnly (ResolveError.SelfOnly s reaches) (s.expandField scope parents field raw) := by
  intro e failed
  obtain ⟨cause, own, rfl⟩ := mapError_eq_error.1 failed
  exact selfOnly_context own _ _

theorem selfOnly_resolveCommand {templates : Registry} {g : Enclosing} {c : CommandDecl}
    (reached : ∀ raw, (rawFields templates (g.label c) c).outcome = .ok raw →
      reaches (.ofCommand g.group c raw.env) g.parents) :
    (s.resolveCommand templates g c).FailsOnly (ResolveError.SelfOnly s reaches) := by
  unfold resolveCommand
  refine (Step.failsOnly_ofExcept (failsOnly_mapError (fun _ => trivial) _)).bind fun _ _ => ?_
  have bound : ResolveError.OfTemplates (ResolveError.SelfOnly s reaches) (g.label c) :=
    ⟨fun _ => trivial, fun _ => trivial⟩
  refine (failsOnly_rawFields templates c bound).bind fun raw given => ?_
  apply failsOnly_resolveRaw
  · exact failsOnly_mapError (fun _ => trivial) _
  · exact selfOnly_resolveScope (reached raw given)
  · exact fun scope _ => selfOnly_expandField scope g.parents

end Setting

namespace Config

variable {c : Config} {templates : Registry} {o : ResolveOptions} {s : Setting} {globals : Scope}

theorem selfOnly_run (outer : s.resolveScope (.ofGlobals c.globals) [] = .ok globals) :
    (c.run templates o s globals).FailsOnly (ResolveError.SelfOnly s (c.Reaches templates s)) := by
  apply failsOnly_run
  intro g member
  apply Setting.failsOnly_resolveGroup
  · exact Setting.selfOnly_resolveScope (.group member outer)
  · exact fun scope _ => Setting.selfOnly_expandField scope [globals]
  · intro scope workdir inner b listed
    exact Setting.selfOnly_resolveCommand fun raw fields =>
      .command member listed outer inner fields

theorem selfOnly_of_reports {e : ResolveError} (h : c.Reports templates o e) :
    (∀ scope field cause, e ≠ .expansion scope field cause) ∨
      ∃ s, setting o = .ok s ∧ e.SelfOnly s (c.Reaches templates s) := by
  rcases h.cases with ⟨_, rfl⟩ | ⟨_, rfl⟩ | ⟨s, set, failed | ⟨globals, outer, member⟩⟩
  · exact .inl fun _ _ _ impossible => by cases impossible
  · exact .inl fun _ _ _ impossible => by cases impossible
  · exact .inr ⟨s, set, Setting.selfOnly_resolveScope .globals e failed⟩
  · exact .inr ⟨s, set, (selfOnly_run outer).allFailures e member⟩

/-- No run goes too deep, and a cycle that is reported is a variable that refers to itself without
a value to refer to. A variable fails for the first name in its text that it does not see: with a
cycle for its own name, and without one for any other. -/
theorem resolve_circular_self :
    (∀ (c : Config) (templates : Registry) (o : ResolveOptions) (e : ResolveError),
      c.Reports templates o e →
      (∀ scope field name limit, e ≠ .expansion scope field (.tooDeep name limit)) ∧
      ∀ scope field chain, e = .expansion scope field (.circular chain) →
        ∃ s d parents name, setting o = .ok s ∧ c.Reaches templates s d parents ∧
          s.SelfReference d parents name ∧ scope = d.label.text ∧ field = s!"vars.{name}" ∧
          chain = [name, name]) ∧
    ∀ (s : Setting) (d : ScopeDecl) (parents : List Scope) (read : Declarations)
      (before after : List ScopeEntry) (a : Assignment) (kept : Kept) (name : String),
      d.Reads read → read.entries = before ++ .var a :: after →
      s.Keeps d.label (d.effective parents) parents {} before kept →
      Reference.FirstUnseen (s.seen (d.effective parents) kept.vars parents) a.value name →
      s.resolveScope d parents = .error (.expansion d.label.text s!"vars.{a.name}"
        (if name = a.name then .circular [a.name, a.name]
          else if s.environment.contains name then .notAllowed d.label.text a.name name
          else .undefined name)) := by
  constructor
  · intro c templates o e reported
    rcases selfOnly_of_reports reported with other | ⟨s, set, only⟩
    · exact ⟨fun scope field _ _ => other scope field _,
        fun scope field _ same => absurd same (other scope field _)⟩
    · refine ⟨?_, ?_⟩
      · rintro scope field name limit rfl
        exact only
      · rintro scope field chain rfl
        obtain ⟨d, parents, name, reached, itself, place⟩ := only
        exact ⟨s, d, parents, name, set, reached, itself, place⟩
  · intro s d parents read before after a kept name reads split values first
    refine (Setting.resolveScope_eq_error_iff_stops reads).2
      ⟨before, .var a, after, kept, split, values, .valueless ?_⟩
    exact Setting.entryValue_var_eq_error_iff.2 (.inr ⟨name, first, rfl⟩)

def ahead : Config where
  groups := [{ name := "a", vars := ["A=%{A}"] }, { name := "b", vars := ["A=a", "B=%{A}%{C}", "C=c"] }]

theorem resolve_circular_self_ahead :
    (∃ s d parents, setting { keepGoing := true } = .ok s ∧ ahead.Reaches .empty s d parents ∧
      s.SelfReference d parents "A") ∧
    Setting.resolveScope ⟨⟨[]⟩, .empty, .empty⟩
        { label := .group "b", vars := ["A=a", "B=%{A}%{C}", "C=c"] } [] =
      .error (.expansion "group:b" "vars.B" (.undefined "C")) := by
  constructor
  · obtain ⟨r, resolved, failures⟩ : ∃ r, ahead.resolve .empty { keepGoing := true } = .ok r ∧
        r.failures = [.expansion "group:a" "vars.A" (.circular ["A", "A"]),
          .expansion "group:b" "vars.B" (.undefined "C")] :=
      map_toOption_eq_some.1 (by decide +kernel)
    have reported : ahead.Reports .empty { keepGoing := true }
        (.expansion "group:a" "vars.A" (.circular ["A", "A"])) :=
      .inr ⟨r, resolved, by simp [failures]⟩
    obtain ⟨s, d, parents, name, set, reached, itself, _, _, chain⟩ :=
      (resolve_circular_self.1 _ _ _ _ reported).2 _ _ _ rfl
    cases chain
    exact ⟨s, d, parents, set, reached, itself⟩
  · let s : Setting := ⟨⟨[]⟩, .empty, .empty⟩
    let d : ScopeDecl := { label := .group "b", vars := ["A=a", "B=%{A}%{C}", "C=c"] }
    let kept : Kept := { vars := Dict.ofList [("A", "a")] }
    have reads : d.Reads ⟨[], [⟨"A", "a"⟩, ⟨"B", "%{A}%{C}"⟩, ⟨"C", "c"⟩], []⟩ :=
      ScopeDecl.declarations_eq_ok_iff.1 (toOption_eq_some.1 (by decide +kernel))
    have values : s.Keeps d.label (d.effective []) [] {} [.var ⟨"A", "a"⟩] kept :=
      Setting.foldlM_keep_eq_ok.1 (toOption_eq_some.1 (by decide +kernel))
    have first : Reference.FirstUnseen (s.seen (d.effective []) kept.vars []) "%{A}%{C}" "C" := by
      refine ⟨[.reference "A" 0], 4, [], toOption_eq_some.1 (by decide +kernel), ?_, by decide⟩
      intro earlier place member
      cases List.mem_singleton.1 member
      decide
    exact resolve_circular_self.2 s d [] _ _ _ ⟨"B", "%{A}%{C}"⟩ kept "C" reads rfl values first

end Config
end ScopedCommands
