import ScopedCommands.Proofs.Dict
import ScopedCommands.Proofs.Resolution.Courses
import ScopedCommands.Proofs.Resolution.Declarations
import ScopedCommands.Proofs.Template.Fitting

namespace ScopedCommands

/-- One warning for each name with a property, the names in byte order. -/
inductive Warning.Each (warn : String → Warning) (holds : String → Prop) : List Warning → Prop where
  | listed {names : List String} (ordered : names.Pairwise (· < ·))
      (mem_iff : ∀ name, name ∈ names ↔ holds name) : Each warn holds (names.map warn)

theorem Warning.each_nil {warn : String → Warning} {holds : String → Prop}
    (none : ∀ name, ¬ holds name) : Each warn holds [] := by
  have listed : Each warn holds ([].map warn) :=
    .listed .nil fun name => iff_of_false List.not_mem_nil (none name)
  exact listed

theorem Warning.Each.exists_of_mem {warn : String → Warning} {holds : String → Prop}
    {ws : List Warning} (h : Each warn holds ws) {w : Warning} (member : w ∈ ws) :
    ∃ name, holds name ∧ w = warn name := by
  cases h with
  | listed ordered mem_iff =>
    obtain ⟨name, listed, same⟩ := List.mem_map.1 member
    exact ⟨name, (mem_iff name).1 listed, same.symm⟩

/-- What is noted of each of several declarations, one after another. -/
inductive Noted {α : Type} (notes : α → List Warning → Prop) : List α → List Warning → Prop where
  | nil : Noted notes [] []
  | cons {a : α} {rest : List α} {ws vs : List Warning} (own : notes a ws)
      (later : Noted notes rest vs) : Noted notes (a :: rest) (ws ++ vs)

theorem noted_flatMap {α : Type} {notes : α → List Warning → Prop} {found : α → List Warning}
    (each : ∀ a, notes a (found a)) (l : List α) : Noted notes l (l.flatMap found) := by
  induction l with
  | nil => exact .nil
  | cons a rest ih =>
    rw [List.flatMap_cons]
    exact .cons (each a) ih

theorem Noted.exists_of_mem {α : Type} {notes : α → List Warning → Prop} {l : List α}
    {ws : List Warning} (h : Noted notes l ws) {w : Warning} (member : w ∈ ws) :
    ∃ a ∈ l, ∃ own, notes a own ∧ w ∈ own := by
  induction h with
  | nil => cases member
  | @cons a rest ws vs own later ih =>
    rcases List.mem_append.1 member with here | there
    · exact ⟨a, List.mem_cons_self, ws, own, here⟩
    · obtain ⟨b, listed, found⟩ := ih there
      exact ⟨b, List.mem_cons_of_mem a listed, found⟩

def Template.Unused (t : Template) (params : Dict Parameter) (name : String) : Prop :=
  params.contains name = true ∧ ∀ p ∈ t.placeholders, p.name ≠ name

def Setting.Unset (s : Setting) (declared : Option (List String)) (name : String) : Prop :=
  name ∈ declared.getD [] ∧ s.environment.contains name = false

/-- A list of its own with the names that are allowed anyway. -/
def GroupDecl.Redundant (g : GroupDecl) (globals : GlobalDecl) : Prop :=
  ∃ names, g.allowlist = some names ∧ names ≠ [] ∧
    ∀ name, name ∈ names ↔ name ∈ globals.allowlist.getD []

namespace Setting

def UnsetNotes (s : Setting) (label : ScopeLabel) (declared : Option (List String)) :
    List Warning → Prop :=
  Warning.Each (.unsetVariable label.text) (s.Unset declared)

/-- The warnings from the raw fields of a command on. -/
inductive RawNotes (s : Setting) (around : Enclosing) (c : CommandDecl) (raw : RawCommand) :
    List Warning → Prop where
  | badRisk {e : RiskError} (refused : RiskLevel.parseDeclared raw.riskLevel = .error e) :
      RawNotes s around c raw []
  | noScope {risk : Option RiskLevel} {e : ResolveError}
      (level : RiskLevel.parseDeclared raw.riskLevel = .ok risk)
      (failed : s.resolveScope (.ofCommand around.group c raw.env) around.parents = .error e) :
      RawNotes s around c raw []
  | resolved {risk : Option RiskLevel} {scope : Scope} {ws : List Warning}
      (level : RiskLevel.parseDeclared raw.riskLevel = .ok risk)
      (inner : s.resolveScope (.ofCommand around.group c raw.env) around.parents = .ok scope)
      (unset : s.UnsetNotes (.command around.group c.name) c.allowlist ws) :
      RawNotes s around c raw ws

inductive CommandNotes (s : Setting) (templates : Registry) (around : Enclosing) (c : CommandDecl) :
    List Warning → Prop where
  | refused {e : DeclarationError} (fields : c.checkFields around.group = .error e) :
      CommandNotes s templates around c []
  | inline {ws : List Warning} (fields : c.checkFields around.group = .ok ())
      (plain : c.template = none) (own : s.RawNotes around c c.inlineFields ws) :
      CommandNotes s templates around c ws
  | notFound {name : String} (fields : c.checkFields around.group = .ok ())
      (calls : c.template = some name) (unknown : templates.template? name = none) :
      CommandNotes s templates around c []
  | unbound {name : String} {t : Template} {e : TemplateError}
      (fields : c.checkFields around.group = .ok ()) (calls : c.template = some name)
      (known : templates.template? name = some t) (failed : t.bind name c.params = .error e) :
      CommandNotes s templates around c []
  | bound {name : String} {t : Template} {b : BoundCommand} {ws vs : List Warning}
      (fields : c.checkFields around.group = .ok ()) (calls : c.template = some name)
      (known : templates.template? name = some t) (filled : t.bind name c.params = .ok b)
      (unused : Warning.Each (.unusedParameter (around.label c) name) (t.Unused c.params) ws)
      (own : s.RawNotes around c (c.boundFields b) vs) :
      CommandNotes s templates around c (ws ++ vs)

inductive ListNotes (s : Setting) (globals : GlobalDecl) (g : GroupDecl) : List Warning → Prop where
  | redundant {ws : List Warning} (repeats : g.Redundant globals)
      (unset : s.UnsetNotes (.group g.name) g.allowlist ws) :
      ListNotes s globals g (.redundantAllowlist (ScopeLabel.group g.name).text :: ws)
  | needed {ws : List Warning} (own : ¬ g.Redundant globals)
      (unset : s.UnsetNotes (.group g.name) g.allowlist ws) : ListNotes s globals g ws

inductive GroupNotes (s : Setting) (templates : Registry) (globals : GlobalDecl) (outer : Scope)
    (g : GroupDecl) : List Warning → Prop where
  | noScope {e : ResolveError} (failed : s.resolveScope (.ofGroup g) [outer] = .error e) :
      GroupNotes s templates globals outer g []
  | noWorkdir {scope : Scope} {e : ResolveError} {ws : List Warning}
      (resolved : s.resolveScope (.ofGroup g) [outer] = .ok scope)
      (failed : s.expandWorkdir scope [outer] none g.workdir = .error e)
      (list : s.ListNotes globals g ws) : GroupNotes s templates globals outer g ws
  | visited {scope : Scope} {workdir : Option String} {ws vs : List Warning}
      (resolved : s.resolveScope (.ofGroup g) [outer] = .ok scope)
      (expanded : s.expandWorkdir scope [outer] none g.workdir = .ok workdir)
      (list : s.ListNotes globals g ws)
      (commands : Noted (s.CommandNotes templates ⟨g.name, outer, scope, workdir⟩) g.commands vs) :
      GroupNotes s templates globals outer g (ws ++ vs)

end Setting

/-- All warnings of a run: those about the global list, then those of the groups. -/
inductive Config.Notes (c : Config) (templates : Registry) (s : Setting) (outer : Scope)
    (visited : List GroupDecl) : List Warning → Prop where
  | inOrder {first own later : List Warning}
      (empty : first = if c.globals.allowlist = some [] then [.emptyGlobalAllowlist] else [])
      (unset : s.UnsetNotes .globals c.globals.allowlist own)
      (groups : Noted (s.GroupNotes templates c.globals outer) visited later) :
      Notes c templates s outer visited (first ++ own ++ later)

theorem Warning.Each.unique {warn : String → Warning} {holds : String → Prop} {ws vs : List Warning}
    (h : Each warn holds ws) (k : Each warn holds vs) : ws = vs := by
  cases h with
  | listed ordered mem_iff =>
    cases k with
    | listed ordered' mem_iff' =>
      have same := ordered.eq_of_mem_iff ordered' fun name => (mem_iff name).trans (mem_iff' name).symm
      rw [same]

theorem Noted.unique {α : Type} {notes : α → List Warning → Prop} {l : List α}
    {ws vs : List Warning} (h : Noted notes l ws) (k : Noted notes l vs)
    (each : ∀ a ws vs, notes a ws → notes a vs → ws = vs) : ws = vs := by
  induction h generalizing vs with
  | nil =>
    cases k
    rfl
  | cons own later ih =>
    cases k with
    | cons own' later' => rw [each _ _ _ own own', ih later']

namespace Setting

variable {s : Setting} {templates : Registry} {ws vs : List Warning}

theorem RawNotes.unique {around : Enclosing} {c : CommandDecl} {raw : RawCommand}
    (h : s.RawNotes around c raw ws) (k : s.RawNotes around c raw vs) : ws = vs := by
  cases h with
  | badRisk refused => cases k <;> simp_all
  | noScope level failed => cases k <;> simp_all
  | resolved level inner unset =>
    cases k with
    | resolved _ _ other => exact Warning.Each.unique unset other
    | _ => simp_all

theorem CommandNotes.unique {around : Enclosing} {c : CommandDecl}
    (h : s.CommandNotes templates around c ws) (k : s.CommandNotes templates around c vs) :
    ws = vs := by
  cases h with
  | refused fields => cases k <;> simp_all
  | inline fields plain own =>
    cases k with
    | inline _ _ other => exact own.unique other
    | _ => simp_all
  | notFound fields calls unknown => cases k <;> simp_all
  | unbound fields calls known failed => cases k <;> simp_all
  | bound fields calls known filled unused own =>
    cases k with
    | bound _ calls' known' filled' unused' own' =>
      cases calls.symm.trans calls'
      cases known.symm.trans known'
      cases filled.symm.trans filled'
      rw [unused.unique unused', own.unique own']
    | _ => simp_all

theorem ListNotes.unique {globals : GlobalDecl} {g : GroupDecl} (h : s.ListNotes globals g ws)
    (k : s.ListNotes globals g vs) : ws = vs := by
  cases h with
  | redundant repeats unset =>
    cases k with
    | redundant _ other => rw [Warning.Each.unique unset other]
    | needed own _ => exact absurd repeats own
  | needed own unset =>
    cases k with
    | redundant repeats _ => exact absurd repeats own
    | needed _ other => exact Warning.Each.unique unset other

theorem GroupNotes.unique {globals : GlobalDecl} {outer : Scope} {g : GroupDecl}
    (h : s.GroupNotes templates globals outer g ws) (k : s.GroupNotes templates globals outer g vs) :
    ws = vs := by
  cases h with
  | noScope failed => cases k <;> simp_all
  | noWorkdir resolved failed list =>
    cases k with
    | noWorkdir _ _ other => exact list.unique other
    | _ => simp_all
  | visited resolved expanded list commands =>
    cases k with
    | visited resolved' expanded' list' commands' =>
      cases resolved.symm.trans resolved'
      cases expanded.symm.trans expanded'
      rw [list.unique list', commands.unique commands' fun _ _ _ => CommandNotes.unique]
    | _ => simp_all

end Setting

theorem Config.Notes.unique {c : Config} {templates : Registry} {s : Setting} {outer : Scope}
    {visited : List GroupDecl} {ws vs : List Warning} (h : c.Notes templates s outer visited ws)
    (k : c.Notes templates s outer visited vs) : ws = vs := by
  cases h with
  | inOrder empty unset groups =>
    cases k with
    | inOrder empty' unset' groups' =>
      rw [empty, empty', unset.unique unset',
        groups.unique groups' fun _ _ _ => Setting.GroupNotes.unique]

namespace Setting

variable {s : Setting} {ws : List Warning} {label : String}

theorem UnsetNotes.not_redundant {place : ScopeLabel} {declared : Option (List String)}
    (h : s.UnsetNotes place declared ws) : .redundantAllowlist label ∉ ws := by
  intro member
  obtain ⟨name, _, same⟩ := h.exists_of_mem member
  cases same

theorem RawNotes.not_redundant {around : Enclosing} {c : CommandDecl} {raw : RawCommand}
    (h : s.RawNotes around c raw ws) : .redundantAllowlist label ∉ ws := by
  cases h with
  | badRisk _ => exact List.not_mem_nil
  | noScope _ _ => exact List.not_mem_nil
  | resolved _ _ unset => exact unset.not_redundant

theorem CommandNotes.not_redundant {templates : Registry} {around : Enclosing} {c : CommandDecl}
    (h : s.CommandNotes templates around c ws) : .redundantAllowlist label ∉ ws := by
  cases h with
  | refused _ => exact List.not_mem_nil
  | inline _ _ own => exact own.not_redundant
  | notFound _ _ _ => exact List.not_mem_nil
  | unbound _ _ _ _ => exact List.not_mem_nil
  | bound _ _ _ _ unused own =>
    intro member
    rcases List.mem_append.1 member with first | later
    · obtain ⟨name, _, same⟩ := unused.exists_of_mem first
      cases same
    · exact own.not_redundant later

theorem ListNotes.redundant_of_mem {globals : GlobalDecl} {g : GroupDecl}
    (h : s.ListNotes globals g ws) (member : .redundantAllowlist label ∈ ws) :
    label = (ScopeLabel.group g.name).text ∧ g.Redundant globals := by
  cases h with
  | redundant repeats unset =>
    rcases List.mem_cons.1 member with same | later
    · cases same
      exact ⟨rfl, repeats⟩
    · exact absurd later unset.not_redundant
  | needed _ unset => exact absurd member unset.not_redundant

theorem GroupNotes.redundant_of_mem {templates : Registry} {globals : GlobalDecl} {outer : Scope}
    {g : GroupDecl} (h : s.GroupNotes templates globals outer g ws)
    (member : .redundantAllowlist label ∈ ws) :
    label = (ScopeLabel.group g.name).text ∧ g.Redundant globals ∧
      ∃ scope, s.resolveScope (.ofGroup g) [outer] = .ok scope := by
  cases h with
  | noScope _ => cases member
  | noWorkdir resolved _ list =>
    obtain ⟨same, repeats⟩ := list.redundant_of_mem member
    exact ⟨same, repeats, _, resolved⟩
  | visited resolved _ list commands =>
    rcases List.mem_append.1 member with own | inside
    · obtain ⟨same, repeats⟩ := list.redundant_of_mem own
      exact ⟨same, repeats, _, resolved⟩
    · obtain ⟨c, _, vs, notes, found⟩ := commands.exists_of_mem inside
      exact absurd found notes.not_redundant

end Setting

theorem Config.Notes.redundant_of_mem {c : Config} {templates : Registry} {s : Setting}
    {outer : Scope} {visited : List GroupDecl} {ws : List Warning} {label : String}
    (h : c.Notes templates s outer visited ws) (member : .redundantAllowlist label ∈ ws) :
    ∃ g ∈ visited, label = (ScopeLabel.group g.name).text ∧ g.Redundant c.globals ∧
      ∃ scope, s.resolveScope (.ofGroup g) [outer] = .ok scope := by
  cases h with
  | inOrder empty unset groups =>
    rcases List.mem_append.1 member with start | later
    · rcases List.mem_append.1 start with first | own
      · rw [empty] at first
        split at first
        · simp at first
        · cases first
      · exact absurd own unset.not_redundant
    · obtain ⟨g, listed, vs, notes, found⟩ := groups.exists_of_mem later
      exact ⟨g, listed, notes.redundant_of_mem found⟩

namespace Allowlist

theorem resolve_own {names : List String} (some : names ≠ []) (enclosing : Option Allowlist) :
    resolve (.some names) enclosing = ⟨.explicit, .ofNames names⟩ := by
  cases names with
  | nil => exact absurd rfl some
  | cons first rest => rfl

theorem own_of_explicit {declared : Option (List String)} {enclosing : Option Allowlist}
    (mode : (resolve declared enclosing).mode = .explicit) :
    ∃ names, declared = some names ∧ names ≠ [] := by
  rcases declared with _ | _ | ⟨first, rest⟩
  · cases mode
  · cases mode
  · exact ⟨first :: rest, rfl, List.cons_ne_nil first rest⟩

theorem names_resolve_none (declared : Option (List String)) :
    (resolve declared .none).names = .ofNames (declared.getD []) := by
  rcases declared with _ | _ | ⟨first, rest⟩ <;> rfl

end Allowlist

theorem Template.unusedParams_of_bind {t : Template} {name : String} {params : Dict Parameter}
    {b : BoundCommand} (bound : t.bind name params = .ok b) :
    b.unusedParams = params.keys.filter fun given => t.placeholders.all (·.name ≠ given) := by
  obtain ⟨_, rfl⟩ := eq_filled_of_bind bound
  rfl

theorem Template.unused_of_bind {t : Template} {name : String} {params : Dict Parameter}
    {b : BoundCommand} (bound : t.bind name params = .ok b) (warn : String → Warning) :
    Warning.Each warn (t.Unused params) (b.unusedParams.map warn) := by
  rw [unusedParams_of_bind bound]
  apply Warning.Each.listed
  · exact params.keys_pairwise.filter _
  · intro given
    rw [List.mem_filter, Dict.mem_keys_iff]
    simp [Unused]

namespace Setting

variable {s : Setting}

theorem unsetNotes (s : Setting) {scope : Scope} {declared : Option (List String)}
    {enclosing : Option Allowlist} (own : scope.allowlist = Allowlist.resolve declared enclosing) :
    s.UnsetNotes scope.label declared (s.unsetNames scope).warnings := by
  unfold unsetNames
  rw [own]
  rcases declared with _ | _ | ⟨first, rest⟩
  · exact Warning.each_nil fun name unset => List.not_mem_nil unset.1
  · exact Warning.each_nil fun name unset => List.not_mem_nil unset.1
  · apply Warning.Each.listed
    · exact (Dict.keys_pairwise _).filter _
    · intro name
      have member : name ∈ (NameSet.ofNames (first :: rest)).keys ↔ name ∈ first :: rest := by
        rw [Dict.mem_keys_iff, NameSet.contains_ofNames]
      unfold Unset Allowlist.toList
      rw [List.mem_filter, Option.getD_some, ← member]
      simp [Allowlist.resolve]

theorem rawNotes (s : Setting) (around : Enclosing) (c : CommandDecl) (raw : RawCommand) :
    s.RawNotes around c raw (s.resolveRaw around c raw).findings.warnings := by
  unfold resolveRaw
  cases level : RiskLevel.parseDeclared raw.riskLevel with
  | error e => exact .badRisk level
  | ok risk =>
    rw [Outcome.mapError_ok, Step.ofExcept_ok_bind]
    cases inner : s.resolveScope (.ofCommand around.group c raw.env) around.parents with
    | error e => exact .noScope level inner
    | ok scope =>
      have label : scope.label = .command around.group c.name := label_of_resolveScope inner
      have unset := s.unsetNotes (allowlist_of_resolveScope inner)
      rw [label] at unset
      rw [Step.ofExcept_ok_bind, Step.note_bind]
      simp only [Step.ofExcept, Findings.append_empty]
      exact .resolved level inner unset

theorem commandNotes (s : Setting) (templates : Registry) (around : Enclosing) (c : CommandDecl) :
    s.CommandNotes templates around c (s.resolveCommand templates around c).findings.warnings := by
  unfold resolveCommand
  cases fields : c.checkFields around.group with
  | error e => exact .refused fields
  | ok =>
    rw [Outcome.mapError_ok, Step.ofExcept_ok_bind]
    cases calls : c.template with
    | none =>
      have raw : rawFields templates (around.label c) c = ⟨{}, .ok c.inlineFields⟩ := by
        simp only [rawFields, calls]
        rfl
      rw [raw, Step.bind_of_ok rfl]
      exact .inline fields calls (s.rawNotes around c c.inlineFields)
    | some name =>
      cases known : templates.template? name with
      | none =>
        have raw : rawFields templates (around.label c) c =
            ⟨{}, .error (.templateNotFound (around.label c) name)⟩ := by
          simp only [rawFields, calls, bindTemplate, known]
          rfl
        rw [raw, Step.bind_of_error rfl]
        exact .notFound fields calls known
      | some t =>
        cases filled : t.bind name c.params with
        | error e =>
          have raw : rawFields templates (around.label c) c =
              ⟨{}, .error (.template (around.label c) "template" e)⟩ := by
            simp only [rawFields, calls, bindTemplate, known, filled]
            rfl
          rw [raw, Step.bind_of_error rfl]
          exact .unbound fields calls known filled
        | ok b =>
          have raw : rawFields templates (around.label c) c =
              ⟨{ warnings := b.unusedParams.map (.unusedParameter (around.label c) name) },
                .ok (c.boundFields b)⟩ := by
            simp only [rawFields, calls, bindTemplate, known, filled]
            exact Step.bind_pure_of_ok rfl _
          have unused := t.unused_of_bind filled (.unusedParameter (around.label c) name)
          rw [raw, Step.bind_of_ok rfl, Findings.warnings_append]
          exact .bound fields calls known filled unused (s.rawNotes around c (c.boundFields b))

theorem redundantList_iff {g : GroupDecl} {globals : GlobalDecl} {outer scope : Scope}
    (global : outer.allowlist = Allowlist.resolve globals.allowlist none)
    (own : scope.allowlist = Allowlist.resolve g.allowlist (some outer.allowlist)) :
    scope.allowlist.mode = .explicit ∧ scope.allowlist = outer.allowlist ↔ g.Redundant globals := by
  constructor
  · rintro ⟨mode, same⟩
    rw [own] at mode
    obtain ⟨names, declared, some⟩ := Allowlist.own_of_explicit mode
    have sets := congrArg Allowlist.names same
    rw [own, declared, Allowlist.resolve_own some, global, Allowlist.names_resolve_none] at sets
    exact ⟨names, declared, some, NameSet.ofNames_eq_iff.1 sets⟩
  · rintro ⟨names, declared, some, same⟩
    have explicit : scope.allowlist = ⟨.explicit, .ofNames names⟩ := by
      rw [own, declared, Allowlist.resolve_own some]
    obtain ⟨first, member⟩ := List.exists_mem_of_ne_nil names some
    -- The global list has the names of this one, so it is not empty either.
    cases given : globals.allowlist with
    | none =>
      rw [given, Option.getD_none] at same
      exact absurd ((same first).1 member) List.not_mem_nil
    | some others =>
      rw [given, Option.getD_some] at same
      have listed : others ≠ [] := List.ne_nil_of_mem ((same first).1 member)
      rw [given, Allowlist.resolve_own listed] at global
      rw [explicit, global]
      exact ⟨rfl, congrArg (Allowlist.mk .explicit) (NameSet.ofNames_eq_iff.2 same)⟩

theorem listNotes {g : GroupDecl} {globals : GlobalDecl} {outer scope : Scope}
    (global : outer.allowlist = Allowlist.resolve globals.allowlist none)
    (resolved : s.resolveScope (.ofGroup g) [outer] = .ok scope) :
    s.ListNotes globals g (redundantList outer scope ++ s.unsetNames scope).warnings := by
  have own : scope.allowlist = Allowlist.resolve g.allowlist (some outer.allowlist) :=
    allowlist_of_resolveScope resolved
  have label : scope.label = .group g.name := label_of_resolveScope resolved
  have unset := s.unsetNotes own
  rw [label] at unset
  rw [Findings.warnings_append]
  unfold redundantList
  split
  next repeats =>
    rw [label]
    exact .redundant ((redundantList_iff global own).1 repeats) unset
  next needed => exact .needed (fun repeats => needed ((redundantList_iff global own).2 repeats)) unset

theorem groupNotes (s : Setting) (templates : Registry) {globals : GlobalDecl} {outer : Scope}
    (global : outer.allowlist = Allowlist.resolve globals.allowlist none) (g : GroupDecl) :
    s.GroupNotes templates globals outer g
      (s.resolveGroup templates true outer g).findings.warnings := by
  have course := s.groupCourse_resolveGroup templates outer g
  generalize s.resolveGroup templates true outer g = step at course ⊢
  cases course with
  | noScope failed => exact .noScope failed
  | noWorkdir resolved failed => exact .noWorkdir resolved failed (listNotes global resolved)
  | @visited scope workdir resolved expanded _ _ =>
    have commands := noted_flatMap (s.commandNotes templates ⟨g.name, outer, scope, workdir⟩)
      g.commands
    exact .visited resolved expanded (listNotes global resolved) commands

end Setting

namespace Config

variable {c : Config} {templates : Registry} {s : Setting} {r : Resolution}

/-- A gathered resolution has the warnings that its declarations call for. -/
theorem notes_of_gathered {visited : List GroupDecl} (h : c.Gathered templates s visited r) :
    c.Notes templates s r.globals visited r.warnings := by
  have global := Setting.allowlist_of_resolveScope h.outer
  have label : r.globals.label = .globals := Setting.label_of_resolveScope h.outer
  have unset := s.unsetNotes global
  rw [label] at unset
  have groups := noted_flatMap (s.groupNotes templates global) visited
  rw [h.warnings, Setting.globalFindings, Findings.warnings_append]
  apply Notes.inOrder _ unset groups
  rw [global]
  rcases declared : c.globals.allowlist with _ | _ | ⟨first, rest⟩ <;>
    simp [ScopeDecl.ofGlobals, declared, Allowlist.resolve, Findings.warn]

end Config
end ScopedCommands
