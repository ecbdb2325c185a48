import ScopedCommands.Proofs.Resolution.Sight

namespace ScopedCommands

open Outcome

namespace Setting

variable {s : Setting} {label : ScopeLabel} {allowlist : Allowlist} {parents : List Scope}
  {kept : Kept} {early late : List ScopeEntry} {name : String}

/-- The outcome of a scope after the one that ends before the entries `late`. -/
inductive GoesOn (label : ScopeLabel) (early late : List ScopeEntry) :
    Except ResolveError Scope → Except ResolveError Scope → Prop where
  | stopped (e : ResolveError) : GoesOn label early late (.error e) (.error e)
  | kept {part whole : Scope}
      (values : ∀ name ∈ early.filterMap ScopeEntry.varName?, ∃ value,
        part.vars.get? name = some value ∧ whole.vars.get? name = some value) :
      GoesOn label early late (.ok part) (.ok whole)
  | stopsLater {part : Scope} {e : ResolveError} {x : ScopeEntry} (listed : x ∈ late)
      (scope : e.scope? = some label.text) (field : e.field? = some x.field) :
      GoesOn label early late (.ok part) (.error e)

/-- What a scope is and why there is none, for each way in which it can be declared. -/
structure InOrder (s : Setting) (d : ScopeDecl) (parents : List Scope) : Prop where
  misread : ∀ field cause, d.Misread field cause →
    s.resolveScope d parents = .error (.declaration d.label.text field cause)
  readable : (∃ read, d.Reads read) ∨ ∃ field cause, d.Misread field cause
  stops : ∀ read, d.Reads read → ∀ e, s.resolveScope d parents = .error e ↔
    ∃ before x after kept, read.entries = before ++ x :: after ∧
      s.Keeps d.label (d.effective parents) parents {} before kept ∧
      s.Stops d.label (d.effective parents) parents kept x e
  keeps : ∀ read, d.Reads read → ∀ scope, s.resolveScope d parents = .ok scope ↔
    ∃ kept, s.Keeps d.label (d.effective parents) parents {} read.entries kept ∧
      scope = ⟨d.label, kept.vars, kept.env, d.effective parents⟩
  names : ∀ read, d.Reads read → ∀ scope, s.resolveScope d parents = .ok scope → ∀ name,
    (scope.vars.contains name = true ↔ name ∈ read.variables.map (·.name)) ∧
      (scope.env.contains name = true ↔ name ∈ read.env.map (·.name))
  /-- Other entries after some variables change nothing before them. -/
  replaced : ∀ before after later env, d.vars = before ++ after →
    ∀ read, d.Reads read → ∀ instead, { d with vars := before ++ later, env }.Reads instead →
    ∃ part late other, (d.upTo before).Reads part ∧ read.entries = part.entries ++ late ∧
      instead.entries = part.entries ++ other ∧
      part.entries.length = d.imports.length + before.length ∧
      GoesOn d.label part.entries late (s.resolveScope (d.upTo before) parents)
        (s.resolveScope d parents) ∧
      GoesOn d.label part.entries other (s.resolveScope (d.upTo before) parents)
        (s.resolveScope { d with vars := before ++ later, env } parents)
  /-- Nor does the label of the scope count for a value, nor how its allowlist came about. -/
  alone : ∀ before after later, d.vars = before ++ after →
    ∀ other : ScopeDecl, other.imports = d.imports → other.vars = before ++ later →
    other.effective parents = d.effective parents →
    ∀ scope, s.resolveScope d parents = .ok scope →
    ∀ instead, s.resolveScope other parents = .ok instead →
    ∀ part, (d.upTo before).Reads part → ∀ name ∈ part.variables.map (·.name),
      ∃ value, scope.vars.get? name = some value ∧ instead.vars.get? name = some value

theorem goesOn_upTo {d : ScopeDecl} {before : List String} {read part : Declarations}
    (reads : d.Reads read) (begins : (d.upTo before).Reads part)
    (split : read.entries = part.entries ++ late) :
    GoesOn d.label part.entries late (s.resolveScope (d.upTo before) parents)
      (s.resolveScope d parents) := by
  have distinct := (ScopeDecl.variables_of_declarations (ScopeDecl.declarations_eq_ok_iff.2 reads)).1
  rw [← read.varNames_entries, split, List.filterMap_append] at distinct
  rw [resolveScope_of_reads reads, resolveScope_of_reads begins, split, List.foldlM_append]
  -- The label and the allowlist are those of the whole scope.
  change GoesOn _ _ _
    ((part.entries.foldlM (s.keep d.label (d.effective parents) parents) {}).map _) _
  cases first : part.entries.foldlM (s.keep d.label (d.effective parents) parents) {} with
  | error e => exact .stopped e
  | ok mid =>
    change GoesOn _ _ _ (.ok _)
      ((late.foldlM (s.keep d.label (d.effective parents) parents) mid).map _)
    cases second : late.foldlM (s.keep d.label (d.effective parents) parents) mid with
    | error e =>
      obtain ⟨_, x, _, _, rfl, _, stops⟩ := foldlM_keep_eq_error.1 second
      exact .stopsLater (by simp) stops.place.1 stops.place.2
    | ok last =>
      refine .kept fun name known => ?_
      have begun := foldlM_keep_eq_ok.1 first
      have ended := foldlM_keep_eq_ok.1 second
      have fresh := List.nodup_append.1 distinct
      have unchanged := ended.get?_vars fun again => fresh.2.2 name known name again rfl
      obtain ⟨value, has⟩ := Option.isSome_iff_exists.1 (begun.contains_vars.2 (.inr known))
      exact ⟨value, has, unchanged.trans has⟩

theorem entries_upTo {d : ScopeDecl} {before after : List String} {read : Declarations}
    (reads : d.Reads read) (split : d.vars = before ++ after) :
    ∃ part late, (d.upTo before).Reads part ∧ read.entries = part.entries ++ late ∧
      part.entries.length = d.imports.length + before.length := by
  obtain ⟨early, late, vars, long, begins⟩ := reads.upTo split
  refine ⟨_, late.map .var ++ read.env.map .env, begins, ?_, ?_⟩
  · simp only [Declarations.entries, vars, List.map_append, List.map_nil, List.append_nil,
      List.append_assoc]
  · simp only [Declarations.entries, List.map_nil, List.append_nil, List.length_append,
      List.length_map, reads.imports.each.length_eq, long]

theorem replaced_of_reads {d other : ScopeDecl} {before after later : List String}
    {read instead : Declarations} (split : d.vars = before ++ after)
    (split' : other.vars = before ++ later) (same : other.upTo before = d.upTo before)
    (reads : d.Reads read) (reads' : other.Reads instead) :
    ∃ part late rest, (d.upTo before).Reads part ∧ read.entries = part.entries ++ late ∧
      instead.entries = part.entries ++ rest ∧
      part.entries.length = d.imports.length + before.length ∧
      GoesOn d.label part.entries late (s.resolveScope (d.upTo before) parents)
        (s.resolveScope d parents) ∧
      GoesOn d.label part.entries rest (s.resolveScope (d.upTo before) parents)
        (s.resolveScope other parents) := by
  obtain ⟨part, late, begins, whole, long⟩ := entries_upTo reads split
  obtain ⟨part', rest, begins', whole', _⟩ := entries_upTo reads' split'
  rw [same] at begins'
  cases begins.unique begins'
  refine ⟨part, late, rest, begins, whole, whole', long, goesOn_upTo reads begins whole, ?_⟩
  have label : (other.upTo before).label = (d.upTo before).label := congrArg ScopeDecl.label same
  have goes : GoesOn other.label part.entries rest (s.resolveScope (other.upTo before) parents)
      (s.resolveScope other parents) := goesOn_upTo reads' (same ▸ begins) whole'
  rw [same] at goes
  exact label ▸ goes

theorem begins_of_resolveScope {d : ScopeDecl} {before after : List String} {part : Declarations}
    {scope : Scope} (split : d.vars = before ++ after) (begins : (d.upTo before).Reads part)
    (resolved : s.resolveScope d parents = .ok scope) :
    ∃ first, s.resolveScope (d.upTo before) parents = .ok first ∧
      ∀ name ∈ part.variables.map (·.name), ∃ value,
        first.vars.get? name = some value ∧ scope.vars.get? name = some value := by
  obtain ⟨read, reads⟩ := reads_of_resolveScope resolved
  obtain ⟨part', late, begins', whole, _⟩ := entries_upTo reads split
  cases begins.unique begins'
  have goes : GoesOn d.label part.entries late (s.resolveScope (d.upTo before) parents)
      (s.resolveScope d parents) := goesOn_upTo reads begins whole
  rw [resolved] at goes
  rw [← part.varNames_entries]
  generalize s.resolveScope (d.upTo before) parents = outcome at goes ⊢
  cases goes with
  | kept values => exact ⟨_, rfl, values⟩

theorem values_alone {d other : ScopeDecl} {before after later : List String}
    (split : d.vars = before ++ after) (imports : other.imports = d.imports)
    (split' : other.vars = before ++ later)
    (same : other.effective parents = d.effective parents) {scope instead : Scope}
    (resolved : s.resolveScope d parents = .ok scope)
    (resolved' : s.resolveScope other parents = .ok instead) {part : Declarations}
    (begins : (d.upTo before).Reads part) {name : String}
    (known : name ∈ part.variables.map (·.name)) :
    ∃ value, scope.vars.get? name = some value ∧ instead.vars.get? name = some value := by
  let renamed : ScopeDecl := { other with label := d.label, allowlist := d.allowlist }
  have again : s.resolveScope renamed parents = .ok ⟨d.label, instead.vars, instead.env, _⟩ :=
    resolveScope_widen (fun _ allowed => same ▸ allowed) (fun _ _ => rfl) resolved'
  have common : renamed.upTo before = d.upTo before := by
    simp only [renamed, ScopeDecl.upTo, imports]
  have begins' : (renamed.upTo before).Reads part := common ▸ begins
  obtain ⟨first, one, values⟩ := begins_of_resolveScope split begins resolved
  have vars : renamed.vars = before ++ later := split'
  obtain ⟨first', two, values'⟩ := begins_of_resolveScope vars begins' again
  rw [common, one] at two
  cases two
  obtain ⟨value, has, left⟩ := values name known
  obtain ⟨value', has', right⟩ := values' name known
  rw [has] at has'
  cases has'
  exact ⟨value, left, right⟩

theorem resolveScope_inOrder (s : Setting) (d : ScopeDecl) (parents : List Scope) :
    s.InOrder d parents where
  misread _ _ misread := resolveScope_of_misread misread parents
  readable := d.reads_or_misread
  stops _ reads _ := resolveScope_eq_error_iff_stops reads
  keeps _ reads _ := resolveScope_eq_ok_iff_keeps reads
  names _ reads _ resolved := names_of_resolveScope reads resolved
  replaced _ _ _ _ split _ reads _ reads' := replaced_of_reads split rfl rfl reads reads'
  alone _ _ _ split _ imports split' same _ resolved _ resolved' _ begins _ known :=
    values_alone split imports split' same resolved resolved' begins known

-- What stands after the first mistake is not looked at.
example :
    terminal.resolveScope
        { label := .globals, imports := ["ME=USER"], vars := ["HOME=%{ROOT}", "ROOT=%{HOME}"] } [] =
      .error (.expansion "global" "from_env.ME" (.notAllowed "global" "ME" "USER")) := by
  decide +kernel

end Setting
end ScopedCommands
