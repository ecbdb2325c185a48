import ScopedCommands.Proofs.Config.Reading
import ScopedCommands.Proofs.Failures
import ScopedCommands.Proofs.Template.Splicing

namespace ScopedCommands.Template

open Outcome

/-- The env entries that one entry of a template gives, each with its place. -/
inductive Substituted (params : Dict Parameter) (i : Nat) (raw : String) :
    List (String × String) → Prop where
  | spread {name : String} {values : List String} (alone : Placeholder.Spans ⟨.spread, name⟩ raw)
      (given : Argument params raw values) : Substituted params i raw
        (values.zipIdx.map fun value => (value.1, s!"env[{i}] ({raw}[{value.2}])"))
  | sole {p : Placeholder} {values : List String} (alone : p.Spans raw) (scalar : p.kind ≠ .spread)
      (given : Argument params raw values) : Substituted params i raw
        (values.map fun value => (value, s!"env[{i}] ({raw})"))
  | pair {key value : String} {keyParts parts : List FieldPart} {pieces : List String}
      (written : Assignment.parse raw = some ⟨key, value⟩)
      (own : Placeholder.parse key = .ok keyParts) (plain : Placeholder.allOf keyParts = [])
      (read : Placeholder.parse value = .ok parts)
      (spliced : List.Forall₂ (FieldPart.Spliced params) parts pieces) :
      Substituted params i raw [(key ++ "=" ++ String.join pieces, s!"env[{i}]")]

/-- The entries that those of a template give in order; the first of them has the number `i`. -/
inductive SubstitutedEnv (params : Dict Parameter) :
    Nat → List String → List (String × String) → Prop where
  | nil (i : Nat) : SubstitutedEnv params i [] []
  | cons {i : Nat} {raw : String} {raws : List String} {here later : List (String × String)}
      (own : Substituted params i raw here) (others : SubstitutedEnv params (i + 1) raws later) :
      SubstitutedEnv params i (raw :: raws) (here ++ later)

/-- The entry from `second` is the first with a key that was there before, in the one from `first`.
All entries before it are sound and have keys that differ. -/
inductive Repeats {α : Type} : List (String × α) → String → α → α → Prop where
  | intro {before after : List (String × α)} {earlier entry : String} {first second : α}
      (sound : ∀ e ∈ before, Keyed e.1) (distinct : (before.map (entryKey ·.1)).Nodup)
      (told : (earlier, first) ∈ before) (same : entryKey earlier = entryKey entry)
      (keyed : Keyed entry) :
      Repeats (before ++ (entry, second) :: after) (entryKey entry) first second

theorem Repeats.map {α β : Type} {entries : List (String × α)} {key : String} {first second : α}
    (h : Repeats entries key first second) (f : α → β) :
    Repeats (entries.map fun e => (e.1, f e.2)) key (f first) (f second) := by
  obtain ⟨sound, distinct, told, same, keyed⟩ := h
  rw [List.map_append, List.map_cons]
  refine .intro ?_ ?_ (List.mem_map.2 ⟨_, told, rfl⟩) same keyed
  · exact List.forall_mem_map.2 sound
  · simpa [Function.comp_def] using distinct

inductive Unfilled (name : String) : TemplateError → Prop where
  | badPlaceholder (cause : PlaceholderError) : Unfilled name (.badPlaceholder cause)
  | missingParameter (param : String) : Unfilled name (.missingParameter name param)
  | wrongKind (param field : String) (actual : ParameterKind) :
      Unfilled name (.wrongKind name param field actual)
  | mixedList (param field : String) : Unfilled name (.mixedList name param field)
  | placeholderInKey (entry : String) : Unfilled name (.placeholderInKey name entry)
  | malformedEntry (entry : String) : Unfilled name (.malformedEntry name entry .definition)

def FailsWith {α : Type} (P : TemplateError → Prop) (x : Bind α) : Prop :=
  ∀ used, FailsOnly P (x.run used)

section

variable {α β : Type} {P Q : TemplateError → Prop} {x : Bind α} {y : Except TemplateError α}

theorem failsWith_pure (a : α) : FailsWith P (pure a : Bind α) := fun _ => failsOnly_ok _

theorem failsWith_throw {e : TemplateError} (h : P e) : FailsWith P (throw e : Bind α) :=
  fun _ => failsOnly_error h

theorem FailsWith.bind {f : α → Bind β} (first : FailsWith P x) (later : ∀ a, FailsWith P (f a)) :
    FailsWith P (x >>= f) := by
  intro used e failed
  rcases run_bind_eq_error.1 failed with own | ⟨a, noted, _, rest⟩
  · exact first used e own
  · exact later a noted e rest

theorem failsWith_lift (h : FailsOnly P y) : FailsWith P (liftM y : Bind α) := by
  intro used e failed
  rcases bind_eq_error.1 failed with own | ⟨_, _, impossible⟩
  · exact h e own
  · cases impossible

theorem FailsWith.mono (h : FailsWith P x) (weaker : ∀ e, P e → Q e) : FailsWith Q x :=
  fun used e failed => weaker e (h used e failed)

end

theorem unfilled_parseField (name raw : String) : FailsOnly (Unfilled name) (parseField raw) :=
  failsOnly_mapError .badPlaceholder _

theorem unfilled_classifyEntry (name raw : String) :
    FailsOnly (Unfilled name) (classifyEntry name raw) := by
  unfold classifyEntry
  refine (unfilled_parseField name raw).bind fun whole _ => ?_
  split
  · exact failsOnly_ok _
  · split
    · split
      · exact failsOnly_error (.malformedEntry raw)
      · exact failsOnly_error (.placeholderInKey raw)
    · refine (unfilled_parseField name _).bind fun keyParts _ => ?_
      split
      · exact (unfilled_parseField name _).bind fun _ _ => failsOnly_ok _
      · exact failsOnly_error (.placeholderInKey raw)

namespace Call

variable (call : Call)

theorem failsWith_take {P : TemplateError → Prop} (name : String) :
    FailsWith P (call.take name) := by
  intro used
  rw [run_take]
  exact failsOnly_ok _

theorem unfilled_scalar (p : Placeholder) (field : String) (sole : Bool) :
    FailsWith (Unfilled call.template) (call.scalar p field sole) := by
  refine (call.failsWith_take p.name).bind fun given => ?_
  split
  · exact failsWith_pure _
  · split
    · exact failsWith_throw (.wrongKind _ _ _)
    · exact failsWith_throw (.mixedList _ _)
  · split
    · exact failsWith_throw (.missingParameter _)
    · exact failsWith_pure _

theorem unfilled_spread (name field : String) :
    FailsWith (Unfilled call.template) (call.spread name field) := by
  refine (call.failsWith_take name).bind fun given => ?_
  split
  · exact failsWith_pure _
  · exact failsWith_throw (.wrongKind _ _ _)
  · exact failsWith_pure _

theorem unfilled_text (field : String) (parts : List FieldPart) :
    FailsWith (Unfilled call.template) (call.text field parts) := by
  induction parts with
  | nil => exact failsWith_pure _
  | cons first rest ih =>
    cases first with
    | text t => exact ih.bind fun _ => failsWith_pure _
    | placeholder p =>
      unfold Call.text
      split
      · exact failsWith_throw (.mixedList _ _)
      · exact (call.unfilled_scalar p field false).bind fun _ => ih.bind fun _ => failsWith_pure _

theorem unfilled_sole (p : Placeholder) (field : String) :
    FailsWith (Unfilled call.template) (call.sole p field) := by
  refine (call.unfilled_scalar p field true).bind fun given => ?_
  split <;> exact failsWith_pure _

theorem unfilled_soleOrText (parts : List FieldPart) (field : String) :
    FailsWith (Unfilled call.template) (call.soleOrText parts field) := by
  unfold Call.soleOrText
  split
  · exact call.unfilled_sole _ field
  · exact (call.unfilled_text field parts).bind fun _ => failsWith_pure _

theorem unfilled_single (raw field : String) :
    FailsWith (Unfilled call.template) (call.single raw field) := by
  refine (failsWith_lift (unfilled_parseField _ raw)).bind fun parts => ?_
  split
  · exact failsWith_throw (.mixedList _ _)
  · exact call.unfilled_soleOrText parts field

theorem unfilled_several (raw field : String) :
    FailsWith (Unfilled call.template) (call.several raw field) := by
  refine (failsWith_lift (unfilled_parseField _ raw)).bind fun parts => ?_
  split
  · split
    · exact call.unfilled_spread _ field
    · exact (call.unfilled_sole _ field).bind fun _ => failsWith_pure _
  · exact (call.unfilled_text field parts).bind fun _ => failsWith_pure _

theorem unfilled_args (index : Nat) (raws : List String) :
    FailsWith (Unfilled call.template) (call.args index raws) := by
  induction raws generalizing index with
  | nil => exact failsWith_pure _
  | cons raw rest ih =>
    exact (call.unfilled_several raw _).bind fun _ =>
      (ih (index + 1)).bind fun _ => failsWith_pure _

theorem unfilled_envEntry (index : Nat) (raw : String) :
    FailsWith (Unfilled call.template) (call.envEntry index raw) := by
  refine (failsWith_lift (unfilled_classifyEntry _ raw)).bind fun shape => ?_
  split
  · exact (call.unfilled_spread _ _).bind fun _ => failsWith_pure _
  · exact (call.unfilled_sole _ _).bind fun _ => failsWith_pure _
  · exact (call.unfilled_text _ _).bind fun _ => failsWith_pure _

theorem unfilled_envEntries (index : Nat) (raws : List String) :
    FailsWith (Unfilled call.template) (call.envEntries index raws) := by
  induction raws generalizing index with
  | nil => exact failsWith_pure _
  | cons raw rest ih =>
    exact (call.unfilled_envEntry index raw).bind fun _ =>
      (ih (index + 1)).bind fun _ => failsWith_pure _

def told (bound : List (String × EnvOrigin)) : List (String × String) :=
  bound.map fun e => (e.1, e.2.text)

theorem told_elements (i : Nat) (p : Placeholder) (position : Nat) (items : List String) :
    told (elements i p position items) =
      (items.zipIdx position).map fun value => (value.1, s!"env[{i}] ({p.text}[{value.2}])") := by
  induction items generalizing position with
  | nil => rfl
  | cons item rest ih => exact congrArg (_ :: ·) (ih (position + 1))

variable {call}

theorem substituted_of_envEntry {i : Nat} {raw : String} {used after : NameSet}
    {bound : List (String × EnvOrigin)}
    (binds : (call.envEntry i raw).run used = .ok (bound, after)) :
    Substituted call.params i raw (told bound) := by
  unfold Call.envEntry at binds
  obtain ⟨shape, _, lifted, rest⟩ := run_bind_eq_ok.1 binds
  obtain ⟨classified, _⟩ := run_lift_eq_ok.1 lifted
  obtain ⟨whole, read, _⟩ := bind_eq_ok.1 classified
  have alone {p : Placeholder} (single : Placeholder.sole (parts raw) = some p) : p.Spans raw := by
    rw [parts_of_parseField read] at single
    exact (Placeholder.sole_eq_some_iff (mapError_eq_ok.1 read)).1 single
  have shaped := shaped_of_classifyEntry classified
  cases shape with
  | spread p =>
    obtain ⟨single, spreads⟩ := shaped
    have spans := alone single
    obtain ⟨items, _, given, done⟩ := run_bind_eq_ok.1 rest
    cases done
    have fills := call.fills_spread spreads s!"env[{i}]"
    have supplied := fills.holds_of_ok given p List.mem_cons_self
    obtain rfl := fills.eq_of_ok given
    have own := argument_of_spans spans supplied
    obtain ⟨kind, n⟩ := p
    obtain rfl : kind = .spread := spreads
    rw [told_elements, ← spans.written]
    exact .spread spans own
  | sole p =>
    obtain - | ⟨single, scalar⟩ := shaped
    have spans := alone single
    obtain ⟨value, _, given, done⟩ := run_bind_eq_ok.1 rest
    cases done
    have fills := call.fills_sole scalar s!"env[{i}]"
    have supplied := fills.holds_of_ok given p List.mem_cons_self
    obtain rfl := fills.eq_of_ok given
    have own := argument_of_spans spans supplied
    rw [Placeholder.toList_head?_values call.params scalar, told, List.map_map]
    have places : (fun e : String × EnvOrigin => (e.1, e.2.text)) ∘
        (fun value => (value, EnvOrigin.placeholder i p)) =
          fun value => (value, s!"env[{i}] ({raw})") := by
      rw [spans.written]
      rfl
    rw [places]
    exact .sole spans scalar own
  | pair key value =>
    obtain - | - | ⟨_, _, written, own, plain, other⟩ := shaped
    obtain ⟨text, _, given, done⟩ := run_bind_eq_ok.1 rest
    cases done
    have scalars := scalars_of_text given
    have fills := call.fills_text s!"env[{i}]" scalars
    obtain rfl := fills.eq_of_ok given
    have pieces := spliced_parts scalars (fills.holds_of_ok given)
    exact .pair written (mapError_eq_ok.1 own) plain (mapError_eq_ok.1 other) pieces

theorem substitutedEnv_of_envEntries {i : Nat} {raws : List String} {used after : NameSet}
    {bound : List (String × EnvOrigin)}
    (binds : (call.envEntries i raws).run used = .ok (bound, after)) :
    SubstitutedEnv call.params i raws (told bound) := by
  induction raws generalizing i used after bound with
  | nil =>
    cases binds
    exact .nil i
  | cons raw rest ih =>
    obtain ⟨here, _, own, binds⟩ := run_bind_eq_ok.1 binds
    obtain ⟨later, _, others, done⟩ := run_bind_eq_ok.1 binds
    cases done
    rw [told, List.map_append]
    exact .cons (substituted_of_envEntry own) (ih others)

/-- The keys that were seen are those of the entries before, each with the place of its entry. -/
structure Noted (seen : Dict EnvOrigin) (before : List (String × EnvOrigin)) : Prop where
  sound : ∀ e ∈ before, Keyed e.1
  keys : Seen seen (before.map (entryKey ·.1))
  places : ∀ key origin, seen.get? key = some origin →
    ∃ entry, (entry, origin) ∈ before ∧ entryKey entry = key

theorem Noted.insert {seen : Dict EnvOrigin} {before : List (String × EnvOrigin)} {entry : String}
    (h : Noted seen before) (keyed : Keyed entry) (new : seen.get? (entryKey entry) = none)
    (origin : EnvOrigin) :
    Noted (seen.insert (entryKey entry) origin) (before ++ [(entry, origin)]) where
  sound := List.forall_mem_append.2 ⟨h.sound, List.forall_mem_singleton.2 keyed⟩
  keys := by
    rw [List.map_append]
    exact h.keys.insert new origin
  places key place found := by
    rw [Dict.get?_insert] at found
    split at found
    next same => exact ⟨entry, by simp_all, by simp_all⟩
    next =>
      obtain ⟨other, member, same⟩ := h.places key place found
      exact ⟨other, List.mem_append_left _ member, same⟩

theorem repeats_of_checkEnv {name template key : String} {first second : EnvOrigin}
    {seen : Dict EnvOrigin} {before bound : List (String × EnvOrigin)} (noted : Noted seen before)
    (failed : checkEnv name seen bound = .error (.duplicateKey template key first second)) :
    template = name ∧ Repeats (before ++ bound) key first second := by
  induction bound generalizing seen before with
  | nil => cases failed
  | cons here rest ih =>
    obtain ⟨entry, origin⟩ := here
    rcases checkEnv_cons name seen entry origin rest with ⟨_, malformed⟩ | ⟨_, _, _, unnamed⟩ |
      ⟨keyed, place, found, twice⟩ | ⟨keyed, new, goes⟩
    · rw [malformed] at failed
      cases failed
    · rw [unnamed] at failed
      cases failed
    · rw [twice] at failed
      cases failed
      obtain ⟨earlier, member, same⟩ := noted.places _ _ found
      exact ⟨rfl, .intro noted.sound noted.keys.distinct member same keyed⟩
    · rw [goes] at failed
      have rest := ih (noted.insert keyed new origin) failed
      rwa [List.append_assoc] at rest

theorem noted_empty : Noted .empty [] where
  sound := by simp
  keys := ⟨by simp [Dict.contains, Dict.get?_empty], List.nodup_nil⟩
  places := by simp [Dict.get?_empty]

theorem fst_told (bound : List (String × EnvOrigin)) :
    (told bound).map (·.1) = bound.map (·.1) := by
  simp [told]

inductive FieldsFault (call : Call) (t : Template) : TemplateError → Prop where
  | unfilled {e : TemplateError} (fault : Unfilled call.template e) : FieldsFault call t e
  | emptyCommand : FieldsFault call t (.emptyCommand call.template)
  | refused {e : TemplateError} {bound : List (String × EnvOrigin)} {used after : NameSet}
      (given : (call.envEntries 0 t.env).run used = .ok (bound, after))
      (refused : checkEnv call.template .empty bound = .error e) : FieldsFault call t e

theorem fault_of_env (call : Call) (t : Template) :
    FailsWith (call.FieldsFault t) (call.env t.env) := by
  intro used e failed
  rcases run_bind_eq_error.1 failed with own | ⟨bound, after, given, rest⟩
  · exact .unfilled (call.unfilled_envEntries 0 t.env used e own)
  · apply FieldsFault.refused given
    rcases run_bind_eq_error.1 rest with checked | ⟨_, _, _, impossible⟩
    · rcases bind_eq_error.1 checked with refused | ⟨_, _, impossible⟩
      · exact refused
      · cases impossible
    · cases impossible

theorem fault_of_fields (call : Call) (t : Template) :
    FailsWith (call.FieldsFault t) (call.fields t) := by
  have filling {α : Type} {x : Bind α} (h : FailsWith (Unfilled call.template) x) :
      FailsWith (call.FieldsFault t) x := h.mono fun _ => .unfilled
  have directory : FailsWith (call.FieldsFault t) (call.optionalField "workdir" t.workdir) := by
    cases t.workdir with
    | none => exact failsWith_pure none
    | some raw => exact filling (call.unfilled_single raw "workdir")
  refine (filling (call.unfilled_single t.cmd "cmd")).bind fun text => ?_
  have rest : FailsWith (call.FieldsFault t) (do
      let args ← call.args 0 t.args
      let env ← call.env t.env
      let workdir ← call.optionalField "workdir" t.workdir
      return (text.getD "", args, env, workdir)) :=
    (filling (call.unfilled_args 0 t.args)).bind fun _ => (call.fault_of_env t).bind fun _ =>
      directory.bind fun _ => failsWith_pure _
  dsimp only
  split
  · exact (failsWith_throw .emptyCommand).bind fun _ => rest
  · exact rest

theorem not_duplicate_of_checkParams {names : List String} {template key : String}
    {first second : EnvOrigin} :
    checkParams names ≠ .error (.duplicateKey template key first second) := by
  induction names with
  | nil => simp [checkParams]
  | cons name rest ih =>
    unfold checkParams
    split
    · simp
    · exact ih

end Call

variable {params : Dict Parameter} {raw : String} {i : Nat}

theorem not_sign_of_spans {p : Placeholder} (alone : p.Spans raw) : '=' ∉ raw.toList := by
  intro sign
  rw [alone.written, Placeholder.toList_text] at sign
  have word := List.all_eq_true.1 alone.word.isWord.2
  have inside : '=' ∈ p.name.toList := by
    cases kind : p.kind <;> simpa [kind, PlaceholderKind.mark] using sign
  cases word _ inside

theorem Substituted.pair_mem {here : List (String × String)} {a : Assignment}
    (h : Substituted params i raw here) (written : Assignment.parse raw = some a) :
    ∃ value, (a.name ++ "=" ++ value, s!"env[{i}]") ∈ here := by
  have sign : '=' ∈ raw.toList := (entryKey_of_parse written).1
  cases h with
  | spread alone => exact absurd sign (not_sign_of_spans alone)
  | sole alone => exact absurd sign (not_sign_of_spans alone)
  | pair own =>
    rw [written] at own
    cases own
    exact ⟨_, List.mem_singleton_self _⟩

theorem SubstitutedEnv.pair_mem {raws : List String} {entries : List (String × String)} {k : Nat}
    {a : Assignment} (h : SubstitutedEnv params i raws entries) (listed : raws[k]? = some raw)
    (written : Assignment.parse raw = some a) :
    ∃ value, (a.name ++ "=" ++ value, s!"env[{i + k}]") ∈ entries := by
  induction h generalizing k with
  | nil i => simp at listed
  | @cons i first raws here later own _ ih =>
    cases k with
    | zero =>
      obtain rfl : first = raw := by simpa using listed
      obtain ⟨value, member⟩ := own.pair_mem written
      exact ⟨value, List.mem_append_left _ member⟩
    | succ k =>
      obtain ⟨value, member⟩ := ih listed
      rw [Nat.add_assoc, Nat.add_comm 1 k] at member
      exact ⟨value, List.mem_append_right _ member⟩

/-- What binding tells of env entries. Those that are bound are declarations, read again as they
are, and keys of the template are kept. If it stops at a key that comes twice, that is the first one
to do so, and it is told with the places of both entries. -/
theorem bind_env_told (name : String) (t : Template) (params : Dict Parameter) :
    (∀ b, t.bind name params = .ok b → ∃ entries, SubstitutedEnv params 0 t.env entries ∧
      b.env = entries.map (·.1) ∧
      (∀ field, ∃ read, Declaration.environment field b.env = .ok read ∧
        List.Forall₂ (fun entry a => Assignment.parse entry = some a) b.env read) ∧
      ∀ (i : Nat) (raw : String) (a : Assignment), t.env[i]? = some raw →
        Assignment.parse raw = some a →
          ∃ value, (a.name ++ "=" ++ value, s!"env[{i}]") ∈ entries ∧
            Assignment.parse (a.name ++ "=" ++ value) = some ⟨a.name, value⟩) ∧
    ∀ template key first second,
      t.bind name params = .error (.duplicateKey template key first second) →
        template = name ∧ ∃ entries, SubstitutedEnv params 0 t.env entries ∧
          Repeats entries key first.text second.text := by
  constructor
  · intro b bound
    obtain ⟨_, _, fields⟩ := fields_of_bind bound
    obtain ⟨_, _, declared⟩ := (Call.bindsFields fields).declared
    obtain ⟨items, _, given, rest⟩ := run_bind_eq_ok.1 declared
    obtain ⟨_, _, checked, done⟩ := run_bind_eq_ok.1 rest
    have env : b.env = (Call.told items).map (·.1) := by
      rw [Call.fst_told]
      exact (Prod.mk.inj (Except.ok.inj done)).1.symm
    have entries := Call.substitutedEnv_of_envEntries given
    refine ⟨_, entries, env, fun field => ?_, fun i raw a listed written => ?_⟩
    · obtain ⟨read, given⟩ := (binds_of_bind bound).declares field
      have each := ((Declaration.readAll_eq_ok_iff ScopeDecl.contains_empty_iff).1 given).each
      exact ⟨read, given, each.imp fun _ _ => Declaration.parse_of_readVariable⟩
    · obtain ⟨value, member⟩ := entries.pair_mem listed written
      rw [Nat.zero_add] at member
      obtain ⟨free, _⟩ := Assignment.parse_eq_some_iff.1 written
      exact ⟨value, member, Assignment.parse_eq_some_iff.2 ⟨free, rfl⟩⟩
  · intro template key first second failed
    unfold Template.bind at failed
    rcases bind_eq_error.1 failed with params | ⟨_, _, rest⟩
    · exact absurd params Call.not_duplicate_of_checkParams
    · rcases bind_eq_error.1 rest with fields | ⟨_, _, impossible⟩
      · cases Call.fault_of_fields ⟨name, params⟩ t _ _ fields with
        | unfilled impossible => cases impossible
        | refused given checked =>
          obtain ⟨rfl, repeats⟩ := Call.repeats_of_checkEnv Call.noted_empty checked
          exact ⟨rfl, _, Call.substitutedEnv_of_envEntries given, repeats.map EnvOrigin.text⟩
      · cases impossible

def overriding : Template where
  cmd := "app"
  env := ["MODE=${mode}", "${?extra}", "${@opts}"]

def overridingCall (opts : List String) : Dict Parameter :=
  Dict.ofList [("mode", .text "a=b"), ("opts", .list opts)]

theorem bind_env_told_overriding :
    (∃ b, overriding.bind "overriding" (overridingCall ["B=1"]) = .ok b ∧
      b.env = ["MODE=a=b", "B=1"] ∧
      ∀ field, ∃ read, Declaration.environment field b.env = .ok read) ∧
    overriding.bind "overriding" (overridingCall ["B=1", "MODE=x"]) =
      .error (.duplicateKey "overriding" "MODE" (.entry 0) (.element 2 ⟨.spread, "opts"⟩ 1)) ∧
    ∃ entries, SubstitutedEnv (overridingCall ["B=1", "MODE=x"]) 0 overriding.env entries ∧
      Repeats entries "MODE" "env[0]" "env[2] (${@opts}[1])" := by
  have bound : overriding.bind "overriding" (overridingCall ["B=1"]) =
      .ok ⟨"overriding", "app", [], ["MODE=a=b", "B=1"], none, none, []⟩ :=
    toOption_eq_some.1 (by decide +kernel)
  have failed : overriding.bind "overriding" (overridingCall ["B=1", "MODE=x"]) =
      .error (.duplicateKey "overriding" "MODE" (.entry 0) (.element 2 ⟨.spread, "opts"⟩ 1)) :=
    error?_eq_some.1 (by decide +kernel)
  refine ⟨⟨_, bound, rfl, fun field => ?_⟩, failed, ?_⟩
  · obtain ⟨_, _, _, declared, _⟩ := (bind_env_told "overriding" _ _).1 _ bound
    obtain ⟨read, given, _⟩ := declared field
    exact ⟨read, given⟩
  · exact ((bind_env_told "overriding" _ _).2 _ _ _ _ failed).2

end ScopedCommands.Template
