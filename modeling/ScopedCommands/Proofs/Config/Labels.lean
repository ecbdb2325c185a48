import Mathlib.Data.List.Nodup
import ScopedCommands.Proofs.Config.Audit

namespace ScopedCommands

/-- A command that sets no env has no env entries. -/
def CommandDecl.scope (group : String) (c : CommandDecl) : ScopeDecl :=
  .ofCommand group c (c.env.getD [])

def GroupDecl.scopes (g : GroupDecl) : List ScopeDecl :=
  .ofGroup g :: g.commands.map (·.scope g.name)

def Config.scopes (c : Config) : List ScopeDecl :=
  .ofGlobals c.globals :: c.groups.flatMap (·.scopes)

def GroupDecl.labels (g : GroupDecl) : List ScopeLabel :=
  .group g.name :: g.commands.map fun c => .command g.name c.name

def Config.labels (c : Config) : List ScopeLabel := c.scopes.map (·.label)

theorem GroupDecl.labels_eq (g : GroupDecl) : g.scopes.map (·.label) = g.labels := by
  simp [scopes, labels, ScopeDecl.ofGroup, CommandDecl.scope, ScopeDecl.ofCommand]

theorem Config.labels_eq (c : Config) : c.labels = .globals :: c.groups.flatMap (·.labels) := by
  simp [labels, scopes, ScopeDecl.ofGlobals, List.map_flatMap, GroupDecl.labels_eq]

namespace Audit

@[simp] theorem valid_append {a b : Audit} :
    (a ++ b).valid = true ↔ a.valid = true ∧ b.valid = true := by
  simp [valid]

theorem valid_if_problem {found : Prop} [Decidable found] {p : Problem} :
    (if found then ({ problems := [p] } : Audit) else {}).valid = true ↔ ¬ found := by
  split <;> simp [valid, *]

/-- The names are new and differ from one another. -/
def Fresh (seen : NameSet) (names : List String) : Prop :=
  names.Nodup ∧ ∀ name ∈ names, seen.contains name = false

theorem fresh_cons {seen : NameSet} {name : String} {names : List String}
    (new : seen.contains name = false) (later : Fresh (seen.add name) names) :
    Fresh seen (name :: names) := by
  obtain ⟨apart, fresh⟩ := later
  have old {other : String} (member : other ∈ names) :
      ¬ (other = name ∨ seen.contains other = true) := by
    rw [← NameSet.contains_add, fresh other member]
    exact Bool.false_ne_true
  refine ⟨List.nodup_cons.2 ⟨fun again => old again (.inl rfl), apart⟩, ?_⟩
  intro other member
  rcases List.mem_cons.1 member with rfl | after
  · exact new
  · exact Bool.eq_false_iff.2 fun known => old after (.inr known)

theorem fresh_of_ofCommands {group : String} {seen : NameSet} {commands : List CommandDecl}
    (valid : (ofCommands group seen commands).valid = true) :
    Fresh seen (commands.map (·.name)) := by
  induction commands generalizing seen with
  | nil => exact ⟨.nil, nofun⟩
  | cons c rest ih =>
    rw [ofCommands, valid_append, valid_append, valid_if_problem, Bool.not_eq_true] at valid
    exact fresh_cons valid.1.1 (ih valid.2)

theorem fresh_of_ofGroups {seen : NameSet} {groups : List GroupDecl}
    (valid : (ofGroups seen groups).valid = true) :
    Fresh seen (groups.map (·.name)) ∧ ∀ g ∈ groups, (ofGroup g).valid = true := by
  induction groups generalizing seen with
  | nil => exact ⟨⟨.nil, nofun⟩, nofun⟩
  | cons g rest ih =>
    rw [ofGroups, valid_append, valid_append, valid_if_problem, Bool.not_eq_true] at valid
    obtain ⟨fresh, others⟩ := ih valid.2
    exact ⟨fresh_cons valid.1.1 fresh, List.forall_mem_cons.2 ⟨valid.1.2, others⟩⟩

end Audit

structure Config.Distinct (c : Config) : Prop where
  groups : (c.groups.map (·.name)).Nodup
  commands : ∀ g ∈ c.groups, (g.commands.map (·.name)).Nodup

theorem Config.distinct_of_valid {c : Config} (valid : c.audit.valid = true) : c.Distinct := by
  rw [audit, Audit.valid_append] at valid
  obtain ⟨fresh, each⟩ := Audit.fresh_of_ofGroups valid.2
  refine ⟨fresh.1, fun g member => ?_⟩
  have own := each g member
  rw [Audit.ofGroup, Audit.valid_append] at own
  exact (Audit.fresh_of_ofCommands own.2).1

theorem GroupDecl.name_of_mem_labels {g : GroupDecl} {l : ScopeLabel} (member : l ∈ g.labels) :
    l = .group g.name ∨ ∃ c ∈ g.commands, l = .command g.name c.name := by
  rcases List.mem_cons.1 member with rfl | own
  · exact .inl rfl
  · obtain ⟨c, listed, rfl⟩ := List.mem_map.1 own
    exact .inr ⟨c, listed, rfl⟩

theorem GroupDecl.nodup_labels {g : GroupDecl} (distinct : (g.commands.map (·.name)).Nodup) :
    g.labels.Nodup := by
  refine List.nodup_cons.2 ⟨by simp, ?_⟩
  have labelled : g.commands.map (fun c => ScopeLabel.command g.name c.name) =
      (g.commands.map (·.name)).map (.command g.name) := by
    rw [List.map_map]
    rfl
  rw [labelled]
  exact distinct.map fun _ _ same => (ScopeLabel.command.inj same).2

theorem Config.Distinct.nodup_labels {c : Config} (h : c.Distinct) : c.labels.Nodup := by
  rw [labels_eq, List.nodup_cons, List.nodup_flatMap]
  refine ⟨?_, fun g member => GroupDecl.nodup_labels (h.commands g member), ?_⟩
  · intro member
    obtain ⟨g, _, own⟩ := List.mem_flatMap.1 member
    rcases GroupDecl.name_of_mem_labels own with impossible | ⟨_, _, impossible⟩ <;>
      cases impossible
  · refine (List.pairwise_map.1 h.groups).imp fun {g g'} differ l left right => ?_
    rcases GroupDecl.name_of_mem_labels left with rfl | ⟨_, _, rfl⟩
    · rcases GroupDecl.name_of_mem_labels right with same | ⟨_, _, same⟩
      · exact differ (ScopeLabel.group.inj same)
      · cases same
    · rcases GroupDecl.name_of_mem_labels right with same | ⟨_, _, same⟩
      · cases same
      · exact differ (ScopeLabel.command.inj same).1

/-- Two ways to part a name with two slashes into a group and a command. -/
inductive ScopeLabel.Nested : ScopeLabel → ScopeLabel → Prop
  | mk (outer middle inner : String) :
      Nested (.command outer (middle ++ "/" ++ inner)) (.command (outer ++ "/" ++ middle) inner)

theorem slash_eq_iff {a b a' b' : List Char} :
    a ++ '/' :: b = a' ++ '/' :: b' ↔
      (a = a' ∧ b = b') ∨ (∃ m, a' = a ++ '/' :: m ∧ b = m ++ '/' :: b') ∨
        ∃ m, a = a' ++ '/' :: m ∧ b' = m ++ '/' :: b := by
  constructor
  · intro same
    rcases List.append_eq_append_iff.1 same with ⟨gap, left, right⟩ | ⟨gap, left, right⟩
    · cases gap with
      | nil =>
        rw [List.append_nil] at left
        exact .inl ⟨left.symm, (List.cons.inj right).2⟩
      | cons c m =>
        obtain ⟨rfl, inner⟩ := List.cons.inj right
        exact .inr (.inl ⟨m, left, inner⟩)
    · cases gap with
      | nil =>
        rw [List.append_nil] at left
        exact .inl ⟨left, (List.cons.inj right).2.symm⟩
      | cons c m =>
        obtain ⟨rfl, inner⟩ := List.cons.inj right
        exact .inr (.inr ⟨m, left, inner⟩)
  · rintro (⟨rfl, rfl⟩ | ⟨m, rfl, rfl⟩ | ⟨m, rfl, rfl⟩) <;> simp

namespace ScopeLabel

theorem toList_text_command (group name : String) :
    (command group name).text.toList =
      "command:".toList ++ (group.toList ++ '/' :: name.toList) := by
  simp [text, toString]

theorem nested_iff {group name group' name' : String} :
    Nested (command group name) (command group' name') ↔
      ∃ m, group'.toList = group.toList ++ '/' :: m ∧ name.toList = m ++ '/' :: name'.toList := by
  constructor
  · rintro ⟨_, m, _⟩
    exact ⟨m.toList, by simp, by simp⟩
  · rintro ⟨m, outer, inner⟩
    have outer' : group' = group ++ "/" ++ String.ofList m :=
      String.toList_inj.1 (by simp [outer])
    have inner' : name = String.ofList m ++ "/" ++ name' :=
      String.toList_inj.1 (by simp [inner])
    rw [outer', inner']
    exact .mk group (String.ofList m) name'

theorem Nested.text_eq {a b : ScopeLabel} (h : Nested a b) : a.text = b.text := by
  obtain ⟨outer, middle, inner⟩ := h
  rw [← String.toList_inj, toList_text_command, toList_text_command]
  simp

theorem Nested.ne {a b : ScopeLabel} (h : Nested a b) : a ≠ b := by
  obtain ⟨outer, middle, inner⟩ := h
  intro same
  have lengths := congrArg String.length (command.inj same).1
  have slash : "/".length = 1 := rfl
  rw [String.length_append, String.length_append] at lengths
  omega

/-- Labels are read back from their texts, but for those of commands that nest. -/
theorem text_eq_iff {a b : ScopeLabel} :
    a.text = b.text ↔ a = b ∨ Nested a b ∨ Nested b a := by
  constructor
  · intro same
    have letters := congrArg String.toList same
    cases a with
    | globals =>
      cases b with
      | globals => exact .inl rfl
      | group | command => simp [text, toString] at letters
    | group name =>
      cases b with
      | group other =>
        left
        simpa [text, toString, String.toList_inj] using letters
      | globals | command => simp [text, toString] at letters
    | command group name =>
      cases b with
      | globals | group => simp [text, toString] at letters
      | command group' name' =>
        rw [toList_text_command, toList_text_command, List.append_cancel_left_eq, slash_eq_iff]
          at letters
        rwa [nested_iff, nested_iff, command.injEq, ← String.toList_inj, ← String.toList_inj]
  · rintro (rfl | nested | nested)
    · rfl
    · exact nested.text_eq
    · exact nested.text_eq.symm

end ScopeLabel

/-- Names that no slash can part in two ways: no group has one in its name, or no command has. -/
def Config.Plain (c : Config) : Prop :=
  (∀ g ∈ c.groups, '/' ∉ g.name.toList) ∨
    ∀ g ∈ c.groups, ∀ command ∈ g.commands, '/' ∉ command.name.toList

theorem Config.not_nested_of_plain {c : Config} (plain : c.Plain) :
    ∀ a ∈ c.labels, ∀ b ∈ c.labels, ¬ ScopeLabel.Nested a b := by
  have named {group name : String} (member : .command group name ∈ c.labels) :
      ∃ g ∈ c.groups, g.name = group ∧ ∃ command ∈ g.commands, command.name = name := by
    rw [labels_eq, List.mem_cons, List.mem_flatMap] at member
    rcases member with impossible | ⟨g, listed, own⟩
    · cases impossible
    · rcases GroupDecl.name_of_mem_labels own with impossible | ⟨command, its, same⟩
      · cases impossible
      · obtain ⟨rfl, rfl⟩ := ScopeLabel.command.inj same
        exact ⟨g, listed, rfl, command, its, rfl⟩
  rintro _ first _ second ⟨outer, middle, inner⟩
  rcases plain with groups | commands
  · obtain ⟨g, listed, name, _⟩ := named second
    exact groups g listed (by simp [name])
  · obtain ⟨g, listed, _, command, its, name⟩ := named first
    exact commands g listed command its (by simp [name])

/-- The scopes of a configuration that passes its audit have labels that differ. So have the labels
written out exactly if no two of them nest, as is the case where no slash is in a name of a group or
none in a name of a command. -/
theorem Config.labels_distinct {c : Config} (valid : c.audit.valid = true) :
    c.labels.Nodup ∧
      ((c.labels.map (·.text)).Nodup ↔
        ∀ a ∈ c.labels, ∀ b ∈ c.labels, ¬ ScopeLabel.Nested a b) ∧
      (c.Plain → (c.labels.map (·.text)).Nodup) := by
  have distinct := (distinct_of_valid valid).nodup_labels
  have exact : (c.labels.map (·.text)).Nodup ↔
      ∀ a ∈ c.labels, ∀ b ∈ c.labels, ¬ ScopeLabel.Nested a b := by
    constructor
    · intro texts a first b second nested
      exact nested.ne (List.inj_on_of_nodup_map texts first second nested.text_eq)
    · intro apart
      refine distinct.map_on fun a first b second same => ?_
      rcases ScopeLabel.text_eq_iff.1 same with eq | nested | nested
      · exact eq
      · exact absurd nested (apart a first b second)
      · exact absurd nested (apart b second a first)
  exact ⟨distinct, exact, fun plain => exact.2 (not_nested_of_plain plain)⟩

def Config.nestedGroups (group command : String) : Config where
  globals := { allowlist := some ["HOME"] }
  groups := [⟨"deploy", none, none, [], [], [], none, [{ name := command, cmd := some "true" }]⟩,
    ⟨group, none, none, [], [], [], none, [{ name := "push", cmd := some "true" }]⟩]

theorem Config.labels_distinct_deploy :
    (Config.nestedGroups "deploy/web" "check").audit.valid = true ∧
      ((Config.nestedGroups "deploy/web" "check").labels.map (·.text)).Nodup := by
  have valid : (Config.nestedGroups "deploy/web" "check").audit.valid = true := by decide +kernel
  exact ⟨valid, (Config.labels_distinct valid).2.2 (.inr (by decide +kernel))⟩

/-- The command `web/push` of one group and the command `push` of the group `deploy/web`. -/
theorem Config.labels_collide :
    ¬ ∀ c : Config, c.audit.valid = true → (c.labels.map (·.text)).Nodup := by
  intro told
  have texts := told (Config.nestedGroups "deploy/web" "web/push") (by decide +kernel)
  revert texts
  decide +kernel

end ScopedCommands
