import ScopedCommands.Proofs.Config.Encoded

/-!
Unknown keys in a configuration. What a configuration is read as depends on each record in it only
through what that record is read as. So a key that an open record passes over changes nothing, and
a key that a closed record refuses spoils the whole configuration, wherever the record stands.
-/
namespace ScopedCommands

open Document

/-- A document in which the value of one key, or one item, is left open. -/
inductive Document.Frame
  | entry (before : Entries) (key : String) (after : Entries)
  | item (before after : List Document)

namespace Document.Frame

def fill : Frame → Document → Document
  | entry before key after, doc => .map (before ++ (key, doc) :: after)
  | item before after, doc => .list (before ++ doc :: after)

def IsField (names : List String) (name : String) : Frame → Prop
  | entry _ key _ => key = name
  | item before _ => names[before.length]? = some name

end Document.Frame

/-- Where a record of a kind can stand in the document of a configuration. -/
inductive Place : RecordKind → Type
  | config : Place .config
  | globals (field : Frame) (isField : field.IsField RecordKind.config.fieldNames "global") :
      Place .globals
  | group (field : Frame) (isField : field.IsField RecordKind.config.fieldNames "groups")
      (before after : List Document) : Place .group
  | command (inGroup : Place .group) (field : Frame)
      (isField : field.IsField RecordKind.group.fieldNames "commands")
      (before after : List Document) : Place .command
  | template (field : Frame) (isField : field.IsField RecordKind.config.fieldNames "templates")
      (before : Entries) (name : String) (after : Entries) : Place .template

def Place.fill {k : RecordKind} : Place k → Document → Document
  | .config, doc => doc
  | .globals field _, doc => field.fill doc
  | .group field _ before after, doc => field.fill (.list (before ++ doc :: after))
  | .command inGroup field _ before after, doc =>
    inGroup.fill (field.fill (.list (before ++ doc :: after)))
  | .template field _ before name after, doc => field.fill (.map (before ++ (name, doc) :: after))

namespace Decoder

variable {α β γ : Type} {d : Decoder α} {t : Typing} {names : List String} {name key : String}
  {front back : Entries}

/-- The part counts only for what it is read as, and nothing is read without it. -/
def Through (whole : Document → Option α) (part : Document → Option β) : Prop :=
  ∃ next : Option β → Option α, next none = none ∧ ∀ doc, whole doc = next (part doc)

namespace Through

variable {part : Document → Option β}

theorem never : Through (fun _ => (none : Option α)) part :=
  ⟨fun _ => none, rfl, fun _ => rfl⟩

theorem here (next : β → Option α) : Through (fun doc => part doc >>= next) part :=
  ⟨fun found => found >>= next, rfl, fun _ => rfl⟩

theorem past {x : Option γ} {rest : γ → Document → Option α}
    (each : ∀ c, Through (rest c) part) : Through (fun doc => x >>= fun c => rest c doc) part := by
  choose next missing taken using each
  refine ⟨fun found => x >>= fun c => next c found, ?_, ?_⟩
  · simp [missing]
  · intro doc
    simp only [taken]

theorem trans {whole : Document → Option α} {middle : Document → Option γ}
    {around : Document → Document} (outer : Through whole middle)
    (inner : Through (fun doc => middle (around doc)) part) :
    Through (fun doc => whole (around doc)) part := by
  obtain ⟨next, missing, taken⟩ := outer
  obtain ⟨next', missing', taken'⟩ := inner
  refine ⟨fun found => next (next' found), ?_, ?_⟩
  · simp only [missing', missing]
  · intro doc
    simp only [taken, ← taken']

end Through

theorem through_item (before after : List Document) :
    Through (fun doc => list d t (.list (before ++ doc :: after))) (d t) := by
  simp only [list, List.mapM_append, List.mapM_cons, bind_assoc]
  exact .past fun _ => .here _

theorem through_entry (before : Entries) (name : String) (after : Entries) :
    Through (fun doc => dict d t (.map (before ++ (name, doc) :: after))) (d t) := by
  simp only [dict, List.mapM_append, List.mapM_cons, Option.map_eq_bind, Option.bind_eq_bind,
    Option.bind_assoc]
  exact .past fun _ => .here _

theorem lookup_at {doc : Document} (fresh : name ∉ front.map (·.1)) :
    (front ++ (name, doc) :: back).lookup name = some doc := by
  have missing : front.lookup name = none := by
    rw [List.lookup_eq_none_iff]
    intro e member
    rw [bne_iff_ne]
    rintro rfl
    exact fresh (List.mem_map_of_mem member)
  rw [List.lookup_append, missing, Option.none_or, List.lookup_cons_self]

theorem lookup_beside {doc : Document} (other : key ≠ name) :
    (front ++ (name, doc) :: back).lookup key = (front ++ back).lookup key := by
  rw [List.lookup_append, List.lookup_append, List.lookup_cons, beq_eq_false_iff_ne.2 other]

theorem orElse_at {default : α} {doc : Document} (fresh : name ∉ front.map (·.1)) :
    orElse d default t (front ++ (name, doc) :: back) name = d t doc := by
  rw [orElse, lookup_at fresh]

theorem orElse_beside {default : α} {doc : Document} (other : key ≠ name) :
    orElse d default t (front ++ (name, doc) :: back) key
      = orElse d default t (front ++ back) key := by
  rw [orElse, orElse, lookup_beside other]

theorem required_beside {doc : Document} (other : key ≠ name) :
    required d t (front ++ (name, doc) :: back) key = required d t (front ++ back) key := by
  rw [required, required, lookup_beside other]

/-- The other fields decide whether a record is taken, whatever the open one holds. -/
def LeavesOpen (name : String) (read : Document → Option Entries) : Prop :=
  (∀ doc, read doc = none) ∨ ∃ front back, name ∉ front.map (·.1) ∧
    ∀ doc, read doc = some (front ++ (name, doc) :: back)

theorem leavesOpen_entry (known : name ∈ names) (closed : Bool) (t : Typing)
    (before after : Entries) :
    LeavesOpen name fun doc => fields names closed t (.map (before ++ (name, doc) :: after)) := by
  by_cases admitted : Admits names closed (before.map (·.1) ++ name :: after.map (·.1))
  · right
    refine ⟨before.filter fun e => names.contains e.1, after.filter fun e => names.contains e.1,
      ?_, fun doc => ?_⟩
    · have once := admitted.2
      rw [List.filter_append, List.filter_cons_of_pos (by simpa using known), List.nodup_middle,
        List.nodup_cons, List.mem_append, not_or] at once
      intro member
      obtain ⟨e, kept, same⟩ := List.mem_map.1 member
      obtain ⟨inside, listed⟩ := List.mem_filter.1 kept
      exact once.1.1 (List.mem_filter.2 ⟨same ▸ List.mem_map_of_mem inside, same ▸ listed⟩)
    · refine fields_map_eq_some_iff.2 ⟨by simpa using admitted, ?_⟩
      simp [known]
  · left
    intro doc
    rw [Option.eq_none_iff_forall_ne_some]
    intro found taken
    have given := (fields_map_eq_some_iff.1 taken).1
    exact admitted (by simpa using given)

theorem leavesOpen_item (distinct : names.Nodup) (closed : Bool) (t : Typing)
    {before : List Document} (place : names[before.length]? = some name) (after : List Document) :
    LeavesOpen name fun doc => fields names closed t (.list (before ++ doc :: after)) := by
  obtain ⟨inside, there⟩ := List.getElem?_eq_some_iff.1 place
  obtain ⟨front, back, rfl, aligned⟩ :
      ∃ front back, names = front ++ name :: back ∧ front.length = before.length := by
    refine ⟨names.take before.length, names.drop (before.length + 1), ?_, ?_⟩
    · rw [← there, List.getElem_cons_drop, List.take_append_drop]
    · rw [List.length_take, Nat.min_eq_left inside.le]
  have room (doc : Document) : (before ++ doc :: after).length ≤ (front ++ name :: back).length ↔
      after.length ≤ back.length := by
    simp only [List.length_append, List.length_cons]
    omega
  cases t with
  | loose => exact .inl fun _ => rfl
  | strict =>
    by_cases fits : after.length ≤ back.length
    · right
      refine ⟨front.zip before, back.zip after, ?_, fun doc => ?_⟩
      · intro member
        obtain ⟨e, paired, rfl⟩ := List.mem_map.1 member
        have twice := List.nodup_middle.1 distinct
        exact (List.nodup_cons.1 twice).1 (List.mem_append_left _ (List.of_mem_zip paired).1)
      · simp only [fields, if_pos ((room doc).2 fits), List.zip_append aligned, List.zip_cons_cons]
    · left
      intro doc
      exact if_neg (mt (room doc).1 fits)

theorem through_field {field : Frame} (isField : field.IsField names name) (known : name ∈ names)
    (distinct : names.Nodup) {closed : Bool} {build : Entries → Option α}
    {part : Document → Option β}
    (each : ∀ front back, name ∉ front.map (·.1) →
      Through (fun doc => build (front ++ (name, doc) :: back)) part) :
    Through (fun doc => (fields names closed t (field.fill doc)).bind build) part := by
  have opened : LeavesOpen name fun doc => fields names closed t (field.fill doc) := by
    cases field with
    | entry before key after =>
      obtain rfl : key = name := isField
      exact leavesOpen_entry known closed t before after
    | item before after => exact leavesOpen_item distinct closed t isField after
  rcases opened with refused | ⟨front, back, fresh, taken⟩
  · simp only [refused, Option.bind_none]
    exact .never
  · simp only [taken, Option.bind_some]
    exact each front back fresh

theorem through_globals {field : Frame}
    (isField : field.IsField RecordKind.config.fieldNames "global") :
    Through (fun doc => Config.decode t (field.fill doc)) (GlobalDecl.decode t) := by
  refine through_field isField (by decide) (by decide) fun front back fresh => ?_
  simp only [orElse_at fresh, orElse_beside, ne_eq, String.reduceEq, not_false_eq_true]
  exact .past fun _ => .here _

theorem through_groups {field : Frame}
    (isField : field.IsField RecordKind.config.fieldNames "groups") :
    Through (fun doc => Config.decode t (field.fill doc)) (list GroupDecl.decode t) := by
  refine through_field isField (by decide) (by decide) fun front back fresh => ?_
  simp only [orElse_at fresh, orElse_beside, ne_eq, String.reduceEq, not_false_eq_true]
  exact .past fun _ => .past fun _ => .here _

theorem through_templates {field : Frame}
    (isField : field.IsField RecordKind.config.fieldNames "templates") :
    Through (fun doc => Config.decode t (field.fill doc)) (dict Template.decode t) := by
  refine through_field isField (by decide) (by decide) fun front back fresh => ?_
  simp only [orElse_at fresh, orElse_beside, ne_eq, String.reduceEq, not_false_eq_true]
  exact .past fun _ => .past fun _ => .past fun _ => .here _

theorem through_commands {field : Frame}
    (isField : field.IsField RecordKind.group.fieldNames "commands") :
    Through (fun doc => GroupDecl.decode t (field.fill doc)) (list CommandDecl.decode t) := by
  refine through_field isField (by decide) (by decide) fun front back fresh => ?_
  simp only [orElse_at fresh, orElse_beside, required_beside, ne_eq, String.reduceEq,
    not_false_eq_true]
  exact .past fun _ => .past fun _ => .past fun _ => .past fun _ => .past fun _ =>
    .past fun _ => .past fun _ => .here _

theorem fields_added (unknown : key ∉ names) (closed : Bool) (t : Typing)
    (before after : Entries) (value : Document) :
    fields names closed t (.map (before ++ (key, value) :: after))
      = if closed then none else fields names closed t (.map (before ++ after)) := by
  cases closed with
  | true =>
    rw [if_pos rfl, Option.eq_none_iff_forall_ne_some]
    intro found taken
    have all := (fields_map_eq_some_iff.1 taken).1.1 rfl
    exact unknown (all key (by simp))
  | false =>
    rw [if_neg Bool.false_ne_true]
    ext found
    rw [fields_map_eq_some_iff, fields_map_eq_some_iff]
    simp [Admits, unknown]

end Decoder

namespace RecordKind

theorem decode_added {k : RecordKind} {key : String} (unknown : key ∉ k.fieldNames) (t : Typing)
    (before after : Entries) (value : Document) :
    k.decode t (.map (before ++ (key, value) :: after))
      = if k.closed then none else k.decode t (.map (before ++ after)) := by
  obtain ⟨build, read⟩ := k.decode_eq_bind t
  rw [read, read, Decoder.fields_added unknown]
  split <;> rfl

end RecordKind

namespace Place

open Decoder

variable {k : RecordKind}

theorem through (t : Typing) (p : Place k) :
    Through (fun doc => Config.decode t (p.fill doc)) (k.decode t) := by
  induction p with
  | config => exact ⟨id, rfl, fun _ => rfl⟩
  | globals field isField => exact through_globals isField
  | group field isField before after =>
    exact (through_groups isField).trans (through_item before after)
  | command inGroup field isField before after inner =>
    exact inner.trans ((through_commands isField).trans (through_item before after))
  | template field isField before name after =>
    exact (through_templates isField).trans (through_entry before name after)

theorem mem_of_fill {field : Frame} {names : List String} {name : String} {doc : Document}
    {written : Entries} (isField : field.IsField names name)
    (same : field.fill doc = .map written) : (name, doc) ∈ written := by
  cases field with
  | entry before key after =>
    obtain rfl : key = name := isField
    obtain rfl : before ++ (key, doc) :: after = written := Document.map.inj same
    simp
  | item before after => nomatch same

theorem written_of_append {α β : Type} {write : α → β} {l : List α} {before after : List β}
    {part : β} (same : before ++ part :: after = l.map write) : ∃ a, part = write a := by
  have member : part ∈ l.map write := by simp [← same]
  obtain ⟨a, -, written⟩ := List.mem_map.1 member
  exact ⟨a, written.symm⟩

theorem exists_written (p : Place k) {doc : Document} {c : Config} (same : p.fill doc = c.encode) :
    ∃ a, doc = k.encode a := by
  induction p generalizing doc with
  | config => exact ⟨c, same⟩
  | globals field isField =>
    have held : doc = c.globals.encode := by simpa using mem_of_fill isField same
    exact ⟨c.globals, held⟩
  | group field isField before after =>
    have held : before ++ doc :: after = c.groups.map GroupDecl.encode := by
      simpa using mem_of_fill isField same
    exact written_of_append held
  | command inGroup field isField before after inner =>
    obtain ⟨g, written⟩ := inner same
    have held : before ++ doc :: after = g.commands.map CommandDecl.encode := by
      simpa using mem_of_fill isField written
    exact written_of_append held
  | template field isField before name after =>
    have held : before ++ (name, doc) :: after
        = c.templates.entries.map fun e => (e.1, e.2.encode) := by
      simpa [ofDict] using mem_of_fill isField same
    obtain ⟨e, written⟩ := written_of_append held
    exact ⟨e.2, (Prod.mk.inj written).2⟩

end Place

/-- A configuration is read from its document as it was written, and the document shows every
field of every record. A key that is no field of the record it stands in, in whatever document,
counts for nothing in an open record and makes reading fail in a closed one. -/
theorem Config.survives_encoding (t : Typing) :
    (∀ c : Config, Config.decode t c.encode = some c) ∧
      (∀ (c : Config) (k : RecordKind) (p : Place k) (doc : Document),
        p.fill doc = c.encode → doc.Shows k.fieldNames) ∧
      ∀ (k : RecordKind) (p : Place k) (before after : Entries) (key : String) (value : Document),
        key ∉ k.fieldNames →
          Config.decode t (p.fill (.map (before ++ (key, value) :: after)))
            = if k.closed then none else Config.decode t (p.fill (.map (before ++ after))) := by
  refine ⟨Decoder.inverts_config t, ?_, ?_⟩
  · intro c k p doc same
    obtain ⟨a, rfl⟩ := p.exists_written same
    exact k.encode_shows a
  · intro k p before after key value unknown
    obtain ⟨next, missing, read⟩ := p.through t
    simp only [read, RecordKind.decode_added unknown]
    split
    · exact missing
    · rfl

theorem Config.survives_encoding_misspelt :
    Config.decode .strict (Config.encode {}) = some {} ∧
      (GlobalDecl.encode {}).Shows ["env_allowlist", "from_env", "vars", "env"] ∧
      Config.decode .strict (.map [("groups", .list [.map [("name", text "dev"),
          ("commands", .list [.map [("name", text "build"), ("cmd", text "make"),
            ("argz", .list [text "all"])]])]])])
        = none ∧
      Config.decode .strict (.map [("groups", .list [.map [("name", text "dev"),
          ("note", text "local")]])])
        = some { groups := [{ name := "dev" }] } := by
  obtain ⟨inverted, shown, added⟩ := Config.survives_encoding .strict
  let global : Frame :=
    .entry [("version", null)] "global" [("groups", .list []), ("templates", .map [])]
  let groups : Frame := .entry [] "groups" []
  let commands : Frame := .entry [("name", text "dev")] "commands" []
  refine ⟨inverted {}, shown {} .globals (.globals global rfl) _ rfl, ?_, ?_⟩
  · exact added .command (.command (.group groups rfl [] []) commands rfl [] [])
      [("name", text "build"), ("cmd", text "make")] [] "argz" (.list [text "all"]) (by decide)
  · have without : Config.decode .strict (.map [("groups", .list [.map [("name", text "dev")]])])
        = some { groups := [{ name := "dev" }] } := by decide +kernel
    have same := added .group (.group groups rfl [] []) [("name", text "dev")] [] "note"
      (text "local") (by decide)
    exact same.trans without

end ScopedCommands
