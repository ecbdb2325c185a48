import ScopedCommands.Config.Decode
import ScopedCommands.Config.Encode
import ScopedCommands.Proofs.Dict

namespace ScopedCommands

namespace Decoder

open Document

variable {t : Typing} {names : List String} {closed : Bool} {entries found : Entries}

/-- The keys with which a record is taken. -/
def Admits (names : List String) (closed : Bool) (keys : List String) : Prop :=
  (closed = true → ∀ key ∈ keys, key ∈ names) ∧ (keys.filter names.contains).Nodup

theorem fields_map_eq_some_iff :
    fields names closed t (.map entries) = some found ↔
      Admits names closed (entries.map (·.1)) ∧
        entries.filter (fun e => names.contains e.1) = found := by
  have shown : (entries.map (·.1)).filter names.contains
      = (entries.filter fun e => names.contains e.1).map (·.1) := List.filter_map
  -- As many entries are known as there are, just if every key is.
  have complete : (closed && (entries.filter fun e => names.contains e.1).length != entries.length)
      = false ↔ (closed = true → ∀ key ∈ entries.map (·.1), key ∈ names) := by
    cases closed <;> simp [List.length_filter_eq_length_iff]
  rw [Admits, shown, ← complete, fields]
  generalize entries.filter (fun e => names.contains e.1) = known
  cases closed && known.length != entries.length <;> simp

end Decoder

namespace Document

def entries : Document → Entries
  | .map entries => entries
  | _ => []

/-- The document is a record with these fields and no others. -/
def Shows (doc : Document) (names : List String) : Prop :=
  doc = .map doc.entries ∧ doc.entries.map (·.1) = names

theorem lookup_of_mem {entries : Entries} (distinct : (entries.map (·.1)).Nodup) :
    ∀ e ∈ entries, entries.lookup e.1 = some e.2 := by
  induction entries with
  | nil => nofun
  | cons first rest ih =>
    obtain ⟨new, later⟩ := List.nodup_cons.1 distinct
    intro e member
    rw [List.lookup_cons]
    rcases List.mem_cons.1 member with rfl | after
    · simp
    · have differ : e.1 ≠ first.1 := by
        intro same
        exact new (List.mem_map.2 ⟨e, after, same⟩)
      rw [beq_eq_false_iff_ne.2 differ]
      exact ih later e after

theorem Shows.fields {doc : Document} {names : List String} (h : doc.Shows names)
    (distinct : names.Nodup) (closed : Bool) (t : Typing) :
    Decoder.fields names closed t doc = some doc.entries := by
  obtain ⟨taken, shown⟩ := h
  have known : doc.entries.filter (fun e => names.contains e.1) = doc.entries := by
    rw [List.filter_eq_self]
    intro e member
    rw [List.contains_iff_mem, ← shown]
    exact List.mem_map_of_mem member
  rw [taken]
  refine Decoder.fields_map_eq_some_iff.2 ⟨?_, known⟩
  rw [shown]
  exact ⟨fun _ _ member => member, distinct.filter _⟩

end Document

inductive RecordKind
  | config
  | globals
  | group
  | command
  | template

namespace RecordKind

abbrev Value : RecordKind → Type
  | config => Config
  | globals => GlobalDecl
  | group => GroupDecl
  | command => CommandDecl
  | template => Template

def fieldNames : RecordKind → List String
  | config => ["version", "global", "groups", "templates"]
  | globals => ["env_allowlist", "from_env", "vars", "env"]
  | group => ["name", "description", "env_allowlist", "from_env", "vars", "env", "workdir",
      "commands"]
  | command => ["name", "description", "cmd", "args", "env", "env_allowlist", "from_env", "vars",
      "workdir", "risk_level", "template", "params"]
  | template => ["cmd", "args", "env", "workdir", "risk_level", "description"]

def closed : RecordKind → Bool
  | config | globals | group => false
  | command | template => true

def decode : (k : RecordKind) → Decoder k.Value
  | config => Config.decode
  | globals => GlobalDecl.decode
  | group => GroupDecl.decode
  | command => CommandDecl.decode
  | template => Template.decode

def encode : (k : RecordKind) → k.Value → Document
  | config => Config.encode
  | globals => GlobalDecl.encode
  | group => GroupDecl.encode
  | command => CommandDecl.encode
  | template => Template.encode

theorem nodup_fieldNames (k : RecordKind) : k.fieldNames.Nodup := by
  cases k <;> decide

theorem encode_shows (k : RecordKind) (a : k.Value) : (k.encode a).Shows k.fieldNames := by
  cases k <;> exact ⟨rfl, rfl⟩

theorem fields_encode (k : RecordKind) (a : k.Value) (t : Typing) :
    ∃ found, Decoder.fields k.fieldNames k.closed t (k.encode a) = some found ∧
      ∀ e ∈ (k.encode a).entries, found.lookup e.1 = some e.2 := by
  have shows := k.encode_shows a
  refine ⟨_, shows.fields k.nodup_fieldNames k.closed t, Document.lookup_of_mem ?_⟩
  rw [shows.2]
  exact k.nodup_fieldNames

theorem decode_eq_bind (k : RecordKind) (t : Typing) :
    ∃ build, ∀ doc, k.decode t doc = (Decoder.fields k.fieldNames k.closed t doc).bind build := by
  cases k <;> exact ⟨_, fun _ => rfl⟩

end RecordKind

namespace Decoder

open Document

variable {α β : Type} {d : Decoder α} {encode : α → Document}

/-- What is written is read as it was. -/
def Inverts (d : Decoder α) (encode : α → Document) : Prop := ∀ t a, d t (encode a) = some a

theorem inverts_text : Inverts text Document.text := by
  intro t s
  cases t <;> rfl

theorem Inverts.mapM (h : Inverts d encode) (t : Typing) (l : List α) :
    (l.map encode).mapM (d t) = some l := by
  induction l with
  | nil => rfl
  | cons a rest ih => simp [h t a, ih]

theorem Inverts.list (h : Inverts d encode) :
    Inverts (Decoder.list d) fun l => .list (l.map encode) := by
  intro t l
  rw [Decoder.list]
  exact h.mapM t l

theorem inverts_texts : Inverts texts ofTexts := inverts_text.list

/-- Null stands for what is absent, so nothing else may be written as null. -/
theorem Inverts.optional (h : Inverts d encode) (shown : ∀ a s, encode a ≠ .scalar .null s) :
    Inverts (Decoder.optional d) (ofOption encode) := by
  intro t o
  cases o with
  | none => rfl
  | some a =>
    rw [ofOption, Decoder.optional]
    · rw [h t a]
      rfl
    · exact shown a

theorem inverts_optional_text : Inverts (Decoder.optional text) (ofOption Document.text) :=
  inverts_text.optional fun _ _ => by simp [Document.text]

theorem inverts_optional_texts : Inverts (Decoder.optional texts) (ofOption ofTexts) :=
  inverts_texts.optional fun _ _ => by simp [ofTexts]

theorem Inverts.dict (h : Inverts d encode) : Inverts (Decoder.dict d) (ofDict encode) := by
  intro t m
  have entries : (m.entries.map fun e => (e.1, encode e.2)).mapM
      (fun e => (d t e.2).map (e.1, ·)) = some m.entries := by
    induction m.entries with
    | nil => rfl
    | cons e rest ih => simp [h t e.2, ih]
  rw [ofDict, Decoder.dict, entries, Option.map_some, Dict.ofList_entries]

theorem inverts_parameter : Inverts Parameter.decode Parameter.encode := by
  intro t p
  cases p with
  | text s => rfl
  | list items =>
    have read := inverts_text.mapM .strict items
    simp only [Parameter.encode, Document.ofTexts, Parameter.decode, read]
    rfl

theorem Inverts.required (h : Inverts d encode) {t : Typing} {found : Entries} {name : String}
    {a : α} (shown : found.lookup name = some (encode a)) :
    Decoder.required d t found name = some a := by
  rw [Decoder.required, shown]
  exact h t a

theorem Inverts.orElse (h : Inverts d encode) {default : α} {t : Typing} {found : Entries}
    {name : String} {a : α} (shown : found.lookup name = some (encode a)) :
    Decoder.orElse d default t found name = some a := by
  rw [Decoder.orElse, shown]
  exact h t a

theorem read_then {x : Option α} {a : α} {next : α → Option β} {b : β} (read : x = some a)
    (rest : next a = some b) : (x >>= next) = some b :=
  Option.bind_eq_some_iff.2 ⟨a, read, rest⟩

theorem inverts_template : Inverts Template.decode Template.encode := by
  intro t c
  obtain ⟨found, taken, each⟩ := RecordKind.template.fields_encode c t
  simp only [RecordKind.encode, Template.encode, entries, List.forall_mem_cons] at each
  obtain ⟨cmd, args, env, workdir, risk, description, -⟩ := each
  refine read_then taken ?_
  refine read_then (inverts_text.required cmd) ?_
  refine read_then (inverts_texts.orElse args) ?_
  refine read_then (inverts_texts.orElse env) ?_
  refine read_then (inverts_optional_text.orElse workdir) ?_
  refine read_then (inverts_optional_text.orElse risk) ?_
  refine read_then (inverts_optional_text.orElse description) ?_
  rfl

theorem inverts_command : Inverts CommandDecl.decode CommandDecl.encode := by
  intro t c
  obtain ⟨found, taken, each⟩ := RecordKind.command.fields_encode c t
  simp only [RecordKind.encode, CommandDecl.encode, entries, List.forall_mem_cons] at each
  obtain ⟨name, description, cmd, args, env, allowlist, imports, vars, workdir, risk, template,
    params, -⟩ := each
  refine read_then taken ?_
  refine read_then (inverts_text.required name) ?_
  refine read_then (inverts_optional_text.orElse description) ?_
  refine read_then (inverts_optional_text.orElse cmd) ?_
  refine read_then (inverts_optional_texts.orElse args) ?_
  refine read_then (inverts_optional_texts.orElse env) ?_
  refine read_then (inverts_optional_texts.orElse allowlist) ?_
  refine read_then (inverts_texts.orElse imports) ?_
  refine read_then (inverts_texts.orElse vars) ?_
  refine read_then (inverts_optional_text.orElse workdir) ?_
  refine read_then (inverts_optional_text.orElse risk) ?_
  refine read_then (inverts_optional_text.orElse template) ?_
  refine read_then (inverts_parameter.dict.orElse params) ?_
  rfl

theorem inverts_group : Inverts GroupDecl.decode GroupDecl.encode := by
  intro t c
  obtain ⟨found, taken, each⟩ := RecordKind.group.fields_encode c t
  simp only [RecordKind.encode, GroupDecl.encode, entries, List.forall_mem_cons] at each
  obtain ⟨name, description, allowlist, imports, vars, env, workdir, commands, -⟩ := each
  refine read_then taken ?_
  refine read_then (inverts_text.required name) ?_
  refine read_then (inverts_optional_text.orElse description) ?_
  refine read_then (inverts_optional_texts.orElse allowlist) ?_
  refine read_then (inverts_texts.orElse imports) ?_
  refine read_then (inverts_texts.orElse vars) ?_
  refine read_then (inverts_texts.orElse env) ?_
  refine read_then (inverts_optional_text.orElse workdir) ?_
  refine read_then (inverts_command.list.orElse commands) ?_
  rfl

theorem inverts_globals : Inverts GlobalDecl.decode GlobalDecl.encode := by
  intro t c
  obtain ⟨found, taken, each⟩ := RecordKind.globals.fields_encode c t
  simp only [RecordKind.encode, GlobalDecl.encode, entries, List.forall_mem_cons] at each
  obtain ⟨allowlist, imports, vars, env, -⟩ := each
  refine read_then taken ?_
  refine read_then (inverts_optional_texts.orElse allowlist) ?_
  refine read_then (inverts_texts.orElse imports) ?_
  refine read_then (inverts_texts.orElse vars) ?_
  refine read_then (inverts_texts.orElse env) ?_
  rfl

theorem inverts_config : Inverts Config.decode Config.encode := by
  intro t c
  obtain ⟨found, taken, each⟩ := RecordKind.config.fields_encode c t
  simp only [RecordKind.encode, Config.encode, entries, List.forall_mem_cons] at each
  obtain ⟨version, globals, groups, templates, -⟩ := each
  refine read_then taken ?_
  refine read_then (inverts_optional_text.orElse version) ?_
  refine read_then (inverts_globals.orElse globals) ?_
  refine read_then (inverts_group.list.orElse groups) ?_
  refine read_then (inverts_template.dict.orElse templates) ?_
  rfl

end Decoder
end ScopedCommands
