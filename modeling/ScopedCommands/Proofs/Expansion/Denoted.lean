import ScopedCommands.Proofs.Expansion.Faults

namespace ScopedCommands

/-- The value of a name, as a reference to it stands for it. -/
inductive Stands (lookup : Lookup) (external : Option External) (name : String) : String → Prop where
  | resolved {own : String} (bound : lookup name = some (.resolved own)) :
      Stands lookup external name own
  | raw {text own : String} (bound : lookup name = some (.raw text))
      (substituted : Substitutes lookup external text own) : Stands lookup external name own
  | process {env : External} (unbound : lookup name = none) (view : external = some env)
      (allowed : env.allowlist.allows name = true) :
      Stands lookup external name ((env.values.get? name).getD "")

variable {lookup other : Lookup} {external : Option External} {raw value name : String}
  {segments rest : List Segment} {path : List String} {last : String}

namespace Stands

theorem of_resolved {own : String} (h : Stands lookup external name value)
    (bound : lookup name = some (.resolved own)) : value = own := by
  cases h with
  | resolved bound' =>
    rw [bound] at bound'
    cases bound'
    rfl
  | raw bound' => simp [bound] at bound'
  | process unbound => simp [bound] at unbound

theorem of_raw {text : String} (h : Stands lookup external name value)
    (bound : lookup name = some (.raw text)) : Substitutes lookup external text value := by
  cases h with
  | resolved bound' => simp [bound] at bound'
  | raw bound' substituted =>
    rw [bound] at bound'
    cases bound'
    exact substituted
  | process unbound => simp [bound] at unbound

theorem of_unbound (h : Stands lookup external name value) (unbound : lookup name = none) :
    ∃ env, external = some env ∧ env.allowlist.allows name = true := by
  cases h with
  | resolved bound => simp [unbound] at bound
  | raw bound => simp [unbound] at bound
  | process _ view allowed => exact ⟨_, view, allowed⟩

end Stands

theorem denotes_literal_iff {text : String} :
    Denotes lookup external (.literal text :: rest) value ↔
      ∃ tail, Denotes lookup external rest tail ∧ value = text ++ tail := by
  constructor
  · rintro (_ | ⟨_, later⟩)
    exact ⟨_, later, rfl⟩
  · rintro ⟨tail, later, rfl⟩
    exact .literal text later

theorem denotes_reference_iff {position : Nat} :
    Denotes lookup external (.reference name position :: rest) value ↔
      ∃ own tail, Stands lookup external name own ∧ Denotes lookup external rest tail ∧
        value = own ++ tail := by
  constructor
  · intro h
    cases h with
    | resolved _ bound later => exact ⟨_, _, .resolved bound, later, rfl⟩
    | raw _ bound read expanded later => exact ⟨_, _, .raw bound ⟨_, read, expanded⟩, later, rfl⟩
    | process _ unbound view allowed later =>
      exact ⟨_, _, .process unbound view allowed, later, rfl⟩
  · rintro ⟨own, tail, stands, later, rfl⟩
    cases stands with
    | resolved bound => exact .resolved position bound later
    | raw bound substituted =>
      obtain ⟨inside, read, expanded⟩ := substituted
      exact .raw position bound read expanded later
    | process unbound view allowed => exact .process position unbound view allowed later

theorem Denotes.mono (h : Denotes lookup external segments value)
    (keeps : ∀ name position, .reference name position ∈ segments →
      ∀ own, Stands lookup external name own → Stands other external name own) :
    Denotes other external segments value := by
  induction segments generalizing value with
  | nil =>
    cases h
    exact .nil
  | cons segment rest ih =>
    have later {tail : String} (others : Denotes lookup external rest tail) :=
      ih others fun name position member => keeps name position (List.mem_cons_of_mem _ member)
    cases segment with
    | literal text =>
      obtain ⟨tail, others, same⟩ := denotes_literal_iff.1 h
      exact denotes_literal_iff.2 ⟨tail, later others, same⟩
    | reference name position =>
      obtain ⟨own, tail, stands, others, same⟩ := denotes_reference_iff.1 h
      have still := keeps name position List.mem_cons_self own stands
      exact denotes_reference_iff.2 ⟨own, tail, still, later others, same⟩

theorem Substitutes.mono (h : Substitutes lookup external raw value)
    (keeps : ∀ name, Reference.Mentions raw name →
      ∀ own, Stands lookup external name own → Stands other external name own) :
    Substitutes other external raw value := by
  obtain ⟨segments, read, denoted⟩ := h
  refine ⟨segments, read, denoted.mono fun name position member => ?_⟩
  exact keeps name ⟨segments, position, read, member⟩

theorem Denotes.stands (h : Denotes lookup external segments value) {position : Nat}
    (member : .reference name position ∈ segments) : ∃ own, Stands lookup external name own := by
  induction segments generalizing value with
  | nil => cases member
  | cons segment rest ih =>
    cases segment with
    | literal text =>
      obtain ⟨tail, later, _⟩ := denotes_literal_iff.1 h
      rcases List.mem_cons.1 member with impossible | after
      · cases impossible
      · exact ih later after
    | reference first place =>
      obtain ⟨own, tail, stands, later, _⟩ := denotes_reference_iff.1 h
      rcases List.mem_cons.1 member with same | after
      · cases same
        exact ⟨own, stands⟩
      · exact ih later after

theorem Substitutes.stands (h : Substitutes lookup external raw value)
    (mentioned : Reference.Mentions raw name) : ∃ own, Stands lookup external name own := by
  obtain ⟨segments, read, denoted⟩ := h
  obtain ⟨position, member⟩ := mentioned.mem read
  exact denoted.stands member

theorem Reference.IsWord.substitutes_written (word : Reference.IsWord name)
    (h : Stands lookup external name value) :
    Substitutes lookup external (Reference.written name) value := by
  refine ⟨_, word.parse_written, denotes_reference_iff.2 ⟨value, "", h, .nil, ?_⟩⟩
  rw [String.append_empty]

theorem Leads.substitutes (h : Leads lookup raw path last)
    (substituted : Substitutes lookup external raw value) :
    ∃ own, Substitutes lookup external last own := by
  induction h generalizing value with
  | here => exact ⟨value, substituted⟩
  | through mentioned bound _ ih =>
    obtain ⟨own, stands⟩ := substituted.stands mentioned
    exact ih (stands.of_raw bound)

/-- No path that starts with one of the segments is longer than that. -/
def Within (lookup : Lookup) (room : Nat) (segments : List Segment) : Prop :=
  ∀ name position text, .reference name position ∈ segments → lookup name = some (.raw text) →
    ∀ path last, Leads lookup text path last → path.length < room

theorem Within.length_le {room : Nat} (h : Within lookup room segments)
    (read : Reference.parse raw = .ok segments) (way : Leads lookup raw path last) :
    path.length ≤ room := by
  cases way with
  | here => exact Nat.zero_le room
  | @through _ name text path _ mentioned bound later =>
    obtain ⟨position, member⟩ := mentioned.mem read
    exact h name position text member bound path last later

theorem Within.mono {room more : Nat} (h : Within lookup room segments) (le : room ≤ more) :
    Within lookup more segments := by
  intro name position text member bound path last way
  exact Nat.lt_of_lt_of_le (h name position text member bound path last way) le

theorem Within.cons {room : Nat} {segment : Segment} (later : Within lookup room rest)
    (first : ∀ name position text, segment = .reference name position →
      lookup name = some (.raw text) → ∀ path last, Leads lookup text path last →
        path.length < room) : Within lookup room (segment :: rest) := by
  intro name position text member bound
  rcases List.mem_cons.1 member with same | after
  · exact first name position text same.symm bound
  · exact later name position text after bound

theorem Denotes.within (h : Denotes lookup external segments value) :
    ∃ room, Within lookup room segments := by
  induction h with
  | nil => exact ⟨0, fun _ _ _ member => nomatch member⟩
  | literal text _ ih =>
    obtain ⟨room, later⟩ := ih
    exact ⟨room, later.cons nofun⟩
  | resolved position bound _ ih =>
    obtain ⟨room, later⟩ := ih
    refine ⟨room, later.cons fun name place text same bound' => ?_⟩
    cases same
    simp [bound] at bound'
  | @raw first own _ _ position _ _ bound read _ _ inner ih =>
    obtain ⟨inside, nested⟩ := inner
    obtain ⟨room, later⟩ := ih
    have wider := later.mono (Nat.le_max_right (inside + 1) room)
    refine ⟨_, wider.cons fun name place text same bound' path last way => ?_⟩
    cases same
    rw [bound] at bound'
    cases bound'
    have short := nested.length_le read way
    exact Nat.lt_of_lt_of_le (Nat.lt_succ_of_le short) (Nat.le_max_left _ _)
  | process position unbound _ _ _ ih =>
    obtain ⟨room, later⟩ := ih
    refine ⟨room, later.cons fun name place text same bound => ?_⟩
    cases same
    simp [unbound] at bound

theorem Substitutes.not_back (h : Substitutes lookup external raw value)
    (way : Leads lookup raw path last) (mentioned : Reference.Mentions last name) :
    name ∉ path := by
  intro member
  obtain ⟨segments, read, denoted⟩ := h
  obtain ⟨room, within⟩ := denoted.within
  obtain ⟨before, after, text, reached, bound, onward⟩ := way.cut member
  have back := onward.append (.one mentioned bound)
  obtain ⟨rounds, walked, long⟩ := back.around (by simp) room
  have short := within.length_le read (reached.append walked)
  rw [List.length_append, List.length_append, List.length_singleton] at short
  omega

/-- A text that stands for a value is expanded to it, but where a path of more names than
may be nested starts there. -/
theorem Substitutes.expandIn_or_tooDeep (h : Substitutes lookup external raw value)
    (scope field : String) :
    expandIn { scope, field, external } lookup raw = .ok value ∨
      ∃ path name text, Leads lookup raw (path ++ [name]) text ∧ (path ++ [name]).Nodup ∧
        path.length = Context.depthLimit ∧
        expandIn { scope, field, external } lookup raw =
          .error (.tooDeep name Context.depthLimit) := by
  cases outcome : expandIn { scope, field, external } lookup raw with
  | ok v =>
    left
    rw [(substitutes_of_expandIn outcome).unique h]
  | error e =>
    right
    have coherent := Context.coherent_fresh scope field external
    obtain ⟨path, last, way, distinct, room, fault⟩ := fault_of_expandIn coherent outcome
    simp only [Chain.empty, List.nil_append] at distinct room fault
    obtain ⟨own, inside⟩ := way.substitutes h
    cases fault with
    | malformed unread =>
      obtain ⟨segments, read, _⟩ := inside
      rw [read] at unread
      cases unread
    | circular mentioned passed => exact absurd passed (h.not_back way mentioned)
    | @tooDeep name text mentioned bound new full =>
      refine ⟨path, name, text, way.append (.one mentioned bound), ?_, full, rfl⟩
      rw [List.nodup_append]
      refine ⟨distinct, List.nodup_singleton _, fun a member b single same => new ?_⟩
      rw [← List.mem_singleton.1 single, ← same]
      exact member
    | undefined mentioned unbound unseen =>
      obtain ⟨w, stands⟩ := inside.stands mentioned
      obtain ⟨env, view, allowed⟩ := stands.of_unbound unbound
      rw [(unseen env view).1] at allowed
      cases allowed
    | notAllowed mentioned unbound view denied =>
      obtain ⟨w, stands⟩ := inside.stands mentioned
      obtain ⟨env, view', allowed⟩ := stands.of_unbound unbound
      rw [view] at view'
      cases view'
      rw [denied] at allowed
      cases allowed

end ScopedCommands
