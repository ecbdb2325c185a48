import ScopedCommands.Proofs.Dict
import ScopedCommands.Proofs.Template.ByParts

namespace ScopedCommands

open Outcome

namespace Template

def AsksFor (t : Template) (name : String) : Prop :=
  ∃ raw ∈ t.cmd :: (t.args ++ t.env ++ t.workdir.toList),
    ∃ items, Placeholder.Spells raw.toList items ∧ ∃ kind, .placeholder ⟨kind, name⟩ ∈ items

variable {t : Template} {name given : String} {params others : Dict Parameter} {b : BoundCommand}

theorem mem_allOf_parts {raw : String} {p : Placeholder} :
    p ∈ Placeholder.allOf (parts raw) ↔
      ∃ items, Placeholder.Spells raw.toList items ∧ .placeholder p ∈ items := by
  constructor
  · intro member
    cases read : Placeholder.parse raw with
    | error e => simp [parts, read, Except.toOption, Placeholder.allOf] at member
    | ok ps =>
      obtain ⟨items, spelled, rfl⟩ := Placeholder.parse_eq_ok_iff.1 read
      rw [parts, read] at member
      have shown : p ∈ Placeholder.allOf (Placeholder.merge items) := member
      rw [Placeholder.allOf_merge, List.mem_filterMap] at shown
      obtain ⟨item, inside, own⟩ := shown
      cases item with
      | placeholder q =>
        cases own
        exact ⟨items, spelled, inside⟩
      | dollar | pair | plain => cases own
  · rintro ⟨items, spelled, inside⟩
    have read : Placeholder.parse raw = .ok (Placeholder.merge items) :=
      Placeholder.parse_eq_ok_iff.2 ⟨items, spelled, rfl⟩
    have whole : parts raw = Placeholder.merge items := by
      rw [parts, read]
      rfl
    rw [whole, Placeholder.allOf_merge]
    exact List.mem_filterMap.2 ⟨_, inside, rfl⟩

theorem asksFor_iff : t.AsksFor name ↔ ∃ p ∈ t.placeholders, p.name = name := by
  have whole : t.placeholders =
      placeholdersIn (t.cmd :: (t.args ++ t.env ++ t.workdir.toList)) := by
    simp [placeholders, placeholdersIn]
  unfold AsksFor
  rw [whole]
  simp only [placeholdersIn, List.mem_flatMap, mem_allOf_parts]
  constructor
  · rintro ⟨raw, listed, items, spelled, kind, inside⟩
    exact ⟨⟨kind, name⟩, ⟨raw, listed, items, spelled, inside⟩, rfl⟩
  · rintro ⟨⟨kind, own⟩, ⟨raw, listed, items, spelled, inside⟩, rfl⟩
    exact ⟨raw, listed, items, spelled, kind, inside⟩

def Agree (t : Template) (params others : Dict Parameter) : Prop :=
  ∀ p ∈ t.placeholders, params.get? p.name = others.get? p.name

theorem values_congr {p : Placeholder} (same : params.get? p.name = others.get? p.name) :
    p.values params = p.values others ∧ p.value params = p.value others := by
  have value : p.value params = p.value others := by
    simp [Placeholder.value, Placeholder.text?, same]
  have items : p.items params = p.items others := by simp [Placeholder.items, same]
  simp [Placeholder.values, value, items]

theorem fill_congr {ps : List FieldPart}
    (same : ∀ p ∈ Placeholder.allOf ps, params.get? p.name = others.get? p.name) :
    FieldPart.fill params ps = FieldPart.fill others ps := by
  induction ps with
  | nil => rfl
  | cons first rest ih =>
    rw [FieldPart.fill_cons, FieldPart.fill_cons]
    cases first with
    | text text => rw [ih same, FieldPart.filled, FieldPart.filled]
    | placeholder p =>
      obtain ⟨own, later⟩ := List.forall_mem_cons.1 same
      rw [ih later, FieldPart.filled, FieldPart.filled, (values_congr own).2]

theorem valuesOf_congr {raws : List String}
    (same : ∀ p ∈ placeholdersIn raws, params.get? p.name = others.get? p.name) :
    valuesOf params raws = valuesOf others raws := by
  apply List.flatMap_congr
  intro raw listed
  have inside : ∀ p ∈ Placeholder.allOf (parts raw), params.get? p.name = others.get? p.name :=
    fun p member => same p (List.mem_flatMap.2 ⟨raw, listed, member⟩)
  unfold FieldPart.values
  cases alone : Placeholder.sole (parts raw) with
  | none => rw [fill_congr inside]
  | some p => exact (values_congr (inside p (by simp [Placeholder.allOf_of_sole alone]))).1

theorem Agree.cmd (same : t.Agree params others) :
    FieldPart.fill params (parts t.cmd) = FieldPart.fill others (parts t.cmd) := by
  apply fill_congr
  intro p member
  exact same p (by simp [placeholders, placeholdersIn_singleton, member])

theorem Agree.env (same : t.Agree params others) : valuesOf params t.env = valuesOf others t.env :=
  valuesOf_congr fun p member => same p (by simp [placeholders, member])

/-- What a call is bound to depends on the parameters that are asked for, but for the report on the
other ones. -/
theorem Agree.filled_eq (same : t.Agree params others) (name : String) :
    t.filled others name =
      { t.filled params name with unusedParams := (t.filled others name).unusedParams } := by
  have args : valuesOf others t.args = valuesOf params t.args :=
    valuesOf_congr fun p member => (same p (by simp [placeholders, member])).symm
  have workdir : valuesOf others t.workdir.toList = valuesOf params t.workdir.toList :=
    valuesOf_congr fun p member => (same p (by simp [placeholders, member])).symm
  simp only [filled, same.cmd, same.env, args, workdir]

theorem Agree.fits (same : t.Agree params others) (h : t.Fits params) : t.Fits others := by
  obtain ⟨supplied, _, apart⟩ := (fits_iff "").1 h
  refine (fits_iff "").2 ⟨fun p member => ?_, same.cmd ▸ h.visible, same.env ▸ apart⟩
  have own := supplied p member
  unfold Call.Supplies at own ⊢
  rwa [same p member] at own

theorem bind_of_agree (bound : t.bind name params = .ok b) (same : t.Agree params others)
    (named : ∀ given ∈ others.keys, Name.check given = .ok ()) :
    t.bind name others =
      .ok { b with unusedParams := (t.filled others name).unusedParams } := by
  obtain ⟨fits, rfl⟩ := eq_filled_of_bind bound
  rcases bind_of_wellFormed (wellFormed_of_bind bound) named with ⟨_, given⟩ | ⟨misfits, _⟩
  · rw [given, ← same.filled_eq]
  · exact absurd (same.fits fits) misfits

theorem mem_unusedParams (name : String) : given ∈ (t.filled params name).unusedParams ↔
    params.contains given = true ∧ ¬ t.AsksFor given := by
  rw [asksFor_iff, filled, List.mem_filter, Dict.mem_keys_iff]
  simp

theorem unusedParams_pairwise (name : String) :
    (t.filled params name).unusedParams.Pairwise (· < ·) :=
  (Dict.keys_pairwise params).filter _

theorem unusedParams_eq {names : List String} (ordered : names.Pairwise (· < ·))
    (same : ∀ given, given ∈ names ↔ params.contains given = true ∧ ¬ t.AsksFor given) :
    (t.filled params name).unusedParams = names := by
  have irrefl : Std.Irrefl fun x y : String => x < y := ⟨String.lt_irrefl⟩
  have antisymm : Std.Antisymm fun x y : String => x < y :=
    ⟨fun x y less more => absurd (String.lt_trans less more) (String.lt_irrefl x)⟩
  apply (unusedParams_pairwise name).eq_of_mem_iff ordered
  intro given
  rw [mem_unusedParams, same]

theorem unusedParams_told (bound : t.bind name params = .ok b) :
    b.unusedParams.Pairwise (· < ·) ∧
      ∀ given, given ∈ b.unusedParams ↔ params.contains given = true ∧ ¬ t.AsksFor given := by
  obtain ⟨_, whole⟩ := eq_filled_of_bind bound
  rw [whole]
  exact ⟨unusedParams_pairwise name, fun given => mem_unusedParams name⟩

theorem name_ne_of_unasked (unasked : ¬ t.AsksFor given) : ∀ p ∈ t.placeholders, p.name ≠ given :=
  fun p member same => unasked (asksFor_iff.2 ⟨p, member, same⟩)

theorem agree_erase (unasked : ¬ t.AsksFor given) : t.Agree params (params.erase given) := by
  intro p member
  rw [Dict.get?_erase, if_neg (name_ne_of_unasked unasked p member)]

theorem agree_insert (unasked : ¬ t.AsksFor given) (value : Parameter) :
    t.Agree params (params.insert given value) := by
  intro p member
  rw [Dict.get?_insert, if_neg (name_ne_of_unasked unasked p member)]

theorem bind_erase_unused (bound : t.bind name params = .ok b) (unused : given ∈ b.unusedParams) :
    t.bind name (params.erase given) =
      .ok { b with unusedParams := b.unusedParams.filter (· ≠ given) } := by
  obtain ⟨ordered, listed⟩ := unusedParams_told bound
  have unasked := ((listed given).1 unused).2
  rw [bind_of_agree bound (agree_erase unasked) fun other member => named_of_bind bound other ?_]
  · rw [unusedParams_eq (ordered.filter _)]
    intro other
    rw [List.mem_filter, listed, Dict.contains_erase, decide_eq_true_eq]
    tauto
  · rw [Dict.mem_keys_iff] at member ⊢
    exact (Dict.contains_erase.1 member).2

theorem bind_insert_unused (bound : t.bind name params = .ok b) (unused : given ∈ b.unusedParams)
    (value : Parameter) : t.bind name (params.insert given value) = .ok b := by
  obtain ⟨ordered, listed⟩ := unusedParams_told bound
  obtain ⟨known, unasked⟩ := (listed given).1 unused
  have keys : ∀ other, (params.insert given value).contains other = true ↔
      params.contains other = true := by
    intro other
    rw [Dict.contains_insert]
    exact or_iff_right_of_imp fun own => own ▸ known
  rw [bind_of_agree bound (agree_insert unasked value)
    fun other member => named_of_bind bound other ?_]
  · rw [unusedParams_eq ordered]
    intro other
    rw [listed, keys]
  · rw [Dict.mem_keys_iff] at member ⊢
    exact (keys other).1 member

/-- The report lists in order the parameters without a placeholder. Taking one of them away, or
giving it another value of any kind, changes nothing but the report on itself. -/
theorem unusedParams_exact (bound : t.bind name params = .ok b) :
    b.unusedParams.Pairwise (· < ·) ∧
    (∀ given, given ∈ b.unusedParams ↔ params.contains given = true ∧ ¬ t.AsksFor given) ∧
    ∀ given ∈ b.unusedParams,
      t.bind name (params.erase given) =
        .ok { b with unusedParams := b.unusedParams.filter (· ≠ given) } ∧
      ∀ value, t.bind name (params.insert given value) = .ok b := by
  obtain ⟨ordered, listed⟩ := unusedParams_told bound
  refine ⟨ordered, listed, fun given unused => ⟨?_, fun value => ?_⟩⟩
  · exact bind_erase_unused bound unused
  · exact bind_insert_unused bound unused value

def escaped : Template where
  cmd := "show"
  args := ["\\${note}", "${@files}"]
  env := ["LOG=${?log}"]

def escapedCall : Dict Parameter := Dict.ofList [("note", .text "x"), ("mode", .text "fast"),
  ("files", .list ["a", "b"])]

theorem unusedParams_exact_escaped :
    ∃ b, escaped.bind "escaped" escapedCall = .ok b ∧
      b.args = ["${note}", "a", "b"] ∧ b.unusedParams = ["mode", "note"] ∧
      escaped.bind "escaped" (escapedCall.erase "note") =
        .ok { b with unusedParams := ["mode"] } ∧
      escaped.bind "escaped" (escapedCall.insert "note" (.list ["${x}"])) = .ok b := by
  have bound : escaped.bind "escaped" escapedCall =
      .ok ⟨"escaped", "show", ["${note}", "a", "b"], ["LOG="], none, none, ["mode", "note"]⟩ :=
    toOption_eq_some.1 (by decide +kernel)
  obtain ⟨without, other⟩ := (unusedParams_exact bound).2.2 "note" (by simp)
  exact ⟨_, bound, rfl, rfl, without, other _⟩

end Template
end ScopedCommands
