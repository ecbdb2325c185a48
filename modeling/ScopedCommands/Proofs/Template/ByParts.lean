import ScopedCommands.Proofs.Expansion.Joined
import ScopedCommands.Proofs.Template.Fitting

namespace ScopedCommands

open Outcome Reference

namespace FieldPart

/-- The value expands as the parts do in order: to their expansions put together, or to the error of
the first part that has one. It may be that parts are empty; those next to them then meet. -/
def ExpandsTo (params : Dict Parameter) (parts : List FieldPart) (value : String) : Prop :=
  Composable ((parts.map (filled params)).filter (· ≠ "")) →
    ∀ (lookup : Lookup) (ctx : Context), expandIn ctx lookup value =
      (parts.mapM fun part => expandIn ctx lookup (part.filled params)).map String.join

variable {params : Dict Parameter} {parts : List FieldPart}

theorem expandsTo_fill (params : Dict Parameter) (parts : List FieldPart) :
    ExpandsTo params parts (fill params parts) := by
  intro composable lookup ctx
  rw [fill, (expandIn_join composable).2, List.mapM_map]
  rfl

end FieldPart

namespace Template

variable {t : Template} {name : String} {params : Dict Parameter} {b : BoundCommand}

theorem Fits.pair_mem (fits : t.Fits params) {raw key : String} {own : List FieldPart}
    (listed : raw ∈ t.env) (shaped : Shaped raw (.pair key own)) :
    key ++ "=" ++ FieldPart.fill params own ∈ valuesOf params t.env := by
  obtain ⟨mixed, _, alike⟩ := shaped.pair_eq
  have member : FieldPart.fill params (parts raw) ∈ valuesOf params t.env := by
    refine List.mem_flatMap.2 ⟨raw, listed, ?_⟩
    rw [FieldPart.values, mixed]
    exact List.mem_singleton_self _
  -- Only entries with a key come of a call that fits, and then both readings are the same.
  have keyed := ((fits_iff "").1 fits).2.2.keyed _ member
  have same := (alike params).resolve_right fun unnamed => unnamed.2.2 keyed
  rw [same]
  exact member

theorem Shaped.parse_pair {raw key : String} {own : List FieldPart}
    (shaped : Shaped raw (.pair key own)) (value : String) :
    Assignment.parse (key ++ "=" ++ value) = some ⟨key, value⟩ := by
  obtain - | - | ⟨_, _, parsed, _, _, _⟩ := shaped
  obtain ⟨free, _⟩ := Assignment.parse_eq_some_iff.1 parsed
  exact Assignment.parse_eq_some_iff.2 ⟨free, rfl⟩

/-- The fields of a bound command, each with the parts of the template that it is put together from.
A list parameter that is spread gives its items as they are. -/
structure ExpandsByParts (t : Template) (params : Dict Parameter) (b : BoundCommand) : Prop where
  cmd : FieldPart.ExpandsTo params (parts t.cmd) b.cmd
  args : b.args = (t.args.map fun raw => FieldPart.values params (parts raw)).flatten
  argument : ∀ raw ∈ t.args, (∀ p ∈ Placeholder.allOf (parts raw), p.kind ≠ .spread) →
    ∀ value ∈ FieldPart.values params (parts raw), FieldPart.ExpandsTo params (parts raw) value
  entry : ∀ raw ∈ t.env, ∀ key own, classifyEntry b.template raw = .ok (.pair key own) →
    ∃ value, key ++ "=" ++ value ∈ b.env ∧
      Assignment.parse (key ++ "=" ++ value) = some ⟨key, value⟩ ∧
      FieldPart.ExpandsTo params own value
  workdir : ∀ value ∈ b.workdir, ∃ raw ∈ t.workdir, FieldPart.ExpandsTo params (parts raw) value

theorem expandsByParts_of_bind (bound : t.bind name params = .ok b) : t.ExpandsByParts params b := by
  obtain ⟨fits, rfl⟩ := eq_filled_of_bind bound
  have fields := wellFormed_of_bind bound
  refine ⟨FieldPart.expandsTo_fill _ _, ?_, ?_, ?_, ?_⟩
  · exact List.flatMap_def
  · intro raw _ scalars value member
    rw [FieldPart.eq_fill_of_mem_values scalars member]
    exact FieldPart.expandsTo_fill _ _
  · intro raw listed key own read
    have shaped := shaped_of_classifyEntry read
    exact ⟨_, fits.pair_mem listed shaped, shaped.parse_pair _, FieldPart.expandsTo_fill _ _⟩
  · intro value given
    have member : value ∈ valuesOf params t.workdir.toList :=
      List.mem_of_mem_head? given
    obtain ⟨raw, listed, own⟩ := List.mem_flatMap.1 member
    have present : raw ∈ t.workdir := Option.mem_toList.1 listed
    obtain ⟨ps, read, scalar⟩ := fields.workdir raw present
    refine ⟨raw, present, ?_⟩
    rw [FieldPart.eq_fill_of_mem_values ?_ own]
    · exact FieldPart.expandsTo_fill _ _
    · rw [parts_of_parseField read]
      exact Placeholder.firstSpread_eq_none_iff.1 scalar

end Template

/-- Texts that do not meet in a seam expand one after the other, and so do the parts of a field that
binding puts together. -/
theorem expand_compositional :
    (∀ a b : String, Readable a → Readable b → ¬ Seam a b → ∀ (lookup : Lookup) (ctx : Context),
      expandIn ctx lookup (a ++ b) =
        expandIn ctx lookup a >>= fun v => (expandIn ctx lookup b).map (v ++ ·)) ∧
    (∀ (call : Template.Call) (field : String) (parts : List FieldPart) (used after : NameSet)
      (value : String), (call.text field parts).run used = .ok (value, after) →
        FieldPart.ExpandsTo call.params parts value) ∧
    ∀ (t : Template) (name : String) (params : Dict Parameter) (b : BoundCommand),
      t.bind name params = .ok b → t.ExpandsByParts params b := by
  refine ⟨fun a b first second clear lookup ctx => expandIn_append first second clear, ?_, ?_⟩
  · intro call field parts used after value bound
    rw [Template.Call.eq_fill_of_text bound]
    exact FieldPart.expandsTo_fill _ _
  · intro t name params b bound
    exact Template.expandsByParts_of_bind bound

def Template.discount : Template where
  cmd := "${tool}"
  args := ["--rate=${rate}%${?unit}", "${@rest}"]
  env := ["RATE=${rate}\\\\%"]
  workdir := some "%{root}/${dir}"

def discountCall : Dict Parameter := Dict.ofList [("tool", .text "bill"),
  ("rate", .text "%{base}"), ("unit", .text "off"), ("rest", .list ["{x}"]),
  ("dir", .text "100%")]

def baseRate : Lookup := fun name => if name = "base" then some (.resolved "5") else none

/-- With an escaped percent sign there is no seam; with one that is not, the rule does not hold. -/
theorem expand_compositional_discount :
    expandIn ⟨"rates", "", none, .empty, 0⟩ baseRate ("100\\%" ++ "{base}") = .ok "100%{base}" ∧
      (Seam "100%" "{base}" ∧
        expandIn ⟨"rates", "", none, .empty, 0⟩ baseRate ("100%" ++ "{base}") = .ok "1005") ∧
      ∃ b, Template.discount.bind "discount" discountCall = .ok b ∧
        b.args = ["--rate=%{base}%off", "{x}"] ∧ Template.discount.ExpandsByParts discountCall b ∧
        expandIn ⟨"rates", "", none, .empty, 0⟩ baseRate "--rate=%{base}%off" =
          .ok "--rate=5%off" := by
  refine ⟨?_, ⟨by decide, toOption_eq_some.1 (by decide +kernel)⟩, ?_⟩
  · rw [expand_compositional.1 "100\\%" "{base}" (by decide +kernel) (by decide +kernel)
      (by decide +kernel)]
    exact toOption_eq_some.1 (by decide +kernel)
  · obtain ⟨b, bound, args⟩ : ∃ b, Template.discount.bind "discount" discountCall = .ok b ∧
        b.args = ["--rate=%{base}%off", "{x}"] :=
      ⟨⟨"discount", "bill", ["--rate=%{base}%off", "{x}"], ["RATE=%{base}\\\\%"],
        some "%{root}/100%", none, []⟩, toOption_eq_some.1 (by decide +kernel), rfl⟩
    have fields := expand_compositional.2.2 _ _ _ b bound
    have first := fields.argument "--rate=${rate}%${?unit}" (by decide) (by decide +kernel)
      "--rate=%{base}%off" (by decide +kernel) (by decide +kernel) baseRate
    refine ⟨b, bound, args, fields, ?_⟩
    rw [first]
    exact toOption_eq_some.1 (by decide +kernel)

end ScopedCommands
