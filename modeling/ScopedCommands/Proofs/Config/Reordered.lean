import Mathlib.Data.List.Perm.Basic
import ScopedCommands.Proofs.Config.Reading
import ScopedCommands.Proofs.Dict

namespace ScopedCommands

namespace Declaration

def names (entries : List String) : List String :=
  entries.filterMap fun entry => (Assignment.parse entry).map (·.name)

variable {read : Reader} {known entries other : List String} {items : List Assignment}

theorem AllRead.perm (h : AllRead read known entries items) (order : entries.Perm other) :
    ∃ others, items.Perm others ∧ AllRead read known other others := by
  obtain ⟨others, each, moved⟩ := List.perm_comp_forall₂ order.symm h.each
  refine ⟨others, moved.symm, each, ?_, ?_⟩
  · exact (moved.map _).nodup_iff.2 h.distinct
  · intro a member
    exact h.fresh a (moved.mem_iff.1 member)

theorem AllRead.sublist (h : AllRead read known entries items) (part : other.Sublist entries) :
    ∃ kept, kept.Sublist items ∧ AllRead read known other kept := by
  induction part generalizing known items with
  | slnil => exact ⟨[], List.nil_sublist items, allRead_nil_iff.2 rfl⟩
  | @cons fewer rest entry _ ih =>
    obtain ⟨a, later, rfl, _, _, others⟩ := allRead_cons_iff.1 h
    obtain ⟨kept, within, reads⟩ := ih others
    refine ⟨kept, within.cons a, reads.each, reads.distinct, ?_⟩
    intro b member old
    exact reads.fresh b member (List.mem_append_left [a.name] old)
  | @cons_cons fewer rest entry _ ih =>
    obtain ⟨a, later, rfl, own, new, others⟩ := allRead_cons_iff.1 h
    obtain ⟨kept, within, reads⟩ := ih others
    exact ⟨a :: kept, within.cons_cons a, allRead_cons_iff.2 ⟨a, kept, rfl, own, new, reads⟩⟩

theorem AllRead.anti (h : AllRead read known entries items) {fewer : List String}
    (fewer_known : ∀ name ∈ fewer, name ∈ known) : AllRead read fewer entries items :=
  ⟨h.each, h.distinct, fun a member old => h.fresh a member (fewer_known a.name old)⟩

theorem AllRead.names_eq {field : String} (h : AllRead (readVariable field) known entries items) :
    items.map (·.name) = names entries := by
  have each := h.each
  clear h
  induction each with
  | nil => rfl
  | cons own _ ih => simp [names, parse_of_readVariable own, ih]

end Declaration

namespace ScopeDecl

open Declaration

/-- The same scope with its imports and its env entries in another order. A list of its own may have
its names in another order as well, and more or less often. -/
structure Reordered (d other : ScopeDecl) : Prop where
  label : other.label = d.label
  allowlist : Option.Rel (fun names others => ∀ name, name ∈ names ↔ name ∈ others) d.allowlist
    other.allowlist
  imports : d.imports.Perm other.imports
  vars : other.vars = d.vars
  env : d.env.Perm other.env

variable {d other : ScopeDecl} {read : Declarations}

theorem Reordered.reads (h : d.Reordered other) (reads : d.Reads read) :
    ∃ again, other.Reads again ∧ read.imports.Perm again.imports ∧ again.vars = read.vars ∧
      read.env.Perm again.env := by
  obtain ⟨imports, moved, first⟩ := reads.imports.perm h.imports
  obtain ⟨env, turned, third⟩ := reads.env.perm h.env
  have taken : ∀ name ∈ imports.map (·.name), name ∈ read.imports.map (·.name) := fun name member =>
    (moved.map _).mem_iff.2 member
  have second := reads.vars.anti taken
  rw [← h.vars] at second
  exact ⟨⟨imports, read.vars, env⟩, ⟨first, second, third⟩, moved, rfl, turned⟩

theorem Reordered.allowlist_eq (h : d.Reordered other) (enclosing : Option Allowlist) :
    Allowlist.resolve other.allowlist enclosing = Allowlist.resolve d.allowlist enclosing := by
  have lists := h.allowlist
  generalize d.allowlist = own at lists ⊢
  generalize other.allowlist = instead at lists ⊢
  cases lists with
  | none => rfl
  | @some names others same =>
    have sets : NameSet.ofNames others = NameSet.ofNames names :=
      NameSet.ofNames_eq_iff.2 fun name => (same name).symm
    -- An empty list rejects, so it counts that both or none of them are empty.
    cases names with
    | nil =>
      cases others with
      | nil => rfl
      | cons first rest => exact absurd ((same first).2 List.mem_cons_self) List.not_mem_nil
    | cons first rest =>
      cases others with
      | nil => exact absurd ((same first).1 List.mem_cons_self) List.not_mem_nil
      | cons next more => exact congrArg (Allowlist.mk .explicit) sets

theorem Reads.lessEnv (h : d.Reads read) {part : List String} (fewer : part.Sublist d.env) :
    ∃ env, env.Sublist read.env ∧ env.map (·.name) = names part ∧
      { d with env := part }.Reads { read with env } := by
  obtain ⟨env, within, reads⟩ := h.env.sublist fewer
  exact ⟨env, within, reads.names_eq, h.imports, h.vars, reads⟩

end ScopeDecl
end ScopedCommands
