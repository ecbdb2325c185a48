import ScopedCommands.Proofs.Outcome
import ScopedCommands.Template.Check

namespace ScopedCommands.Template

open Outcome

def Scalar (raw : String) : Prop :=
  ∃ parts, parseField raw = .ok parts ∧ Placeholder.firstSpread parts = none

def Plural (raw : String) : Prop :=
  ∃ parts, parseField raw = .ok parts ∧
    ((Placeholder.sole parts).isSome = true ∨ Placeholder.firstSpread parts = none)

def EnvShape.Pairs : EnvShape → Prop
  | .spread _ | .sole _ => True
  | .pair _ value => Placeholder.firstSpread value = none

def Entry (template raw : String) : Prop :=
  ∃ shape, classifyEntry template raw = .ok shape ∧ shape.Pairs

structure WellFormed (name : String) (t : Template) : Prop where
  visible : Text.allBlank t.cmd = false
  cmd : Scalar t.cmd
  args : ∀ raw ∈ t.args, Plural raw
  env : ∀ raw ∈ t.env, Entry name raw
  workdir : ∀ raw ∈ t.workdir, Scalar raw

variable {template field raw name : String} {t : Template}

theorem refuseSpread_eq_ok_iff {parts : List FieldPart} :
    refuseSpread template field parts = .ok () ↔ Placeholder.firstSpread parts = none := by
  unfold refuseSpread
  cases Placeholder.firstSpread parts <;> simp

theorem checkSingle_eq_ok_iff : checkSingle template raw field = .ok () ↔ Scalar raw := by
  simp only [checkSingle, bind_eq_ok, refuseSpread_eq_ok_iff, Scalar]

theorem checkArgs_eq_ok_iff {index : Nat} {raws : List String} :
    checkArgs template index raws = .ok () ↔ ∀ raw ∈ raws, Plural raw := by
  induction raws generalizing index with
  | nil => simp [checkArgs]
  | cons raw rest ih =>
    rw [List.forall_mem_cons, checkArgs, bind_eq_ok, Plural]
    constructor
    · rintro ⟨parts, read, checked⟩
      split at checked
      next several =>
        obtain ⟨_, refused, later⟩ := bind_eq_ok.1 checked
        exact ⟨⟨parts, read, .inr (refuseSpread_eq_ok_iff.1 refused)⟩, ih.1 later⟩
      next alone =>
        exact ⟨⟨parts, read, .inl (by simpa [Option.isSome_iff_ne_none] using alone)⟩, ih.1 checked⟩
    · rintro ⟨⟨parts, read, shape⟩, later⟩
      refine ⟨parts, read, ?_⟩
      split
      next several =>
        have mixed : Placeholder.firstSpread parts = none :=
          shape.resolve_left fun alone => by simp_all
        exact bind_eq_ok.2 ⟨(), refuseSpread_eq_ok_iff.2 mixed, ih.2 later⟩
      next => exact ih.2 later

theorem checkEnv_eq_ok_iff {index : Nat} {raws : List String} :
    checkEnv template index raws = .ok () ↔ ∀ raw ∈ raws, Entry template raw := by
  induction raws generalizing index with
  | nil => simp [checkEnv]
  | cons raw rest ih =>
    rw [List.forall_mem_cons, checkEnv, bind_eq_ok, Entry]
    constructor
    · rintro ⟨shape, read, checked⟩
      cases shape with
      | pair key value =>
        obtain ⟨_, refused, later⟩ := bind_eq_ok.1 checked
        exact ⟨⟨_, read, refuseSpread_eq_ok_iff.1 refused⟩, ih.1 later⟩
      | spread p => exact ⟨⟨_, read, trivial⟩, ih.1 checked⟩
      | sole p => exact ⟨⟨_, read, trivial⟩, ih.1 checked⟩
    · rintro ⟨⟨shape, read, pairs⟩, later⟩
      refine ⟨shape, read, ?_⟩
      cases shape with
      | pair key value => exact bind_eq_ok.2 ⟨(), refuseSpread_eq_ok_iff.2 pairs, ih.2 later⟩
      | spread p => exact ih.2 later
      | sole p => exact ih.2 later

def checkRisk (name : String) (t : Template) : Except TemplateError Unit :=
  match RiskLevel.parseDeclared t.riskLevel with
  | .error e => throw (.badRisk name e)
  | .ok _ => return ()

theorem WellFormed.check_eq (h : t.WellFormed name) :
    t.check name = (do checkName name; t.checkRisk name) := by
  unfold check checkRisk
  rw [h.visible, checkSingle_eq_ok_iff.2 h.cmd, checkArgs_eq_ok_iff.2 h.args,
    checkEnv_eq_ok_iff.2 h.env]
  cases directory : t.workdir with
  | none => cases RiskLevel.parseDeclared t.riskLevel <;> rfl
  | some raw =>
    simp only [checkSingle_eq_ok_iff.2 (h.workdir raw directory)]
    cases RiskLevel.parseDeclared t.riskLevel <;> rfl

theorem wellFormed_of_check (checked : t.check name = .ok ()) : t.WellFormed name := by
  unfold check at checked
  obtain ⟨_, _, rest⟩ := bind_eq_ok.1 checked
  dsimp only at rest
  split at rest
  · obtain ⟨_, thrown, _⟩ := bind_eq_ok.1 rest
    cases thrown
  next visible =>
    obtain ⟨_, cmd, rest⟩ := bind_eq_ok.1 rest
    have lists : ∀ {last : Except TemplateError Unit},
        (do checkArgs name 0 t.args; checkEnv name 0 t.env; last) = .ok () →
          (∀ raw ∈ t.args, Plural raw) ∧ ∀ raw ∈ t.env, Entry name raw := by
      intro last checked
      obtain ⟨_, args, rest⟩ := bind_eq_ok.1 checked
      obtain ⟨_, env, _⟩ := bind_eq_ok.1 rest
      exact ⟨checkArgs_eq_ok_iff.1 args, checkEnv_eq_ok_iff.1 env⟩
    have single := checkSingle_eq_ok_iff.1 cmd
    have visible := eq_false_of_ne_true visible
    cases directory : t.workdir with
    | none =>
      rw [directory] at rest
      obtain ⟨args, env⟩ := lists rest
      exact ⟨visible, single, args, env, by simp [directory]⟩
    | some raw =>
      rw [directory] at rest
      obtain ⟨_, own, rest⟩ := bind_eq_ok.1 rest
      obtain ⟨args, env⟩ := lists rest
      exact ⟨visible, single, args, env, by simpa [directory] using checkSingle_eq_ok_iff.1 own⟩

theorem check_eq_ok_iff : t.check name = .ok () ↔
    checkName name = .ok () ∧ t.WellFormed name ∧ t.checkRisk name = .ok () := by
  constructor
  · intro checked
    have fields := wellFormed_of_check checked
    rw [fields.check_eq, bind_eq_ok] at checked
    obtain ⟨_, named, risk⟩ := checked
    exact ⟨named, fields, risk⟩
  · rintro ⟨named, fields, risk⟩
    rw [fields.check_eq, named]
    exact risk

end ScopedCommands.Template
