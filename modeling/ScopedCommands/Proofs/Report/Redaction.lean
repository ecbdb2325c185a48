import ScopedCommands.Proofs.CommandLine.ExitCodes
import ScopedCommands.Proofs.Dict

namespace ScopedCommands

namespace Redaction

theorem get?_redact (env : Dict String) (name : String) :
    (redact env).get? name =
      (env.get? name).map fun value => if isSensitive name then mask else value :=
  Dict.get?_map _ env name

theorem keys_redact (env : Dict String) : (redact env).keys = env.keys := Dict.keys_map _ env

theorem get?_redact_plain {name : String} (plain : isSensitive name = false) (env : Dict String) :
    (redact env).get? name = env.get? name := by
  simp [get?_redact, plain]

theorem get?_redact_secret {name value : String} {env : Dict String}
    (secret : isSensitive name = true) (kept : env.get? name = some value) :
    (redact env).get? name = some mask := by
  simp [get?_redact, secret, kept]

structure SameButSecrets (a b : Dict String) : Prop where
  keys : a.keys = b.keys
  plain : ∀ name, isSensitive name = false → a.get? name = b.get? name

theorem redact_eq_iff {a b : Dict String} : redact a = redact b ↔ SameButSecrets a b := by
  constructor
  · intro same
    constructor
    · rw [← keys_redact a, same, keys_redact]
    · intro name plain
      rw [← get?_redact_plain plain a, same, get?_redact_plain plain]
  · intro same
    apply Dict.ext_get?
    intro name
    cases secret : isSensitive name with
    | false => rw [get?_redact_plain secret, get?_redact_plain secret, same.plain name secret]
    | true =>
      have both := Dict.contains_eq_of_keys same.keys name
      unfold Dict.contains at both
      rw [get?_redact, get?_redact, secret]
      cases left : a.get? name <;> cases right : b.get? name <;> simp [left, right] at both ⊢

theorem redact_redact (env : Dict String) : redact (redact env) = redact env :=
  redact_eq_iff.2 ⟨keys_redact env, fun _ plain => get?_redact_plain plain env⟩

def AlikeButCase (a b : String) : Prop := a.toList.map Char.toLower = b.toList.map Char.toLower

theorem toUpper_toLower (c : Char) : c.toLower.toUpper = c.toUpper := by
  unfold Char.toLower
  split
  next upper =>
    rw [ge_iff_le, UInt32.le_iff_toNat_le, UInt32.le_iff_toNat_le] at upper
    have least : 65 ≤ c.val.toNat := upper.1
    have most : c.val.toNat ≤ 90 := upper.2
    have shifted : (c.val + ('a'.val - 'A'.val)).toNat = c.val.toNat + 32 := by
      rw [UInt32.toNat_add]
      exact Nat.mod_eq_of_lt (by change c.val.toNat + 32 < 2 ^ 32; omega)
    have lower : 'a'.val ≤ c.val + ('a'.val - 'A'.val) ∧ c.val + ('a'.val - 'A'.val) ≤ 'z'.val := by
      rw [UInt32.le_iff_toNat_le, UInt32.le_iff_toNat_le, shifted]
      change 97 ≤ _ ∧ _ ≤ 122
      omega
    have other : ¬ ('a'.val ≤ c.val ∧ c.val ≤ 'z'.val) := by
      rw [UInt32.le_iff_toNat_le]
      change ¬ (97 ≤ _ ∧ _)
      omega
    unfold Char.toUpper
    rw [dif_pos lower, dif_neg other]
    apply Char.ext
    change c.val + ('a'.val - 'A'.val) + ('A'.val - 'a'.val) = c.val
    rw [UInt32.add_assoc]
    exact UInt32.add_zero c.val
  · rfl

theorem isSensitive_of_alike {a b : String} (alike : AlikeButCase a b) :
    isSensitive a = isSensitive b := by
  have upper (name : String) :
      name.toList.map Char.toUpper = (name.toList.map Char.toLower).map Char.toUpper := by
    rw [List.map_map]
    exact List.map_congr_left fun c _ => (toUpper_toLower c).symm
  unfold isSensitive
  rw [upper a, upper b, alike]

end Redaction

open Redaction

structure ResolvedCommand.SameButSecrets (x y : ResolvedCommand) : Prop where
  fields : { x with env := y.env } = y
  env : Redaction.SameButSecrets x.env y.env

/-- The same commands in all but the values of secrets, with the same warnings and failures. -/
structure Resolution.SameButSecrets (x y : Resolution) : Prop where
  commands : List.Forall₂ ResolvedCommand.SameButSecrets x.commands y.commands
  warnings : x.warnings = y.warnings
  failures : x.failures = y.failures

theorem ResolvedCommand.SameButSecrets.redacted {x y : ResolvedCommand} (h : x.SameButSecrets y) :
    { x with env := redact x.env } = { y with env := redact y.env } := by
  have env : redact x.env = redact y.env := redact_eq_iff.2 h.env
  rw [← h.fields, env]

theorem Resolution.SameButSecrets.report {x y : Resolution} (h : x.SameButSecrets y) :
    Report.ofResolution x false = Report.ofResolution y false := by
  have commands : (x.commands.map fun c => { c with env := redact c.env }) =
      y.commands.map fun c => { c with env := redact c.env } := by
    have same := h.commands
    generalize x.commands = xs at same ⊢
    generalize y.commands = ys at same ⊢
    induction same with
    | nil => rfl
    | cons first _ ih => rw [List.map_cons, List.map_cons, first.redacted, ih]
  simp only [Report.ofResolution, commands, h.warnings, h.failures, Bool.false_eq_true, if_false]

namespace CommandLine

variable {request : ResolveRequest} {x y : Resolution}

theorem reportLines_of_same (hidden : request.showSecrets = false) (same : x.SameButSecrets y) :
    reportLines request x = reportLines request y := by
  unfold reportLines
  rw [hidden, same.report]

theorem result_of_same {here there : Surroundings} (hidden : request.showSecrets = false)
    (first : prepare here request = .ok x) (second : prepare there request = .ok y)
    (same : x.SameButSecrets y) :
    (resolve here request).result = (resolve there request).result := by
  have lines := reportLines_of_same hidden same
  have complete : x.complete = y.complete := by
    simp only [Resolution.complete, same.failures]
  simp only [resolve, first, second]
  rw [lines, complete, same.failures]

/-- Reports of resolutions that differ in secrets only are the same, and hiding an environment
takes away the values of its secrets, whatever the case of their names, and nothing else. -/
theorem resolve_hides_secrets :
    (∀ (request : ResolveRequest) (x y : Resolution), request.showSecrets = false →
      x.SameButSecrets y →
        printed (reportLines request x) = printed (reportLines request y) ∧
        ∀ here there, prepare here request = .ok x → prepare there request = .ok y →
          (resolve here request).result = (resolve there request).result) ∧
    (∀ env, (redact env).keys = env.keys ∧
      (∀ name, isSensitive name = false → (redact env).get? name = env.get? name) ∧
      (∀ name value, isSensitive name = true → env.get? name = some value →
        (redact env).get? name = some mask) ∧
      redact (redact env) = redact env) ∧
    ∀ a b, AlikeButCase a b → isSensitive a = isSensitive b := by
  refine ⟨fun request x y hidden same => ⟨?_, ?_⟩, fun env => ⟨?_, ?_, ?_, ?_⟩, ?_⟩
  · rw [reportLines_of_same hidden same]
  · exact fun here there first second => result_of_same hidden first second same
  · exact keys_redact env
  · exact fun name plain => get?_redact_plain plain env
  · exact fun name value secret kept => get?_redact_secret secret kept
  · exact redact_redact env
  · exact fun a b alike => isSensitive_of_alike alike

def withPassword : Config where
  groups := [{ name := "g", allowlist := some ["DB"], env := ["Db_Password=%{DB}", "MODE=fast"]
               commands := [{ name := "run", cmd := some "run" }] }]

theorem resolve_withPassword {value : String} (given : value = "one" ∨ value = "two") :
    ∃ r, withPassword.resolve .empty { environment := Dict.ofList [("DB", value)] } = .ok r ∧
      r.commands = [⟨"g", "run", "run", [],
        Dict.ofList [("Db_Password", value), ("MODE", "fast")], none, .low, none⟩] ∧
      r.warnings = [] ∧ r.failures = [] := by
  have ran : (withPassword.resolve .empty { environment := Dict.ofList [("DB", value)] }).toOption.map
      (fun r => (r.commands, r.warnings, r.failures)) = some ([⟨"g", "run", "run", [],
        Dict.ofList [("Db_Password", value), ("MODE", "fast")], none, .low, none⟩], [], []) := by
    rcases given with rfl | rfl
    · decide +kernel
    · decide +kernel
  obtain ⟨r, resolved, parts⟩ := Outcome.map_toOption_eq_some.1 ran
  obtain ⟨commands, rest⟩ := Prod.mk.inj parts
  obtain ⟨warnings, failures⟩ := Prod.mk.inj rest
  exact ⟨r, resolved, commands, warnings, failures⟩

theorem resolve_hides_secrets_withPassword :
    ∃ x y,
      withPassword.resolve .empty { environment := Dict.ofList [("DB", "one")] } = .ok x ∧
      withPassword.resolve .empty { environment := Dict.ofList [("DB", "two")] } = .ok y ∧
      x.commands ≠ y.commands ∧ x.SameButSecrets y ∧
      printed (reportLines ⟨"config.yaml", none, none, true, false, false⟩ x) =
        printed (reportLines ⟨"config.yaml", none, none, true, false, false⟩ y) ∧
      printed (reportLines ⟨"config.yaml", none, none, false, false, false⟩ x) =
        printed (reportLines ⟨"config.yaml", none, none, false, false, false⟩ y) := by
  obtain ⟨x, first, ones, noWarning, noFailure⟩ := resolve_withPassword (.inl rfl)
  obtain ⟨y, second, twos, noWarning', noFailure'⟩ := resolve_withPassword (.inr rfl)
  have env : Redaction.SameButSecrets (Dict.ofList [("Db_Password", "one"), ("MODE", "fast")])
      (Dict.ofList [("Db_Password", "two"), ("MODE", "fast")]) :=
    redact_eq_iff.1 (by decide +kernel)
  have same : x.SameButSecrets y := by
    constructor
    · rw [ones, twos]
      exact .cons ⟨rfl, env⟩ .nil
    · rw [noWarning, noWarning']
    · rw [noFailure, noFailure']
  have differ : x.commands ≠ y.commands := by
    rw [ones, twos]
    decide +kernel
  have hides := resolve_hides_secrets.1
  exact ⟨x, y, first, second, differ, same, (hides _ x y rfl same).1, (hides _ x y rfl same).1⟩

end CommandLine
end ScopedCommands
