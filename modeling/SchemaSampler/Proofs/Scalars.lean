import SchemaSampler.Registry
import SchemaSampler.Scalars
import SchemaSampler.Proofs.Keyed
import SchemaSampler.Proofs.Outcome

namespace SchemaSampler.Scalars

variable {scalars : Scalars} {name : String} {strategy : Strategy}

theorem has_of_strategy (found : scalars.strategy name = .ok strategy) :
    scalars.has name = true := by
  unfold Scalars.strategy at found
  unfold has Keyed.contains
  cases override : scalars.overrides.get? name with
  | some _ => rfl
  | none =>
    rw [override] at found
    cases builtin : Strategy.builtin? name with
    | some _ => rfl
    | none =>
      rw [builtin] at found
      cases found

theorem has_of_builtin (scalars : Scalars) : ∀ name ∈ builtinScalars, scalars.has name = true := by
  simp [builtinScalars, has, Strategy.builtin?]

theorem has_iff : scalars.has name = true ↔
    name ∈ builtinScalars ∨ name ∈ scalars.overrides.names := by
  constructor
  · intro has
    rcases Bool.or_eq_true_iff.mp has with own | builtin
    · exact .inr (Keyed.contains_iff.mp own)
    · unfold Strategy.builtin? at builtin
      split at builtin <;> simp [builtinScalars] at builtin ⊢
  · rintro (builtin | own)
    · exact scalars.has_of_builtin name builtin
    · exact Bool.or_eq_true_iff.mpr (.inl (Keyed.contains_iff.mpr own))

theorem strategy_missing (missing : scalars.has name ≠ true) :
    scalars.strategy name = .error (.missingStrategy name) := by
  unfold has Keyed.contains at missing
  unfold Scalars.strategy
  cases override : scalars.overrides.get? name with
  | some own => simp [override] at missing
  | none => cases builtin : Strategy.builtin? name <;> simp [builtin] at missing ⊢

theorem strategy_ok_iff : (∃ strategy, scalars.strategy name = .ok strategy) ↔
    scalars.has name = true ∧
      ∀ own, scalars.overrides.get? name = some own → own.check = .ok () := by
  unfold Scalars.strategy has Keyed.contains
  cases override : scalars.overrides.get? name with
  | some own =>
    constructor
    · rintro ⟨strategy, given⟩
      obtain ⟨⟨⟩, checked, -⟩ := Outcome.map_ok.mp given
      exact ⟨by simp, fun _ same => Option.some.inj same ▸ Outcome.mapError_ok.mp checked⟩
    · rintro ⟨-, checked⟩
      exact ⟨own, Outcome.map_ok.mpr ⟨(), Outcome.mapError_ok.mpr (checked own rfl), rfl⟩⟩
  | none => cases builtin : Strategy.builtin? name <;> simp

end SchemaSampler.Scalars
