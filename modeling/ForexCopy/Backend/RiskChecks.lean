import ForexCopy.Backend.Schema

/-!
# The risk checks

`modules/copy-engine/riskChecks.ts`: the limits a slave puts on its OPEN copies.
-/

namespace ForexCopy

structure EntryCheckInput where
  emergencyStop : Bool
  allowedSymbols : List String
  blockedSymbols : List String
  symbol : String
  maxPositions : Option ℕ
  currentOpenPositions : ℕ

structure ExposureCheckInput where
  maxExposure : Option ℚ
  currentOpenExposure : ℚ
  incomingVolume : ℚ

inductive RiskCheckResult
  | allowed
  | refused (reason : String)
  deriving DecidableEq, Repr

def checkEntryAllowed (input : EntryCheckInput) : RiskCheckResult :=
  if input.emergencyStop then
    .refused "EMERGENCY_STOP_ACTIVE"
  else if input.symbol ∈ input.blockedSymbols then
    .refused "SYMBOL_BLOCKED"
  else if input.allowedSymbols ≠ [] ∧ input.symbol ∉ input.allowedSymbols then
    .refused "SYMBOL_NOT_ALLOWED"
  else if ∃ maxPositions ∈ input.maxPositions, maxPositions ≤ input.currentOpenPositions then
    .refused "MAX_POSITIONS_REACHED"
  else
    .allowed

def checkExposureAllowed (input : ExposureCheckInput) : RiskCheckResult :=
  if ∃ maxExposure ∈ input.maxExposure,
      maxExposure < Arithmetic.double.add input.currentOpenExposure input.incomingVolume then
    .refused "MAX_EXPOSURE_EXCEEDED"
  else
    .allowed

/-- A tenth and a fifth of a lot are more than three tenths. -/
example : checkExposureAllowed ⟨some (3 / 10), 1 / 10, 2 / 10⟩ = .refused "MAX_EXPOSURE_EXCEEDED" := by
  decide +kernel

theorem checkEntryAllowed_eq_allowed {input : EntryCheckInput}
    (h : checkEntryAllowed input = .allowed) :
    input.emergencyStop = false ∧
      ∀ maxPositions ∈ input.maxPositions, input.currentOpenPositions < maxPositions := by
  unfold checkEntryAllowed at h
  split_ifs at h with hstop _ _ hmax
  refine ⟨by simpa using hstop, fun maxPositions hmem => ?_⟩
  exact not_le.mp fun hle => hmax ⟨maxPositions, hmem, hle⟩

end ForexCopy
