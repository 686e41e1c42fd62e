import ForexCopy.Backend.VolumeCalculator
import ForexCopy.Library.Grid

/-!
# Sizing

What a copy mode asks for, the volume that comes of it, and when that volume is a size the broker
accepts. The step is applied before the cap, so a cap between two lot steps is itself handed out.
-/

namespace ForexCopy

/-! ### What a mode asks for -/

/-- The figure is missing or not positive. -/
def Unusable (figure : Option ℚ) : Prop := ∀ value ∈ figure, value ≤ 0

namespace VolumeCalculatorInput

/-- A figure that the mode needs is not there, and this is the reason it gives. -/
def Lacks (input : VolumeCalculatorInput) (reason : String) : Prop :=
  match input.copyMode with
  | .fixedLot => Unusable input.fixedLot ∧ reason = "FIXED_LOT_NOT_CONFIGURED"
  | .multiplier => False
  | .balanceProportional =>
    (Unusable input.masterBalance ∧ reason = "MASTER_BALANCE_UNKNOWN") ∨
      (¬Unusable input.masterBalance ∧ input.slaveBalance = none ∧ reason = "SLAVE_BALANCE_UNKNOWN")
  | .equityProportional =>
    (Unusable input.masterEquity ∧ reason = "MASTER_EQUITY_UNKNOWN") ∨
      (¬Unusable input.masterEquity ∧ input.slaveEquity = none ∧ reason = "SLAVE_EQUITY_UNKNOWN")

/-- The mode's product, from figures that are there. -/
def Asks (input : VolumeCalculatorInput) (raw : ℚ) : Prop :=
  match input.copyMode with
  | .fixedLot => input.fixedLot = some raw ∧ 0 < raw
  | .multiplier => raw = input.masterVolume * input.multiplier
  | .balanceProportional => ∃ master slave, input.masterBalance = some master ∧ 0 < master ∧
      input.slaveBalance = some slave ∧ raw = input.masterVolume * slave / master
  | .equityProportional => ∃ master slave, input.masterEquity = some master ∧ 0 < master ∧
      input.slaveEquity = some slave ∧ raw = input.masterVolume * slave / master

/-- The number of lot steps in a raw volume; a volume that is not positive has none. -/
def Steps (input : VolumeCalculatorInput) (raw : ℚ) (k : ℕ) : Prop :=
  if raw ≤ 0 then k = 0
  else IsGreatest {k : ℕ | k * input.lotStep ≤ raw + 1 / 10 ^ 9 * input.lotStep} k

variable {input : VolumeCalculatorInput}

theorem proportionalVolume_error_iff {masterVolume : ℚ} {master slave : Option ℚ}
    {masterUnknown slaveUnknown reason : String} :
    proportionalVolume .exact masterVolume master slave masterUnknown slaveUnknown = .error reason ↔
      (Unusable master ∧ reason = masterUnknown) ∨
        (¬Unusable master ∧ slave = none ∧ reason = slaveUnknown) := by
  unfold proportionalVolume
  cases master with
  | none => simp [Unusable, eq_comm]
  | some master =>
      by_cases hmaster : master ≤ 0
      · simp [Unusable, hmaster, eq_comm]
      · cases slave <;> simp [Unusable, hmaster, eq_comm]

theorem proportionalVolume_ok_iff {masterVolume raw : ℚ} {master slave : Option ℚ}
    {masterUnknown slaveUnknown : String} :
    proportionalVolume .exact masterVolume master slave masterUnknown slaveUnknown = .ok raw ↔
      ∃ master' slave', master = some master' ∧ 0 < master' ∧ slave = some slave' ∧
        raw = masterVolume * slave' / master' := by
  unfold proportionalVolume
  cases master with
  | none => simp
  | some master =>
      by_cases hmaster : master ≤ 0
      · simp [hmaster, hmaster.not_gt]
      · cases slave with
        | none => simp [hmaster]
        | some slave => simp [hmaster, not_le.mp hmaster, mul_div_assoc, eq_comm]

theorem rawVolume_error_iff {reason : String} :
    rawVolume .exact input = .error reason ↔ input.Lacks reason := by
  unfold rawVolume Lacks
  cases input.copyMode with
  | fixedLot =>
      cases hfixed : input.fixedLot with
      | none => simp [Unusable, eq_comm]
      | some fixedLot => by_cases hlot : fixedLot ≤ 0 <;> simp [Unusable, hlot, eq_comm]
  | multiplier => simp
  | balanceProportional => exact proportionalVolume_error_iff
  | equityProportional => exact proportionalVolume_error_iff

theorem rawVolume_ok_iff {raw : ℚ} : rawVolume .exact input = .ok raw ↔ input.Asks raw := by
  unfold rawVolume Asks
  cases input.copyMode with
  | fixedLot =>
      cases hfixed : input.fixedLot with
      | none => simp
      | some fixedLot =>
          by_cases hlot : fixedLot ≤ 0
          · simp only [hlot, if_true, reduceCtorEq, false_iff, Option.some.injEq, not_and]
            rintro rfl
            exact hlot.not_gt
          · simp only [hlot, if_false, Except.ok.injEq, Option.some.injEq, iff_self_and]
            rintro rfl
            exact not_le.mp hlot
  | multiplier => simp [eq_comm]
  | balanceProportional => exact proportionalVolume_ok_iff
  | equityProportional => exact proportionalVolume_ok_iff

end VolumeCalculatorInput

/-! ### The volume -/

/-- Rounding down takes the greatest multiple that the value reaches, up to the allowance for float
error, and the eight digits keep it as it is. -/
theorem roundDownToStep_eq {step : ℚ} (hstep : 0 < step) (hgrid : ∃ n : ℕ, step = n / 100)
    {value : ℚ} (hvalue : 0 < value) :
    ∃ k : ℕ, IsGreatest {k : ℕ | k * step ≤ value + 1 / 10 ^ 9 * step} k ∧
      roundDownToStep .exact value step = k * step := by
  obtain ⟨n, hn⟩ := hgrid
  have hreach : 0 ≤ value + 1 / 10 ^ 9 * step := by positivity
  refine ⟨_, Grid.isGreatest_floor hstep hreach, ?_⟩
  have hquotient : value / step + 1 / 10 ^ 9 = (value + 1 / 10 ^ 9 * step) / step := by
    field_simp
  have hsteps : (⌊value / step + 1 / 10 ^ 9⌋ : ℚ) = ⌊(value + 1 / 10 ^ 9 * step) / step⌋₊ := by
    rw [hquotient, natCast_floor_eq_intCast_floor (div_nonneg hreach hstep.le)]
  have hdecimal : (⌊(value + 1 / 10 ^ 9 * step) / step⌋₊ : ℚ) * step =
      (⟨⌊(value + 1 / 10 ^ 9 * step) / step⌋₊ * n⟩ : Decimal 2).value := by
    rw [hn]
    unfold Decimal.value
    push_cast
    ring
  unfold roundDownToStep
  rw [if_neg (by rintro (h | h) <;> linarith)]
  simp only [Arithmetic.exact_value, Arithmetic.exact_add, Arithmetic.exact_mul, Arithmetic.exact_div]
  rw [hsteps, hdecimal, toFixed8_value]

namespace VolumeCalculatorInput

variable {input : VolumeCalculatorInput}

/-- What is accepted, and what is not, once the mode's product is known. -/
theorem calculateVolume_of_asks (hlotStep : 0 < input.lotStep)
    (hgrid : ∃ n : ℕ, input.lotStep = n / 100) {raw : ℚ} (hraw : input.Asks raw) :
    ∃ k, input.Steps raw k ∧ calculateVolume .exact input =
      if min (k * input.lotStep) input.maxLot < input.minLot then .rejected "BELOW_MIN_LOT"
      else .volume (min (k * input.lotStep) input.maxLot) := by
  unfold calculateVolume Steps
  rw [rawVolume_ok_iff.mpr hraw]
  dsimp only
  rcases le_or_gt raw 0 with hneg | hpos
  · refine ⟨0, by rw [if_pos hneg], ?_⟩
    have hzero : roundDownToStep .exact raw input.lotStep = ((0 : ℕ) : ℚ) * input.lotStep := by
      unfold roundDownToStep
      rw [if_pos (.inr hneg), max_eq_right hneg]
      simp
    rw [hzero]
  · obtain ⟨k, hk, hround⟩ := roundDownToStep_eq hlotStep hgrid hpos
    exact ⟨k, by rw [if_neg hpos.not_ge]; exact hk, by rw [hround]⟩

theorem calculateVolume_of_lacks {reason : String} (h : input.Lacks reason) :
    calculateVolume .exact input = .rejected reason := by
  unfold calculateVolume
  rw [rawVolume_error_iff.mpr h]

theorem lacks_or_asks (input : VolumeCalculatorInput) :
    (∃ reason, input.Lacks reason) ∨ ∃ raw, input.Asks raw := by
  cases hraw : rawVolume .exact input with
  | error reason => exact .inl ⟨reason, rawVolume_error_iff.mp hraw⟩
  | ok raw => exact .inr ⟨raw, rawVolume_ok_iff.mp hraw⟩

/-- No mode gives the reason that the lower limit gives. -/
theorem Lacks.ne_belowMinLot {reason : String} (h : input.Lacks reason) : reason ≠ "BELOW_MIN_LOT" := by
  unfold Lacks at h
  cases hmode : input.copyMode <;> rw [hmode] at h
  · rw [h.2]
    decide
  · exact h.elim
  · rcases h with ⟨-, rfl⟩ | ⟨-, -, rfl⟩ <;> decide
  · rcases h with ⟨-, rfl⟩ | ⟨-, -, rfl⟩ <;> decide

/-- An accepted volume is what is left of a positive product. -/
theorem accepted_volume (hlotStep : 0 < input.lotStep) (hgrid : ∃ n : ℕ, input.lotStep = n / 100)
    (hminLot : 0 < input.minLot) {volume : ℚ} (h : calculateVolume .exact input = .volume volume) :
    ∃ raw k, input.Asks raw ∧ IsGreatest {k : ℕ | k * input.lotStep ≤ raw + 1 / 10 ^ 9 * input.lotStep} k ∧
      volume = min (k * input.lotStep) input.maxLot := by
  rcases input.lacks_or_asks with ⟨reason, hlacks⟩ | ⟨raw, hraw⟩
  · rw [calculateVolume_of_lacks hlacks] at h
    cases h
  obtain ⟨k, hk, hvolume⟩ := calculateVolume_of_asks hlotStep hgrid hraw
  rw [hvolume] at h
  split_ifs at h with hbelow
  obtain rfl := VolumeCalculatorResult.volume.inj h
  unfold Steps at hk
  split_ifs at hk with hneg
  · -- Nothing is asked for, and that is below the lower limit.
    subst k
    rw [Nat.cast_zero, zero_mul] at hbelow
    exact absurd (lt_of_le_of_lt (min_le_left _ _) hminLot) hbelow
  · exact ⟨raw, k, hraw, hk, rfl⟩

/-- The mode's own reason when a figure is missing; otherwise the lot steps in the mode's product, up
to the cap, unless that is below the lower limit. -/
theorem calculateVolume_exact (input : VolumeCalculatorInput) (hminLot : 0 < input.minLot)
    (hlotStep : 0 < input.lotStep) (hgrid : ∃ n : ℕ, input.lotStep = n / 100) :
    (∀ reason, (calculateVolume .exact input = .rejected reason ∧ reason ≠ "BELOW_MIN_LOT") ↔
      input.Lacks reason) ∧
    ((∃ reason, input.Lacks reason) ∨ ∃ raw, input.Asks raw) ∧
    (∀ raw, input.Asks raw → ∃ k, input.Steps raw k ∧ calculateVolume .exact input =
      if min (k * input.lotStep) input.maxLot < input.minLot then .rejected "BELOW_MIN_LOT"
      else .volume (min (k * input.lotStep) input.maxLot)) ∧
    ∀ volume, calculateVolume .exact input = .volume volume → ∃ raw, input.Asks raw ∧
      input.minLot ≤ volume ∧ volume ≤ input.maxLot ∧ volume ≤ raw + 1 / 10 ^ 9 * input.lotStep ∧
      (volume ≠ input.maxLot → raw - input.lotStep < volume) := by
  refine ⟨fun reason => ⟨fun ⟨hrejected, hreason⟩ => ?_, fun hlacks => ?_⟩, input.lacks_or_asks,
    fun raw => calculateVolume_of_asks hlotStep hgrid, fun volume hvolume => ?_⟩
  · rcases input.lacks_or_asks with ⟨reason', hlacks⟩ | ⟨raw, hraw⟩
    · rw [calculateVolume_of_lacks hlacks] at hrejected
      exact VolumeCalculatorResult.rejected.inj hrejected ▸ hlacks
    · obtain ⟨k, -, heq⟩ := calculateVolume_of_asks hlotStep hgrid hraw
      rw [heq] at hrejected
      split_ifs at hrejected
      exact absurd (VolumeCalculatorResult.rejected.inj hrejected).symm hreason
  · exact ⟨calculateVolume_of_lacks hlacks, hlacks.ne_belowMinLot⟩
  · obtain ⟨hlow, hhigh⟩ := calculateVolume_bounds hvolume
    obtain ⟨raw, k, hraw, hk, rfl⟩ := accepted_volume hlotStep hgrid hminLot hvolume
    refine ⟨raw, hraw, hlow, hhigh, (min_le_left _ _).trans hk.1, fun hcap => ?_⟩
    have hlt := Grid.lt_succ_mul hk
    rw [(min_choice _ _).resolve_right hcap]
    have : 0 < 1 / 10 ^ 9 * input.lotStep := by positivity
    linarith

namespace Sample

/-- A third of the master's 0.40 lots, for a slave with less equity. -/
def proportional : VolumeCalculatorInput where
  copyMode := .equityProportional
  masterVolume := 4 / 10
  fixedLot := none
  multiplier := 1
  masterBalance := none
  masterEquity := some 3000
  slaveBalance := none
  slaveEquity := some 1000
  minLot := 1 / 100
  maxLot := 10
  lotStep := 1 / 100

/-- A whole lot, where a quarter is the most and the broker trades in tenths. -/
def capped : VolumeCalculatorInput :=
  { proportional with copyMode := .multiplier, masterVolume := 1, maxLot := 1 / 4, lotStep := 1 / 10 }

end Sample

theorem proportional_exact : ∃ raw, Sample.proportional.Asks raw ∧ 13 / 100 ≤ raw + 1 / 10 ^ 11 ∧
    raw - 1 / 100 < 13 / 100 := by
  obtain ⟨raw, hraw, -, -, hle, hlt⟩ := (calculateVolume_exact Sample.proportional (by decide +kernel)
    (by decide +kernel) ⟨1, by decide +kernel⟩).2.2.2 (13 / 100) (by decide +kernel)
  refine ⟨raw, hraw, hle.trans (le_of_eq ?_), hlt (by decide +kernel)⟩
  simp only [Sample.proportional]
  norm_num

/-! ### The lot grid of the broker -/

/-- Every accepted volume is on the lot grid exactly when the cap is on it, or nothing reaches the
first multiple above the cap, or the limits admit nothing. -/
theorem calculateVolume_onLotGrid_iff (input : VolumeCalculatorInput) (hminLot : 0 < input.minLot)
    (hmaxLot : 0 < input.maxLot) (hlotStep : 0 < input.lotStep)
    (hgrid : ∃ n : ℕ, input.lotStep = n / 100) :
    (∀ volume, calculateVolume .exact input = .volume volume →
      Grid.On input.lotStep volume ∧ input.minLot ≤ volume ∧ volume ≤ input.maxLot) ↔
    Grid.On input.lotStep input.maxLot ∨ input.maxLot < input.minLot ∨
      ∀ raw, input.Asks raw →
        raw + 1 / 10 ^ 9 * input.lotStep < (⌊input.maxLot / input.lotStep⌋₊ + 1) * input.lotStep := by
  have hcap := Grid.isGreatest_floor hlotStep hmaxLot.le
  constructor
  · intro hall
    by_contra hnot
    push Not at hnot
    obtain ⟨hoff, hlimits, raw, hraw, hreached⟩ := hnot
    have hnext := Grid.lt_succ_mul hcap
    obtain ⟨k, hk, hvolume⟩ := calculateVolume_of_asks hlotStep hgrid hraw
    unfold Steps at hk
    have hpos : ¬raw ≤ 0 := by
      intro hneg
      have hsteps : (0 : ℚ) ≤ ⌊input.maxLot / input.lotStep⌋₊ := Nat.cast_nonneg _
      have hone : input.lotStep ≤ (⌊input.maxLot / input.lotStep⌋₊ + 1) * input.lotStep :=
        le_mul_of_one_le_left hlotStep.le (by linarith)
      linarith
    rw [if_neg hpos] at hk
    have hk' : ⌊input.maxLot / input.lotStep⌋₊ + 1 ≤ k := hk.2 (by exact_mod_cast hreached)
    have hover : input.maxLot < k * input.lotStep :=
      hnext.trans_le (mul_le_mul_of_nonneg_right (by exact_mod_cast hk') hlotStep.le)
    rw [min_eq_right hover.le, if_neg hlimits.not_gt] at hvolume
    exact hoff (hall _ hvolume).1
  · intro hcases volume hvolume
    obtain ⟨hlow, hhigh⟩ := calculateVolume_bounds hvolume
    refine ⟨?_, hlow, hhigh⟩
    obtain ⟨raw, k, hraw, hk, rfl⟩ := accepted_volume hlotStep hgrid hminLot hvolume
    rw [Grid.on_min_iff]
    rcases hcases with hon | hlimits | hbelow
    · exact .inl hon
    · exact absurd (hlow.trans hhigh) hlimits.not_ge
    · refine .inr ?_
      have hlt : (k : ℚ) * input.lotStep < (⌊input.maxLot / input.lotStep⌋₊ + 1) * input.lotStep :=
        lt_of_le_of_lt hk.1 (hbelow raw hraw)
      have hle : k ≤ ⌊input.maxLot / input.lotStep⌋₊ := by
        have := lt_of_mul_lt_mul_right hlt hlotStep.le
        exact Nat.lt_succ_iff.mp (by exact_mod_cast this)
      exact (mul_le_mul_of_nonneg_right (by exact_mod_cast hle) hlotStep.le).trans hcap.1

theorem proportional_onLotGrid : calculateVolume .exact Sample.proportional = .volume (13 / 100) ∧
    Grid.On Sample.proportional.lotStep (13 / 100) := by
  have hvolume : calculateVolume .exact Sample.proportional = .volume (13 / 100) := by decide +kernel
  have hon : Grid.On Sample.proportional.lotStep Sample.proportional.maxLot :=
    ⟨1000, by decide +kernel⟩
  exact ⟨hvolume, ((calculateVolume_onLotGrid_iff Sample.proportional (by decide +kernel)
    (by decide +kernel) (by decide +kernel) ⟨1, by decide +kernel⟩).mpr (.inl hon) _ hvolume).1⟩

/-- The cap is handed out although it is no multiple of the step. -/
theorem capped_off_lotGrid : calculateVolume .exact Sample.capped = .volume (1 / 4) ∧
    ¬Grid.On Sample.capped.lotStep (1 / 4) := by
  refine ⟨by decide +kernel, fun ⟨k, hk⟩ => ?_⟩
  simp only [Sample.capped] at hk
  have hint : (10 : ℚ) = 4 * k := by linarith
  have : (10 : ℤ) = 4 * k := by exact_mod_cast hint
  omega

end VolumeCalculatorInput

end ForexCopy
