import ForexCopy.Backend.Schema

/-!
# The volume calculator

`modules/copy-engine/volumeCalculator.ts`, over an arithmetic: the copy engine computes with doubles, and
what the calculator is for is said over exact numbers. The branch for a copy mode outside the enumeration
has no value to reach it and is left out.
-/

namespace ForexCopy

structure VolumeCalculatorInput where
  copyMode : CopyMode
  masterVolume : ℚ
  fixedLot : Option ℚ
  multiplier : ℚ
  masterBalance : Option ℚ
  masterEquity : Option ℚ
  slaveBalance : Option ℚ
  slaveEquity : Option ℚ
  minLot : ℚ
  maxLot : ℚ
  lotStep : ℚ

inductive VolumeCalculatorResult
  | volume (volume : ℚ)
  | rejected (reason : String)
  deriving DecidableEq, Repr

section

variable (arithmetic : Arithmetic)

/-- `Number(value.toFixed(8))` for a value that is not negative. -/
def toFixed8 (value : ℚ) : ℚ :=
  arithmetic.number (roundHalfUp (arithmetic.value value * 10 ^ 8) / 10 ^ 8)

def roundDownToStep (value step : ℚ) : ℚ :=
  if step ≤ 0 ∨ value ≤ 0 then
    max value 0
  else
    let steps := ⌊arithmetic.value (arithmetic.add (arithmetic.div value step) (1 / 10 ^ 9))⌋
    toFixed8 arithmetic (arithmetic.mul steps step)

/-- Master volume times the ratio of the slave's figure to the master's, when both are known. -/
def proportionalVolume (masterVolume : ℚ) (master slave : Option ℚ)
    (masterUnknown slaveUnknown : String) : Except String ℚ :=
  match master with
  | none => .error masterUnknown
  | some master =>
    if master ≤ 0 then
      .error masterUnknown
    else
      match slave with
      | none => .error slaveUnknown
      | some slave => .ok (arithmetic.mul masterVolume (arithmetic.div slave master))

/-- The volume a copy mode asks for before it is put on the lot grid. -/
def rawVolume (input : VolumeCalculatorInput) : Except String ℚ :=
  match input.copyMode with
  | .fixedLot =>
    match input.fixedLot with
    | none => .error "FIXED_LOT_NOT_CONFIGURED"
    | some fixedLot => if fixedLot ≤ 0 then .error "FIXED_LOT_NOT_CONFIGURED" else .ok fixedLot
  | .multiplier => .ok (arithmetic.mul input.masterVolume input.multiplier)
  | .balanceProportional =>
    proportionalVolume arithmetic input.masterVolume input.masterBalance input.slaveBalance
      "MASTER_BALANCE_UNKNOWN" "SLAVE_BALANCE_UNKNOWN"
  | .equityProportional =>
    proportionalVolume arithmetic input.masterVolume input.masterEquity input.slaveEquity
      "MASTER_EQUITY_UNKNOWN" "SLAVE_EQUITY_UNKNOWN"

def calculateVolume (input : VolumeCalculatorInput) : VolumeCalculatorResult :=
  match rawVolume arithmetic input with
  | .error reason => .rejected reason
  | .ok raw =>
    let stepped := roundDownToStep arithmetic raw input.lotStep
    let clamped := min stepped input.maxLot
    if clamped < input.minLot then .rejected "BELOW_MIN_LOT" else .volume clamped

end

theorem calculateVolume_bounds {arithmetic : Arithmetic} {input : VolumeCalculatorInput} {volume : ℚ}
    (h : calculateVolume arithmetic input = .volume volume) :
    input.minLot ≤ volume ∧ volume ≤ input.maxLot := by
  unfold calculateVolume at h
  split at h
  · cases h
  · dsimp only at h
    split at h
    · cases h
    · rename_i hmin
      cases h
      exact ⟨not_lt.mp hmin, min_le_right _ _⟩

/-! ### Doubles -/

open Binary64

theorem rawVolume_isNumber {input : VolumeCalculatorInput} {raw : ℚ}
    (hfixed : ∀ fixedLot ∈ input.fixedLot, IsNumber fixedLot)
    (h : rawVolume .double input = .ok raw) : IsNumber raw := by
  have hproportional : ∀ master slave masterUnknown slaveUnknown,
      proportionalVolume .double input.masterVolume master slave masterUnknown slaveUnknown = .ok raw →
      IsNumber raw := by
    intro master slave masterUnknown slaveUnknown h
    unfold proportionalVolume at h
    repeat' split at h
    all_goals cases h
    exact isNumber_number _
  unfold rawVolume at h
  split at h
  · split at h
    · cases h
    · split at h
      · cases h
      · cases h
        exact hfixed raw ‹_›
  · cases h
    exact isNumber_number _
  · exact hproportional _ _ _ _ h
  · exact hproportional _ _ _ _ h

theorem roundDownToStep_isNumber {value : ℚ} (hvalue : IsNumber value) (step : ℚ) :
    IsNumber (roundDownToStep .double value step) := by
  unfold roundDownToStep
  split
  · rcases max_choice value 0 with h | h <;> rw [h]
    · exact hvalue
    · exact number_zero
  · exact isNumber_number _

/-- An accepted volume is a number when the lots it may be taken from are. -/
theorem calculateVolume_isNumber {input : VolumeCalculatorInput} {volume : ℚ}
    (hfixed : ∀ fixedLot ∈ input.fixedLot, IsNumber fixedLot) (hmaxLot : IsNumber input.maxLot)
    (h : calculateVolume .double input = .volume volume) : IsNumber volume := by
  unfold calculateVolume at h
  split at h
  · cases h
  · rename_i raw hraw
    dsimp only at h
    split at h
    · cases h
    · cases h
      rcases min_choice (roundDownToStep .double raw input.lotStep) input.maxLot with hmin | hmin <;>
        rw [hmin]
      · exact roundDownToStep_isNumber (rawVolume_isNumber hfixed hraw) _
      · exact hmaxLot

/-! ### Lot steps in doubles -/

theorem abs_toNearest_sub_le_of_half_cent {q : ℚ} (h : 1 / 200 ≤ q) :
    |toNearest q - q| ≤ q / 2 ^ 53 := by
  have habs : |q| = q := abs_of_nonneg (by linarith)
  have htiny : (2 : ℚ) ^ (-1022 : ℤ) ≤ 1 / 200 := by
    calc (2 : ℚ) ^ (-1022 : ℤ) ≤ 2 ^ (-8 : ℤ) := zpow_le_zpow_right₀ one_le_two (by norm_num)
      _ ≤ 1 / 200 := by norm_num
  have herror := abs_toNearest_sub_le (q := q) (by rw [habs]; exact htiny.trans h)
  rwa [habs] at herror

section

variable {d : Decimal 2} {n : ℤ}

theorem one_cent_le_value (hd : d.units ≠ 0) : 1 / 100 ≤ d.value := by
  have hunits : (1 : ℚ) ≤ d.units := by exact_mod_cast Nat.one_le_iff_ne_zero.mpr hd
  unfold Decimal.value
  rw [div_le_div_iff₀ (by norm_num) (by norm_num)]
  linarith

theorem half_cent_le_toNearest (hd : d.units ≠ 0) : 1 / 200 ≤ toNearest d.value := by
  have hvalue := one_cent_le_value hd
  have herror := abs_le.mp (abs_toNearest_sub_le_of_half_cent (q := d.value) (by linarith))
  linarith [herror.1]

/-- So few steps are counted exactly. -/
theorem toNearest_steps (hd : d.units ≠ 0) (hn : 0 ≤ n)
    (hsmall : toNearest n * toNearest d.value < 20000001) : toNearest n = n := by
  have hlt : n < 2 ^ 53 := by
    by_contra hle
    have hdouble : (2 ^ 53 : ℚ) ≤ toNearest n := by
      calc (2 ^ 53 : ℚ) = toNearest (2 ^ 53) := by decide +kernel
        _ ≤ toNearest n := toNearest_mono (by exact_mod_cast not_lt.mp hle)
    have hproduct := mul_le_mul hdouble (half_cent_le_toNearest hd) (by norm_num) (by linarith)
    linarith
  have hdigits := @toNearest_digits n 0 (by rw [abs_of_nonneg hn]; exact hlt) (by norm_num)
  rwa [zpow_zero, mul_one] at hdigits

theorem abs_product_sub_lt (hd : d.units ≠ 0) (hn : 0 ≤ n) (hsmall : n * toNearest d.value < 20000001) :
    |toNearest (n * toNearest d.value) - n * d.value| < 1 / 2 / 10 ^ 8 := by
  have hn0 : (0 : ℚ) ≤ n := by exact_mod_cast hn
  have hvalue := one_cent_le_value hd
  have hfactor : |n * toNearest d.value - n * d.value| ≤ n * d.value / 2 ^ 53 := by
    rw [← mul_sub, abs_mul, abs_of_nonneg hn0, mul_div_assoc]
    exact mul_le_mul_of_nonneg_left (abs_toNearest_sub_le_of_half_cent (by linarith)) hn0
  have hproduct : |toNearest (n * toNearest d.value) - n * toNearest d.value| ≤
      n * toNearest d.value / 2 ^ 53 := by
    rcases hn.lt_or_eq with hpos | rfl
    · have hn1 : (1 : ℚ) ≤ n := by exact_mod_cast hpos
      have hlow := mul_le_mul hn1 (half_cent_le_toNearest hd) (by norm_num) hn0
      exact abs_toNearest_sub_le_of_half_cent (by linarith)
    · simp
  have htotal := abs_sub_le (toNearest (n * toNearest d.value)) (n * toNearest d.value) (n * d.value)
  have hexact := (abs_le.mp hfactor).1
  linarith

/-- Below twenty million lots the eight digits take off what the doubles have put on. -/
theorem toFixed8_steps (hd : d.units ≠ 0) (hn : 0 ≤ n)
    (hsmall : toNearest n * toNearest d.value < 20000001) :
    toFixed8 .double (Arithmetic.double.mul n d.toNumber) = number (n * d.value) := by
  have hsteps := toNearest_steps hd hn hsmall
  rw [hsteps] at hsmall
  have hunits : ((n * d.units * 10 ^ 6 : ℤ) : ℚ) = n * d.value * 10 ^ 8 := by
    unfold Decimal.value
    push_cast
    ring
  have hround : roundHalfUp (toNearest (n * toNearest d.value) * 10 ^ 8) = n * d.units * 10 ^ 6 := by
    refine roundHalfUp_eq_of_near ?_
    rw [hunits, ← sub_mul, abs_mul, abs_of_pos (show (0 : ℚ) < 10 ^ 8 by norm_num),
      ← lt_div_iff₀ (by norm_num)]
    exact abs_product_sub_lt hd hn hsmall
  have hmul : Arithmetic.double.mul n d.toNumber = number (n * toNearest d.value) := by
    unfold Arithmetic.mul Decimal.toNumber
    simp only [Arithmetic.double, toNearest_number, hsteps]
  unfold toFixed8
  rw [hmul]
  simp only [Arithmetic.double, toNearest_number, hround, hunits]
  rw [mul_div_cancel_right₀ _ (by norm_num)]

/-- A product that comes out small was small. -/
theorem small_of_toFixed8_le (h : toFixed8 .double (Arithmetic.double.mul n d.toNumber) ≤ 20000000) :
    toNearest n * toNearest d.value < 20000001 := by
  by_contra hlarge
  have hdouble : (20000001 : ℚ) ≤ toNearest (toNearest n * toNearest d.value) := by
    calc (20000001 : ℚ) = toNearest 20000001 := by decide +kernel
      _ ≤ _ := toNearest_mono (not_lt.mp hlarge)
  have hround : 20000001 * 10 ^ 8 ≤
      roundHalfUp (toNearest (toNearest n * toNearest d.value) * 10 ^ 8) := by
    rw [← roundHalfUp_intCast (20000001 * 10 ^ 8)]
    exact roundHalfUp_mono (by push_cast; linarith)
  have hshown : (20000001 : ℚ) ≤ toFixed8 .double (Arithmetic.double.mul n d.toNumber) := by
    calc (20000001 : ℚ) = number 20000001 := by decide +kernel
      _ ≤ _ := by
          unfold toFixed8 Arithmetic.mul Decimal.toNumber
          simp only [Arithmetic.double, toNearest_number]
          refine number_mono ?_
          rw [le_div_iff₀ (by norm_num)]
          exact_mod_cast hround
  linarith

theorem onGrid_number_steps : Decimal.OnGrid 2 (number (n * d.value)) := by
  refine Decimal.onGrid_iff.mpr (number_multiple (by norm_num) ⟨n * d.units, ?_⟩)
  unfold Decimal.value
  push_cast
  ring

end

/-- A volume rounded down to a lot step that is there has at most two digits after the point, up to twenty
million lots. -/
theorem roundDownToStep_onGrid {value : ℚ} {lotStep : Decimal 2} (hstep : lotStep.units ≠ 0)
    (h : roundDownToStep .double value lotStep.toNumber ≤ 20000000) :
    Decimal.OnGrid 2 (roundDownToStep .double value lotStep.toNumber) := by
  unfold roundDownToStep at h ⊢
  have hpos : 0 < lotStep.toNumber := by
    calc (0 : ℚ) < 1 / 100 := by norm_num
      _ = number (1 / 100) := by decide +kernel
      _ ≤ lotStep.toNumber := number_mono (one_cent_le_value hstep)
  split_ifs at h ⊢ with hzero
  · have hnone : value ≤ 0 := hzero.resolve_left (not_le.mpr hpos)
    rw [max_eq_right hnone]
    exact Decimal.onGrid_iff.mpr ⟨0, by simp⟩
  · have hvalue : 0 ≤ value := (not_le.mp fun hle => hzero (.inr hle)).le
    have hsteps : 0 ≤ ⌊Arithmetic.double.value (Arithmetic.double.add
        (Arithmetic.double.div value lotStep.toNumber) (1 / 10 ^ 9))⌋ := by
      refine Int.floor_nonneg.mpr (toNearest_nonneg (number_nonneg (add_nonneg ?_ ?_)))
      · exact toNearest_nonneg (number_nonneg
          (div_nonneg (toNearest_nonneg hvalue) (toNearest_nonneg hpos.le)))
      · exact toNearest_nonneg (by norm_num)
    rw [toFixed8_steps hstep hsteps (small_of_toFixed8_le h)]
    exact onGrid_number_steps

/-- Up to a cap of twenty million lots every accepted volume has at most two digits after the point. -/
theorem calculateVolume_onGrid {input : VolumeCalculatorInput} {volume : ℚ} {lotStep maxLot : Decimal 2}
    (hlotStep : input.lotStep = lotStep.toNumber) (hmaxLot : input.maxLot = maxLot.toNumber)
    (hstep : lotStep.units ≠ 0) (hmax : maxLot.value ≤ 20000000)
    (h : calculateVolume .double input = .volume volume) : Decimal.OnGrid 2 volume := by
  have hcap : maxLot.toNumber ≤ 20000000 := by
    calc maxLot.toNumber ≤ number 20000000 := number_mono hmax
      _ = 20000000 := by decide +kernel
  unfold calculateVolume at h
  split at h
  · cases h
  · rename_i raw hraw
    dsimp only at h
    split at h
    · cases h
    · cases h
      rw [hlotStep, hmaxLot]
      rcases min_choice (roundDownToStep .double raw lotStep.toNumber) maxLot.toNumber with hmin | hmin
      · rw [hmin]
        exact roundDownToStep_onGrid hstep ((min_eq_left_iff.mp hmin).trans hcap)
      · rw [hmin]
        exact maxLot.onGrid_toNumber (by norm_num)

/-! ### Exact numbers -/

theorem toFixed8_value (d : Decimal 2) : toFixed8 .exact d.value = d.value := by
  have hscaled : d.value * 10 ^ 8 = ((d.units * 10 ^ 6 : ℤ) : ℚ) := by
    unfold Decimal.value
    push_cast
    ring
  unfold toFixed8
  rw [Arithmetic.exact_value, hscaled, roundHalfUp_intCast, Arithmetic.exact_number]
  unfold Decimal.value
  push_cast
  ring

end ForexCopy
