import ForexCopy.Library.Binary64

/-!
# Fixed-point decimals

A decimal column of a given scale stores a whole number of units of `10 ^ -scale`. A number written
to it is rounded to the nearest unit, halves away from zero, and a program reads the double nearest to
what is stored; so the round trip is the identity exactly on the column's own grid. `Decimal` is the
type of the columns that only ever hold amounts, `SignedDecimal` of those that may also hold a debt.
-/

/-- The whole number nearest to `q`, halves rounded up. -/
def roundHalfUp (q : ℚ) : ℤ := ⌊q + 1 / 2⌋

theorem roundHalfUp_intCast (n : ℤ) : roundHalfUp n = n := by
  unfold roundHalfUp
  rw [Int.floor_eq_iff]
  constructor <;> linarith

theorem roundHalfUp_mono {p q : ℚ} (h : p ≤ q) : roundHalfUp p ≤ roundHalfUp q :=
  Int.floor_le_floor (by linarith)

theorem roundHalfUp_eq_of_near {q : ℚ} {n : ℤ} (h : |q - n| < 1 / 2) : roundHalfUp q = n := by
  obtain ⟨hlow, hhigh⟩ := abs_lt.mp h
  unfold roundHalfUp
  rw [Int.floor_eq_iff]
  constructor <;> linarith

/-- An unsigned decimal with `scale` digits after the point. -/
structure Decimal (scale : ℕ) where
  units : ℕ
  deriving DecidableEq, Repr

namespace Decimal

variable {scale : ℕ}

def value (d : Decimal scale) : ℚ := d.units / 10 ^ scale

/-- The number a program reads for it. -/
def toNumber (d : Decimal scale) : ℚ := Binary64.number d.value

/-- What an amount is stored as. -/
def ofNumber (scale : ℕ) (q : ℚ) : Decimal scale := ⟨(roundHalfUp (q * 10 ^ scale)).toNat⟩

theorem pow_scale_pos (scale : ℕ) : (0 : ℚ) < 10 ^ scale := by positivity

theorem value_nonneg (d : Decimal scale) : 0 ≤ d.value := by
  unfold value
  positivity

theorem value_mul_scale (d : Decimal scale) : d.value * 10 ^ scale = (d.units : ℤ) := by
  unfold value
  have := (pow_scale_pos scale).ne'
  push_cast
  field_simp

@[simp] theorem ofNumber_value (d : Decimal scale) : ofNumber scale d.value = d := by
  unfold ofNumber
  rw [value_mul_scale, roundHalfUp_intCast]
  rfl

/-- The number has at most `scale` digits after the point. -/
def OnGrid (scale : ℕ) (q : ℚ) : Prop := (q * 10 ^ scale).isInt

instance (scale : ℕ) (q : ℚ) : Decidable (OnGrid scale q) := inferInstanceAs (Decidable (_ = _))

theorem onGrid_iff {q : ℚ} : OnGrid scale q ↔ ∃ n : ℤ, q = n / 10 ^ scale := by
  have hpow := (pow_scale_pos scale).ne'
  constructor
  · intro h
    exact ⟨(q * 10 ^ scale).num, by rw [eq_div_iff hpow]; exact Rat.eq_num_of_isInt h⟩
  · rintro ⟨n, rfl⟩
    unfold OnGrid
    rw [div_mul_cancel₀ _ hpow]
    rfl

/-- An amount survives the column exactly when it is on its grid. -/
theorem value_ofNumber_iff {q : ℚ} (hq : 0 ≤ q) : (ofNumber scale q).value = q ↔ OnGrid scale q := by
  rw [onGrid_iff]
  constructor
  · intro h
    exact ⟨(ofNumber scale q).units, by rw [Int.cast_natCast]; exact h.symm⟩
  · rintro ⟨n, rfl⟩
    have hn : 0 ≤ n := by
      have hscaled := mul_nonneg hq (pow_scale_pos scale).le
      rw [div_mul_cancel₀ _ (pow_scale_pos scale).ne'] at hscaled
      exact_mod_cast hscaled
    obtain ⟨units, rfl⟩ := Int.eq_ofNat_of_zero_le hn
    exact congrArg value (ofNumber_value (⟨units⟩ : Decimal scale))

/-! ### Reading a column -/

theorem isNumber_toNumber (d : Decimal scale) : Binary64.IsNumber d.toNumber :=
  Binary64.isNumber_number _

theorem toNumber_nonneg (d : Decimal scale) : 0 ≤ d.toNumber :=
  Binary64.number_nonneg d.value_nonneg

theorem onGrid_toNumber (d : Decimal scale) (hscale : scale ≤ 324) : OnGrid scale d.toNumber :=
  onGrid_iff.mpr (Binary64.number_multiple hscale ⟨d.units, by rw [Int.cast_natCast]; rfl⟩)

/-- A number reads back as it was written exactly when it is on the column's grid. -/
theorem toNumber_ofNumber_iff {q : ℚ} (hq : 0 ≤ q) (hnumber : Binary64.IsNumber q)
    (hscale : scale ≤ 324) : (ofNumber scale q).toNumber = q ↔ OnGrid scale q := by
  constructor
  · intro h
    rw [← h]
    exact onGrid_toNumber _ hscale
  · intro h
    unfold toNumber
    rw [(value_ofNumber_iff hq).mpr h]
    exact hnumber

end Decimal

structure SignedDecimal (scale : ℕ) where
  units : ℤ
  deriving DecidableEq, Repr

namespace SignedDecimal

variable {scale : ℕ}

def value (d : SignedDecimal scale) : ℚ := d.units / 10 ^ scale

/-- The number a program reads for it. -/
def toNumber (d : SignedDecimal scale) : ℚ := Binary64.number d.value

/-- What a number is stored as, rounded by its absolute value. -/
def ofNumber (scale : ℕ) (q : ℚ) : SignedDecimal scale :=
  if 0 ≤ q then ⟨roundHalfUp (q * 10 ^ scale)⟩ else ⟨-roundHalfUp (-q * 10 ^ scale)⟩

end SignedDecimal
