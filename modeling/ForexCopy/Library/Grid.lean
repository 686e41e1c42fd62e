import Mathlib.Algebra.Order.Floor.Ring
import Mathlib.Algebra.Order.Field.Basic
import Mathlib.Order.Bounds.Basic

/-!
# Grids

The multiples of a positive step in an ordered field: the greatest natural multiple that a value
reaches, and what a cap does to one.
-/

namespace Grid

variable {K : Type*} [Field K] {step : K}

/-- The value is a whole multiple of the step. -/
def On (step x : K) : Prop := ∃ k : ℤ, x = k * step

theorem on_natCast_mul (step : K) (k : ℕ) : On step (k * step) := ⟨k, by norm_cast⟩

variable [LinearOrder K]

/-- A cap that is not on the grid takes every multiple above it off the grid. -/
theorem on_min_iff {cap : K} {k : ℕ} : On step (min (k * step) cap) ↔ On step cap ∨ k * step ≤ cap := by
  rcases le_total (k * step) cap with hle | hle
  · rw [min_eq_left hle]
    exact ⟨fun _ => .inr hle, fun _ => on_natCast_mul step k⟩
  · rw [min_eq_right hle]
    refine ⟨.inl, fun h => h.elim id fun hge => ?_⟩
    rw [← le_antisymm hge hle]
    exact on_natCast_mul step k

/-- The multiple after the greatest one is out of reach. -/
theorem lt_succ_mul {x : K} {k : ℕ} (h : IsGreatest {k : ℕ | k * step ≤ x} k) :
    x < (k + 1) * step := by
  by_contra hle
  have hmem : k + 1 ∈ {k : ℕ | k * step ≤ x} := by
    have := not_lt.mp hle
    exact_mod_cast this
  exact absurd (h.2 hmem) (by omega)

variable [IsStrictOrderedRing K] [FloorRing K]

theorem isGreatest_floor (hstep : 0 < step) {x : K} (hx : 0 ≤ x) :
    IsGreatest {k : ℕ | k * step ≤ x} ⌊x / step⌋₊ := by
  have hmem : ∀ k : ℕ, k ∈ {k : ℕ | k * step ≤ x} ↔ k ≤ ⌊x / step⌋₊ := fun k => by
    rw [Nat.le_floor_iff (div_nonneg hx hstep.le), le_div_iff₀ hstep]
    rfl
  exact ⟨(hmem _).mpr le_rfl, fun k hk => (hmem k).mp hk⟩

end Grid
