import Mathlib.Algebra.Order.Field.Power
import Mathlib.Algebra.Order.Floor.Ring
import Mathlib.Data.Int.Log
import Mathlib.Data.Rat.Floor
import Mathlib.Tactic.FieldSimp
import Mathlib.Tactic.Linarith
import Mathlib.Tactic.Positivity

/-!
# Binary floating point with 53 digits

A double is the multiple of a power of two that is nearest to an exact value, the even multiple of two
equally near ones. A program shows a double as the decimal with the fewest digits that rounds to it, and
here a number is told by that decimal: an operation rounds its operands to doubles, computes exactly,
rounds the result and takes the decimal that is shown for it. There is no largest number, so no
operation overflows.
-/

namespace Binary64

/-- The whole number nearest to `q`, the even one of two. -/
def roundHalfEven (q : ℚ) : ℤ :=
  if q - ⌊q⌋ < 1 / 2 ∨ q - ⌊q⌋ = 1 / 2 ∧ ⌊q⌋ % 2 = 0 then ⌊q⌋ else ⌊q⌋ + 1

/-- The exponent of the last binary digit a double near `q` has. -/
def lastPlace (q : ℚ) : ℤ := max (Int.log 2 |q| - 52) (-1074)

/-- The double nearest to `q`. -/
def toNearest (q : ℚ) : ℚ := roundHalfEven (q / 2 ^ lastPlace q) * 2 ^ lastPlace q

/-- The multiples of the unit next to `x`, the nearest one first. -/
def decimals (x unit : ℚ) : List ℚ :=
  [roundHalfEven (x / unit), ⌊x / unit⌋, ⌈x / unit⌉].map fun n : ℤ => n * unit

/-- The first decimal that rounds to `x`, in units that get ten times smaller. -/
def searchDecimal (x unit : ℚ) : ℕ → Option ℚ
  | 0 => none
  | fuel + 1 =>
    match (decimals x unit).find? fun d => toNearest d = x with
    | some d => some d
    | none => searchDecimal x (unit / 10) fuel

/-- The digits before the point but one, and all that the smallest double has after it. -/
def leadingPlace (x : ℚ) : ℕ := Nat.log 10 ⌊|x|⌋₊

/-- The decimal that is shown for the double `x`. -/
def shortest (x : ℚ) : ℚ :=
  (searchDecimal x (10 ^ leadingPlace x) (leadingPlace x + 325)).getD x

/-- The number a program has for an exact value. -/
def number (q : ℚ) : ℚ := shortest (toNearest q)

/-- The decimal is the one that is shown for a double. -/
def IsNumber (q : ℚ) : Prop := number q = q

instance (q : ℚ) : Decidable (IsNumber q) := inferInstanceAs (Decidable (_ = _))

/-- What a program can have for a number. -/
abbrev Number := {q : ℚ // IsNumber q}

/-! ### Rounding to a whole number -/

theorem floor_le_roundHalfEven (q : ℚ) : ⌊q⌋ ≤ roundHalfEven q := by
  unfold roundHalfEven
  split <;> omega

theorem roundHalfEven_le_floor_add_one (q : ℚ) : roundHalfEven q ≤ ⌊q⌋ + 1 := by
  unfold roundHalfEven
  split <;> omega

@[simp] theorem roundHalfEven_intCast (n : ℤ) : roundHalfEven n = n := by
  simp [roundHalfEven]

theorem roundHalfEven_mono {p q : ℚ} (h : p ≤ q) : roundHalfEven p ≤ roundHalfEven q := by
  rcases (Int.floor_le_floor h).lt_or_eq with hlt | heq
  · calc roundHalfEven p ≤ ⌊p⌋ + 1 := roundHalfEven_le_floor_add_one p
      _ ≤ ⌊q⌋ := hlt
      _ ≤ roundHalfEven q := floor_le_roundHalfEven q
  · unfold roundHalfEven
    rw [heq]
    split_ifs with hp hq hq
    · exact le_rfl
    · omega
    · -- What rounds the greater one down rounds the smaller one down.
      refine absurd ?_ hp
      rcases hq with hq | ⟨hq, heven⟩
      · exact .inl (by linarith)
      · rcases h.lt_or_eq with hlt | rfl
        · exact .inl (by linarith)
        · exact .inr ⟨hq, heven⟩
    · exact le_rfl

theorem roundHalfEven_neg (q : ℚ) : roundHalfEven (-q) = -roundHalfEven q := by
  by_cases hint : (⌊q⌋ : ℚ) = q
  · have hneg : -q = ((-⌊q⌋ : ℤ) : ℚ) := by
      push_cast
      rw [hint]
    rw [hneg, roundHalfEven_intCast]
    conv_rhs => rw [← hint, roundHalfEven_intCast]
  · have hlt : (⌊q⌋ : ℚ) < q := lt_of_le_of_ne (Int.floor_le q) hint
    have hfloor : ⌊-q⌋ = -⌊q⌋ - 1 := by
      rw [Int.floor_eq_iff]
      push_cast
      constructor <;> linarith [Int.lt_floor_add_one q]
    unfold roundHalfEven
    rw [hfloor]
    push_cast
    split_ifs with hneg hpos hpos
    · rcases hneg with hneg | ⟨hneg, hodd⟩ <;> rcases hpos with hpos | ⟨hpos, heven⟩
      · linarith
      · linarith
      · linarith
      · omega
    · omega
    · omega
    · exfalso
      rcases lt_trichotomy (q - ⌊q⌋) (1 / 2) with hlow | hmid | hhigh
      · exact hpos (.inl hlow)
      · have hodd : ⌊q⌋ % 2 ≠ 0 := fun heven => hpos (.inr ⟨hmid, heven⟩)
        exact hneg (.inr ⟨by linarith, by omega⟩)
      · exact hneg (.inl (by linarith))

/-! ### Rounding to a double -/

theorem pow_lastPlace_pos (q : ℚ) : (0 : ℚ) < 2 ^ lastPlace q := by positivity

@[simp] theorem toNearest_zero : toNearest 0 = 0 := by decide +kernel

theorem lastPlace_neg (q : ℚ) : lastPlace (-q) = lastPlace q := by
  unfold lastPlace
  rw [abs_neg]

theorem toNearest_neg (q : ℚ) : toNearest (-q) = -toNearest q := by
  unfold toNearest
  rw [lastPlace_neg, neg_div, roundHalfEven_neg]
  push_cast
  ring

/-- What is a multiple of its own last place is a double. -/
theorem toNearest_of_multiple {q : ℚ} (h : ∃ n : ℤ, q = n * 2 ^ lastPlace q) : toNearest q = q := by
  obtain ⟨n, hn⟩ := h
  have hquotient : q / 2 ^ lastPlace q = n := by
    rw [div_eq_iff (pow_lastPlace_pos q).ne']
    exact hn
  unfold toNearest
  rw [hquotient, roundHalfEven_intCast]
  exact hn.symm

theorem lastPlace_mono {p q : ℚ} (hp : 0 < p) (h : p ≤ q) : lastPlace p ≤ lastPlace q := by
  have hlog : Int.log 2 |p| ≤ Int.log 2 |q| := by
    rw [abs_of_pos hp, abs_of_pos (hp.trans_le h)]
    exact Int.log_mono_right hp h
  unfold lastPlace
  omega

theorem exists_multiple_zpow (base : ℕ) [NeZero base] {k l : ℤ} (h : l ≤ k) :
    ∃ n : ℤ, (base : ℚ) ^ k = n * (base : ℚ) ^ l := by
  refine ⟨base ^ (k - l).toNat, ?_⟩
  push_cast
  rw [← zpow_natCast, ← zpow_add₀ (NeZero.ne _)]
  congr 1
  omega

theorem toNearest_le_of_multiple {q bound : ℚ} (h : q ≤ bound)
    (hbound : ∃ n : ℤ, bound = n * 2 ^ lastPlace q) : toNearest q ≤ bound := by
  obtain ⟨n, rfl⟩ := hbound
  have hpos := pow_lastPlace_pos q
  have hround : roundHalfEven (q / 2 ^ lastPlace q) ≤ n := by
    rw [← roundHalfEven_intCast n]
    exact roundHalfEven_mono ((div_le_iff₀ hpos).mpr h)
  exact mul_le_mul_of_nonneg_right (by exact_mod_cast hround) hpos.le

theorem le_toNearest_of_multiple {q bound : ℚ} (h : bound ≤ q)
    (hbound : ∃ n : ℤ, bound = n * 2 ^ lastPlace q) : bound ≤ toNearest q := by
  obtain ⟨n, rfl⟩ := hbound
  have hpos := pow_lastPlace_pos q
  have hround : n ≤ roundHalfEven (q / 2 ^ lastPlace q) := by
    rw [← roundHalfEven_intCast n]
    exact roundHalfEven_mono ((le_div_iff₀ hpos).mpr h)
  exact mul_le_mul_of_nonneg_right (by exact_mod_cast hround) hpos.le

theorem toNearest_nonneg {q : ℚ} (h : 0 ≤ q) : 0 ≤ toNearest q :=
  le_toNearest_of_multiple h ⟨0, by simp⟩

/-- Where the last place moves, a power of two lies between the two values. -/
theorem toNearest_mono_of_pos {p q : ℚ} (hp : 0 < p) (h : p ≤ q) : toNearest p ≤ toNearest q := by
  rcases (lastPlace_mono hp h).lt_or_eq with hlt | heq
  · have hq : 0 < q := hp.trans_le h
    have hlast : lastPlace q = Int.log 2 q - 52 := by
      unfold lastPlace at hlt ⊢
      rw [abs_of_pos hq] at hlt ⊢
      omega
    have hlog : Int.log 2 p < Int.log 2 q := by
      have hlow : Int.log 2 |p| - 52 ≤ lastPlace p := le_max_left _ _
      rw [abs_of_pos hp] at hlow
      omega
    have hbelow : p ≤ 2 ^ Int.log 2 q := by
      calc p ≤ (2 : ℚ) ^ (Int.log 2 p + 1) := by
            exact_mod_cast (Int.lt_zpow_succ_log_self one_lt_two p).le
        _ ≤ 2 ^ Int.log 2 q := zpow_le_zpow_right₀ one_le_two hlog
    have habove : (2 : ℚ) ^ Int.log 2 q ≤ q := by exact_mod_cast Int.zpow_log_le_self one_lt_two hq
    calc toNearest p ≤ 2 ^ Int.log 2 q :=
          toNearest_le_of_multiple hbelow (exists_multiple_zpow 2 (by omega))
      _ ≤ toNearest q := le_toNearest_of_multiple habove (exists_multiple_zpow 2 (by omega))
  · have hpos := pow_lastPlace_pos q
    unfold toNearest
    rw [heq]
    refine mul_le_mul_of_nonneg_right ?_ hpos.le
    exact_mod_cast roundHalfEven_mono ((div_le_div_iff_of_pos_right hpos).mpr h)

theorem toNearest_mono {p q : ℚ} (h : p ≤ q) : toNearest p ≤ toNearest q := by
  rcases lt_trichotomy p 0 with hp | rfl | hp
  · rcases le_or_gt 0 q with hq | hq
    · calc toNearest p = -toNearest (-p) := by rw [toNearest_neg, neg_neg]
        _ ≤ 0 := neg_nonpos.mpr (toNearest_nonneg (by linarith))
        _ ≤ toNearest q := toNearest_nonneg hq
    · have hflip := toNearest_mono_of_pos (neg_pos.mpr hq) (neg_le_neg h)
      rw [toNearest_neg, toNearest_neg] at hflip
      exact neg_le_neg_iff.mp hflip
  · rw [toNearest_zero]
    exact toNearest_nonneg h
  · exact toNearest_mono_of_pos hp h

/-- A whole number of at most 53 digits, shifted to any place there is, is a double. -/
theorem toNearest_digits {n place : ℤ} (hn : |n| < 2 ^ 53) (hplace : -1074 ≤ place) :
    toNearest (n * 2 ^ place) = n * 2 ^ place := by
  rcases eq_or_ne n 0 with rfl | hzero
  · simp
  have hpow : (0 : ℚ) < 2 ^ place := by positivity
  have habs : |(n * 2 ^ place : ℚ)| = |n| * 2 ^ place := by
    rw [abs_mul, abs_of_pos hpow, Int.cast_abs]
  have hlog : Int.log 2 |(n * 2 ^ place : ℚ)| < place + 53 := by
    rw [← Int.lt_zpow_iff_log_lt one_lt_two (by rw [habs]; positivity), habs,
      show place + 53 = 53 + place by ring, Nat.cast_ofNat, zpow_add₀ (by norm_num)]
    refine mul_lt_mul_of_pos_right ?_ hpow
    exact_mod_cast hn
  have hle : lastPlace (n * 2 ^ place) ≤ place := by
    unfold lastPlace
    omega
  obtain ⟨m, hm⟩ := exists_multiple_zpow 2 hle
  refine toNearest_of_multiple ⟨n * m, ?_⟩
  push_cast at hm ⊢
  rw [mul_assoc, ← hm]

theorem abs_roundHalfEven_le (q : ℚ) : |roundHalfEven (q / 2 ^ lastPlace q)| ≤ 2 ^ 53 := by
  rcases eq_or_ne q 0 with rfl | hzero
  · decide +kernel
  have hpos := pow_lastPlace_pos q
  have hle : |q / 2 ^ lastPlace q| ≤ ((2 ^ 53 : ℤ) : ℚ) := by
    rw [abs_div, abs_of_pos hpos, div_le_iff₀ hpos]
    calc |q| ≤ (2 : ℚ) ^ (Int.log 2 |q| + 1) := by
          exact_mod_cast (Int.lt_zpow_succ_log_self one_lt_two |q|).le
      _ ≤ 2 ^ (53 + lastPlace q) := zpow_le_zpow_right₀ one_le_two (by unfold lastPlace; omega)
      _ = ((2 ^ 53 : ℤ) : ℚ) * 2 ^ lastPlace q := by
          rw [zpow_add₀ (by norm_num)]
          norm_num
  obtain ⟨hlow, hhigh⟩ := abs_le.mp hle
  rw [abs_le]
  constructor
  · rw [← roundHalfEven_intCast (-2 ^ 53)]
    exact roundHalfEven_mono (by push_cast at hlow ⊢; exact hlow)
  · rw [← roundHalfEven_intCast (2 ^ 53)]
    exact roundHalfEven_mono hhigh

@[simp] theorem toNearest_toNearest (q : ℚ) : toNearest (toNearest q) = toNearest q := by
  have hplace : -1074 ≤ lastPlace q := le_max_right _ _
  rcases (abs_roundHalfEven_le q).lt_or_eq with hlt | heq
  · exact toNearest_digits hlt hplace
  · -- The rounding has carried into one more digit.
    have hcarry : ∀ sign : ℤ, |sign| = 1 → toNearest (((sign * 2 ^ 53 : ℤ) : ℚ) * 2 ^ lastPlace q) =
        ((sign * 2 ^ 53 : ℤ) : ℚ) * 2 ^ lastPlace q := by
      intro sign hsign
      have hshift : ((sign * 2 ^ 53 : ℤ) : ℚ) * 2 ^ lastPlace q = sign * 2 ^ (53 + lastPlace q) := by
        rw [zpow_add₀ (by norm_num)]
        push_cast
        ring
      rw [hshift]
      exact toNearest_digits (by rw [hsign]; norm_num) (by omega)
    unfold toNearest at hcarry ⊢
    rcases eq_or_eq_neg_of_abs_eq heq with hround | hround
    · rw [hround]
      simpa using hcarry 1 rfl
    · rw [hround]
      simpa using hcarry (-1) rfl

/-! ### The error of a rounding -/

theorem abs_roundHalfEven_sub_le (q : ℚ) : |roundHalfEven q - q| ≤ 1 / 2 := by
  have hfloor := Int.floor_le q
  have hnext := Int.lt_floor_add_one q
  unfold roundHalfEven
  split_ifs with hdown
  · rw [abs_le]
    rcases hdown with hlow | ⟨hhalf, -⟩ <;> constructor <;> linarith
  · have hhigh : 1 / 2 ≤ q - ⌊q⌋ := not_lt.mp fun hlow => hdown (.inl hlow)
    rw [abs_le]
    push_cast
    constructor <;> linarith

theorem roundHalfEven_eq_of_near {q : ℚ} {n : ℤ} (h : |q - n| < 1 / 2) : roundHalfEven q = n := by
  have hround := abs_le.mp (abs_roundHalfEven_sub_le q)
  obtain ⟨hlow, hhigh⟩ := abs_lt.mp h
  have hless : (roundHalfEven q : ℚ) < ((n + 1 : ℤ) : ℚ) := by
    push_cast
    linarith
  have hmore : ((n - 1 : ℤ) : ℚ) < roundHalfEven q := by
    push_cast
    linarith
  have := Int.cast_lt.mp hless
  have := Int.cast_lt.mp hmore
  omega

/-- Of a value that is not tiny the rounding keeps 53 digits. -/
theorem abs_toNearest_sub_le {q : ℚ} (h : 2 ^ (-1022 : ℤ) ≤ |q|) :
    |toNearest q - q| ≤ |q| / 2 ^ 53 := by
  have hq : 0 < |q| := lt_of_lt_of_le (by positivity) h
  have hpos := pow_lastPlace_pos q
  have hlast : lastPlace q = Int.log 2 |q| - 52 := by
    have hlog : -1022 ≤ Int.log 2 |q| := (Int.zpow_le_iff_le_log one_lt_two hq).mp (by exact_mod_cast h)
    unfold lastPlace
    omega
  have hround : (roundHalfEven (q / 2 ^ lastPlace q) - q / 2 ^ lastPlace q) * 2 ^ lastPlace q =
      toNearest q - q := by
    rw [sub_mul, div_mul_cancel₀ _ hpos.ne']
    rfl
  calc |toNearest q - q|
      = |roundHalfEven (q / 2 ^ lastPlace q) - q / 2 ^ lastPlace q| * 2 ^ lastPlace q := by
        rw [← hround, abs_mul, abs_of_pos hpos]
    _ ≤ 1 / 2 * 2 ^ lastPlace q :=
        mul_le_mul_of_nonneg_right (abs_roundHalfEven_sub_le _) hpos.le
    _ = 2 ^ Int.log 2 |q| / 2 ^ 53 := by
        rw [hlast, zpow_sub₀ two_ne_zero]
        norm_num
        ring
    _ ≤ |q| / 2 ^ 53 :=
        div_le_div_of_nonneg_right (by exact_mod_cast Int.zpow_log_le_self one_lt_two hq) (by positivity)

theorem exists_multiple_of_double {x : ℚ} {place : ℤ} (hx : toNearest x = x)
    (h : place ≤ lastPlace x) : ∃ n : ℤ, x = n * 2 ^ place := by
  obtain ⟨n, hn⟩ := exists_multiple_zpow 2 h
  rw [Nat.cast_ofNat] at hn
  refine ⟨roundHalfEven (x / 2 ^ lastPlace x) * n, ?_⟩
  calc x = roundHalfEven (x / 2 ^ lastPlace x) * 2 ^ lastPlace x := hx.symm
    _ = roundHalfEven (x / 2 ^ lastPlace x) * (n * 2 ^ place) := congrArg _ hn
    _ = _ := by
      push_cast
      ring

/-- A power of two that is greater than a double exceeds it by the least distance of two doubles. -/
theorem add_least_le_of_lt {x : ℚ} {place : ℤ} (hx : toNearest x = x) (hplace : -1074 ≤ place)
    (h : |x| < 2 ^ place) : |x| + 2 ^ (-1074 : ℤ) ≤ 2 ^ place := by
  have hunit : (0 : ℚ) < 2 ^ (-1074 : ℤ) := by positivity
  obtain ⟨k, hk⟩ := exists_multiple_of_double hx (le_max_right _ _)
  obtain ⟨n, hn⟩ := exists_multiple_zpow 2 hplace
  rw [Nat.cast_ofNat] at hn
  have habs : |x| = |k| * 2 ^ (-1074 : ℤ) := by
    conv_lhs => rw [hk]
    rw [abs_mul, abs_of_pos hunit, Int.cast_abs]
  rw [habs, hn] at h ⊢
  have hlt : |k| < n := by exact_mod_cast lt_of_mul_lt_mul_right h hunit.le
  have hle : ((|k| + 1 : ℤ) : ℚ) * 2 ^ (-1074 : ℤ) ≤ n * 2 ^ (-1074 : ℤ) :=
    mul_le_mul_of_nonneg_right (by exact_mod_cast hlt) hunit.le
  rwa [Int.cast_add, Int.cast_one, add_mul, one_mul] at hle

/-- A double that is less than half the least distance of two doubles away is the one that is rounded
to. -/
theorem toNearest_of_near {x y : ℚ} (hx : toNearest x = x) (h : |y - x| < 2 ^ (-1075 : ℤ)) :
    toNearest y = x := by
  have hhalf : (2 : ℚ) ^ (-1074 : ℤ) = 2 * 2 ^ (-1075 : ℤ) := by
    rw [← zpow_one_add₀ two_ne_zero]
    norm_num
  have hleast : (0 : ℚ) < 2 ^ (-1075 : ℤ) := by positivity
  have hplace : (-1074 : ℤ) ≤ lastPlace y := le_max_right _ _
  have hmultiple : ∃ n : ℤ, x = n * 2 ^ lastPlace y := by
    rcases le_or_gt (lastPlace y) (lastPlace x) with hle | hlt
    · exact exists_multiple_of_double hx hle
    · -- The places differ only where nothing is between the values, or `x` is zero.
      have hlog : lastPlace y = Int.log 2 |y| - 52 := by
        have hlow : (-1074 : ℤ) ≤ lastPlace x := le_max_right _ _
        unfold lastPlace at hlt hlow ⊢
        omega
      rcases eq_or_ne y 0 with rfl | hy
      · rw [zero_sub, abs_neg] at h
        have hzero := add_least_le_of_lt hx le_rfl (h.trans (by linarith))
        exact ⟨0, by simpa using abs_nonpos_iff.mp (by linarith)⟩
      · exfalso
        have hpower : (2 : ℚ) ^ Int.log 2 |y| ≤ |y| := by
          exact_mod_cast Int.zpow_log_le_self one_lt_two (abs_pos.mpr hy)
        have hbelow : |x| < 2 ^ Int.log 2 |y| := by
          calc |x| < (2 : ℚ) ^ (Int.log 2 |x| + 1) := by
                exact_mod_cast Int.lt_zpow_succ_log_self one_lt_two |x|
            _ ≤ 2 ^ Int.log 2 |y| := zpow_le_zpow_right₀ one_le_two (by
                have hplaceX : Int.log 2 |x| - 52 ≤ lastPlace x := le_max_left _ _
                omega)
        have hgap := add_least_le_of_lt hx (by omega) hbelow
        have htriangle := abs_sub_abs_le_abs_sub y x
        linarith
  obtain ⟨n, hn⟩ := hmultiple
  have hpos := pow_lastPlace_pos y
  have hround : roundHalfEven (y / 2 ^ lastPlace y) = n := by
    refine roundHalfEven_eq_of_near ?_
    have hquotient : y / 2 ^ lastPlace y - n = (y - x) / 2 ^ lastPlace y := by
      rw [hn]
      field_simp
    have hstep : (2 : ℚ) ^ (-1074 : ℤ) ≤ 2 ^ lastPlace y := zpow_le_zpow_right₀ one_le_two hplace
    rw [hquotient, abs_div, abs_of_pos hpos, div_lt_iff₀ hpos]
    linarith
  unfold toNearest
  rw [hround, ← hn]

/-! ### The decimal that is shown -/

theorem searchDecimal_rounds {x unit d : ℚ} {fuel : ℕ} (h : searchDecimal x unit fuel = some d) :
    toNearest d = x := by
  induction fuel generalizing unit with
  | zero => cases h
  | succ fuel ih =>
      unfold searchDecimal at h
      split at h
      · rename_i found hfound
        obtain rfl := Option.some.inj h
        simpa using List.find?_some hfound
      · exact ih h

/-- Next to `x` is a multiple that rounds to it, if there is one at all. -/
theorem exists_decimal_rounds {x unit : ℚ} (hunit : 0 < unit) (hx : toNearest x = x)
    (h : ∃ n : ℤ, toNearest (n * unit) = x) : ∃ d ∈ decimals x unit, toNearest d = x := by
  obtain ⟨n, hn⟩ := h
  rcases le_total (n * unit) x with hle | hle
  · refine ⟨⌊x / unit⌋ * unit, by simp [decimals], le_antisymm ?_ ?_⟩
    · calc toNearest (⌊x / unit⌋ * unit) ≤ toNearest x :=
            toNearest_mono ((le_div_iff₀ hunit).mp (Int.floor_le _))
        _ = x := hx
    · have hfloor : (n : ℚ) ≤ ⌊x / unit⌋ := by
        exact_mod_cast Int.le_floor.mpr ((le_div_iff₀ hunit).mpr hle)
      calc x = toNearest (n * unit) := hn.symm
        _ ≤ toNearest (⌊x / unit⌋ * unit) :=
            toNearest_mono (mul_le_mul_of_nonneg_right hfloor hunit.le)
  · refine ⟨⌈x / unit⌉ * unit, by simp [decimals], le_antisymm ?_ ?_⟩
    · have hceil : (⌈x / unit⌉ : ℚ) ≤ n := by
        exact_mod_cast Int.ceil_le.mpr ((div_le_iff₀ hunit).mpr hle)
      calc toNearest (⌈x / unit⌉ * unit) ≤ toNearest (n * unit) :=
            toNearest_mono (mul_le_mul_of_nonneg_right hceil hunit.le)
        _ = x := hn
    · calc x = toNearest x := hx.symm
        _ ≤ toNearest (⌈x / unit⌉ * unit) :=
            toNearest_mono ((div_le_iff₀ hunit).mp (Int.le_ceil _))

/-- The search stops at the last unit that has a multiple rounding to `x`, if not before. -/
theorem searchDecimal_multiple {x : ℚ} {place last : ℤ} {fuel : ℕ} (hx : toNearest x = x)
    (h : ∃ n : ℤ, toNearest (n * 10 ^ last) = x) (hle : last ≤ place) (hfuel : place - last < fuel) :
    ∃ m : ℤ, searchDecimal x (10 ^ place) fuel = some (m * (10 : ℚ) ^ last) := by
  induction fuel generalizing place with
  | zero => omega
  | succ fuel ih =>
      unfold searchDecimal
      split
      · rename_i d hd
        obtain ⟨n, rfl⟩ : ∃ n : ℤ, d = n * 10 ^ place := by
          have hmem := List.mem_of_find?_eq_some hd
          unfold decimals at hmem
          obtain ⟨n, -, rfl⟩ := List.mem_map.mp hmem
          exact ⟨n, rfl⟩
        obtain ⟨m, hm⟩ := exists_multiple_zpow 10 hle
        refine ⟨n * m, congrArg some ?_⟩
        push_cast at hm ⊢
        rw [hm]
        ring
      · rename_i hnone
        have hlt : last < place := by
          refine lt_of_le_of_ne hle fun heq => ?_
          subst heq
          obtain ⟨d, hd, hrounds⟩ := exists_decimal_rounds (by positivity) hx h
          exact List.find?_eq_none.mp hnone d hd (decide_eq_true hrounds)
        have hunit : (10 : ℚ) ^ place / 10 = 10 ^ (place - 1) := by
          rw [zpow_sub_one₀ (by norm_num)]
          rfl
        rw [hunit]
        exact ih (by omega) (by omega)

theorem toNearest_shortest {x : ℚ} (h : toNearest x = x) : toNearest (shortest x) = x := by
  unfold shortest
  cases hsearch : searchDecimal x (10 ^ leadingPlace x) (leadingPlace x + 325) with
  | none => exact h
  | some d => exact searchDecimal_rounds hsearch

/-- The decimal shown for a double has no more digits after the point than one that rounds to it. -/
theorem shortest_multiple {x : ℚ} {digits : ℕ} (hx : toNearest x = x) (hdigits : digits ≤ 324)
    (h : ∃ n : ℤ, toNearest (n / 10 ^ digits) = x) : ∃ m : ℤ, shortest x = m / 10 ^ digits := by
  have hunit : ∀ n : ℤ, (n / 10 ^ digits : ℚ) = n * 10 ^ (-digits : ℤ) := by
    intro n
    rw [zpow_neg, zpow_natCast]
    rfl
  simp only [hunit] at h ⊢
  have hfuel : (leadingPlace x : ℤ) - -digits < (leadingPlace x + 325 : ℕ) := by omega
  obtain ⟨m, hm⟩ := searchDecimal_multiple hx h (by omega) hfuel
  rw [zpow_natCast] at hm
  exact ⟨m, by rw [shortest, hm, Option.getD_some]⟩

/-- 324 digits after the point tell all doubles apart. -/
theorem exists_digits_of_double {x : ℚ} (hx : toNearest x = x) :
    ∃ n : ℤ, toNearest (n / 10 ^ 324) = x := by
  have hpow : (0 : ℚ) < 10 ^ 324 := by positivity
  have hsmall : (1 / 2 / 10 ^ 324 : ℚ) < 2 ^ (-1075 : ℤ) := by
    have hless : (2 : ℚ) ^ 1074 < 10 ^ 324 := by
      exact_mod_cast (by decide +kernel : (2 : ℕ) ^ 1074 < 10 ^ 324)
    rw [show (-1075 : ℤ) = -1 - (1074 : ℕ) by norm_num, zpow_sub₀ two_ne_zero, zpow_natCast,
      zpow_neg_one, ← one_div]
    exact div_lt_div_of_pos_left (by norm_num) (by positivity) hless
  refine ⟨roundHalfEven (x * 10 ^ 324), toNearest_of_near hx (lt_of_le_of_lt ?_ hsmall)⟩
  have hquotient : (roundHalfEven (x * 10 ^ 324) / 10 ^ 324 - x : ℚ) =
      (roundHalfEven (x * 10 ^ 324) - x * 10 ^ 324) / 10 ^ 324 := by
    rw [sub_div, mul_div_cancel_right₀ _ hpow.ne']
  rw [hquotient, abs_div, abs_of_pos hpow]
  exact div_le_div_of_nonneg_right (abs_roundHalfEven_sub_le _) hpow.le

@[simp] theorem toNearest_number (q : ℚ) : toNearest (number q) = toNearest q :=
  toNearest_shortest (toNearest_toNearest q)

@[simp] theorem isNumber_number (q : ℚ) : IsNumber (number q) := by
  unfold IsNumber
  conv_lhs => rw [number, toNearest_number]
  rfl

theorem number_toNearest (q : ℚ) : number (toNearest q) = number q :=
  congrArg shortest (toNearest_toNearest q)

theorem number_mono {p q : ℚ} (h : p ≤ q) : number p ≤ number q := by
  by_contra hlt
  have hback := toNearest_mono (not_le.mp hlt).le
  rw [toNearest_number, toNearest_number] at hback
  have hsame : number p = number q := congrArg shortest ((toNearest_mono h).antisymm hback)
  exact hlt hsame.le

@[simp] theorem number_zero : number 0 = 0 := by decide +kernel

theorem number_nonneg {q : ℚ} (h : 0 ≤ q) : 0 ≤ number q := by
  rw [← number_zero]
  exact number_mono h

theorem number_multiple {q : ℚ} {digits : ℕ} (hdigits : digits ≤ 324)
    (h : ∃ n : ℤ, q = n / 10 ^ digits) : ∃ m : ℤ, number q = m / 10 ^ digits := by
  obtain ⟨n, rfl⟩ := h
  exact shortest_multiple (toNearest_toNearest _) hdigits ⟨n, rfl⟩

theorem number_digits (q : ℚ) : ∃ m : ℤ, number q = m / 10 ^ 324 :=
  shortest_multiple (toNearest_toNearest q) le_rfl (exists_digits_of_double (toNearest_toNearest q))

-- Nothing is gained from computing with a number that is not known.
attribute [irreducible] toNearest number

end Binary64

/-! ### Arithmetics -/

/-- The exact value of a number, and the number an exact value becomes. -/
structure Arithmetic where
  value : ℚ → ℚ
  number : ℚ → ℚ

namespace Arithmetic

def exact : Arithmetic := ⟨id, id⟩

def double : Arithmetic := ⟨Binary64.toNearest, Binary64.number⟩

def add (arithmetic : Arithmetic) (a b : ℚ) : ℚ :=
  arithmetic.number (arithmetic.value a + arithmetic.value b)

def sub (arithmetic : Arithmetic) (a b : ℚ) : ℚ :=
  arithmetic.number (arithmetic.value a - arithmetic.value b)

def mul (arithmetic : Arithmetic) (a b : ℚ) : ℚ :=
  arithmetic.number (arithmetic.value a * arithmetic.value b)

def div (arithmetic : Arithmetic) (a b : ℚ) : ℚ :=
  arithmetic.number (arithmetic.value a / arithmetic.value b)

/-- The terms added one after the other. -/
def sum (arithmetic : Arithmetic) (terms : List ℚ) : ℚ := terms.foldl arithmetic.add 0

@[simp] theorem exact_value (a : ℚ) : exact.value a = a := rfl

@[simp] theorem exact_number (a : ℚ) : exact.number a = a := rfl

@[simp] theorem exact_add (a b : ℚ) : exact.add a b = a + b := rfl

@[simp] theorem exact_mul (a b : ℚ) : exact.mul a b = a * b := rfl

@[simp] theorem exact_div (a b : ℚ) : exact.div a b = a / b := rfl

open Binary64

theorem double_sum_append (front back : List ℚ) :
    double.sum (front ++ back) = back.foldl double.add (double.sum front) := by
  unfold sum
  rw [List.foldl_append]

theorem isNumber_double_sum (terms : List ℚ) : IsNumber (double.sum terms) := by
  induction terms using List.reverseRecOn with
  | nil => exact number_zero
  | append_singleton front last =>
      rw [double_sum_append]
      exact isNumber_number _

theorem le_double_add {a b : ℚ} (ha : IsNumber a) (hb : 0 ≤ b) : a ≤ double.add a b := by
  calc a = Binary64.number a := ha.symm
    _ = Binary64.number (toNearest a) := (number_toNearest a).symm
    _ ≤ Binary64.number (toNearest a + toNearest b) :=
        number_mono (le_add_of_nonneg_right (toNearest_nonneg hb))

/-- Adding what is not negative never lowers a sum. -/
theorem double_sum_le_append (front : List ℚ) {back : List ℚ} (h : ∀ term ∈ back, 0 ≤ term) :
    double.sum front ≤ double.sum (front ++ back) := by
  induction back using List.reverseRecOn with
  | nil => rw [List.append_nil]
  | append_singleton rest last ih =>
      rw [← List.append_assoc, double_sum_append (front ++ rest)]
      exact (ih fun term hterm => h term (List.mem_append_left _ hterm)).trans
        (le_double_add (isNumber_double_sum _) (h last (by simp)))

end Arithmetic
