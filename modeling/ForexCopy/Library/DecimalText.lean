import ForexCopy.Library.Utf16
import ForexCopy.Library.Decimal
import Mathlib.Data.Int.Log
import Mathlib.Tactic.FieldSimp
import Mathlib.Tactic.Ring

/-!
# Decimal numerals as code units

The digits of a number and the numerals that are made of them: a sign, the digits before the point, the
digits after it, an exponent. A numeral says at its first digit that it is not padded with zeros.
-/

abbrev Digit := Fin 10

namespace Digits

open Utf16

def unit (d : Digit) : UInt16 := 0x30 + d.val.toUInt16

def ofUnit (u : UInt16) : Digit := Fin.ofNat 10 (u.toNat - 0x30)

def text (ds : List Digit) : Text := ds.map unit

def value (ds : List Digit) : ℕ := ds.foldl (fun n d => 10 * n + d) 0

/-- The last `k` digits of a number. -/
def fixed : ℕ → ℕ → List Digit
  | 0, _ => []
  | k + 1, n => fixed k (n / 10) ++ [Fin.ofNat 10 n]

/-- The digits of a number, as many as it has. -/
def ofNat (n : ℕ) : List Digit := fixed (Nat.log 10 n + 1) n

variable {ds : List Digit} {rest : Text} {k n : ℕ}

theorem isDigit_unit (d : Digit) : IsDigit (unit d) := by
  revert d
  decide

@[simp] theorem ofUnit_unit (d : Digit) : ofUnit (unit d) = d := by
  revert d
  decide

theorem isDigit_of_mem_text {u : UInt16} (h : u ∈ text ds) : IsDigit u := by
  obtain ⟨d, -, rfl⟩ := List.mem_map.mp h
  exact isDigit_unit d

@[simp] theorem map_ofUnit_text : (text ds).map ofUnit = ds := by
  unfold text
  simp [Function.comp_def]

@[simp] theorem text_eq_nil : text ds = [] ↔ ds = [] := List.map_eq_nil_iff

/-! ### Reading -/

/-- A text that does not go on with a digit. -/
def NoDigit (rest : Text) : Prop := ∀ u ∈ rest.head?, IsDigit u = false

theorem takeWhile_text (h : NoDigit rest) : (text ds ++ rest).takeWhile IsDigit = text ds := by
  rw [List.takeWhile_append_of_pos fun u hu => isDigit_of_mem_text hu]
  cases rest with
  | nil => simp
  | cons u rest => simp [h u rfl]

theorem dropWhile_text (h : NoDigit rest) : (text ds ++ rest).dropWhile IsDigit = rest := by
  rw [List.dropWhile_append_of_pos fun u hu => isDigit_of_mem_text hu]
  cases rest with
  | nil => rfl
  | cons u rest => simp [h u rfl]

/-! ### Writing -/

@[simp] theorem length_fixed : (fixed k n).length = k := by
  induction k generalizing n with
  | zero => rfl
  | succ k ih => simp [fixed, ih]

theorem value_concat (ds : List Digit) (d : Digit) : value (ds ++ [d]) = 10 * value ds + d := by
  simp [value]

theorem value_fixed : value (fixed k n) = n % 10 ^ k := by
  induction k generalizing n with
  | zero => simp [fixed, value, Nat.mod_one]
  | succ k ih =>
      rw [fixed, value_concat, ih, Nat.pow_succ', Nat.mod_mul]
      change 10 * _ + n % 10 = _
      ring

theorem value_ofNat (n : ℕ) : value (ofNat n) = n := by
  rw [ofNat, value_fixed]
  exact Nat.mod_eq_of_lt (Nat.lt_pow_succ_log_self (by decide) n)

@[simp] theorem text_append (front back : List Digit) : text (front ++ back) = text front ++ text back :=
  List.map_append

theorem fixed_add (j k n : ℕ) : fixed (j + k) n = fixed j (n / 10 ^ k) ++ fixed k n := by
  induction k generalizing n with
  | zero => simp [fixed]
  | succ k ih =>
      rw [← add_assoc, fixed, ih, fixed, Nat.div_div_eq_div_mul, ← Nat.pow_succ', List.append_assoc]

theorem fixed_mod (k n : ℕ) : fixed k (n % 10 ^ k) = fixed k n := by
  induction k generalizing n with
  | zero => rfl
  | succ k ih =>
      have hfront : n % 10 ^ (k + 1) / 10 = n / 10 % 10 ^ k := by
        rw [Nat.pow_succ', Nat.mod_mul_right_div_self]
      have hlast : Fin.ofNat 10 (n % 10 ^ (k + 1)) = Fin.ofNat 10 n :=
        Fin.ext (Nat.mod_mod_of_dvd n (Dvd.intro_left (10 ^ k) rfl))
      rw [fixed, hfront, ih, hlast, fixed]

theorem head?_fixed : (fixed (k + 1) n).head? = some (Fin.ofNat 10 (n / 10 ^ k)) := by
  induction k generalizing n with
  | zero => simp [fixed]
  | succ k ih =>
      rw [fixed, List.head?_append, ih, Nat.div_div_eq_div_mul, ← Nat.pow_succ']
      rfl

theorem ofNat_ne_nil (n : ℕ) : ofNat n ≠ [] := by
  intro h
  have hlength := congrArg List.length h
  simp [ofNat] at hlength

/-- A number is not padded. -/
theorem ofNat_head (h : (ofNat n).head? = some 0) : (ofNat n).length = 1 := by
  rw [ofNat, head?_fixed, Option.some.injEq] at h
  rw [ofNat, length_fixed, Nat.add_eq_right]
  by_contra hlog
  have hn : n ≠ 0 := by
    rintro rfl
    exact hlog (Nat.log_zero_right 10)
  have hlow : 1 ≤ n / 10 ^ Nat.log 10 n :=
    (Nat.one_le_div_iff (by positivity)).mpr (Nat.pow_log_le_self 10 hn)
  have hhigh : n / 10 ^ Nat.log 10 n < 10 := by
    rw [Nat.div_lt_iff_lt_mul (by positivity), ← Nat.pow_succ']
    exact Nat.lt_pow_succ_log_self (by decide) n
  have hdigit : n / 10 ^ Nat.log 10 n % 10 = 0 := congrArg Fin.val h
  omega

end Digits

/-- A decimal numeral. -/
structure Numeral where
  negative : Bool := false
  whole : List Digit
  fraction : List Digit := []
  /-- Whether it is negative, and its digits. -/
  exponent : Option (Bool × List Digit) := none
  whole_ne_nil : whole ≠ [] := by decide
  unpadded : whole.head? = some 0 → whole.length = 1 := by decide
  exponent_ne_nil : ∀ power ∈ exponent, power.2 ≠ [] := by decide

namespace Numeral

open Utf16

def signText (negative : Bool) : Text := if negative then [minus] else []

def fractionText (fraction : List Digit) : Text :=
  if fraction = [] then [] else point :: Digits.text fraction

/-- The exponent, behind an `e` and its sign. -/
def exponentText : Option (Bool × List Digit) → Text
  | none => []
  | some (negative, ds) => 0x65 :: (if negative then minus else plus) :: Digits.text ds

def text (numeral : Numeral) : Text :=
  signText numeral.negative ++ Digits.text numeral.whole ++ fractionText numeral.fraction ++
    exponentText numeral.exponent

/-- The numeral without its exponent. -/
def mantissa (numeral : Numeral) : ℚ :=
  (if numeral.negative then -1 else 1) *
    (Digits.value numeral.whole + Digits.value numeral.fraction / 10 ^ numeral.fraction.length)

/-- A whole number. -/
def ofInt (n : ℤ) : Numeral where
  negative := n < 0
  whole := Digits.ofNat n.natAbs
  whole_ne_nil := Digits.ofNat_ne_nil _
  unpadded := Digits.ofNat_head
  exponent_ne_nil := by simp

/-- `units` in units of `10 ^ -scale`. -/
def ofUnits (negative : Bool) (units scale : ℕ) (exponent : Option ℤ := none) : Numeral where
  negative := negative
  whole := Digits.ofNat (units / 10 ^ scale)
  fraction := Digits.fixed scale units
  exponent := exponent.map fun power => (power < 0, Digits.fixed 3 power.natAbs)
  whole_ne_nil := Digits.ofNat_ne_nil _
  unpadded := Digits.ofNat_head
  exponent_ne_nil := by
    intro power hpower
    obtain ⟨e, -, rfl⟩ := Option.map_eq_some_iff.mp hpower
    intro h
    have hlength := congrArg List.length h
    simp at hlength

theorem mantissa_ofInt (n : ℤ) : (ofInt n).mantissa = n := by
  have habs : (n.natAbs : ℚ) = |(n : ℚ)| := by rw [Nat.cast_natAbs, Int.cast_abs]
  unfold mantissa ofInt
  simp only [Digits.value_ofNat, decide_eq_true_iff, habs]
  split_ifs with hneg
  · rw [abs_of_neg (by exact_mod_cast hneg)]
    simp [Digits.value]
  · rw [abs_of_nonneg (by exact_mod_cast not_lt.mp hneg)]
    simp [Digits.value]

theorem mantissa_ofUnits (negative : Bool) (units scale : ℕ) (exponent : Option ℤ) :
    (ofUnits negative units scale exponent).mantissa =
      (if negative then -1 else 1) * (units / 10 ^ scale) := by
  have hpow : (10 ^ scale : ℚ) ≠ 0 := by positivity
  have hdigits : (10 ^ scale : ℚ) * ↑(units / 10 ^ scale) + ↑(units % 10 ^ scale) = units := by
    exact_mod_cast Nat.div_add_mod units (10 ^ scale)
  unfold mantissa ofUnits
  simp only [Digits.value_ofNat, Digits.value_fixed, Digits.length_fixed]
  congr 1
  rw [eq_div_iff hpow, add_mul, div_mul_cancel₀ _ hpow, mul_comm, hdigits]

end Numeral
