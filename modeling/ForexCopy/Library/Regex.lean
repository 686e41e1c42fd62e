import ForexCopy.Library.DecimalText
import Mathlib.Computability.RegularExpressions

/-!
# Regular expressions of numerals

Regular expressions over code units, in the forms that programs write them in. An expression for numerals
of one width matches those of the numbers with some property: a concatenation splits a number at a power of
ten and an alternative is a disjunction, so that what an expression matches is a matter of arithmetic.
-/

namespace Regex

open Utf16 RegularExpression

/-- A text that stands for itself. -/
def literal (t : Text) : RegularExpression UInt16 := (t.map char).prod

/-- One of the digits, `[..]`. -/
def oneOf (ds : List ℕ) : RegularExpression UInt16 :=
  (ds.map fun d => literal (Digits.text (Digits.fixed 1 d))).sum

/-- `\d`. -/
def digit : RegularExpression UInt16 := oneOf (List.range 10)

/-- `(..)?`. -/
def optional (r : RegularExpression UInt16) : RegularExpression UInt16 := r + 1

/-- `(..)+`. -/
def repeated (r : RegularExpression UInt16) : RegularExpression UInt16 := r * star r

variable {r s : RegularExpression UInt16} {t : Text} {j k n : ℕ} {p q : ℕ → Prop}

theorem mem_mul : t ∈ (r * s).matches' ↔ ∃ u ∈ r.matches', ∃ v ∈ s.matches', u ++ v = t :=
  Language.mem_mul

theorem mem_add : t ∈ (r + s).matches' ↔ t ∈ r.matches' ∨ t ∈ s.matches' := Iff.rfl

theorem mem_optional : t ∈ (optional r).matches' ↔ t ∈ r.matches' ∨ t = [] := Iff.rfl

theorem mem_literal {text : Text} : t ∈ (literal text).matches' ↔ t = text := by
  induction text generalizing t with
  | nil => exact Iff.rfl
  | cons u rest ih =>
      change t ∈ (char u * literal rest).matches' ↔ _
      simp only [mem_mul, ih, matches'_char]
      constructor
      · rintro ⟨_, rfl, _, rfl, rfl⟩
        rfl
      · rintro rfl
        exact ⟨[u], rfl, rest, rfl, rfl⟩

theorem mem_oneOf {ds : List ℕ} :
    t ∈ (oneOf ds).matches' ↔ ∃ d ∈ ds, t = Digits.text (Digits.fixed 1 d) := by
  induction ds with
  | nil => exact ⟨fun h => absurd h (Language.notMem_zero t), by simp⟩
  | cons d rest ih =>
      change t ∈ (literal (Digits.text (Digits.fixed 1 d)) + oneOf rest).matches' ↔ _
      rw [mem_add, mem_literal, ih, List.exists_mem_cons_iff]

theorem mem_digit : t ∈ digit.matches' ↔ ∃ d, t = Digits.text [d] := by
  rw [digit, mem_oneOf]
  constructor
  · rintro ⟨d, -, rfl⟩
    exact ⟨Fin.ofNat 10 d, rfl⟩
  · rintro ⟨d, rfl⟩
    refine ⟨d, List.mem_range.mpr d.isLt, ?_⟩
    rw [Digits.fixed, Digits.fixed, List.nil_append, Fin.ofNat_eq_cast, Fin.cast_val_eq_self]

theorem mem_star_digit : t ∈ (star digit).matches' ↔ ∃ ds, t = Digits.text ds := by
  rw [matches'_star, Language.mem_kstar]
  constructor
  · rintro ⟨parts, rfl, hparts⟩
    induction parts with
    | nil => exact ⟨[], rfl⟩
    | cons part rest ih =>
        obtain ⟨d, rfl⟩ := mem_digit.mp (hparts part List.mem_cons_self)
        obtain ⟨ds, hds⟩ := ih fun other hother => hparts other (List.mem_cons_of_mem _ hother)
        exact ⟨d :: ds, by rw [List.flatten_cons, hds]; rfl⟩
  · rintro ⟨ds, rfl⟩
    refine ⟨ds.map fun d => Digits.text [d], ?_, ?_⟩
    · rw [← List.flatMap_def]
      exact (List.flatMap_pure_eq_map Digits.unit ds).symm
    · intro part hpart
      obtain ⟨d, -, rfl⟩ := List.mem_map.mp hpart
      exact mem_digit.mpr ⟨d, rfl⟩

theorem mem_repeated_digit :
    t ∈ (repeated digit).matches' ↔ ∃ ds, ds ≠ [] ∧ t = Digits.text ds := by
  simp only [repeated, mem_mul, mem_digit, mem_star_digit]
  constructor
  · rintro ⟨_, ⟨d, rfl⟩, _, ⟨ds, rfl⟩, rfl⟩
    exact ⟨d :: ds, List.cons_ne_nil _ _, rfl⟩
  · rintro ⟨ds, hne, rfl⟩
    obtain ⟨d, rest, rfl⟩ := List.exists_cons_of_ne_nil hne
    exact ⟨Digits.text [d], ⟨d, rfl⟩, Digits.text rest, ⟨rest, rfl⟩, rfl⟩

/-! ### Numerals of one width -/

/-- The expression matches the numerals with `k` digits of the numbers with the property. -/
def Denotes (k : ℕ) (r : RegularExpression UInt16) (p : ℕ → Prop) : Prop :=
  ∀ t, t ∈ r.matches' ↔ ∃ n < 10 ^ k, p n ∧ t = Digits.text (Digits.fixed k n)

namespace Denotes

theorem oneOf (ds : List ℕ) : Denotes 1 (oneOf ds) fun n => ∃ d ∈ ds, d % 10 = n := by
  intro t
  rw [mem_oneOf]
  constructor
  · rintro ⟨d, hd, rfl⟩
    refine ⟨d % 10, Nat.mod_lt _ (by decide), ⟨d, hd, rfl⟩, ?_⟩
    rw [← Digits.fixed_mod 1 d, pow_one]
  · rintro ⟨_, -, ⟨d, hd, rfl⟩, rfl⟩
    refine ⟨d, hd, ?_⟩
    rw [← Digits.fixed_mod 1 d, pow_one]

theorem digit : Denotes 1 digit fun _ => True := by
  intro t
  refine (oneOf _ t).trans (exists_congr fun n => and_congr_right fun hn => and_congr_left fun _ => ?_)
  exact iff_of_true ⟨n, List.mem_range.mpr hn, Nat.mod_eq_of_lt hn⟩ trivial

theorem add (hr : Denotes k r p) (hs : Denotes k s q) : Denotes k (r + s) fun n => p n ∨ q n := by
  intro t
  rw [mem_add, hr t, hs t, ← exists_or]
  exact exists_congr fun n => by tauto

theorem mul (hr : Denotes j r p) (hs : Denotes k s q) :
    Denotes (j + k) (r * s) fun n => p (n / 10 ^ k) ∧ q (n % 10 ^ k) := by
  intro t
  rw [mem_mul]
  constructor
  · rintro ⟨u, hu, v, hv, rfl⟩
    obtain ⟨m, hm, hpm, rfl⟩ := (hr u).mp hu
    obtain ⟨n, hn, hqn, rfl⟩ := (hs v).mp hv
    have hdiv : (10 ^ k * m + n) / 10 ^ k = m := by
      rw [Nat.mul_add_div (by positivity), Nat.div_eq_of_lt hn, add_zero]
    have hmod : (10 ^ k * m + n) % 10 ^ k = n := by rw [Nat.mul_add_mod, Nat.mod_eq_of_lt hn]
    refine ⟨10 ^ k * m + n, ?_, ?_, ?_⟩
    · calc 10 ^ k * m + n < 10 ^ k * (m + 1) := by rw [mul_add, mul_one]; omega
        _ ≤ 10 ^ k * 10 ^ j := Nat.mul_le_mul_left _ hm
        _ = 10 ^ (j + k) := by rw [pow_add, mul_comm]
    · exact ⟨hdiv.symm ▸ hpm, hmod.symm ▸ hqn⟩
    · rw [Digits.fixed_add, hdiv, ← Digits.fixed_mod k (10 ^ k * m + n), hmod, Digits.text_append]
  · rintro ⟨n, hn, ⟨hp, hq⟩, rfl⟩
    rw [Digits.fixed_add, Digits.text_append]
    refine ⟨_, (hr _).mpr ⟨n / 10 ^ k, ?_, hp, rfl⟩, _, (hs _).mpr ⟨n % 10 ^ k, ?_, hq, rfl⟩, ?_⟩
    · rw [Nat.div_lt_iff_lt_mul (by positivity), ← pow_add]
      exact hn
    · exact Nat.mod_lt _ (by positivity)
    · rw [Digits.fixed_mod]

/-- Two numerals with a text between them. -/
theorem mem_between (hr : Denotes j r p) (hs : Denotes k s q) {between : Text} :
    t ∈ (r * literal between * s).matches' ↔ ∃ m < 10 ^ j, ∃ n < 10 ^ k, (p m ∧ q n) ∧
      t = Digits.text (Digits.fixed j m) ++ between ++ Digits.text (Digits.fixed k n) := by
  simp only [mem_mul, mem_literal]
  constructor
  · rintro ⟨_, ⟨u, hu, _, rfl, rfl⟩, v, hv, rfl⟩
    obtain ⟨m, hm, hp, rfl⟩ := (hr u).mp hu
    obtain ⟨n, hn, hq, rfl⟩ := (hs v).mp hv
    exact ⟨m, hm, n, hn, ⟨hp, hq⟩, rfl⟩
  · rintro ⟨m, hm, n, hn, ⟨hp, hq⟩, rfl⟩
    exact ⟨_, ⟨_, (hr _).mpr ⟨m, hm, hp, rfl⟩, _, rfl, rfl⟩, _, (hs _).mpr ⟨n, hn, hq, rfl⟩, rfl⟩

theorem congr (h : Denotes k r p) (hpq : ∀ n < 10 ^ k, p n ↔ q n) : Denotes k r q := fun t =>
  (h t).trans <| exists_congr fun n => and_congr_right fun hn => and_congr_left fun _ => hpq n hn

end Denotes

end Regex
