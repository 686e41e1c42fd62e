import ForexCopy.Library.DecimalText

/-!
# Dates and their texts

The Gregorian calendar from the year 0 on: a day has a number and a date, and the date tells the number.
Years in a cycle of the calendar and months in a year are periods that follow one another; they
divide the numbers of the days among themselves. A moment, in milliseconds since 1970, is written as ISO
8601 has it, and the text reads as the moment.
-/

/-! ### Periods that follow one another -/

namespace Periods

/-- How much lies before a period. -/
def before (lengths : List ℕ) (i : ℕ) : ℕ := (lengths.take i).sum

/-- The period in which a number lies. -/
def index : List ℕ → ℕ → ℕ
  | [], _ => 0
  | length :: lengths, n => if n < length then 0 else index lengths (n - length) + 1

/-- How far it lies behind the beginning of its period. -/
def offset : List ℕ → ℕ → ℕ
  | [], n => n
  | length :: lengths, n => if n < length then n else offset lengths (n - length)

/-- There is a period with the index that is longer than `k`. -/
def Within (lengths : List ℕ) (i k : ℕ) : Prop := ∃ length ∈ lengths[i]?, k < length

instance (lengths : List ℕ) (i k : ℕ) : Decidable (Within lengths i k) :=
  match h : lengths[i]? with
  | none => isFalse fun ⟨_, hmem, _⟩ => by simp [h] at hmem
  | some length => decidable_of_iff (k < length) (by simp [Within, h])

variable {lengths : List ℕ} {length i k n : ℕ}

@[simp] theorem within_zero : Within (length :: lengths) 0 k ↔ k < length := by
  simp [Within]

@[simp] theorem within_succ : Within (length :: lengths) (i + 1) k ↔ Within lengths i k := by
  simp [Within]

@[simp] theorem before_zero : before lengths 0 = 0 := rfl

@[simp] theorem before_succ : before (length :: lengths) (i + 1) = length + before lengths i := by
  simp [before]

theorem before_add_offset (lengths : List ℕ) (n : ℕ) :
    before lengths (index lengths n) + offset lengths n = n := by
  induction lengths generalizing n with
  | nil => simp [index, offset]
  | cons length lengths ih =>
      unfold index offset
      split_ifs with h
      · simp
      · rw [before_succ, add_assoc, ih]
        omega

/-- A number below the sum of the lengths lies in one of the periods. -/
theorem within_offset (h : n < lengths.sum) : Within lengths (index lengths n) (offset lengths n) := by
  induction lengths generalizing n with
  | nil => simp at h
  | cons length lengths ih =>
      rw [List.sum_cons] at h
      unfold index offset
      split_ifs with hfirst
      · rwa [within_zero]
      · rw [within_succ]
        exact ih (by omega)

end Periods

/-! ### The calendar -/

namespace Calendar

open Periods

def IsLeap (year : ℕ) : Prop := 4 ∣ year ∧ (100 ∣ year → 400 ∣ year)

instance (year : ℕ) : Decidable (IsLeap year) := inferInstanceAs (Decidable (_ ∧ _))

def monthLengths (year : ℕ) : List ℕ :=
  [31, if IsLeap year then 29 else 28, 31, 30, 31, 30, 31, 31, 30, 31, 30, 31]

def yearLength (year : ℕ) : ℕ := if IsLeap year then 366 else 365

/-- The days of 400 years. -/
def cycle : ℕ := 146097

def yearLengths : List ℕ := (List.range 400).map yearLength

theorem sum_monthLengths (year : ℕ) : (monthLengths year).sum = yearLength year := by
  unfold monthLengths yearLength
  split_ifs <;> rfl

theorem sum_yearLengths : yearLengths.sum = cycle := by decide +kernel

theorem yearLength_cycle (cycles year : ℕ) : yearLength (400 * cycles + year) = yearLength year := by
  have hleap : IsLeap (400 * cycles + year) ↔ IsLeap year := by
    unfold IsLeap
    omega
  simp only [yearLength, hleap]

theorem within_yearLengths {i k : ℕ} : Within yearLengths i k ↔ i < 400 ∧ k < yearLength i := by
  unfold Within yearLengths
  rw [List.getElem?_map]
  by_cases hi : i < 400
  · simp [hi]
  · simp [hi]

/-- A date; its month and its day are counted from 0. -/
structure Date where
  year : ℕ
  month : ℕ
  day : ℕ
  valid : Within (monthLengths year) month day
  deriving DecidableEq

namespace Date

/-- The number of the day; that of the first day of the year 0 is 0. -/
def toDays (date : Date) : ℕ :=
  cycle * (date.year / 400) + before yearLengths (date.year % 400) +
    (before (monthLengths date.year) date.month + date.day)

def yearOfDays (n : ℕ) : ℕ := 400 * (n / cycle) + index yearLengths (n % cycle)

/-- The number of the day in its year, from 0. -/
def dayOfYear (n : ℕ) : ℕ := offset yearLengths (n % cycle)

theorem within_year (n : ℕ) :
    Within yearLengths (index yearLengths (n % cycle)) (offset yearLengths (n % cycle)) := by
  refine within_offset ?_
  rw [sum_yearLengths]
  exact Nat.mod_lt _ (by decide)

theorem dayOfYear_lt (n : ℕ) : dayOfYear n < (monthLengths (yearOfDays n)).sum := by
  rw [sum_monthLengths]
  unfold yearOfDays dayOfYear
  rw [yearLength_cycle]
  exact (within_yearLengths.mp (within_year n)).2

def ofDays (n : ℕ) : Date where
  year := yearOfDays n
  month := index (monthLengths (yearOfDays n)) (dayOfYear n)
  day := offset (monthLengths (yearOfDays n)) (dayOfYear n)
  valid := within_offset (dayOfYear_lt n)

theorem toDays_ofDays (n : ℕ) : (ofDays n).toDays = n := by
  have hyear := (within_yearLengths.mp (within_year n)).1
  have hdiv : yearOfDays n / 400 = n / cycle := by
    unfold yearOfDays
    omega
  have hmod : yearOfDays n % 400 = index yearLengths (n % cycle) := by
    unfold yearOfDays
    omega
  unfold toDays ofDays
  dsimp only
  rw [before_add_offset, hdiv, hmod, dayOfYear, add_assoc, before_add_offset]
  exact Nat.div_add_mod n cycle

end Date

end Calendar
