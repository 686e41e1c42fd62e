import ForexCopy.Library.DecimalText
import ForexCopy.Library.Search

/-!
# Strings of the terminals

The string functions of MQL4 and MQL5 that the connectors call. A string is its code units. A double
that is written is the number that it stands for; for one that is read it matters how a double is found
for a numeral, and `Doubles` says what JavaScript and the terminals have in common there.
-/

namespace ForexCopy.Mql

open Utf16

def stringReplace (text find replacement : Text) : Text := Search.replace find replacement text

/-- `-1` is `none`. -/
def stringFind (text needle : Text) : Option ℕ := Search.find needle text

/-- A length that is not positive stands for the rest of the text. -/
def stringSubstr (text : Text) (start : ℕ) (length : ℤ) : Text :=
  if length ≤ 0 then text.drop start else (text.drop start).take length.toNat

def integerToString (value : ℤ) : Text := (Numeral.ofInt value).text

/-- A number in fixed notation. -/
def fixedNotation (value : ℚ) (digits : ℕ) : Numeral :=
  .ofUnits (value < 0) (roundHalfUp (|value| * 10 ^ digits)).toNat digits

/-- A number in scientific notation; where rounding makes ten of the first digit, the exponent grows. -/
def scientificNotation (value : ℚ) (digits : ℕ) : Numeral :=
  let power := Int.log 10 |value|
  let units := (roundHalfUp (|value| / 10 ^ power * 10 ^ digits)).toNat
  if units < 10 ^ (digits + 1) then .ofUnits (value < 0) units digits (some power)
  else .ofUnits (value < 0) (units / 10) digits (some (power + 1))

/-- The digits behind the point are those asked for; a negative number asks for an exponent. -/
def numeral (value : ℚ) (digits : ℤ) : Numeral :=
  if 0 ≤ digits ∧ digits ≤ 16 then fixedNotation value digits.toNat
  else if -16 ≤ digits ∧ digits ≤ -1 then scientificNotation value (-digits).toNat
  else fixedNotation value 8

def doubleToString (value : ℚ) (digits : ℤ) : Text := (numeral value digits).text

/-- A number in plain decimals, as far as the text goes on with one. -/
def plainNumber (text : Text) : ℚ :=
  let negative : Bool := text.head? = some minus
  let unsigned := if negative then text.tail else text
  let fractional := unsigned.dropWhile IsDigit
  let fraction := if fractional.head? = some point then fractional.tail.takeWhile IsDigit else []
  (if negative then -1 else 1) *
    (Digits.value ((unsigned.takeWhile IsDigit).map Digits.ofUnit) +
      Digits.value (fraction.map Digits.ofUnit) / 10 ^ fraction.length)

/-- Doubles that are found by the nearest number and printed by `Number::toString`: the digits that it
prints are so many that no other double is as near. -/
structure Doubles (Number : Type) where
  toNearest : ℚ → Number
  numberToString : Number → Text
  toNearest_printed : ∀ number (numeral : Numeral), numeral.exponent = none →
    numberToString number = numeral.text → toNearest numeral.mantissa = number

/-- The number is printed in plain decimal notation. -/
def Doubles.PrintsPlainly {Number : Type} (doubles : Doubles Number) (number : Number) : Prop :=
  ∃ numeral : Numeral, numeral.exponent = none ∧ doubles.numberToString number = numeral.text

/-- The digits behind the point that a number needs. -/
def fractionDigits (q : ℚ) : ℕ :=
  ((List.range 325).find? fun digits => Decimal.OnGrid digits q).getD 0

/-- `Number::toString`: plain decimals from a millionth up to `10 ^ 21`, and an exponent outside. -/
def numberNotation (q : ℚ) : Numeral :=
  if q = 0 ∨ 1 / 10 ^ 6 ≤ |q| ∧ |q| < 10 ^ 21 then
    fixedNotation q (fractionDigits q)
  else
    let power := Int.log 10 |q|
    let significand := q / 10 ^ power
    { fixedNotation significand (fractionDigits significand) with
      exponent := some (power < 0, Digits.ofNat power.natAbs)
      exponent_ne_nil := by simp [Digits.ofNat_ne_nil] }

/-- Exponents are not looked at. -/
def stringToDouble {Number : Type} (doubles : Doubles Number) (text : Text) : Number :=
  doubles.toNearest (plainNumber text)

end ForexCopy.Mql
