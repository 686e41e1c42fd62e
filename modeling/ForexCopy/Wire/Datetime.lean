import ForexCopy.Library.Regex

/-!
# Timestamps that the schemas accept

The regular expression of `z.string().datetime()` of the schema library: a day of the Gregorian calendar,
a time whose seconds may be left out and may have a fraction, and a `Z`.
-/

namespace ForexCopy

open Regex Utf16

/-- The years with a 29th of February. -/
def leapYearRegex : RegularExpression UInt16 :=
  digit * digit * oneOf [2, 4, 6, 8] * oneOf [0, 4, 8] + digit * digit * oneOf [1, 3, 5, 7, 9] * oneOf [2, 6] +
    digit * digit * oneOf [0] * oneOf [4, 8] + oneOf [0, 2, 4, 6, 8] * oneOf [0, 4, 8] * oneOf [0] * oneOf [0] +
    oneOf [1, 3, 5, 7, 9] * oneOf [2, 6] * oneOf [0] * oneOf [0]

def yearRegex : RegularExpression UInt16 := digit * digit * digit * digit

/-- The months with 31 days. -/
def longMonthRegex : RegularExpression UInt16 :=
  oneOf [0] * oneOf [1, 3, 5, 7, 8] + oneOf [1] * oneOf [0, 2]

/-- The months with 30 days. -/
def shortMonthRegex : RegularExpression UInt16 := oneOf [0] * oneOf [4, 6, 9] + oneOf [1] * oneOf [1]

def februaryRegex : RegularExpression UInt16 := oneOf [0] * oneOf [2]

def dayTo31Regex : RegularExpression UInt16 :=
  oneOf [0] * oneOf [1, 2, 3, 4, 5, 6, 7, 8, 9] + oneOf [1, 2] * digit + oneOf [3] * oneOf [0, 1]

def dayTo30Regex : RegularExpression UInt16 :=
  oneOf [0] * oneOf [1, 2, 3, 4, 5, 6, 7, 8, 9] + oneOf [1, 2] * digit + oneOf [3] * oneOf [0]

def dayTo28Regex : RegularExpression UInt16 :=
  oneOf [0] * oneOf [1, 2, 3, 4, 5, 6, 7, 8, 9] + oneOf [1] * digit +
    oneOf [2] * oneOf [0, 1, 2, 3, 4, 5, 6, 7, 8]

def monthDayRegex : RegularExpression UInt16 :=
  longMonthRegex * literal [minus] * dayTo31Regex + shortMonthRegex * literal [minus] * dayTo30Regex +
    februaryRegex * literal [minus] * dayTo28Regex

def dateRegex : RegularExpression UInt16 :=
  leapYearRegex * literal (ofString "-02-29") + yearRegex * literal [minus] * monthDayRegex

def hourRegex : RegularExpression UInt16 := oneOf [0, 1] * digit + oneOf [2] * oneOf [0, 1, 2, 3]

/-- A minute or a second. -/
def sixtiethRegex : RegularExpression UInt16 := oneOf [0, 1, 2, 3, 4, 5] * digit

def timeRegex : RegularExpression UInt16 :=
  hourRegex * literal [colon] * sixtiethRegex *
    Regex.optional (literal [colon] * sixtiethRegex * Regex.optional (literal [point] * repeated digit))

def datetimeRegex : RegularExpression UInt16 :=
  dateRegex * literal (ofString "T") * timeRegex * literal (ofString "Z")

end ForexCopy
