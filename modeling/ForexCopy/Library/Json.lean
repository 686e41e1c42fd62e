import ForexCopy.Library.DecimalText

/-!
# JSON texts

The grammar of RFC 8259 as a parser over code units. A number keeps the text it was written with, and an
object its members in their order. Every token takes the blanks behind it along, so that what stands in
front of a delimiter reads the same whatever stands behind the delimiter.
-/

open Utf16

inductive Json
  | null
  | bool (value : Bool)
  | number (text : Text)
  | string (value : Text)
  | array (items : List Json)
  | object (members : List (Text × Json))

namespace Json

/-! ### The grammar -/

def IsBlank (u : UInt16) : Bool := u = 0x20 || u = 0x09 || u = 0x0A || u = 0x0D

def skipBlanks (t : Text) : Text := t.dropWhile IsBlank

def hexValue (u : UInt16) : Option ℕ :=
  if IsDigit u then some (u.toNat - 0x30)
  else if 0x41 ≤ u ∧ u ≤ 0x46 then some (u.toNat - 0x37)
  else if 0x61 ≤ u ∧ u ≤ 0x66 then some (u.toNat - 0x57)
  else none

def hexUnit (a b c d : UInt16) : Option UInt16 := do
  let a ← hexValue a
  let b ← hexValue b
  let c ← hexValue c
  let d ← hexValue d
  some (a * 0x1000 + b * 0x100 + c * 0x10 + d).toUInt16

/-- What stands for itself behind a backslash, or for a control character. -/
def unescape (u : UInt16) : Option UInt16 :=
  if u = quote ∨ u = backslash ∨ u = 0x2F then some u
  else if u = 0x62 then some 0x08
  else if u = 0x66 then some 0x0C
  else if u = 0x6E then some lineFeed
  else if u = 0x72 then some carriageReturn
  else if u = 0x74 then some 0x09
  else none

/-- A string, behind its opening quote. -/
def stringBody : Text → Option (Text × Text)
  | [] => none
  | u :: rest =>
    if u = quote then some ([], rest)
    else if u = backslash then
      match rest with
      | [] => none
      | 0x75 :: a :: b :: c :: d :: rest =>
        (hexUnit a b c d).bind fun unit => (stringBody rest).map (Prod.map (unit :: ·) id)
      | e :: rest => (unescape e).bind fun unit => (stringBody rest).map (Prod.map (unit :: ·) id)
    else if u < 0x20 then none
    else (stringBody rest).map (Prod.map (u :: ·) id)

/-- The units of which numbers consist. -/
def IsNumeric (u : UInt16) : Bool :=
  IsDigit u || u = minus || u = plus || u = point || u = 0x65 || u = 0x45

/-- What stands behind a run of digits, which must not be empty. -/
def afterDigits (t : Text) : Option Text :=
  if t.takeWhile IsDigit = [] then none else some (t.dropWhile IsDigit)

/-- What stands behind the digits of a whole number, which are not padded. -/
def afterWhole (t : Text) : Option Text :=
  if (t.takeWhile IsDigit).head? = some zero ∧ (t.takeWhile IsDigit).length ≠ 1 then none
  else afterDigits t

def afterFraction (t : Text) : Option Text :=
  if t.head? = some point then afterDigits t.tail else some t

def afterExponent : Text → Option Text
  | [] => some []
  | e :: t =>
    if e = 0x65 ∨ e = 0x45 then
      afterDigits (if t.head? = some plus ∨ t.head? = some minus then t.tail else t)
    else some (e :: t)

def IsNumber (t : Text) : Bool :=
  (((afterWhole (if t.head? = some minus then t.tail else t)).bind afterFraction).bind
    afterExponent) = some []

/-- A number reaches as far as units of numbers do. -/
def numberToken (t : Text) : Option (Json × Text) :=
  if IsNumber (t.takeWhile IsNumeric) then
    some (.number (t.takeWhile IsNumeric), t.dropWhile IsNumeric)
  else none

def keyword (word : String) (value : Json) (t : Text) : Option (Json × Text) :=
  if (ofString word).isPrefixOf t then some (value, t.drop (ofString word).length) else none

/-- A value that is no string, array or object, by its first unit. -/
def scalar (u : UInt16) (t : Text) : Option (Json × Text) :=
  if u = 0x74 then keyword "true" (.bool true) t
  else if u = 0x66 then keyword "false" (.bool false) t
  else if u = 0x6E then keyword "null" .null t
  else numberToken t

section

variable {α : Type}

/-- Items with commas between them, up to the closing unit. -/
def separated (item : Text → Option (α × Text)) (close : UInt16) : ℕ → Text → Option (List α × Text)
  | 0, _ => none
  | n + 1, t =>
    (item t).bind fun (a, rest) =>
      match rest with
      | [] => none
      | u :: rest =>
        if u = close then some ([a], rest)
        else if u = comma then (separated item close n rest).map (Prod.map (a :: ·) id)
        else none

def listed (item : Text → Option (α × Text)) (close : UInt16) (n : ℕ) (t : Text) :
    Option (List α × Text) :=
  match skipBlanks t with
  | [] => none
  | u :: rest => if u = close then some ([], rest) else separated item close n (u :: rest)

def member (item : Text → Option (α × Text)) (t : Text) : Option ((Text × α) × Text) :=
  match skipBlanks t with
  | [] => none
  | u :: rest =>
    if u = quote then
      (stringBody rest).bind fun (key, rest) =>
        match skipBlanks rest with
        | [] => none
        | u :: rest => if u = colon then (item rest).map (Prod.map (key, ·) id) else none
    else none

end

/-- A value and the blanks around it; the fuel bounds how deep values are nested. -/
def value : ℕ → Text → Option (Json × Text)
  | 0, _ => none
  | fuel + 1, t =>
    let token : Option (Json × Text) :=
      match skipBlanks t with
      | [] => none
      | u :: rest =>
        if u = quote then (stringBody rest).map (Prod.map .string id)
        else if u = openBrace then
          (listed (member (value fuel)) closeBrace fuel rest).map (Prod.map .object id)
        else if u = openBracket then
          (listed (value fuel) closeBracket fuel rest).map (Prod.map .array id)
        else scalar u (u :: rest)
    token.map (Prod.map id skipBlanks)

/-- The value that a text stands for, if it is a JSON text. -/
def parse (t : Text) : Option Json :=
  (value (t.length + 1) t).bind fun (json, rest) => if rest = [] then some json else none

end Json
