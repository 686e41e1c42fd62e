import ForexCopy.Library.JsonRead
import ForexCopy.Library.Table

/-!
# Schemas of JSON values

A schema reads a value of its type out of a JSON value or refuses it. Of several members of one key an
object keeps the last, and members that are not asked for are left out of what is read. A string is read
as its characters, half of a surrogate pair as the replacement character; a number as the double nearest
to what its text stands for.
-/

namespace Utf16

def IsHigh (u : UInt16) : Bool := 0xD800 ≤ u && u ≤ 0xDBFF

def IsLow (u : UInt16) : Bool := 0xDC00 ≤ u && u ≤ 0xDFFF

/-- The character of a unit by itself. -/
def single (u : UInt16) : Char := if IsHigh u || IsLow u then '\uFFFD' else Char.ofNat u.toNat

def pair (high low : UInt16) : Char :=
  Char.ofNat (0x10000 + (high.toNat - 0xD800) * 0x400 + (low.toNat - 0xDC00))

def chars : Text → List Char
  | [] => []
  | [u] => [single u]
  | u :: v :: rest =>
    if IsHigh u && IsLow v then pair u v :: chars rest else single u :: chars (v :: rest)

def decode (t : Text) : String := .ofList (chars t)

theorem chars_single {u : UInt16} (h : IsHigh u = false) (rest : Text) :
    chars (u :: rest) = single u :: chars rest := by
  cases rest with
  | nil => rfl
  | cons v rest => simp [chars, h]

theorem isHigh_iff {u : UInt16} : IsHigh u ↔ 0xD800 ≤ u.toNat ∧ u.toNat ≤ 0xDBFF := by
  simp [IsHigh, UInt16.le_iff_toNat_le]

theorem isLow_iff {u : UInt16} : IsLow u ↔ 0xDC00 ≤ u.toNat ∧ u.toNat ≤ 0xDFFF := by
  simp [IsLow, UInt16.le_iff_toNat_le]

/-- The units of a character are read as it, whatever stands behind them. -/
theorem chars_ofChar (c : Char) (rest : Text) : chars (ofChar c ++ rest) = c :: chars rest := by
  have hlt := toNat_lt c
  have hvalid : c.toNat < 0xD800 ∨ 0xDFFF < c.toNat := by
    have hvalid := c.valid
    simp only [UInt32.isValidChar, Nat.isValidChar] at hvalid
    change c.val.toNat < _ ∨ _ < c.val.toNat
    omega
  unfold ofChar
  split_ifs with hsmall
  · have hcode : (c.toNat.toUInt16).toNat = c.toNat := by
      simpa using Nat.mod_eq_of_lt hsmall
    have hhigh : IsHigh c.toNat.toUInt16 = false := by
      rw [Bool.eq_false_iff, Ne, isHigh_iff, hcode]
      omega
    have hlow : IsLow c.toNat.toUInt16 = false := by
      rw [Bool.eq_false_iff, Ne, isLow_iff, hcode]
      omega
    rw [List.singleton_append, chars_single hhigh, single, hhigh, hlow, hcode]
    simp
  · have hhighCode : ((0xD800 + (c.toNat - 0x10000) / 0x400).toUInt16).toNat =
        0xD800 + (c.toNat - 0x10000) / 0x400 := by
      simp
      omega
    have hlowCode : ((0xDC00 + (c.toNat - 0x10000) % 0x400).toUInt16).toNat =
        0xDC00 + (c.toNat - 0x10000) % 0x400 := by
      simp
      omega
    have hhigh : IsHigh (0xD800 + (c.toNat - 0x10000) / 0x400).toUInt16 := by
      rw [isHigh_iff, hhighCode]
      omega
    have hlow : IsLow (0xDC00 + (c.toNat - 0x10000) % 0x400).toUInt16 := by
      rw [isLow_iff, hlowCode]
      omega
    have hpair : pair (0xD800 + (c.toNat - 0x10000) / 0x400).toUInt16
        (0xDC00 + (c.toNat - 0x10000) % 0x400).toUInt16 = c := by
      have hsum : 0x10000 + (0xD800 + (c.toNat - 0x10000) / 0x400 - 0xD800) * 0x400 +
          (0xDC00 + (c.toNat - 0x10000) % 0x400 - 0xDC00) = c.toNat := by
        omega
      rw [pair, hhighCode, hlowCode, hsum, Char.ofNat_toNat]
    rw [List.cons_append, List.cons_append, List.nil_append, chars, hhigh, hlow, hpair]
    rfl

@[simp] theorem decode_ofString (s : String) : decode (ofString s) = s := by
  have hchars : ∀ list : List Char, chars (list.flatMap ofChar) = list := by
    intro list
    induction list with
    | nil => rfl
    | cons c list ih => rw [List.flatMap_cons, chars_ofChar, ih]
  unfold decode ofString
  rw [hchars, String.ofList_toList]

/-- A text of ASCII is the text of its characters. -/
theorem ofString_decode {t : Text} (h : ∀ u ∈ t, u < 0x80) : ofString (decode t) = t := by
  unfold decode ofString
  rw [String.toList_ofList]
  induction t with
  | nil => rfl
  | cons u t ih =>
      have hu : u.toNat < 0x80 := h u List.mem_cons_self
      have hhigh : IsHigh u = false := by
        rw [Bool.eq_false_iff, Ne, isHigh_iff]
        omega
      have hlow : IsLow u = false := by
        rw [Bool.eq_false_iff, Ne, isLow_iff]
        omega
      have hcode : (single u).toNat = u.toNat := by
        have hvalid : u.toNat.isValidChar := .inl (by omega)
        rw [single, hhigh, hlow, if_neg (by decide), Char.ofNat, dif_pos hvalid]
        rfl
      have hunits : ofChar (single u) = [u] := by
        rw [ofChar, hcode, if_pos (by omega)]
        simp
      rw [chars_single hhigh, List.flatMap_cons, hunits, ih fun v hv => h v (List.mem_cons_of_mem _ hv)]
      rfl

end Utf16

/-! ### Numbers -/

namespace Json

open Utf16

/-- The digits of a text as one number. -/
def digits (t : Text) : ℕ := Digits.value ((t.filter IsDigit).map Digits.ofUnit)

def sign (t : Text) : ℤ := if t.head? = some minus then -1 else 1

def IsExponent (u : UInt16) : Bool := u = 0x65 || u = 0x45

/-- The number that the text of a number stands for. -/
def numberValue (t : Text) : ℚ :=
  let mantissa := t.takeWhile fun u => !IsExponent u
  let power := (t.dropWhile fun u => !IsExponent u).tail
  let fraction := (mantissa.dropWhile (· ≠ point)).tail
  sign mantissa * (digits mantissa / 10 ^ fraction.length) * 10 ^ (sign power * digits power)

theorem value_append (ds es : List Digit) :
    Digits.value (ds ++ es) = Digits.value ds * 10 ^ es.length + Digits.value es := by
  induction es using List.reverseRecOn with
  | nil => simp [Digits.value]
  | append_singleton es d ih =>
      rw [← List.append_assoc, Digits.value_concat, ih, Digits.value_concat, List.length_append,
        List.length_singleton]
      ring

theorem isExponent_of_isDigit {u : UInt16} (h : IsDigit u) : IsExponent u = false := by
  rw [Bool.eq_false_iff]
  intro hexponent
  simp only [IsExponent, Bool.or_eq_true, decide_eq_true_iff] at hexponent
  rcases hexponent with rfl | rfl
  · exact absurd h (by decide)
  · exact absurd h (by decide)

theorem filter_isDigit_text (ds : List Digit) : (Digits.text ds).filter IsDigit = Digits.text ds :=
  List.filter_eq_self.mpr fun _ => Digits.isDigit_of_mem_text

theorem tail_fractionText (fraction : List Digit) :
    (Numeral.fractionText fraction).tail = Digits.text fraction := by
  unfold Numeral.fractionText
  split_ifs with hnil
  · rw [hnil]
    rfl
  · rfl

/-- What stands in front of the fraction has no point. -/
theorem ne_point {negative : Bool} {whole : List Digit} {u : UInt16}
    (h : u ∈ Numeral.signText negative ++ Digits.text whole) : u ≠ point := by
  rintro rfl
  rcases List.mem_append.mp h with hsign | hdigit
  · cases negative <;> revert hsign <;> decide
  · exact absurd (Digits.isDigit_of_mem_text hdigit) (by decide)

section

variable (negative : Bool) (whole fraction : List Digit)

/-- A numeral without an exponent. -/
def plainText : Text :=
  Numeral.signText negative ++ Digits.text whole ++ Numeral.fractionText fraction

theorem plainText_plain : ∀ u ∈ plainText negative whole fraction, (!IsExponent u) = true := by
  intro u hu
  rw [Bool.not_eq_true']
  rcases List.mem_append.mp hu with hfront | hfraction
  · rcases List.mem_append.mp hfront with hsign | hdigit
    · cases negative with
      | false => cases hsign
      | true =>
          obtain rfl := List.mem_singleton.mp hsign
          rfl
    · exact isExponent_of_isDigit (Digits.isDigit_of_mem_text hdigit)
  · unfold Numeral.fractionText at hfraction
    split_ifs at hfraction
    · cases hfraction
    · rcases List.mem_cons.mp hfraction with rfl | hdigit
      · rfl
      · exact isExponent_of_isDigit (Digits.isDigit_of_mem_text hdigit)

theorem plainText_fraction :
    (plainText negative whole fraction).dropWhile (· ≠ point) = Numeral.fractionText fraction := by
  rw [plainText, List.dropWhile_append_of_pos fun u hu => by simpa using ne_point hu]
  unfold Numeral.fractionText
  split_ifs <;> simp

theorem plainText_digits :
    digits (plainText negative whole fraction) = Digits.value (whole ++ fraction) := by
  have hsign : (Numeral.signText negative).filter IsDigit = [] := by
    cases negative <;> rfl
  have hfraction : (Numeral.fractionText fraction).filter IsDigit = Digits.text fraction := by
    unfold Numeral.fractionText
    split_ifs with hnil
    · rw [hnil]
      rfl
    · exact filter_isDigit_text fraction
  have htext : Digits.text whole ++ Digits.text fraction = Digits.text (whole ++ fraction) :=
    List.map_append.symm
  rw [digits, plainText, List.filter_append, List.filter_append, hsign, hfraction, filter_isDigit_text,
    List.nil_append, htext, Digits.map_ofUnit_text]

theorem plainText_sign (hwhole : whole ≠ []) :
    sign (plainText negative whole fraction) = if negative then -1 else 1 := by
  obtain ⟨d, others, rfl⟩ := List.exists_cons_of_ne_nil hwhole
  have hd : Digits.unit d ≠ minus := by
    intro heq
    have hdigit := Digits.isDigit_unit d
    rw [heq] at hdigit
    exact absurd hdigit (by decide)
  cases negative <;> simp [sign, plainText, Numeral.signText, Digits.text, hd]

end

/-- A numeral without an exponent stands for the number that it is. -/
theorem numberValue_text {numeral : Numeral} (h : numeral.exponent = none) :
    numberValue numeral.text = numeral.mantissa := by
  obtain ⟨negative, whole, fraction, exponent, hwhole, hunpadded, hexponent⟩ := numeral
  obtain rfl : exponent = none := h
  have htext : Numeral.text ⟨negative, whole, fraction, none, hwhole, hunpadded, hexponent⟩ =
      plainText negative whole fraction := List.append_nil _
  have hplain := plainText_plain negative whole fraction
  have hlength : (Digits.text fraction).length = fraction.length := List.length_map _
  have hpower : sign [] * (digits [] : ℤ) = 0 := rfl
  have hpow : (10 ^ fraction.length : ℚ) ≠ 0 := by positivity
  rw [htext]
  unfold numberValue Numeral.mantissa
  dsimp only
  rw [List.takeWhile_eq_self_iff.mpr hplain, List.dropWhile_eq_nil_iff.mpr hplain, plainText_fraction,
    tail_fractionText, plainText_sign negative whole fraction hwhole, hlength, plainText_digits,
    value_append, List.tail_nil, hpower, zpow_zero, mul_one]
  push_cast
  field_simp

/-! ### Objects -/

/-- A field of an object: the last member of its key. -/
def field? (key : Text) (members : List (Text × Json)) : Option Json :=
  (Table.lookup Prod.fst key members.reverse).map Prod.snd

/-- The members of the slots that are filled. -/
def present (slots : List (Bool × Text × Json)) : List (Text × Json) :=
  (slots.filter Prod.fst).map Prod.snd

/-- A key that has one slot has the slot's value, if it is filled. -/
theorem field?_present {slots : List (Bool × Text × Json)} {filled : Bool} {key : Text} {json : Json}
    (hkeys : (slots.map fun slot => slot.2.1).Nodup) (hmem : (filled, key, json) ∈ slots) :
    field? key (present slots) = if filled then some json else none := by
  cases filled with
  | true =>
      have hnodup : ((present slots).reverse.map Prod.fst).Nodup := by
        have hsub := (List.filter_sublist (p := Prod.fst) (l := slots)).map fun slot => slot.2.1
        rw [List.map_reverse, List.nodup_reverse, present, List.map_map]
        exact hkeys.sublist hsub
      have hpresent : (key, json) ∈ (present slots).reverse :=
        List.mem_reverse.mpr (List.mem_map.mpr ⟨_, List.mem_filter.mpr ⟨hmem, rfl⟩, rfl⟩)
      rw [field?, Table.lookup_of_mem hnodup hpresent rfl]
      rfl
  | false =>
      rw [field?, if_neg Bool.false_ne_true, Option.map_eq_none_iff]
      refine List.find?_eq_none.mpr fun member hmember hkey => ?_
      obtain ⟨slot, hslot, rfl⟩ := List.mem_map.mp (List.mem_reverse.mp hmember)
      obtain ⟨hslot, hfilled⟩ := List.mem_filter.mp hslot
      have hsame := Table.eq_of_key_eq hkeys hslot hmem (by simpa using hkey)
      rw [hsame] at hfilled
      cases hfilled

end Json

/-! ### Schemas -/

/-- What reads a value of the type out of a JSON value. -/
abbrev Schema (α : Type) := Json → Option α

namespace Schema

variable {α : Type}

def string : Schema String
  | .string value => some (Utf16.decode value)
  | _ => none

/-- A number is the double of its numeral. -/
def number : Schema ℚ
  | .number text => some (Binary64.number (Json.numberValue text))
  | _ => none

/-- Only the values with a property. -/
def refine (schema : Schema α) (p : α → Bool) : Schema α := fun json => (schema json).filter p

def nonempty : Schema String := refine string (· ≠ "")

def positive : Schema ℚ := refine number (0 < ·)

def nonnegative : Schema ℚ := refine number (0 ≤ ·)

/-- One of the values, by its name. -/
def enum (name : α → String) (values : List α) : Schema α := fun json =>
  (string json).bind fun s => values.find? fun value => name value = s

def object (fields : List (Text × Json) → Option α) : Schema α
  | .object members => fields members
  | _ => none

/-- A field that must be there. -/
def required (key : String) (schema : Schema α) (members : List (Text × Json)) : Option α :=
  (Json.field? (Utf16.ofString key) members).bind schema

/-- A field that may be left out. -/
def optional (key : String) (schema : Schema α) (members : List (Text × Json)) : Option (Option α) :=
  match Json.field? (Utf16.ofString key) members with
  | none => some none
  | some json => (schema json).map some

theorem refine_eq_some_iff {schema : Schema α} {p : α → Bool} {json : Json} {a : α} :
    refine schema p json = some a ↔ schema json = some a ∧ p a :=
  Option.filter_eq_some_iff

theorem optional_eq_some_some_iff {key : String} {schema : Schema α} {members : List (Text × Json)}
    {a : α} : optional key schema members = some (some a) ↔ required key schema members = some a := by
  unfold optional required
  cases Json.field? (Utf16.ofString key) members with
  | none => simp
  | some json => simp

theorem of_required {schema : Schema α} {p : α → Prop} (hschema : ∀ json a, schema json = some a → p a)
    {key : String} {members : List (Text × Json)} {a : α} (h : required key schema members = some a) :
    p a := by
  obtain ⟨json, -, hjson⟩ := Option.bind_eq_some_iff.mp h
  exact hschema json a hjson

theorem of_optional {schema : Schema α} {p : α → Prop} (hschema : ∀ json a, schema json = some a → p a)
    {key : String} {members : List (Text × Json)} {found : Option α}
    (h : optional key schema members = some found) : ∀ a ∈ found, p a := by
  intro a ha
  obtain rfl := Option.mem_def.mp ha
  exact of_required hschema (optional_eq_some_some_iff.mp h)

/-- A value is read by its name, where no two values share one. -/
theorem enum_name {name : α → String} {values : List α} (hnames : ∀ a ∈ values, ∀ b ∈ values,
    name a = name b → a = b) {value : α} (h : value ∈ values) {text : Text}
    (htext : Utf16.decode text = name value) : enum name values (.string text) = some value := by
  have hbind : enum name values (.string text) =
      values.find? fun other => name other = Utf16.decode text := rfl
  rw [hbind, htext]
  cases hfound : values.find? fun other => name other = name value with
  | none => exact absurd (List.find?_eq_none.mp hfound value h) (by simp)
  | some other =>
      have hname : name other = name value := by simpa using List.find?_some hfound
      rw [hnames other (List.mem_of_find?_eq_some hfound) value h hname]

end Schema
