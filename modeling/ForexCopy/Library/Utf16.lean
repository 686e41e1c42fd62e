import Mathlib.Data.List.Basic
import Mathlib.Tactic.Linarith

/-!
# Texts as code units

A text in UTF-16 is a list of code units. Those of the characters of ASCII are the characters' own codes,
and no other character has one of them among its units; so what is said in ASCII about a text can be
said about its units.
-/

/-- A text in UTF-16, by its code units. -/
abbrev Text := List UInt16

namespace Utf16

/-! ### The units that formats are written with -/

abbrev lineFeed : UInt16 := 0x0A
abbrev carriageReturn : UInt16 := 0x0D
abbrev space : UInt16 := 0x20
abbrev quote : UInt16 := 0x22
abbrev plus : UInt16 := 0x2B
abbrev comma : UInt16 := 0x2C
abbrev minus : UInt16 := 0x2D
abbrev point : UInt16 := 0x2E
abbrev zero : UInt16 := 0x30
abbrev colon : UInt16 := 0x3A
abbrev openBracket : UInt16 := 0x5B
abbrev backslash : UInt16 := 0x5C
abbrev closeBracket : UInt16 := 0x5D
abbrev openBrace : UInt16 := 0x7B
abbrev closeBrace : UInt16 := 0x7D

def IsDigit (unit : UInt16) : Bool := 0x30 ≤ unit && unit ≤ 0x39

def IsLetter (unit : UInt16) : Bool :=
  0x41 ≤ unit && unit ≤ 0x5A || 0x61 ≤ unit && unit ≤ 0x7A

/-- A name of letters, digits and underscores. -/
def IsIdentifier (name : Text) : Prop :=
  name ≠ [] ∧ ∀ u ∈ name, IsDigit u || IsLetter u || u = 0x5F

instance (name : Text) : Decidable (IsIdentifier name) :=
  @instDecidableAnd _ _ inferInstance (List.decidableBAll _ name)

/-! ### Encoding -/

/-- One unit, or a pair of surrogates. -/
def ofChar (c : Char) : Text :=
  if c.toNat < 0x10000 then [c.toNat.toUInt16]
  else
    [(0xD800 + (c.toNat - 0x10000) / 0x400).toUInt16,
      (0xDC00 + (c.toNat - 0x10000) % 0x400).toUInt16]

def ofString (s : String) : Text := s.toList.flatMap ofChar

theorem toNat_lt (c : Char) : c.toNat < 0x110000 := by
  have hvalid := c.valid
  simp only [UInt32.isValidChar, Nat.isValidChar] at hvalid
  change c.val.toNat < _
  omega

/-- The units of a character are its code, or none of ASCII. -/
theorem mem_ofChar {c : Char} {unit : UInt16} (h : unit ∈ ofChar c) :
    unit.toNat = c.toNat ∨ 0x80 ≤ unit.toNat ∧ 0x80 ≤ c.toNat := by
  have hvalid := toNat_lt c
  unfold ofChar at h
  split_ifs at h with hsmall
  · obtain rfl := List.mem_singleton.mp h
    left
    simpa using Nat.mod_eq_of_lt hsmall
  · right
    rcases List.mem_pair.mp h with rfl | rfl
    · simp
      omega
    · simp
      omega

theorem ofChar_ne_nil (c : Char) : ofChar c ≠ [] := by
  unfold ofChar
  split_ifs <;> simp

@[simp] theorem ofString_eq_nil {s : String} : ofString s = [] ↔ s = "" := by
  unfold ofString
  rw [List.flatMap_eq_nil_iff]
  constructor
  · intro h
    cases hlist : s.toList with
    | nil => simpa using hlist
    | cons c rest => exact absurd (h c (by simp [hlist])) (ofChar_ne_nil c)
  · rintro rfl
    simp

/-- A text of characters that are not in question has no unit that is. -/
theorem notMem_ofString {s : String} {c : Char} (hc : c.toNat < 0x80) (h : c ∉ s.toList) :
    c.toNat.toUInt16 ∉ ofString s := by
  intro hmem
  obtain ⟨d, hd, hunit⟩ := List.mem_flatMap.mp hmem
  have hcode : (c.toNat.toUInt16).toNat = c.toNat := by
    simp
    omega
  rcases mem_ofChar hunit with heq | ⟨hlarge, -⟩
  · rw [hcode] at heq
    exact h (Char.toNat_inj.mp heq ▸ hd)
  · omega

end Utf16
