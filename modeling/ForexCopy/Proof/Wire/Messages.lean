import ForexCopy.Library.Numerals
import ForexCopy.Library.Schema
import ForexCopy.Proof.Wire.Builder

/-!
# Messages with optional members

A message whose members are added in a fixed order, some of them only under a condition: a slot for each
member, and whether it is filled. A schema finds in the text of the message, under the key of a slot, what
the slot's call has added.
-/

namespace ForexCopy

open Utf16 Mql Json

/-- A call, and whether it is made. -/
abbrev Slot := Bool × JsonCall

namespace JsonBuilder

/-- The calls that are made. -/
def filled (slots : List Slot) : List JsonCall := (slots.filter Prod.fst).map Prod.snd

def addSlot (builder : JsonBuilder) (slot : Slot) : JsonBuilder :=
  if slot.1 then slot.2.apply builder else builder

theorem after_filled (slots : List Slot) : after (filled slots) = slots.foldl addSlot {} := by
  unfold after filled
  rw [List.foldl_map, List.foldl_filter]
  rfl

/-- The members of the message. -/
def members (slots : List Slot) : List (Text × Json) :=
  present (slots.map fun slot => (slot.1, slot.2.member))

theorem members_eq (slots : List Slot) : (filled slots).map JsonCall.member = members slots := by
  unfold filled members present
  rw [List.filter_map, List.map_map, List.map_map]
  rfl

variable {slots : List Slot} {call : JsonCall} {key : String} {isFilled : Bool} {α : Type}
  {schema : Schema α}

/-- The message is read as its members, unless one of its strings does not print. -/
theorem parse_filled (hkeys : ∀ slot ∈ slots, IsIdentifier slot.2.key)
    (hraws : ∀ slot ∈ slots, slot.2.ValidRaw) :
    parse (after (filled slots)).build =
      if ∀ call ∈ filled slots, call.Prints then some (.object (members slots)) else none := by
  have hslot : ∀ call ∈ filled slots, ∃ slot ∈ slots, slot.2 = call := fun call hcall => by
    obtain ⟨slot, hslot, rfl⟩ := List.mem_map.mp hcall
    exact ⟨slot, List.mem_of_mem_filter hslot, rfl⟩
  have hplain : ∀ call ∈ filled slots, ∀ u ∈ call.key, Plain u := fun call hcall => by
    obtain ⟨slot, hmem, rfl⟩ := hslot call hcall
    exact plain_of_identifier (hkeys slot hmem)
  have hvalid : ∀ call ∈ filled slots, call.ValidRaw := fun call hcall => by
    obtain ⟨slot, hmem, rfl⟩ := hslot call hcall
    exact hraws slot hmem
  rw [(reads_calls hplain hvalid).parse, members_eq]

theorem field?_members (hnodup : (slots.map fun slot => slot.2.key).Nodup)
    (hmem : (isFilled, call) ∈ slots) :
    field? call.key (members slots) = if isFilled then some call.json else none := by
  refine field?_present ?_ (List.mem_map.mpr ⟨_, hmem, rfl⟩)
  rw [List.map_map]
  exact hnodup

theorem required_members (hnodup : (slots.map fun slot => slot.2.key).Nodup)
    (hmem : (true, call) ∈ slots) (hkey : call.key = ofString key) :
    Schema.required key schema (members slots) = schema call.json := by
  rw [Schema.required, ← hkey, field?_members hnodup hmem]
  rfl

theorem optional_members (hnodup : (slots.map fun slot => slot.2.key).Nodup)
    (hmem : (isFilled, call) ∈ slots) (hkey : call.key = ofString key) :
    Schema.optional key schema (members slots) =
      if isFilled then (schema call.json).map some else some none := by
  rw [Schema.optional, ← hkey, field?_members hnodup hmem]
  cases isFilled <;> rfl

end JsonBuilder

/-! ### Strings -/

/-- A string without its carriage returns, as the builder writes it. -/
def stripped (s : String) : String := .ofList (s.toList.filter (· ≠ '\r'))

theorem withoutReturns_ofString (s : String) : withoutReturns (ofString s) = ofString (stripped s) := by
  have hchar (c : Char) : withoutReturns (ofChar c) = if c ≠ '\r' then ofChar c else [] := by
    split_ifs with hc
    · refine List.filter_eq_self.mpr fun u hu => ?_
      rw [decide_eq_true_iff]
      rintro rfl
      rcases mem_ofChar hu with hcode | ⟨hlarge, -⟩
      · exact hc (Char.toNat_inj.mp hcode.symm)
      · exact absurd hlarge (by decide)
    · obtain rfl := not_not.mp hc
      decide
  unfold stripped ofString
  rw [String.toList_ofList, withoutReturns, List.filter_flatMap]
  induction s.toList with
  | nil => rfl
  | cons c rest ih =>
      rw [List.flatMap_cons, ih, List.filter_cons]
      have hunits : List.filter (· ≠ carriageReturn) (ofChar c) = _ := hchar c
      rw [hunits]
      split_ifs <;> simp_all

theorem string_addString (key : Text) (s : String) :
    Schema.string (JsonCall.addString key (ofString s)).json = some (stripped s) := by
  change some (Utf16.decode (withoutReturns (ofString s))) = _
  rw [withoutReturns_ofString, decode_ofString]

/-- No control characters. -/
def Clean (s : String) : Prop := ∀ c ∈ s.toList, 0x20 ≤ c.toNat

instance (s : String) : Decidable (Clean s) := List.decidableBAll (fun c : Char => 0x20 ≤ c.toNat) s.toList

namespace Clean

variable {s : String}

theorem printable (h : Clean s) : Printable (ofString s) := by
  intro u hu hlt
  obtain ⟨c, hc, hunit⟩ := List.mem_flatMap.mp hu
  have hlt : u.toNat < 0x20 := hlt
  have hle := h c hc
  rcases mem_ofChar hunit with hcode | ⟨hlarge, -⟩
  · omega
  · omega

theorem stripped_eq (h : Clean s) : stripped s = s := by
  have hall : s.toList.filter (· ≠ '\r') = s.toList := by
    refine List.filter_eq_self.mpr fun c hc => ?_
    rw [decide_eq_true_iff]
    rintro rfl
    exact absurd (h _ hc) (by decide)
  rw [stripped, hall, String.ofList_toList]

theorem of_isDigit {c : Char} (h : c.isDigit) : 0x20 ≤ c.toNat := by
  simp only [Char.isDigit, Bool.and_eq_true, decide_eq_true_iff, ge_iff_le, UInt32.le_iff_toNat_le] at h
  exact le_trans (by decide) h.1

theorem toString_nat (n : ℕ) : Clean (toString n) := fun _ hc => of_isDigit (Numeral.isDigit_of_mem hc)

theorem toString_int (n : ℤ) : Clean (toString n) := by
  cases n with
  | ofNat n => exact toString_nat n
  | negSucc n =>
      have htext : toString (Int.negSucc n) = "-" ++ toString (n + 1) := rfl
      intro c hc
      rw [htext, String.toList_append, List.mem_append] at hc
      rcases hc with hdash | hdigit
      · obtain rfl := List.mem_singleton.mp hdash
        decide
      · exact toString_nat (n + 1) c hdigit

end Clean

/-! ### Numbers -/

/-- A positive amount is read as the column would store it. -/
theorem numberValue_doubleToString {value : ℚ} (hvalue : 0 < value) {digits : ℕ} (h : digits ≤ 16) :
    numberValue (doubleToString value digits) = (Decimal.ofNumber digits value).value := by
  have hfixed : numeral value digits = fixedNotation value digits := if_pos (by omega)
  have hneg : ¬value < 0 := not_lt.mpr hvalue.le
  rw [doubleToString, hfixed, fixedNotation, numberValue_text rfl, Numeral.mantissa_ofUnits,
    if_neg (by simpa using hneg), one_mul, abs_of_pos hvalue]
  rfl

theorem number_addNumber (key : Text) {value : ℚ} (hvalue : 0 < value) {digits : ℕ} (h : digits ≤ 16) :
    Schema.number (JsonCall.addNumber key value digits).json =
      some (Decimal.ofNumber digits value).toNumber :=
  congrArg (fun q => some (Binary64.number q)) (numberValue_doubleToString hvalue h)

end ForexCopy
