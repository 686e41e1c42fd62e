import ForexCopy.Library.Numerals
import ForexCopy.Master.TradeEventCall
import ForexCopy.Proof.Wire.Messages
import ForexCopy.Wire.ExecutionResults

/-!
# What the backend reads of a result

A success and a failure are one kind of message: both name the copy order and the status, a success has
the ticket and perhaps a price, a failure has a reason.
-/

namespace ForexCopy

open Utf16 Mql Json JsonBuilder Schema

/-- A string of a text, as the backend reads it. -/
def readBack (t : Text) : String := Utf16.decode (withoutReturns t)

theorem readBack_ofString {s : String} (h : Clean s) : readBack (ofString s) = s := by
  rw [readBack, withoutReturns_ofString, h.stripped_eq, decode_ofString]

/-- The text of a ticket in the database. -/
def ticketText (ticket : ℕ) : String := Utf16.decode (integerToString ticket)

theorem withoutReturns_integerToString (n : ℤ) :
    withoutReturns (integerToString n) = integerToString n := by
  refine List.filter_eq_self.mpr fun u hu => ?_
  rw [decide_eq_true_iff]
  rintro rfl
  exact absurd (isNumeric_of_mem_text hu) (by decide)

theorem readBack_integerToString (ticket : ℕ) :
    readBack (integerToString ticket) = ticketText ticket := by
  rw [readBack, withoutReturns_integerToString, ticketText]

/-- A numeral is read as its units. -/
theorem ofString_ticketText (ticket : ℕ) : ofString (ticketText ticket) = integerToString ticket := by
  refine ofString_decode fun u hu => ?_
  have hnumeric := isNumeric_of_mem_text hu
  simp only [IsNumeric, IsDigit, Bool.or_eq_true, Bool.and_eq_true, decide_eq_true_iff]
    at hnumeric
  grind

namespace Mt4

/-- The members of a result. -/
def resultSlots (copyId : Text) (status : ExecutionStatus) (slaveTicket : Option Text) (price : ℚ)
    (reason : Option Text) : List Slot :=
  [(true, .addString (ofString "copyId") copyId),
    (true, .addString (ofString "status") (ofString status.name)),
    (slaveTicket.isSome, .addString (ofString "slaveTicket") (slaveTicket.getD [])),
    (price > 0, .addNumber (ofString "executionPrice") price 5),
    (reason.isSome, .addString (ofString "reason") (reason.getD []))]

theorem successResult_eq (copyId slaveTicket : Text) (price : ℚ) :
    successResult copyId slaveTicket price =
      (after (filled (resultSlots copyId .executed (some slaveTicket) price none))).build := by
  rw [after_filled]
  simp only [resultSlots, List.foldl_cons, List.foldl_nil, addSlot, decide_eq_true_iff, if_true,
    Option.isSome_some, Option.isSome_none, Bool.false_eq_true, if_false]
  rfl

theorem failureResult_eq (copyId reason : Text) :
    failureResult copyId reason =
      (after (filled (resultSlots copyId .failed none 0 (some reason)))).build := by
  rw [after_filled]
  simp only [resultSlots, List.foldl_cons, List.foldl_nil, addSlot, decide_eq_true_iff, if_true,
    Option.isSome_some, Option.isSome_none, Bool.false_eq_true, if_false, gt_iff_lt, lt_irrefl]
  rfl

section

variable (copyId : Text) (status : ExecutionStatus) (slaveTicket : Option Text) (price : ℚ)
  (reason : Option Text)

theorem resultSlots_keys :
    (resultSlots copyId status slaveTicket price reason).map (fun slot => slot.2.key) =
      ["copyId", "status", "slaveTicket", "executionPrice", "reason"].map ofString := rfl

theorem resultSlots_nodup :
    ((resultSlots copyId status slaveTicket price reason).map fun slot => slot.2.key).Nodup := by
  rw [resultSlots_keys]
  decide +kernel

theorem resultSlots_identifiers :
    ∀ slot ∈ resultSlots copyId status slaveTicket price reason, IsIdentifier slot.2.key := by
  have hkeys : ∀ key ∈ ["copyId", "status", "slaveTicket", "executionPrice", "reason"].map ofString,
      IsIdentifier key := by
    decide +kernel
  intro slot hslot
  refine hkeys _ ?_
  rw [← resultSlots_keys copyId status slaveTicket price reason]
  exact List.mem_map_of_mem hslot

/-- The schema reads the result, whatever texts it has. -/
theorem schema_resultSlots (uuids : UuidTexts) (hcopyId : readBack copyId ≠ "") :
    executionResultSchema uuids
        (.object (members (resultSlots copyId status slaveTicket price reason))) =
      some { copyId := uuids.read (readBack copyId)
             status := status
             slaveTicket := slaveTicket.map readBack
             executionPrice := positiveNumber 5 price
             reason := reason.map readBack } := by
  have hnodup := resultSlots_nodup copyId status slaveTicket price reason
  have hid : required "copyId" nonempty (members (resultSlots copyId status slaveTicket price reason)) =
      some (readBack copyId) := by
    rw [required_members hnodup List.mem_cons_self rfl]
    exact refine_eq_some_iff.mpr ⟨rfl, by simpa using hcopyId⟩
  have hstatus : required "status" (enum ExecutionStatus.name [.executed, .failed])
      (members (resultSlots copyId status slaveTicket price reason)) = some status := by
    have hmem : (true, JsonCall.addString (ofString "status") (ofString status.name)) ∈
        resultSlots copyId status slaveTicket price reason := by
      simp [resultSlots]
    have hname : Clean status.name := by cases status <;> decide
    rw [required_members hnodup hmem rfl]
    refine Schema.enum_name ?_ ?_ (readBack_ofString hname)
    · decide
    · cases status <;> decide
  have hstring (key : String) (text : Option Text)
      (hmem : (text.isSome, .addString (ofString key) (text.getD [])) ∈
        resultSlots copyId status slaveTicket price reason) :
      Schema.optional key string (members (resultSlots copyId status slaveTicket price reason)) =
        some (text.map readBack) := by
    rw [optional_members hnodup hmem rfl]
    cases text <;> rfl
  have hprice : Schema.optional "executionPrice" number
      (members (resultSlots copyId status slaveTicket price reason)) =
        some (positiveNumber 5 price) := by
    have hmem : (decide (price > 0), JsonCall.addNumber (ofString "executionPrice") price 5) ∈
        resultSlots copyId status slaveTicket price reason := by
      simp [resultSlots]
    rw [optional_members hnodup hmem rfl]
    by_cases hpositive : 0 < price
    · rw [if_pos (decide_eq_true hpositive), positiveNumber, if_pos hpositive]
      exact congrArg (Option.map some) (number_addNumber _ hpositive (by decide))
    · rw [if_neg (by simpa using hpositive), positiveNumber, if_neg hpositive]
  unfold executionResultSchema Schema.object
  simp only [Option.bind_eq_bind]
  rw [hid, hstatus, hstring "slaveTicket" slaveTicket (by simp [resultSlots]), hprice,
    hstring "reason" reason (by simp [resultSlots])]
  rfl

theorem resultSlots_print (hcopyId : Printable copyId) (hticket : ∀ t ∈ slaveTicket, Printable t)
    (hreason : ∀ t ∈ reason, Printable t) :
    ∀ call ∈ filled (resultSlots copyId status slaveTicket price reason), call.Prints := by
  have hstatus : Printable (ofString status.name) := by cases status <;> decide +kernel
  have hoptional {text : Option Text} (h : ∀ t ∈ text, Printable t) : Printable (text.getD []) := by
    cases text with
    | none => exact List.forall_mem_nil _
    | some t => exact h t rfl
  intro call hcall
  obtain ⟨slot, hslot, rfl⟩ := List.mem_map.mp hcall
  simp only [resultSlots, List.mem_filter, List.mem_cons, List.not_mem_nil, or_false] at hslot
  obtain ⟨rfl | rfl | rfl | rfl | rfl, -⟩ := hslot
  · exact hcopyId
  · exact hstatus
  · exact hoptional hticket
  · exact trivial
  · exact hoptional hreason

/-- A result whose texts print is read as what it is. -/
theorem ofBody_resultSlots (uuids : UuidTexts) (hcopyId : Printable copyId)
    (hne : readBack copyId ≠ "") (hticket : ∀ t ∈ slaveTicket, Printable t)
    (hreason : ∀ t ∈ reason, Printable t) :
    ExecutionResult.ofBody uuids
        (after (filled (resultSlots copyId status slaveTicket price reason))).build =
      some { copyId := uuids.read (readBack copyId)
             status := status
             slaveTicket := slaveTicket.map readBack
             executionPrice := positiveNumber 5 price
             reason := reason.map readBack } := by
  have hvalid : ∀ slot ∈ resultSlots copyId status slaveTicket price reason, slot.2.ValidRaw := by
    simp [resultSlots, JsonCall.ValidRaw]
  rw [ExecutionResult.ofBody,
    parse_filled (resultSlots_identifiers copyId status slaveTicket price reason) hvalid,
    if_pos (resultSlots_print copyId status slaveTicket price reason hcopyId hticket hreason),
    Option.bind_some, schema_resultSlots copyId status slaveTicket price reason uuids hne]

end

variable (uuids : UuidTexts) {copyId : String}

theorem ofBody_successResult (hcopyId : Clean copyId) (hne : copyId ≠ "") (ticket : ℕ) (price : ℚ) :
    ExecutionResult.ofBody uuids (successResult (ofString copyId) (integerToString ticket) price) =
      some { copyId := uuids.read copyId
             status := .executed
             slaveTicket := some (ticketText ticket)
             executionPrice := positiveNumber 5 price } := by
  have hback := readBack_ofString hcopyId
  have hticket : ∀ t ∈ some (integerToString ticket), Printable t := fun t ht =>
    Option.some.inj ht ▸ PoolOrder.printable_numeral ticket
  have hread := ofBody_resultSlots (ofString copyId) .executed (some (integerToString ticket)) price none
    uuids hcopyId.printable (hback.symm ▸ hne) hticket (fun t ht => by cases ht)
  rw [successResult_eq, hread, hback, Option.map_some, readBack_integerToString, Option.map_none]

theorem ofBody_failureResult (hcopyId : Clean copyId) (hne : copyId ≠ "") {reason : Text}
    (hreason : Printable reason) :
    ExecutionResult.ofBody uuids (failureResult (ofString copyId) reason) =
      some { copyId := uuids.read copyId, status := .failed, reason := some (readBack reason) } := by
  have hback := readBack_ofString hcopyId
  have hread := ofBody_resultSlots (ofString copyId) .failed none 0 (some reason) uuids
    hcopyId.printable (hback.symm ▸ hne) (fun t ht => by cases ht)
    (fun t ht => Option.some.inj ht ▸ hreason)
  rw [failureResult_eq, hread, hback, Option.map_some, Option.map_none, positiveNumber,
    if_neg (lt_irrefl 0)]

end Mt4

end ForexCopy
