import ForexCopy.Proof.Terminal.Given
import ForexCopy.Proof.Wire.ExecutionResults
import ForexCopy.Proof.Wire.Reader
import ForexCopy.Slave.Mt4Ea

/-!
# The MT4 terminal refines the terminal

An instruction that the EA reads from a response does at the MT4 terminal what it does at a terminal in
the abstract, and the text that is posted is read as its result, with the price of the execution. The
position of an order has its ticket as a text, and the order names the copy order in its comment.
-/

namespace ForexCopy

open Utf16 Mql

/-! ### Tickets as numbers -/

theorem Mql.stringToInteger_integerToString {n : ℕ} (h : n < 2 ^ 63) :
    stringToInteger (integerToString n) = n := by
  have htext : integerToString n = Digits.text (Digits.ofNat n) := by
    have hneg : ¬(n : ℤ) < 0 := by omega
    simp [integerToString, Numeral.ofInt, Numeral.text, Numeral.signText, Numeral.fractionText,
      Numeral.exponentText, hneg]
  obtain ⟨d, rest, hdigits⟩ := List.exists_cons_of_ne_nil (Digits.ofNat_ne_nil n)
  have hne {u : UInt16} (hu : IsDigit u = false) : Digits.unit d ≠ u := by
    rintro rfl
    exact absurd (Digits.isDigit_unit d) (by simp [hu])
  have hspace : (Digits.text (Digits.ofNat n)).dropWhile (· = space) = Digits.text (Digits.ofNat n) := by
    rw [hdigits, Digits.text, List.map_cons]
    exact List.dropWhile_cons_of_neg (by simpa using hne (by decide))
  have hsign {u : UInt16} (hu : IsDigit u = false) :
      (Digits.text (Digits.ofNat n)).head? ≠ some u := by
    rw [hdigits]
    exact fun heq => hne hu (Option.some.inj heq)
  have hall : (Digits.text (Digits.ofNat n)).takeWhile IsDigit = Digits.text (Digits.ofNat n) :=
    List.takeWhile_eq_self_iff.mpr fun u hu => Digits.isDigit_of_mem_text hu
  unfold stringToInteger
  simp only [htext, hspace, hsign (u := minus) (by decide), hsign (u := plus) (by decide), decide_false,
    Bool.false_eq_true, or_self, if_false, hall, Digits.map_ofUnit_text, Digits.value_ofNat]
  exact Int.bmod_eq_of_le (by omega) (by omega)

theorem Mql.toInt_natCast {n : ℕ} (h : n < 2 ^ 31) : toInt n = n :=
  Int.bmod_eq_of_le (by omega) (by omega)

theorem ticketText_injective : Function.Injective ticketText := by
  intro a b h
  have htext : integerToString a = integerToString b := by
    rw [← ofString_ticketText, h, ofString_ticketText]
  have hnumber := congrArg plainNumber htext
  rw [plainNumber_integerToString, plainNumber_integerToString] at hnumber
  exact_mod_cast hnumber

theorem ticketText_ne_empty (ticket : ℕ) : ticketText ticket ≠ "" := by
  rw [← ofString_eq_nil.ne, ofString_ticketText, integerToString, Numeral.text]
  simp [(Numeral.ofInt ticket).whole_ne_nil]

/-! ### Strings that print -/

theorem Printable.append {s t : Text} (hs : Printable s) (ht : Printable t) : Printable (s ++ t) :=
  List.forall_mem_append.mpr ⟨hs, ht⟩

theorem Documented.clean {s : String} (h : Documented s) : Clean s :=
  fun c hc => not_lt.mp (h.2 c hc).2.2

/-! ### What an instruction does -/

namespace Mt4

variable {Number : Type}

/-- The orders of a terminal: each has its ticket, which is an `int`. -/
structure Kept (orders : Orders Number) : Prop where
  once : (orders.map SlaveOrder.ticket).Nodup
  range : ∀ order ∈ orders, order.ticket < 2 ^ 31

/-- A change that leaves an order what it is. -/
def SameOrder (order order' : SlaveOrder Number) : Prop :=
  order'.ticket = order.ticket ∧ order'.type = order.type ∧ order'.symbol = order.symbol ∧
    order'.lots = order.lots ∧ order'.comment = order.comment

/-- The order that an OPEN instruction leads to. -/
structure OpenedBy (doubles : Doubles Number) (uuids : UuidTexts) (instruction : CopyInstruction)
    (volume : ℚ) (order : SlaveOrder Number) : Prop where
  type : order.type = if instruction.side = some .buy then .buy else .sell
  symbol : order.symbol = ofString instruction.symbol
  lots : order.lots = doubles.toNearest volume
  comment : order.comment = ofString "copy:" ++ ofString (uuids.text instruction.copyId)

/-- What an instruction does at the terminal, and the text that it is answered with. -/
inductive Executed (doubles : Doubles Number) (uuids : UuidTexts) (orders : Orders Number)
    (instruction : CopyInstruction) : Orders Number → Text → Prop
  | failed (reason : Text) (hreason : Printable reason) :
      Executed doubles uuids orders instruction orders
        (failureResult (ofString (uuids.text instruction.copyId)) reason)
  | opened (haction : instruction.action = .open) {volume : ℚ} (hvolume : instruction.volume = some volume)
      {order : SlaveOrder Number} (hopened : OpenedBy doubles uuids instruction volume order)
      (hopen : order.closeTime = 0)
      (hfresh : order.ticket ∉ orders.map SlaveOrder.ticket) (hrange : order.ticket < 2 ^ 31) (price : ℚ) :
      Executed doubles uuids orders instruction (orders ++ [order])
        (successResult (ofString (uuids.text instruction.copyId)) (integerToString order.ticket) price)
  | closed (haction : instruction.action = .close) {order : SlaveOrder Number} (horder : order ∈ orders)
      (hticket : instruction.slaveTicket = some (ticketText order.ticket)) (hopen : order.closeTime = 0)
      {change : SlaveOrder Number → SlaveOrder Number} (hsame : ∀ order, SameOrder order (change order))
      (hclosed : ∀ order, 0 < (change order).closeTime) (price : ℚ) :
      Executed doubles uuids orders instruction (Table.update SlaveOrder.ticket order.ticket change orders)
        (successResult (ofString (uuids.text instruction.copyId)) (integerToString order.ticket) price)
  | modified (haction : instruction.action = .modify) {order : SlaveOrder Number} (horder : order ∈ orders)
      (hticket : instruction.slaveTicket = some (ticketText order.ticket)) (hopen : order.closeTime = 0)
      {change : SlaveOrder Number → SlaveOrder Number} (hsame : ∀ order, SameOrder order (change order))
      (hkept : ∀ order, (change order).closeTime = order.closeTime) :
      Executed doubles uuids orders instruction (Table.update SlaveOrder.ticket order.ticket change orders)
        (successResult (ofString (uuids.text instruction.copyId)) (integerToString order.ticket) 0)

section

variable {orders : Orders Number} {order : SlaveOrder Number}

theorem orderSelect_of_mem (hkept : Kept orders) (horder : order ∈ orders) :
    orderSelect orders order.ticket = some order := by
  refine Table.lookup_of_mem ?_ horder rfl
  have hmap : orders.map (fun order => (order.ticket : ℤ)) =
      (orders.map SlaveOrder.ticket).map Nat.cast := by
    rw [List.map_map]
    rfl
  rw [hmap]
  exact hkept.once.map Nat.cast_injective

/-- The ticket that an instruction names is that of the order. -/
theorem ticket_read (hkept : Kept orders) (horder : order ∈ orders) :
    toInt (stringToInteger (ofString (ticketText order.ticket))) = order.ticket := by
  have hrange := hkept.range order horder
  rw [ofString_ticketText, stringToInteger_integerToString (by omega), toInt_natCast hrange]

end

theorem side_eq_buy_iff (side : Option TradeSide) :
    (side.map fun side => ofString side.name).getD [] = ofString "BUY" ↔ side = some .buy := by
  cases side with
  | none => decide
  | some side => cases side <;> decide +kernel

theorem printable_name (type : TradeEventType) : Printable (ofString type.name) := by
  cases type <;> decide +kernel

section

variable {doubles : Doubles Number} {uuids : UuidTexts}
  {errorDescription : ℕ → String} {orders orders' : Orders Number} {market : Market}
  {reply : BrokerReply} {instruction : CopyInstruction} {body : Text}

theorem executeOpen_executed [DecidableEq Number] (hsymbol : Clean instruction.symbol)
    (hdescription : ∀ error, Clean (errorDescription error)) (haction : instruction.action = .open)
    {sl tp : Number}
    (h : executeOpen doubles errorDescription orders market reply
      (ofString (uuids.text instruction.copyId)) (ofString instruction.symbol)
      ((instruction.side.map fun side => ofString side.name).getD [])
      (doubles.toNearest (instruction.volume.getD 0)) sl tp = some (orders', body)) :
    Executed doubles uuids orders instruction orders' body := by
  unfold executeOpen at h
  simp only [side_eq_buy_iff] at h
  by_cases hselected : market.selected
  swap
  · rw [if_pos (by simpa using hselected)] at h
    obtain ⟨rfl, rfl⟩ := Prod.mk.inj (Option.some.inj h)
    exact .failed _ (Printable.append (by decide +kernel) hsymbol.printable)
  rw [if_neg (by simpa using hselected)] at h
  generalize (if instruction.side = some .buy then market.ask else market.bid) = price at h
  by_cases hprice : price ≤ 0
  · rw [if_pos hprice] at h
    obtain ⟨rfl, rfl⟩ := Prod.mk.inj (Option.some.inj h)
    exact .failed _ (Printable.append (by decide +kernel) hsymbol.printable)
  rw [if_neg hprice] at h
  obtain ⟨⟨sent, outcome⟩, hsend, hbody⟩ := Option.map_eq_some_iff.mp h
  cases reply with
  | refused error =>
      obtain ⟨rfl, rfl⟩ := Prod.mk.inj (Option.some.inj hsend)
      obtain ⟨rfl, rfl⟩ := Prod.mk.inj hbody
      exact .failed _ (Printable.append (by decide +kernel) (hdescription error).printable)
  | done ticket openPrice time =>
      obtain ⟨hbroker, hsent⟩ := Option.ite_none_left_eq_some.mp hsend
      obtain ⟨rfl, rfl⟩ := Prod.mk.inj (Option.some.inj hsent)
      obtain ⟨rfl, rfl⟩ := Prod.mk.inj hbody
      simp only [not_or, not_le] at hbroker
      obtain ⟨hfresh, hrange, hlots⟩ := hbroker
      obtain ⟨volume, hvolume⟩ : ∃ volume, instruction.volume = some volume := by
        cases hvolume : instruction.volume with
        | none => exact absurd (by rw [hvolume]; rfl) hlots
        | some volume => exact ⟨volume, rfl⟩
      refine .opened haction hvolume ⟨rfl, rfl, ?_, rfl⟩ rfl hfresh hrange _
      rw [hvolume]
      rfl

/-- A request about an order that the broker answers. -/
theorem orderChange_cases {order : SlaveOrder Number} {change : SlaveOrder Number → SlaveOrder Number}
    {outcome : Except ℕ Unit} (h : orderChange orders reply order change = some (orders', outcome)) :
    (∃ error, reply = .refused error ∧ orders' = orders ∧ outcome = .error error) ∨
      ∃ ticket price time, reply = .done ticket price time ∧ order.closeTime = 0 ∧ 0 < time ∧
        orders' = Table.update SlaveOrder.ticket order.ticket change orders ∧ outcome = .ok () := by
  cases reply with
  | refused error =>
      obtain ⟨rfl, rfl⟩ := Prod.mk.inj (Option.some.inj h)
      exact .inl ⟨error, rfl, rfl, rfl⟩
  | done ticket price time =>
      obtain ⟨hbroker, hchanged⟩ := Option.ite_none_left_eq_some.mp h
      obtain ⟨rfl, rfl⟩ := Prod.mk.inj (Option.some.inj hchanged)
      exact .inr ⟨ticket, price, time, rfl, by omega, by omega, rfl, rfl⟩

theorem executeClose_executed (hkept : Kept orders)
    (hdescription : ∀ error, Clean (errorDescription error)) (haction : instruction.action = .close)
    {order : SlaveOrder Number} (horder : order ∈ orders)
    (hticket : instruction.slaveTicket = some (ticketText order.ticket))
    (h : executeClose errorDescription orders market reply (ofString (uuids.text instruction.copyId))
      (ofString (ticketText order.ticket)) = some (orders', body)) :
    Executed doubles uuids orders instruction orders' body := by
  have hnonempty : (ofString (ticketText order.ticket)).length ≠ 0 := by
    rw [ne_eq, List.length_eq_zero_iff, ofString_eq_nil]
    exact ticketText_ne_empty order.ticket
  unfold executeClose at h
  simp only [hnonempty, if_false, ticket_read hkept horder, orderSelect_of_mem hkept horder] at h
  obtain ⟨⟨closed, outcome⟩, hclose, hbody⟩ := Option.map_eq_some_iff.mp h
  cases reply with
  | refused error =>
      obtain ⟨rfl, rfl⟩ := Prod.mk.inj (Option.some.inj hclose)
      obtain ⟨rfl, rfl⟩ := Prod.mk.inj hbody
      exact .failed _ (Printable.append (by decide +kernel) (hdescription error).printable)
  | done ticket price time =>
      have hchange : orderChange orders (.done ticket price time) order (fun order =>
          { order with closeTime := time, closePrice := price }) = some (closed, outcome) := hclose
      obtain ⟨_, hreply, -⟩ | ⟨_, _, _, hreply, hopen, htime, rfl, rfl⟩ := orderChange_cases hchange
      · cases hreply
      · cases hreply
        obtain ⟨rfl, rfl⟩ := Prod.mk.inj hbody
        refine .closed haction horder hticket hopen ?_ ?_ _
        · exact fun _ => ⟨rfl, rfl, rfl, rfl, rfl⟩
        · exact fun _ => htime

theorem executeModify_executed (hkept : Kept orders)
    (hdescription : ∀ error, Clean (errorDescription error)) (haction : instruction.action = .modify)
    {order : SlaveOrder Number} (horder : order ∈ orders)
    (hticket : instruction.slaveTicket = some (ticketText order.ticket)) {sl tp : Number}
    (h : executeModify errorDescription orders reply (ofString (uuids.text instruction.copyId))
      (ofString (ticketText order.ticket)) sl tp = some (orders', body)) :
    Executed doubles uuids orders instruction orders' body := by
  have hnonempty : (ofString (ticketText order.ticket)).length ≠ 0 := by
    rw [ne_eq, List.length_eq_zero_iff, ofString_eq_nil]
    exact ticketText_ne_empty order.ticket
  unfold executeModify at h
  simp only [hnonempty, if_false, ticket_read hkept horder, orderSelect_of_mem hkept horder] at h
  obtain ⟨⟨modified, outcome⟩, hmodify, hbody⟩ := Option.map_eq_some_iff.mp h
  obtain ⟨error, -, rfl, rfl⟩ | ⟨_, _, _, -, hopen, -, rfl, rfl⟩ := orderChange_cases hmodify
  · obtain ⟨rfl, rfl⟩ := Prod.mk.inj hbody
    exact .failed _ (Printable.append (by decide +kernel) (hdescription error).printable)
  · obtain ⟨rfl, rfl⟩ := Prod.mk.inj hbody
    exact .modified haction horder hticket hopen (fun _ => ⟨rfl, rfl, rfl, rfl, rfl⟩) fun _ => rfl

/-- The call that an instruction leads to does one of four things; a CLOSE or MODIFY has the ticket of
an order. -/
theorem execute_executed [DecidableEq Number] (hkept : Kept orders)
    (hsymbol : Clean instruction.symbol)
    (hdescription : ∀ error, Clean (errorDescription error))
    (hticket : instruction.action.actsOnPosition → ∃ order ∈ orders,
      instruction.slaveTicket = some (ticketText order.ticket)) {result : Option Text}
    (h : execute doubles errorDescription orders market reply (instruction.call doubles uuids.text) =
      some (orders', result)) :
    ∃ body, result = some body ∧ Executed doubles uuids orders instruction orders' body := by
  have hsome {executed : Option (Orders Number × Text)}
      (h : executed.map (Prod.map id some) = some (orders', result)) :
      ∃ body, result = some body ∧ executed = some (orders', body) := by
    obtain ⟨⟨after, body⟩, hexecuted, heq⟩ := Option.map_eq_some_iff.mp h
    obtain ⟨rfl, rfl⟩ := Prod.mk.inj heq
    exact ⟨body, rfl, hexecuted⟩
  unfold CopyInstruction.call execute at h
  cases haction : instruction.action with
  | «open» =>
      simp only [haction] at h
      obtain ⟨body, rfl, hopen⟩ := hsome h
      exact ⟨body, rfl, executeOpen_executed hsymbol hdescription haction hopen⟩
  | close =>
      obtain ⟨order, horder, hnamed⟩ := hticket (.inl haction)
      simp only [haction, hnamed, Option.map_some, Option.getD_some] at h
      obtain ⟨body, rfl, hclose⟩ := hsome h
      exact ⟨body, rfl, executeClose_executed hkept hdescription haction horder hnamed hclose⟩
  | modify =>
      obtain ⟨order, horder, hnamed⟩ := hticket (.inr haction)
      simp only [haction, hnamed, Option.map_some, Option.getD_some] at h
      obtain ⟨body, rfl, hmodify⟩ := hsome h
      exact ⟨body, rfl, executeModify_executed hkept hdescription haction horder hnamed hmodify⟩
  | partialClose | pendingOpen | pendingModify | pendingCancel =>
      have hname := printable_name instruction.action
      simp only [haction] at h hname
      obtain ⟨rfl, rfl⟩ := Prod.mk.inj (Option.some.inj h)
      exact ⟨_, rfl, .failed _ (Printable.append (by decide +kernel) hname)⟩

end

/-- Every order was there before, or is that of the instruction. -/
theorem Executed.mem_orders {doubles : Doubles Number} {uuids : UuidTexts}
    {orders orders' : Orders Number} {instruction : CopyInstruction} {body : Text}
    (h : Executed doubles uuids orders instruction orders' body) {order : SlaveOrder Number}
    (horder : order ∈ orders') :
    (∃ old ∈ orders, SameOrder old order) ∨ (instruction.action = .open ∧
      ∃ volume ∈ instruction.volume, OpenedBy doubles uuids instruction volume order) := by
  have hupdate {ticket : ℕ} {change : SlaveOrder Number → SlaveOrder Number}
      (hsame : ∀ order, SameOrder order (change order))
      (hmem : order ∈ Table.update SlaveOrder.ticket ticket change orders) :
      ∃ old ∈ orders, SameOrder old order := by
    obtain ⟨old, hold, ⟨-, rfl⟩ | ⟨-, rfl⟩⟩ := Table.mem_update.mp hmem
    · exact ⟨old, hold, hsame old⟩
    · exact ⟨_, hold, rfl, rfl, rfl, rfl, rfl⟩
  cases h with
  | failed => exact .inl ⟨order, horder, rfl, rfl, rfl, rfl, rfl⟩
  | opened haction hvolume hopened =>
      rcases List.mem_append.mp horder with hold | hnew
      · exact .inl ⟨order, hold, rfl, rfl, rfl, rfl, rfl⟩
      · obtain rfl := List.mem_singleton.mp hnew
        exact .inr ⟨haction, _, hvolume, hopened⟩
  | closed _ _ _ _ hsame | modified _ _ _ _ hsame => exact .inl (hupdate hsame horder)

theorem OpenedBy.of_same {doubles : Doubles Number} {uuids : UuidTexts} {instruction : CopyInstruction}
    {volume : ℚ} {order order' : SlaveOrder Number} (h : OpenedBy doubles uuids instruction volume order)
    (hsame : SameOrder order order') : OpenedBy doubles uuids instruction volume order' := by
  obtain ⟨-, htype, hsymbol, hlots, hcomment⟩ := hsame
  exact ⟨htype.trans h.type, hsymbol.trans h.symbol, hlots.trans h.lots, hcomment.trans h.comment⟩

/-! ### The refinement -/

/-- The position of an order. -/
structure PositionOf (doubles : Doubles Number) (uuids : UuidTexts) (order : SlaveOrder Number)
    (position : Position) : Prop where
  ticket : position.ticket = ticketText order.ticket
  comment : order.comment = ofString "copy:" ++ ofString (uuids.text position.copyId)
  lots : order.lots = doubles.toNearest position.volume

/-- The orders are the positions that the terminal has opened, and those that it has closed are closed. -/
structure Represents (doubles : Doubles Number) (uuids : UuidTexts) (orders : Orders Number)
    (terminal : ForexCopy.Terminal) : Prop where
  kept : Kept orders
  positions : List.Forall₂ (PositionOf doubles uuids) orders terminal.opened
  closed : ∀ order ∈ orders, ticketText order.ticket ∈ terminal.closed ↔ 0 < order.closeTime
  known : ∀ ticket ∈ terminal.closed, ∃ order ∈ orders, ticketText order.ticket = ticket

section

variable {doubles : Doubles Number} {uuids : UuidTexts} {orders orders' : Orders Number}
  {terminal : ForexCopy.Terminal} {order : SlaveOrder Number} {instruction : CopyInstruction}

theorem Represents.tickets (h : Represents doubles uuids orders terminal) :
    terminal.opened.map Position.ticket = orders.map fun order => ticketText order.ticket := by
  obtain ⟨-, hpositions, -, -⟩ := h
  generalize terminal.opened = opened at hpositions ⊢
  induction hpositions with
  | nil => rfl
  | cons hposition _ ih => rw [List.map_cons, List.map_cons, hposition.ticket, ih]

theorem Represents.mem_positions (h : Represents doubles uuids orders terminal) (horder : order ∈ orders)
    (hopen : order.closeTime = 0) :
    ticketText order.ticket ∈ terminal.positions.map Position.ticket := by
  have hopened : ticketText order.ticket ∈ terminal.opened.map Position.ticket := by
    rw [h.tickets]
    exact List.mem_map_of_mem horder
  obtain ⟨position, hposition, hticket⟩ := List.mem_map.mp hopened
  refine List.mem_map.mpr
    ⟨position, ForexCopy.Terminal.mem_positions.mpr ⟨hposition, fun hclosed => ?_⟩, hticket⟩
  rw [hticket, h.closed order horder] at hclosed
  omega

/-- What is no longer open, and what is, after a change of one order. -/
theorem Represents.update (h : Represents doubles uuids orders terminal)
    (horder : order ∈ orders) {change : SlaveOrder Number → SlaveOrder Number}
    (hsame : ∀ order, SameOrder order (change order)) {terminal' : ForexCopy.Terminal}
    (hopened : terminal'.opened = terminal.opened)
    (hclosed : ∀ other ∈ orders, ticketText other.ticket ∈ terminal'.closed ↔
      0 < (if other.ticket = order.ticket then change other else other).closeTime)
    (hknown : ∀ ticket ∈ terminal'.closed, ticket ∈ terminal.closed ∨ ticket = ticketText order.ticket) :
    Represents doubles uuids (Table.update SlaveOrder.ticket order.ticket change orders) terminal' := by
  have hticket (other : SlaveOrder Number) :
      (if other.ticket = order.ticket then change other else other).ticket = other.ticket := by
    split_ifs
    · exact (hsame other).1
    · rfl
  have htickets : (Table.update SlaveOrder.ticket order.ticket change orders).map SlaveOrder.ticket =
      orders.map SlaveOrder.ticket := by
    rw [Table.update, List.map_map]
    exact List.map_congr_left fun other _ => hticket other
  refine ⟨⟨htickets ▸ h.kept.once, ?_⟩, ?_, ?_, ?_⟩
  · intro other hother
    obtain ⟨old, hold, rfl⟩ := List.mem_map.mp hother
    rw [hticket]
    exact h.kept.range old hold
  · rw [hopened, Table.update, List.forall₂_map_left_iff]
    refine h.positions.imp fun other position hposition => ?_
    split_ifs
    · obtain ⟨hsameTicket, -, -, hlots, hcomment⟩ := hsame other
      exact ⟨hsameTicket ▸ hposition.ticket, hcomment ▸ hposition.comment, hlots ▸ hposition.lots⟩
    · exact hposition
  · intro other hother
    obtain ⟨old, hold, rfl⟩ := List.mem_map.mp hother
    rw [hticket]
    exact hclosed old hold
  · intro ticket hmem
    obtain ⟨old, hold, rfl⟩ : ∃ old ∈ orders, ticketText old.ticket = ticket := by
      rcases hknown ticket hmem with hbefore | rfl
      · exact h.known ticket hbefore
      · exact ⟨order, horder, rfl⟩
    exact ⟨_, List.mem_map_of_mem hold, congrArg ticketText (hticket old)⟩

/-- What an instruction does at the MT4 terminal it does at the terminal, and the text of its result is
read as the result, with a price. -/
theorem Executed.refines {body : Text} (h : Executed doubles uuids orders instruction orders' body)
    (hrep : Represents doubles uuids orders terminal)
    (hcopyId : Documented (uuids.text instruction.copyId)) :
    ∃ outcome terminal' result price, terminal.execute instruction outcome = some (terminal', result) ∧
      Represents doubles uuids orders' terminal' ∧
      ExecutionResult.ofBody uuids body = some { result with executionPrice := price } := by
  have hsuccess (ticket : ℕ) (price : ℚ) : ExecutionResult.ofBody uuids
      (successResult (ofString (uuids.text instruction.copyId)) (integerToString ticket) price) =
        some { instruction.success (ticketText ticket) with executionPrice := positiveNumber 5 price } := by
    rw [ofBody_successResult uuids hcopyId.clean hcopyId.1, uuids.read_text]
    rfl
  cases h with
  | failed reason hreason =>
      refine ⟨.refused (readBack reason), terminal, _, none, rfl, hrep, ?_⟩
      rw [ofBody_failureResult uuids hcopyId.clean hcopyId.1 hreason, uuids.read_text]
      rfl
  | @opened haction volume hvolume order hopened hopen hfresh hrange price =>
      have hnew : ticketText order.ticket ∉ terminal.opened.map Position.ticket := by
        rw [hrep.tickets]
        intro hmem
        obtain ⟨other, hother, hticket⟩ := List.mem_map.mp hmem
        exact hfresh (ticketText_injective hticket ▸ List.mem_map_of_mem hother)
      refine ⟨.done (ticketText order.ticket),
        terminal.open ⟨instruction.copyId, ticketText order.ticket, volume⟩, _, _, ?_, ?_,
        hsuccess order.ticket price⟩
      · simp only [ForexCopy.Terminal.execute, haction, ForexCopy.Terminal.executeOpen, hvolume]
        rw [if_neg (not_or.mpr ⟨ticketText_ne_empty order.ticket, hnew⟩)]
      · refine ⟨⟨Table.nodup_append_of_notMem hrep.kept.once hfresh, ?_⟩, ?_, ?_, ?_⟩
        · rintro other hother
          rcases List.mem_append.mp hother with hold | hlast
          · exact hrep.kept.range other hold
          · obtain rfl := List.mem_singleton.mp hlast
            exact hrange
        · exact List.rel_append hrep.positions (.cons ⟨rfl, hopened.comment, hopened.lots⟩ .nil)
        · intro other hother
          rcases List.mem_append.mp hother with hold | hlast
          · exact hrep.closed other hold
          · obtain rfl := List.mem_singleton.mp hlast
            refine iff_of_false (fun hclosed => ?_) (by omega)
            obtain ⟨old, hold, hticket⟩ := hrep.known _ hclosed
            exact hfresh (ticketText_injective hticket ▸ List.mem_map_of_mem hold)
        · intro ticket hclosed
          obtain ⟨old, hold, hticket⟩ := hrep.known ticket hclosed
          exact ⟨old, List.mem_append_left _ hold, hticket⟩
  | @closed haction order horder hticket hopen change hsame hclosed price =>
      refine ⟨.done "", terminal.close (ticketText order.ticket), _, _, ?_, ?_,
        hsuccess order.ticket price⟩
      · simp only [ForexCopy.Terminal.execute, haction, ForexCopy.Terminal.onPosition, hticket]
        rw [if_pos (hrep.mem_positions horder hopen)]
      · refine hrep.update horder hsame rfl (fun other hother => ?_) fun ticket hmem =>
          (List.mem_cons.mp hmem).symm
        change _ ∈ _ :: terminal.closed ↔ _
        by_cases hsameTicket : other.ticket = order.ticket
        · rw [if_pos hsameTicket, hsameTicket]
          exact iff_of_true List.mem_cons_self (hclosed other)
        · rw [if_neg hsameTicket, List.mem_cons, or_iff_right (ticketText_injective.ne hsameTicket)]
          exact hrep.closed other hother
  | @modified haction order horder hticket hopen change hsame hkept =>
      refine ⟨.done "", terminal, _, _, ?_, ?_, hsuccess order.ticket 0⟩
      · simp only [ForexCopy.Terminal.execute, haction, ForexCopy.Terminal.onPosition, hticket]
        rw [if_pos (hrep.mem_positions horder hopen)]
      · refine hrep.update horder hsame rfl (fun other hother => ?_) fun _ hknown => .inl hknown
        rw [hrep.closed other hother, apply_ite SlaveOrder.closeTime, hkept, ite_self]

end

end Mt4

end ForexCopy
