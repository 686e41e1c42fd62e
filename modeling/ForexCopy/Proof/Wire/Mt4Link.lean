import ForexCopy.Proof.Terminal.Settled
import ForexCopy.Proof.Wire.Mt4Slave

/-!
# What the tables tell of an MT4 slave

The EA and the backend understand each other, whatever is lost on the way and however often a result is
posted: every result is read, every order of the terminal goes back to an OPEN instruction that was handed
over, and what is EXECUTED in the tables has happened at the terminal.
-/

namespace ForexCopy

open Utf16 Mql Machine Pool

/-- The instruction was handed over to the slave in response to a poll. -/
def World.Answered (w : World) (slaveId : Uuid) (instruction : CopyInstruction) : Prop :=
  ∃ delivery ∈ w.sent, delivery.transport = .poll ∧ delivery.slaveId = slaveId ∧
    delivery.instruction = instruction

theorem World.Answered.mono {w w' : World} {slaveId : Uuid} {instruction : CopyInstruction}
    (h : w.Answered slaveId instruction) (hbefore : w.Before w') : w'.Answered slaveId instruction := by
  obtain ⟨delivery, hdelivery, hrest⟩ := h
  exact ⟨delivery, hbefore.sent.subset hdelivery, hrest⟩

/-- A result that is about an instruction, and that tells no more than has happened. -/
structure ExecutionResult.Tells (slaveId : Uuid) (w : World) (terminal : Terminal)
    (result : ExecutionResult) : Prop where
  answered : ∃ instruction, w.Answered slaveId instruction ∧ instruction.copyId = result.copyId
  ticket : result.status = .executed → result.slaveTicket.isSome
  settled : (settledSources slaveId w.cores terminal).Result slaveId result

theorem ExecutionResult.Tells.mono {slaveId : Uuid} {w w' : World} {terminal terminal' : Terminal}
    {result : ExecutionResult} (h : result.Tells slaveId w terminal) (hworld : w.Before w')
    (hterminal : terminal.Before terminal') : result.Tells slaveId w' terminal' where
  answered := by
    obtain ⟨instruction, hinstruction, hid⟩ := h.answered
    exact ⟨instruction, hinstruction.mono hworld, hid⟩
  ticket := h.ticket
  settled := h.settled.mono (settledSources_within hworld.cores.subset hterminal)

namespace Mt4Link

variable {Number : Type}

/-- The backend and the EA keep to one history of the terminal. -/
structure Agrees (doubles : Doubles Number) (uuids : UuidTexts) (slaveId : Uuid)
    (link : Mt4Link Number) (terminal : Terminal) : Prop where
  grounded : grounded.Holds link.backend
  admitted : admission.Holds link.backend
  tickets : (settledSources slaveId link.backend.shared.cores terminal).outline.Holds link.backend
  ticketed : (ticketed slaveId).Holds link.backend
  represents : Mt4.Represents doubles uuids link.orders terminal
  responses : ∀ response ∈ link.onTheWay, ∃ instruction, link.backend.shared.Answered slaveId instruction ∧
    response = (instruction.toBody doubles uuids.text).stringify doubles
  results : ∀ body ∈ link.results, ∃ result, ExecutionResult.ofBody uuids body = some result ∧
    result.Tells slaveId link.backend.shared terminal
  orders : ∀ order ∈ link.orders, ∃ instruction, link.backend.shared.Answered slaveId instruction ∧
    instruction.action = .open ∧ ∃ volume ∈ instruction.volume,
      Mt4.OpenedBy doubles uuids instruction volume order

variable {doubles : Doubles Number} {uuids : UuidTexts} {slaveId : Uuid} {link : Mt4Link Number}
  {terminal : Terminal}

theorem Agrees.gave (h : link.Agrees doubles uuids slaveId terminal) {order : CopyOrder}
    (horder : order ∈ link.backend.shared.copyOrders) (hslave : order.slaveId = slaveId)
    (htype : order.type = .open) {ticket : String} (hticket : order.slaveTicket = some ticket) :
    terminal.Gave order.id ticket :=
  (settledSources_row h.grounded.1 horder hslave (h.tickets.1.rows order horder) hticket).1 htype

/-- The order of a position. -/
theorem Agrees.order_of_gave (h : link.Agrees doubles uuids slaveId terminal) {copyId : Uuid}
    {ticket : String} (hgave : terminal.Gave copyId ticket) :
    ∃ order ∈ link.orders, ticket = ticketText order.ticket ∧
      order.comment = ofString "copy:" ++ ofString (uuids.text copyId) := by
  obtain ⟨position, hposition, rfl, rfl⟩ := hgave
  have hpositions := h.represents.positions
  generalize link.orders = orders, terminal.opened = opened at hpositions hposition
  induction hpositions with
  | nil => cases hposition
  | @cons order head _ _ hhead _ ih =>
      rcases List.mem_cons.mp hposition with rfl | hrest
      · exact ⟨order, List.mem_cons_self, hhead.ticket, hhead.comment⟩
      · obtain ⟨other, hother, hother'⟩ := ih hrest
        exact ⟨other, List.mem_cons_of_mem _ hother, hother'⟩

/-- An action of the backend keeps what the two agree on. -/
theorem Agrees.backend (h : link.Agrees doubles uuids slaveId terminal) {a : Action} {c : Config}
    (hstep : Backend.step link.backend a = some c)
    (hreports : ∀ stimulus ∈ a.stimulus, ∀ report ∈ stimulus.report, report.1 = slaveId →
      report.2.Tells slaveId link.backend.shared terminal) :
    Agrees doubles uuids slaveId { link with backend := c } terminal := by
  have hbefore := Backend.step_before hstep
  have hwithin : (settledSources slaveId link.backend.shared.cores terminal).Within
      (settledSources slaveId c.shared.cores terminal) :=
    settledSources_within hbefore.cores.subset (.refl terminal)
  refine ⟨grounded_preserved h.grounded hstep, admission_preserved h.admitted hstep, ?_, ?_,
    h.represents, ?_, ?_, ?_⟩
  · refine TicketSources.outline_step h.grounded h.admitted
      (TicketSources.outline_mono h.tickets hwithin) hstep ?_ ?_
    · rintro task - ⟨id, masterTicket⟩ - ticket hfound rfl
      obtain ⟨order, horder, hslave, hmaster, htype, -, hticket⟩ :=
        findExecutedOpenSlaveTicket_eq_some hfound
      exact ⟨order.core, hbefore.mem_cores (World.core_mem_cores horder), hslave, htype, hmaster,
        h.gave horder hslave htype hticket⟩
    · rintro stimulus hstimulus ⟨id, result⟩ hreport ticket hticket rfl
      exact hwithin.reported _ _ _
        ((hreports stimulus hstimulus _ hreport rfl).settled ticket hticket) rfl
  · exact ticketed_step h.grounded h.ticketed hstep fun stimulus hstimulus report hreport hslave =>
      (hreports stimulus hstimulus report hreport hslave).ticket
  · intro response hresponse
    obtain ⟨instruction, hinstruction, htext⟩ := h.responses response hresponse
    exact ⟨instruction, hinstruction.mono hbefore, htext⟩
  · intro body hbody
    obtain ⟨result, hread, htells⟩ := h.results body hbody
    exact ⟨result, hread, htells.mono hbefore (.refl terminal)⟩
  · intro order horder
    obtain ⟨instruction, hinstruction, hopened⟩ := h.orders order horder
    exact ⟨instruction, hinstruction.mono hbefore, hopened⟩

/-- A CLOSE or MODIFY names the ticket of an order. -/
theorem Agrees.named_order (h : link.Agrees doubles uuids slaveId terminal)
    {instruction : CopyInstruction} (hinstruction : link.backend.shared.Answered slaveId instruction)
    (hacts : instruction.action.actsOnPosition) :
    ∃ order ∈ link.orders, instruction.slaveTicket = some (ticketText order.ticket) := by
  obtain ⟨delivery, hdelivery, -, hslave, rfl⟩ := hinstruction
  obtain ⟨core, -, -, -, -, ticket, hticket, -, hopened⟩ := h.tickets.1.sent delivery hdelivery hacts
  obtain ⟨opener, -, -, -, -, hgave⟩ := hopened hslave
  obtain ⟨order, horder, rfl, -⟩ := h.order_of_gave hgave
  exact ⟨order, horder, hticket⟩

/-- The two still agree when a response has been executed. -/
theorem Agrees.execute [DecidableEq Number] (h : link.Agrees doubles uuids slaveId terminal)
    {instruction : CopyInstruction} (hinstruction : link.backend.shared.Answered slaveId instruction)
    (hplain : (instruction.toBody doubles uuids.text).Plain doubles) {errorDescription : ℕ → String}
    (hdescription : ∀ error, Clean (errorDescription error)) {market : Mt4.Market}
    {reply : Mt4.BrokerReply} {orders : Mt4.Orders Number} {result : Option Text}
    (hexecute : Mt4.execute doubles errorDescription link.orders market reply
      (instruction.call doubles uuids.text) = some (orders, result)) {onTheWay : List Text}
    (hsubset : onTheWay ⊆ link.onTheWay) :
    ∃ terminal', Agrees doubles uuids slaveId
      { link with onTheWay := onTheWay, orders := orders, results := link.results ++ result.toList }
      terminal' := by
  have hcopyId : Documented (uuids.text instruction.copyId) := hplain.strings
    ("copyId", some (uuids.text instruction.copyId))
    (by simp [InstructionBody.strings, CopyInstruction.toBody]) _ rfl
  have hsymbol : Documented instruction.symbol := hplain.strings ("symbol", some instruction.symbol)
    (by simp [InstructionBody.strings, CopyInstruction.toBody]) _ rfl
  obtain ⟨body, rfl, hbody⟩ := Mt4.execute_executed h.represents.kept hsymbol.clean hdescription
    (h.named_order hinstruction) hexecute
  obtain ⟨outcome, terminal', result, price, hterminal, hrepresents, hread⟩ :=
    hbody.refines h.represents hcopyId
  have hexecuted := Terminal.execute_executed hterminal
  obtain ⟨hbefore, hid⟩ := hexecuted.before
  have hwithin : (settledSources slaveId link.backend.shared.cores terminal).Within
      (settledSources slaveId link.backend.shared.cores terminal') :=
    settledSources_within (List.Subset.refl _) hbefore
  have hsame : link.backend.shared.Before link.backend.shared := .of_eq rfl rfl
  have hsettled : (settledSources slaveId link.backend.shared.cores terminal').Result slaveId result := by
    obtain ⟨delivery, hdelivery, -, hslave, rfl⟩ := hinstruction
    obtain ⟨core, hcore, hcoreId, -, haction⟩ := h.grounded.1.sent delivery hdelivery
    rintro ticket hticket -
    refine ⟨core, hcore, hcoreId.trans hid.symm, fun hopen => ?_, fun hclose => ?_⟩
    · rw [hid]
      exact hexecuted.gave (haction.symm.trans hopen) hticket
    · have hclosing := haction.symm.trans hclose
      obtain ⟨named, hnamed, hnamedId, -, -, found, hfound, -, hopened⟩ :=
        h.tickets.1.sent delivery hdelivery (.inl hclosing)
      obtain ⟨order, horder, rfl⟩ := World.exists_of_mem_cores hnamed
      obtain rfl := h.grounded.1.core_eq hcore horder (hnamedId.trans hcoreId.symm)
      rw [hexecuted.closing hclosing hticket] at hfound
      obtain rfl := Option.some.inj hfound
      exact ⟨(hopened hslave).mono (List.Subset.refl _) hbefore,
        hexecuted.closed_of_close hclosing hticket⟩
  refine ⟨terminal', h.grounded, h.admitted, TicketSources.outline_mono h.tickets hwithin, h.ticketed,
    hrepresents, fun response hresponse => h.responses response (hsubset hresponse), ?_, ?_⟩
  · intro text htext
    rcases List.mem_append.mp htext with hold | hnew
    · obtain ⟨earlier, hearlier, htells⟩ := h.results text hold
      exact ⟨earlier, hearlier, htells.mono hsame hbefore⟩
    · obtain rfl := List.mem_singleton.mp hnew
      exact ⟨_, hread, ⟨instruction, hinstruction, hid.symm⟩, hexecuted.ticket_isSome, hsettled⟩
  · intro order horder
    rcases hbody.mem_orders horder with ⟨old, hold, hsameOrder⟩ | ⟨haction, hopened⟩
    · obtain ⟨opener, hopener, haction, volume, hvolume, hopened⟩ := h.orders old hold
      exact ⟨opener, hopener, haction, volume, hvolume, hopened.of_same hsameOrder⟩
    · exact ⟨instruction, hinstruction, haction, hopened⟩

/-! ### Runs -/

/-- Nobody else reports for the slave. -/
def Obeys (slaveId : Uuid) (_ : Mt4Link Number) : Mt4Action → Prop
  | .backend action => ∀ stimulus ∈ action.stimulus, ∀ report ∈ stimulus.report, report.1 ≠ slaveId
  | _ => True

instance (slaveId : Uuid) (link : Mt4Link Number) (a : Mt4Action) : Decidable (Obeys slaveId link a) :=
  match a with
  | .backend action => inferInstanceAs (Decidable (∀ stimulus ∈ action.stimulus, _))
  | .receive _ _ _ | .lose _ | .post _ _ | .settle _ => inferInstanceAs (Decidable True)

/-- The instructions that were handed over are of strings and numbers in the shape that the reader's
header documents. -/
def Plain (doubles : Doubles Number) (uuids : UuidTexts) (slaveId : Uuid) (link : Mt4Link Number) :
    Prop :=
  ∀ instruction, link.backend.shared.Answered slaveId instruction →
    (instruction.toBody doubles uuids.text).Plain doubles

theorem responses_answered {w w' : World} {response : Text}
    (h : response ∈ responses doubles uuids slaveId w w') : ∃ instruction,
      w'.Answered slaveId instruction ∧
        response = (instruction.toBody doubles uuids.text).stringify doubles := by
  obtain ⟨instruction, hinstruction, rfl⟩ := List.mem_map.mp h
  obtain ⟨delivery, hdelivery, rfl⟩ := List.mem_map.mp hinstruction
  obtain ⟨hsince, hpolled⟩ := List.mem_filter.mp hdelivery
  obtain ⟨htransport, hslave⟩ := of_decide_eq_true hpolled
  exact ⟨delivery.instruction, ⟨delivery, List.mem_of_mem_drop hsince, htransport, hslave, rfl⟩, rfl⟩

/-- As long as the instructions are plain, the backend and the EA agree on what has happened. -/
theorem agrees_step [DecidableEq Number] {errorDescription : ℕ → String}
    (hdescription : ∀ error, Clean (errorDescription error)) {a : Mt4Action} {link' : Mt4Link Number}
    (hobeys : Obeys slaveId link a)
    (hstep : link.step doubles errorDescription uuids slaveId a = some link')
    (hplain : link'.Plain doubles uuids slaveId) (h : link.Agrees doubles uuids slaveId terminal) :
    ∃ terminal', link'.Agrees doubles uuids slaveId terminal' := by
  cases a with
  | backend action =>
      obtain ⟨c, hbackend, rfl⟩ := Option.map_eq_some_iff.mp hstep
      have hafter := h.backend hbackend fun stimulus hstimulus report hreport hslave =>
        absurd hslave (hobeys stimulus hstimulus report hreport)
      refine ⟨terminal, { hafter with responses := fun response hresponse => ?_ }⟩
      rcases List.mem_append.mp hresponse with hold | hnew
      · exact hafter.responses response hold
      · exact responses_answered hnew
  | receive i market reply =>
      obtain ⟨response, hget, hreceive⟩ := Option.bind_eq_some_iff.mp hstep
      obtain ⟨⟨orders, result⟩, hexecute, rfl⟩ := Option.map_eq_some_iff.mp hreceive
      obtain ⟨instruction, hinstruction, rfl⟩ := h.responses response (List.mem_of_getElem? hget)
      rw [pollForInstruction_stringify (hplain instruction hinstruction)] at hexecute
      exact h.execute hinstruction (hplain instruction hinstruction) hdescription hexecute
        List.eraseIdx_subset
  | lose i =>
      obtain ⟨response, -, rfl⟩ := Option.map_eq_some_iff.mp hstep
      exact ⟨terminal, { h with
        responses := fun response hresponse => h.responses response (List.eraseIdx_subset hresponse) }⟩
  | post i connectorId =>
      obtain ⟨body, hget, hpost⟩ := Option.bind_eq_some_iff.mp hstep
      obtain ⟨c, hbackend, rfl⟩ := Option.map_eq_some_iff.mp hpost
      obtain ⟨result, hread, htells⟩ := h.results body (List.mem_of_getElem? hget)
      rw [hread] at hbackend
      refine ⟨terminal, h.backend hbackend ?_⟩
      rintro stimulus hstimulus report hreport -
      obtain rfl := Option.some.inj hstimulus
      obtain rfl := Option.some.inj hreport
      exact htells
  | settle i =>
      obtain ⟨body, -, rfl⟩ := Option.map_eq_some_iff.mp hstep
      exact ⟨terminal, { h with
        results := fun body hbody => h.results body (List.eraseIdx_subset hbody) }⟩

theorem step_before [DecidableEq Number] {errorDescription : ℕ → String} {a : Mt4Action}
    {link' : Mt4Link Number} (hstep : link.step doubles errorDescription uuids slaveId a = some link') :
    link.backend.shared.Before link'.backend.shared := by
  have hsame : link.backend.shared.Before link.backend.shared := .of_eq rfl rfl
  cases a with
  | backend action =>
      obtain ⟨c, hbackend, rfl⟩ := Option.map_eq_some_iff.mp hstep
      exact Backend.step_before hbackend
  | receive i market reply =>
      obtain ⟨response, -, hreceive⟩ := Option.bind_eq_some_iff.mp hstep
      obtain ⟨_, -, rfl⟩ := Option.map_eq_some_iff.mp hreceive
      exact hsame
  | post i connectorId =>
      obtain ⟨body, -, hpost⟩ := Option.bind_eq_some_iff.mp hstep
      obtain ⟨c, hbackend, rfl⟩ := Option.map_eq_some_iff.mp hpost
      exact Backend.step_before hbackend
  | lose | settle =>
      obtain ⟨_, -, rfl⟩ := Option.map_eq_some_iff.mp hstep
      exact hsame

/-- The slave has no copy orders, its terminal has no orders, and nothing is on its way. -/
structure Idle (slaveId : Uuid) (link : Mt4Link Number) : Prop where
  backend : link.backend.Idle
  rows : ∀ order ∈ link.backend.shared.copyOrders, order.slaveId ≠ slaveId
  onTheWay : link.onTheWay = []
  orders : link.orders = []
  results : link.results = []

theorem Idle.agrees (h : link.Idle slaveId) : link.Agrees doubles uuids slaveId {} where
  grounded := h.backend.grounded
  admitted := ⟨trivial, by simp [h.backend.tasks]⟩
  tickets := by
    refine ⟨⟨fun order horder ticket _ hslave => ?_, by simp [h.backend.sent]⟩,
      by simp [h.backend.tasks]⟩
    exact absurd hslave (h.rows order horder)
  ticketed := ⟨fun order horder hslave => absurd hslave (h.rows order horder), by simp [h.backend.tasks]⟩
  represents := by
    rw [h.orders]
    exact ⟨⟨List.nodup_nil, by simp⟩, .nil, by simp, by simp⟩
  responses := by simp [h.onTheWay]
  results := by simp [h.results]
  orders := by simp [h.orders]

theorem agrees_preserved [DecidableEq Number] (doubles : Doubles Number) (uuids : UuidTexts)
    (slaveId : Uuid) {errorDescription : ℕ → String}
    (hdescription : ∀ error, Clean (errorDescription error)) :
    Preserved (restrict (step doubles errorDescription uuids slaveId) (Obeys slaveId)) fun link =>
      link.Plain doubles uuids slaveId → ∃ terminal, link.Agrees doubles uuids slaveId terminal := by
  intro link a link' h hstep hplain
  obtain ⟨hobeys, hstep⟩ := restrict_eq_some.mp hstep
  obtain ⟨terminal, hagrees⟩ := h fun instruction hinstruction =>
    hplain instruction (hinstruction.mono (step_before hstep))
  exact agrees_step hdescription hobeys hstep hplain hagrees

/-- What the slave's results and rows say about its terminal. -/
structure Truthful (doubles : Doubles Number) (uuids : UuidTexts) (slaveId : Uuid)
    (link : Mt4Link Number) : Prop where
  /-- No result is answered 400, and each is about an instruction. -/
  results : ∀ body ∈ link.results, ∃ result, ExecutionResult.ofBody uuids body = some result ∧
    ∃ instruction, link.backend.shared.Answered slaveId instruction ∧
      instruction.copyId = result.copyId
  /-- Every order is that of an OPEN instruction. -/
  orders : ∀ order ∈ link.orders, ∃ instruction, link.backend.shared.Answered slaveId instruction ∧
    instruction.action = .open ∧ ∃ volume ∈ instruction.volume,
      Mt4.OpenedBy doubles uuids instruction volume order
  /-- An OPEN that is EXECUTED has its order. -/
  opens : ∀ row ∈ link.backend.shared.copyOrders, row.slaveId = slaveId → row.type = .open →
    row.status = .executed → ∃ order ∈ link.orders, row.slaveTicket = some (ticketText order.ticket) ∧
      order.comment = ofString "copy:" ++ ofString (uuids.text row.id)
  /-- A CLOSE that is EXECUTED has closed the order of an OPEN of its master ticket. -/
  closes : ∀ row ∈ link.backend.shared.copyOrders, row.slaveId = slaveId → row.type = .close →
    row.status = .executed → ∃ order ∈ link.orders, row.slaveTicket = some (ticketText order.ticket) ∧
      0 < order.closeTime ∧ ∃ opened ∈ link.backend.shared.copyOrders, opened.slaveId = slaveId ∧
        opened.type = .open ∧ opened.masterTicket = row.masterTicket ∧
        order.comment = ofString "copy:" ++ ofString (uuids.text opened.id)

theorem Agrees.truthful (h : link.Agrees doubles uuids slaveId terminal) :
    link.Truthful doubles uuids slaveId where
  results body hbody := by
    obtain ⟨result, hread, htells⟩ := h.results body hbody
    exact ⟨result, hread, htells.answered⟩
  orders := h.orders
  opens row hrow hslave htype hstatus := by
    obtain ⟨ticket, hticket⟩ := Option.isSome_iff_exists.mp (h.ticketed.1 row hrow hslave hstatus)
    obtain ⟨order, horder, rfl, hcomment⟩ := h.order_of_gave (h.gave hrow hslave htype hticket)
    exact ⟨order, horder, hticket, hcomment⟩
  closes row hrow hslave htype hstatus := by
    obtain ⟨ticket, hticket⟩ := Option.isSome_iff_exists.mp (h.ticketed.1 row hrow hslave hstatus)
    obtain ⟨⟨core, hcore, hcoreSlave, hcoreType, hmaster, hgave⟩, hclosed⟩ :=
      (settledSources_row h.grounded.1 hrow hslave (h.tickets.1.rows row hrow) hticket).2 htype
    obtain ⟨opened, hopened, rfl⟩ := World.exists_of_mem_cores hcore
    obtain ⟨order, horder, rfl, hcomment⟩ := h.order_of_gave hgave
    exact ⟨order, horder, hticket, (h.represents.closed order horder).mp hclosed, opened, hopened,
      hcoreSlave, hcoreType, hmaster, hcomment⟩

/-- Whatever is lost on the way and however often a result is posted, the tables say of an MT4 slave what
has happened at its terminal, as long as the instructions are of plain strings and numbers. -/
theorem run_truthful [DecidableEq Number] (doubles : Doubles Number) (errorDescription : ℕ → String)
    (hdescription : ∀ error, Clean (errorDescription error)) (uuids : UuidTexts) (slaveId : Uuid)
    (start link : Mt4Link Number) (actions : List Mt4Action) (hstart : start.Idle slaveId)
    (hrun : follow (restrict (step doubles errorDescription uuids slaveId) (Obeys slaveId)) start
      actions = some link)
    (hplain : link.Plain doubles uuids slaveId) : link.Truthful doubles uuids slaveId := by
  obtain ⟨terminal, hagrees⟩ := (agrees_preserved doubles uuids slaveId hdescription).follow
    (fun _ => ⟨{}, hstart.agrees⟩) hrun hplain
  exact hagrees.truthful

end Mt4Link

namespace Sample

/-- Identifiers in decimal. -/
def uuids : UuidTexts where
  text := toString
  read s := Nat.ofDigitChars 10 s.toList 0
  read_text n := by simp [Nat.toString_eq_repr, Nat.toList_repr]

def mt4Start : Mt4Link Binary64.Number where
  backend := config mt4Slave [openEvent, closeEvent]

/-- The call at the position runs on its own through `n` awaits. -/
def settleAt (i n : ℕ) : List Mt4Action := List.replicate n (.backend (.resume i .ok))

/-- The OPEN is polled and executed, and its result is posted; then the CLOSE. -/
def openedAndClosed : List Mt4Action :=
  .backend (.arrive (.masterEvent openEvent)) :: settleAt 0 8 ++
    .backend (.arrive (.poll 4 9)) :: settleAt 1 3 ++
    .receive 0 ⟨true, 11 / 10, 109 / 100⟩ (.done 875421 (11 / 10) 1) :: .post 0 9 :: settleAt 2 2 ++
    .backend (.arrive (.masterEvent closeEvent)) :: settleAt 2 7 ++
    .backend (.arrive (.poll 4 9)) :: settleAt 3 4 ++
    .receive 0 ⟨true, 11 / 10, 109 / 100⟩ (.done 0 (109 / 100) 2) :: .post 1 9 :: settleAt 4 2

end Sample

open Sample Mt4Link in
theorem opened_and_closed_truthful :
    ∃ link, follow (restrict (Mt4Link.step binary64 (fun _ => "error") uuids 4) (Obeys 4)) mt4Start
        openedAndClosed = some link ∧
      (∃ row ∈ link.backend.shared.copyOrders, row.type = .close ∧ row.status = .executed) ∧
      link.Truthful binary64 uuids 4 := by
  have hruns : ∃ link, follow (restrict (Mt4Link.step binary64 (fun _ => "error") uuids 4) (Obeys 4))
        mt4Start openedAndClosed = some link ∧
      (∃ row ∈ link.backend.shared.copyOrders, row.type = .close ∧ row.status = .executed) ∧
      ∀ delivery ∈ link.backend.shared.sent,
        (∀ field ∈ (delivery.instruction.toBody binary64 uuids.text).strings, ∀ s ∈ field.2,
          Documented s) ∧
        ∀ field ∈ (delivery.instruction.toBody binary64 uuids.text).numbers, ∀ number ∈ field.2,
          number.val = 1 := by
    decide +kernel
  obtain ⟨link, hrun, hclosed, hsent⟩ := hruns
  have hplain : link.Plain binary64 uuids 4 := by
    rintro instruction ⟨delivery, hdelivery, -, -, rfl⟩
    obtain ⟨hstrings, hnumbers⟩ := hsent delivery hdelivery
    refine ⟨hstrings, fun field hfield number hnumber => ⟨fixedNotation 1 0, rfl, ?_⟩⟩
    change (numberNotation number.val).text = _
    rw [hnumbers field hfield number hnumber]
    decide +kernel
  have hidle : mt4Start.Idle 4 :=
    ⟨⟨⟨by decide, by decide, by decide, by decide⟩, rfl, rfl⟩, by decide, rfl, rfl, rfl⟩
  exact ⟨link, hrun, hclosed,
    run_truthful binary64 _ (fun _ => by decide) uuids 4 _ link _ hidle hrun hplain⟩

end ForexCopy
