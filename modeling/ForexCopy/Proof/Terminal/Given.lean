import ForexCopy.Proof.Terminal.Orphans
import ForexCopy.Proof.Terminal.Tickets

/-!
# Tickets the terminal has given out

At a slave for which nobody else reports, the source of every ticket is its terminal: a ticket recorded
for an OPEN was given to the position of that copy order, and one recorded for a CLOSE is the ticket of
an OPEN of its master ticket.
-/

namespace ForexCopy

open Machine

def terminalSources (slaveId : Uuid) (cores : List CopyOrder) (terminal : Terminal) :
    TicketSources where
  Reported id copyId ticket := id = slaveId → ∃ core ∈ cores, core.id = copyId ∧
    (core.type = .open → terminal.Gave copyId ticket) ∧
    (core.type = .close → terminal.Opened slaveId cores core.masterTicket ticket)
  LookedUp id masterTicket ticket :=
    id = slaveId → terminal.Opened slaveId cores masterTicket ticket

theorem terminalSources_within {slaveId : Uuid} {cores cores' : List CopyOrder}
    {terminal terminal' : Terminal} (hcores : cores ⊆ cores') (hbefore : terminal.Before terminal') :
    (terminalSources slaveId cores terminal).Within (terminalSources slaveId cores' terminal') where
  reported id copyId ticket h hslave := by
    obtain ⟨core, hcore, hid, hopens, hcloses⟩ := h hslave
    exact ⟨core, hcores hcore, hid, fun htype => (hopens htype).mono hbefore,
      fun htype => (hcloses htype).mono hcores hbefore⟩
  lookedUp id masterTicket ticket h hslave := (h hslave).mono hcores hbefore

namespace Terminal.Executed

variable {terminal terminal' : Terminal} {instruction : CopyInstruction} {result : ExecutionResult}

/-- The result of a CLOSE names the ticket that the instruction has named. -/
theorem closing (h : terminal.Executed instruction terminal' result)
    (haction : instruction.action = .close) {ticket : String} (hticket : ticket ∈ result.slaveTicket) :
    instruction.slaveTicket = some ticket := by
  cases h with
  | failed => cases hticket
  | closed _ hnamed => exact hnamed.trans hticket
  | opened hother | modified _ hother =>
      rw [haction] at hother
      cases hother

theorem nodup (h : terminal.Executed instruction terminal' result)
    (hnodup : (terminal.opened.map Position.ticket).Nodup) :
    (terminal'.opened.map Position.ticket).Nodup := by
  cases h with
  | failed | closed | modified => exact hnodup
  | opened _ _ hfresh => exact Table.nodup_append_of_notMem hnodup hfresh

end Terminal.Executed

namespace SlaveLink

def sources (slaveId : Uuid) (link : SlaveLink) : TicketSources :=
  terminalSources slaveId link.backend.shared.cores link.connector.terminal

/-- Every ticket in the backend and on its way to it was given out by the terminal, each only once. -/
structure Given (slaveId : Uuid) (link : SlaveLink) : Prop where
  grounded : grounded.Holds link.backend
  admitted : admission.Holds link.backend
  tickets : (link.sources slaveId).outline.Holds link.backend
  instructions : ∀ instruction ∈ link.connector.instructions, ∃ delivery ∈ link.backend.shared.sent,
    delivery.slaveId = slaveId ∧ delivery.instruction = instruction
  results : ∀ result ∈ link.connector.results, (link.sources slaveId).Result slaveId result
  once : (link.connector.terminal.opened.map Position.ticket).Nodup

variable {slaveId : Uuid} {link : SlaveLink}

theorem Idle.given {transport : Transport} (h : link.Idle slaveId transport) : link.Given slaveId where
  grounded := h.backend.grounded
  admitted := ⟨trivial, by simp [h.backend.tasks]⟩
  tickets := by
    refine ⟨⟨fun order horder ticket _ hslave => ?_, by simp [h.backend.sent]⟩,
      by simp [h.backend.tasks]⟩
    exact absurd hslave (h.orders order horder)
  instructions := by simp [h.connector]
  results := by simp [h.connector]
  once := by simp [h.connector]

namespace Given

/-- A position of the terminal is known by its ticket. -/
theorem copyId_eq (h : link.Given slaveId) {a b : Uuid} {ticket : String}
    (ha : link.connector.terminal.Gave a ticket) (hb : link.connector.terminal.Gave b ticket) :
    a = b := by
  obtain ⟨position, hposition, rfl, hticket⟩ := ha
  obtain ⟨other, hother, rfl, hsame⟩ := hb
  rw [Table.eq_of_key_eq h.once hposition hother (hticket.trans hsame.symm)]

theorem gave_of_row (h : link.Given slaveId) {order : CopyOrder}
    (hcore : order.core ∈ link.backend.shared.cores) (hslave : order.slaveId = slaveId)
    (htype : order.type = .open) (hrow : (link.sources slaveId).Row order) {ticket : String}
    (hticket : order.slaveTicket = some ticket) : link.connector.terminal.Gave order.id ticket := by
  obtain ⟨core, hmem, hid, hopens, -⟩ := hrow ticket hticket hslave
  obtain ⟨row, hrowMem, rfl⟩ := World.exists_of_mem_cores hmem
  have hsame := h.grounded.1.core_eq hcore hrowMem hid
  exact hopens ((CopyOrder.type_of_core hsame).trans htype)

theorem opened_of_row (h : link.Given slaveId) {order : CopyOrder}
    (hcore : order.core ∈ link.backend.shared.cores) (hslave : order.slaveId = slaveId)
    (htype : order.type = .close) (hrow : (link.sources slaveId).Row order) {ticket : String}
    (hticket : order.slaveTicket = some ticket) :
    link.connector.terminal.Opened slaveId link.backend.shared.cores order.masterTicket ticket := by
  obtain ⟨core, hmem, hid, -, hcloses⟩ := hrow ticket hticket hslave
  obtain ⟨row, hrowMem, rfl⟩ := World.exists_of_mem_cores hmem
  have hsame := h.grounded.1.core_eq hcore hrowMem hid
  have hopened := hcloses ((CopyOrder.type_of_core hsame).trans htype)
  rwa [CopyOrder.core_masterTicket, CopyOrder.masterTicket_of_core hsame] at hopened

theorem backend (h : link.Given slaveId) {a : Action} {c : Config}
    (hstep : Backend.step link.backend a = some c)
    (hreports : ∀ stimulus ∈ a.stimulus, ∀ report ∈ stimulus.report, report.1 = slaveId →
      (link.sources slaveId).Result slaveId report.2) :
    SlaveLink.Given slaveId
      ⟨c, link.connector.receive slaveId link.backend.shared c.shared⟩ := by
  have hbefore := Backend.step_before hstep
  have hwithin : (link.sources slaveId).Within
      (terminalSources slaveId c.shared.cores link.connector.terminal) :=
    terminalSources_within hbefore.cores.subset (.refl _)
  have htickets : (link.sources slaveId).outline.Holds c := by
    refine TicketSources.outline_step h.grounded h.admitted h.tickets hstep ?_ ?_
    · rintro task - ⟨id, masterTicket⟩ - ticket hfound rfl
      obtain ⟨order, horder, hslave, hmaster, htype, -, hticket⟩ :=
        findExecutedOpenSlaveTicket_eq_some hfound
      have hcore := World.core_mem_cores horder
      exact ⟨order.core, hcore, hslave, htype, hmaster,
        h.gave_of_row hcore hslave htype (h.tickets.1.rows order horder) hticket⟩
    · rintro stimulus hstimulus ⟨id, result⟩ hreport ticket hticket rfl
      exact hreports stimulus hstimulus _ hreport rfl ticket hticket rfl
  exact ⟨grounded_preserved h.grounded hstep, admission_preserved h.admitted hstep,
    TicketSources.outline_mono htickets hwithin,
    SlaveConnector.receive_delivered h.instructions hbefore,
    fun result hresult => (h.results result hresult).mono hwithin, h.once⟩

theorem report (h : link.Given slaveId) {transport : Transport} {i : ℕ} {result : ExecutionResult}
    (hget : link.connector.results[i]? = some result) (connectorId : Uuid) {c : Config}
    (hstep : Backend.step link.backend (.arrive (transport.reporting slaveId connectorId result)) =
      some c) :
    SlaveLink.Given slaveId
      ⟨c, { link.connector with results := link.connector.results.eraseIdx i }⟩ := by
  have hresult := h.results result (List.mem_of_getElem? hget)
  obtain ⟨hreport, hsent⟩ := Transport.reporting_arrives hstep
  have hbackend := h.backend hstep (by
    rintro stimulus hstimulus report hmem -
    obtain rfl := Option.some.inj hstimulus
    obtain rfl := Option.some.inj (hreport.symm.trans hmem)
    exact hresult)
  rw [link.connector.receive_same hsent] at hbackend
  exact ⟨hbackend.grounded, hbackend.admitted, hbackend.tickets, hbackend.instructions,
    fun result hmem => hbackend.results result (List.eraseIdx_subset hmem), hbackend.once⟩

theorem execute (h : link.Given slaveId) {i : ℕ} {outcome : OrderOutcome}
    {connector : SlaveConnector} (hexecute : link.connector.execute i outcome = some connector) :
    SlaveLink.Given slaveId ⟨link.backend, connector⟩ := by
  obtain ⟨instruction, terminal, result, hget, hterminal, rfl⟩ := SlaveConnector.execute_cases hexecute
  have hexecuted := Terminal.execute_executed hterminal
  obtain ⟨hbefore, hcopy⟩ := hexecuted.before
  have hwithin : (link.sources slaveId).Within
      (terminalSources slaveId link.backend.shared.cores terminal) :=
    terminalSources_within (List.Subset.refl _) hbefore
  obtain ⟨delivery, hdelivery, hslave, rfl⟩ := h.instructions instruction (List.mem_of_getElem? hget)
  obtain ⟨core, hcore, hid, -, haction⟩ := h.grounded.1.sent delivery hdelivery
  refine ⟨h.grounded, h.admitted, TicketSources.outline_mono h.tickets hwithin, ?_, ?_, ?_⟩
  · exact fun other hother => h.instructions other (List.eraseIdx_subset hother)
  · intro reported hreported
    rcases List.mem_append.mp hreported with hold | hnew
    · exact (h.results reported hold).mono hwithin
    · obtain rfl := List.mem_singleton.mp hnew
      rintro ticket hticket -
      refine ⟨core, hcore, hid.trans hcopy.symm, fun hopen => ?_, fun hclose => ?_⟩
      · rw [hcopy]
        exact hexecuted.gave (haction.symm.trans hopen) hticket
      · have hclosing := haction.symm.trans hclose
        obtain ⟨named, hnamed, hnamedId, -, -, found, hfound, -, hopened⟩ :=
          h.tickets.1.sent delivery hdelivery (.inl hclosing)
        obtain ⟨order, horder, rfl⟩ := World.exists_of_mem_cores hnamed
        obtain rfl := h.grounded.1.core_eq hcore horder (hnamedId.trans hid.symm)
        rw [hexecuted.closing hclosing hticket] at hfound
        obtain rfl := Option.some.inj hfound
        exact (hopened hslave).mono (List.Subset.refl _) hbefore
  · exact hexecuted.nodup h.once

end Given

/-- As long as nobody else reports for the slave, its terminal has given out every ticket. -/
theorem given_step {transport : Transport} {link' : SlaveLink} {a : LinkAction}
    (h : link.Given slaveId) (hstep : link.step slaveId transport a = some link')
    (hobeys : a.Obeys slaveId transport) : link'.Given slaveId := by
  cases a with
  | backend action =>
      obtain ⟨backend, hbackend, rfl⟩ := Option.map_eq_some_iff.mp hstep
      refine h.backend hbackend fun stimulus hstimulus report hreport hslave => ?_
      exact absurd hslave (hobeys.reports action rfl stimulus hstimulus report hreport)
  | execute i outcome =>
      obtain ⟨connector, hexecute, rfl⟩ := Option.map_eq_some_iff.mp hstep
      exact h.execute hexecute
  | report i connectorId =>
      obtain ⟨result, hget, hreport⟩ := Option.bind_eq_some_iff.mp hstep
      obtain ⟨backend, hbackend, rfl⟩ := Option.map_eq_some_iff.mp hreport
      exact h.report hget connectorId hbackend

end SlaveLink

end ForexCopy
