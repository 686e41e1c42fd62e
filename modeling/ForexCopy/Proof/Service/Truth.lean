import ForexCopy.Proof.Service.Turns
import ForexCopy.Proof.Terminal.Settled

/-!
# What the tables tell of an MT5 slave

What is EXECUTED in the tables has happened at the terminal, whatever happens to the connections, to the
requests at the broker and to the positions by other hands.
-/

namespace ForexCopy

open Machine

namespace Mt5Service.Terminal

/-- The history of the terminal as far as it is that of the service. -/
def view (terminal : Terminal) : ForexCopy.Terminal where
  opened := terminal.openings.filterMap fun opening => opening.instruction.map fun instruction =>
    ⟨instruction.copyId, toString opening.position.ticket, opening.position.volume⟩
  closed := (terminal.tickets.filter fun ticket =>
    ticket ∉ terminal.positions.map Position.ticket).map toString

variable {Owned : Opening → Prop} {terminal terminal' : Terminal}

theorem gave_iff {copyId : Uuid} {ticket : String} : terminal.view.Gave copyId ticket ↔
    ∃ opening ∈ terminal.openings, ∃ instruction ∈ opening.instruction, instruction.copyId = copyId ∧
      ticket = toString opening.position.ticket := by
  constructor
  · rintro ⟨position, hposition, rfl, rfl⟩
    obtain ⟨opening, hopening, hmap⟩ := List.mem_filterMap.mp hposition
    obtain ⟨instruction, hinstruction, rfl⟩ := Option.map_eq_some_iff.mp hmap
    exact ⟨opening, hopening, instruction, hinstruction, rfl, rfl⟩
  · rintro ⟨opening, hopening, instruction, hinstruction, rfl, rfl⟩
    exact ⟨_, List.mem_filterMap.mpr ⟨opening, hopening, Option.map_eq_some_iff.mpr
      ⟨instruction, hinstruction, rfl⟩⟩, rfl, rfl⟩

theorem mem_closed {n : ℕ} : toString n ∈ terminal.view.closed ↔
    n ∈ terminal.tickets ∧ n ∉ terminal.positions.map Position.ticket := by
  constructor
  · intro hmem
    obtain ⟨ticket, hticket, htext⟩ := List.mem_map.mp hmem
    obtain rfl := Numeral.toString_nat_injective htext
    simpa using hticket
  · intro h
    exact List.mem_map_of_mem (by simpa using h)

theorem positions_update (terminal : Terminal) (ticket : ℕ) (volume sl tp : ℚ) :
    (terminal.update ticket volume sl tp).positions.map Position.ticket =
      terminal.positions.map Position.ticket := by
  rw [update, Table.update, List.map_map]
  refine List.map_congr_left fun position _ => ?_
  simp only [Function.comp_apply]
  split_ifs <;> rfl

theorem Change.tickets_subset (h : terminal.Change Owned terminal') :
    terminal.tickets ⊆ terminal'.tickets := by
  unfold tickets
  rcases h.openings with hsame | ⟨opening, -, hnew⟩
  · rw [hsame]
    exact List.Subset.refl _
  · rw [hnew, List.map_append]
    exact List.subset_append_left _ _

/-- What was opened and what was closed is not undone. -/
theorem Change.before (h : terminal.Change Owned terminal') : terminal.view.Before terminal'.view where
  opened := by
    unfold view
    rcases h.openings with hsame | ⟨opening, -, hnew⟩
    · rw [hsame]
      exact List.Subset.refl _
    · rw [hnew, List.filterMap_append]
      exact List.subset_append_left _ _
  closed := by
    intro text htext
    obtain ⟨n, -, rfl⟩ := List.mem_map.mp htext
    obtain ⟨hticket, hclosed⟩ := mem_closed.mp htext
    refine mem_closed.mpr ⟨h.tickets_subset hticket, ?_⟩
    cases h with
    | same => exact hclosed
    | opened opening _ hfresh =>
        rw [List.map_append, List.mem_append, not_or]
        refine ⟨hclosed, fun hmem => hfresh ?_⟩
        obtain rfl := List.mem_singleton.mp hmem
        exact hticket
    | removed ticket =>
        intro hmem
        obtain ⟨position, hposition, rfl⟩ := List.mem_map.mp hmem
        exact hclosed (List.mem_map_of_mem (List.mem_of_mem_filter hposition))
    | updated ticket volume sl tp =>
        rw [positions_update]
        exact hclosed

end Mt5Service.Terminal

namespace Mt5Link

variable {slaveId connectorId : Uuid} {link link' : Mt5Link}

/-- The result is about the instruction, and tells no more than has happened. -/
structure Tells (slaveId : Uuid) (cores : List CopyOrder) (terminal : Terminal)
    (instruction : CopyInstruction) (result : ExecutionResult) : Prop where
  about : About instruction result
  ticket : result.status = .executed → result.slaveTicket.isSome
  settled : (settledSources slaveId cores terminal).Result slaveId result

theorem Tells.mono {cores cores' : List CopyOrder} {terminal terminal' : Terminal}
    {instruction : CopyInstruction} {result : ExecutionResult}
    (h : Tells slaveId cores terminal instruction result) (hcores : cores ⊆ cores')
    (hbefore : terminal.Before terminal') : Tells slaveId cores' terminal' instruction result :=
  ⟨h.about, h.ticket, h.settled.mono (settledSources_within hcores hbefore)⟩

/-- The backend and the service keep to the history of the terminal. -/
structure Agrees (slaveId : Uuid) (link : Mt5Link) : Prop where
  orderly : link.Orderly slaveId
  admitted : admission.Holds link.backend
  tickets : (settledSources slaveId link.backend.shared.cores link.terminal.view).outline.Holds
    link.backend
  ticketed : (ticketed slaveId).Holds link.backend
  serial : link.service.Serial (Tells slaveId link.backend.shared.cores link.terminal.view)

namespace Agrees

theorem delivered (h : link.Agrees slaveId) {instruction : CopyInstruction}
    (hinstruction : instruction ∈ link.service.requests) : ∃ delivery ∈ link.backend.shared.sent,
      delivery.slaveId = slaveId ∧ delivery.instruction = instruction := by
  obtain ⟨delivery, hdelivery, rfl⟩ := List.mem_map.mp (h.orderly.handed.subset hinstruction)
  obtain ⟨hsent, hpushed⟩ := List.mem_filter.mp hdelivery
  exact ⟨delivery, hsent, (of_decide_eq_true hpushed).2, rfl⟩

/-- A ticket in the row of an OPEN is that of its position. -/
theorem gave (h : link.Agrees slaveId) {order : CopyOrder}
    (horder : order ∈ link.backend.shared.copyOrders) (hslave : order.slaveId = slaveId)
    (htype : order.type = .open) {ticket : String} (hticket : order.slaveTicket = some ticket) :
    link.terminal.view.Gave order.id ticket :=
  (settledSources_row h.orderly.grounded.1 horder hslave (h.tickets.1.rows order horder) hticket).1 htype

/-- The backend is told no more than has happened, and the service goes on. -/
theorem backend (h : link.Agrees slaveId) {a : Action} {c : Config}
    (hstep : Backend.step link.backend a = some c)
    (hreports : ∀ stimulus ∈ a.stimulus, ∀ report ∈ stimulus.report, report.1 = slaveId →
      ∃ instruction, Tells slaveId link.backend.shared.cores link.terminal.view instruction report.2)
    {service : Server CopyInstruction ExecutionResult} {registered : Option ℕ}
    (horderly : Orderly slaveId { link with backend := c, service := service, registered := registered })
    (hserves : ∀ Answers, link.service.Serial Answers → service.Serial Answers) :
    Agrees slaveId { link with backend := c, service := service, registered := registered } := by
  have hbefore := Backend.step_before hstep
  have hsame : link.terminal.view.Before link.terminal.view := .refl _
  have hwithin : (settledSources slaveId link.backend.shared.cores link.terminal.view).Within
      (settledSources slaveId c.shared.cores link.terminal.view) :=
    settledSources_within hbefore.cores.subset hsame
  refine ⟨horderly, admission_preserved h.admitted hstep, ?_, ?_, hserves _ ?_⟩
  · refine TicketSources.outline_step h.orderly.grounded h.admitted
      (TicketSources.outline_mono h.tickets hwithin) hstep ?_ ?_
    · rintro task - ⟨id, masterTicket⟩ - ticket hfound rfl
      obtain ⟨order, horder, hslave, hmaster, htype, -, hticket⟩ :=
        findExecutedOpenSlaveTicket_eq_some hfound
      exact ⟨order.core, hbefore.mem_cores (World.core_mem_cores horder), hslave, htype, hmaster,
        h.gave horder hslave htype hticket⟩
    · rintro stimulus hstimulus ⟨id, result⟩ hreport ticket hticket rfl
      obtain ⟨_, htells⟩ := hreports stimulus hstimulus _ hreport rfl
      exact hwithin.reported _ _ _ (htells.settled ticket hticket) rfl
  · refine ticketed_step h.orderly.grounded h.ticketed hstep
      fun stimulus hstimulus report hreport hslave => ?_
    obtain ⟨_, htells⟩ := hreports stimulus hstimulus report hreport hslave
    exact htells.ticket
  · exact h.serial.mono fun _ _ htells => htells.mono hbefore.cores.subset hsame

/-- What has happened at the terminal has happened for good. -/
theorem later (h : link.Agrees slaveId) {terminal : Mt5Service.Terminal}
    (hbefore : link.terminal.view.Before terminal.view) :
    (settledSources slaveId link.backend.shared.cores terminal.view).outline.Holds link.backend ∧
      link.service.Serial (Tells slaveId link.backend.shared.cores terminal.view) :=
  ⟨TicketSources.outline_mono h.tickets (settledSources_within (List.Subset.refl _) hbefore),
    h.serial.mono fun _ _ htells => htells.mono (List.Subset.refl _) hbefore⟩

/-- The result of an execution tells no more than has happened. -/
theorem tells (h : link.Agrees slaveId) {instruction : CopyInstruction}
    (hinstruction : instruction ∈ link.service.requests) {terminal : Mt5Service.Terminal}
    (hchange : link.terminal.Change (Mt5Service.OpenedBy instruction) terminal) {result : ExecutionResult}
    (hreports : Mt5Service.Reports instruction terminal result) :
    Tells slaveId link.backend.shared.cores terminal.view instruction result := by
  refine ⟨hreports.copyId, hreports.ticket, ?_⟩
  obtain ⟨delivery, hdelivery, hslave, rfl⟩ := h.delivered hinstruction
  obtain ⟨core, hcore, hcoreId, -, haction⟩ := h.orderly.grounded.1.sent delivery hdelivery
  rintro ticket hticket -
  refine ⟨core, hcore, hcoreId.trans hreports.copyId.symm, fun hopen => ?_, fun hclose => ?_⟩
  · obtain ⟨opening, hopening, hopened, rfl⟩ := hreports.opened (haction.symm.trans hopen) ticket hticket
    exact Mt5Service.Terminal.gave_iff.mpr
      ⟨opening, hopening, _, hopened.owner, hreports.copyId.symm, rfl⟩
  · have hclosing := haction.symm.trans hclose
    obtain ⟨named, hnamed, hnamedId, -, -, found, hfound, -, hopened⟩ :=
      h.tickets.1.sent delivery hdelivery (.inl hclosing)
    obtain ⟨order, horder, rfl⟩ := World.exists_of_mem_cores hnamed
    obtain rfl := h.orderly.grounded.1.core_eq hcore horder (hnamedId.trans hcoreId.symm)
    -- The ticket that the instruction names is a number that the terminal has given out.
    obtain ⟨opener, hopener, hopenerSlave, hopenerType, hmaster, hgave⟩ := hopened hslave
    obtain ⟨opening, hopening, -, -, -, htext⟩ := Mt5Service.Terminal.gave_iff.mp hgave
    obtain ⟨n, rfl, hnumber, hgone⟩ := hreports.closed hclosing ticket hticket
    rw [hfound, Option.bind_some, htext, Python.int_toString] at hnumber
    obtain rfl : opening.position.ticket = n := by simpa using hnumber
    have hgiven : opening.position.ticket ∈ link.terminal.tickets := List.mem_map_of_mem hopening
    refine ⟨⟨opener, hopener, hopenerSlave, hopenerType, hmaster, ?_⟩,
      Mt5Service.Terminal.mem_closed.mpr ⟨hchange.tickets_subset hgiven, hgone⟩⟩
    exact htext ▸ hgave.mono hchange.before

end Agrees

/-! ### Runs -/

/-- Nobody else reports for the slave. -/
def Obeys (slaveId : Uuid) (_ : Mt5Link) : Mt5Action → Prop
  | .backend action => ∀ stimulus ∈ action.stimulus, ∀ report ∈ stimulus.report, report.1 ≠ slaveId
  | _ => True

instance (slaveId : Uuid) (link : Mt5Link) (a : Mt5Action) : Decidable (Obeys slaveId link a) :=
  match a with
  | .backend action => inferInstanceAs (Decidable (∀ stimulus ∈ action.stimulus, _))
  | .connect | .register _ | .closed _ | .receive | .execute _ | .send | .leave | .arrive _ | .trade _ =>
    inferInstanceAs (Decidable True)

/-- A stimulus that reports nothing for the slave. -/
theorem Agrees.silent (h : link.Agrees slaveId) {a : Action} {c : Config}
    (hstep : Backend.step link.backend a = some c)
    (hreports : ∀ stimulus ∈ a.stimulus, ∀ report ∈ stimulus.report, report.1 ≠ slaveId)
    {service : Server CopyInstruction ExecutionResult} {registered : Option ℕ}
    (horderly : Orderly slaveId { link with backend := c, service := service, registered := registered })
    (hserves : ∀ Answers, link.service.Serial Answers → service.Serial Answers) :
    Agrees slaveId { link with backend := c, service := service, registered := registered } := by
  refine h.backend hstep (fun stimulus hstimulus report hreport hslave => ?_) horderly hserves
  exact absurd hslave (hreports stimulus hstimulus report hreport)

theorem agrees_step {a : Mt5Action} (hobeys : Obeys slaveId link a) (h : link.Agrees slaveId)
    (hstep : link.step slaveId connectorId a = some link') : link'.Agrees slaveId := by
  have horderly := orderly_preserved slaveId connectorId h.orderly hstep
  cases a with
  | backend action =>
      obtain ⟨c, hbackend, rfl⟩ := Option.map_eq_some_iff.mp hstep
      refine h.silent hbackend hobeys horderly fun _ hserial => ?_
      unfold write
      split
      · exact hserial
      · exact hserial.write _ _
  | connect =>
      obtain ⟨service, hopen, rfl⟩ := Option.map_eq_some_iff.mp hstep
      exact ⟨horderly, h.admitted, h.tickets, h.ticketed, h.serial.open hopen⟩
  | register socket =>
      obtain ⟨-, hregister⟩ := Option.ite_none_right_eq_some.mp hstep
      obtain ⟨c, hbackend, rfl⟩ := Option.map_eq_some_iff.mp hregister
      exact h.silent hbackend (by rintro stimulus ⟨⟩ report ⟨⟩) horderly fun _ => id
  | closed socket =>
      simp only [step] at hstep
      split_ifs at hstep
      · obtain ⟨c, hbackend, rfl⟩ := Option.map_eq_some_iff.mp hstep
        exact h.silent hbackend (by rintro stimulus ⟨⟩ report ⟨⟩) horderly fun _ => id
      · obtain rfl := Option.some.inj hstep
        exact h
  | receive =>
      obtain ⟨service, htake, rfl⟩ := Option.map_eq_some_iff.mp hstep
      exact ⟨horderly, h.admitted, h.tickets, h.ticketed, h.serial.take htake⟩
  | execute platform =>
      simp only [step] at hstep
      split at hstep
      · rename_i socket instruction hworking
        obtain ⟨⟨terminal, outcome⟩, hhandle, hrest⟩ := Option.bind_eq_some_iff.mp hstep
        obtain ⟨service, hfinish, rfl⟩ := Option.map_eq_some_iff.mp hrest
        obtain ⟨hchange, hreports⟩ := Mt5Service.handleInstruction_leads hhandle
        obtain ⟨htaken, -⟩ := h.orderly.working socket instruction hworking
        obtain ⟨htickets, hserial⟩ := h.later hchange.before
        refine ⟨horderly, h.admitted, htickets, h.ticketed,
          hserial.finish hfinish fun _ other hother given hgiven => ?_⟩
        obtain ⟨-, rfl⟩ : socket = _ ∧ instruction = other := by simpa [hworking] using hother
        exact h.tells (link.service.taken_sublist.subset htaken) hchange (hreports given hgiven)
      · cases hstep
  | send =>
      obtain ⟨service, hreply, rfl⟩ := Option.map_eq_some_iff.mp hstep
      exact ⟨horderly, h.admitted, h.tickets, h.ticketed, h.serial.reply hreply⟩
  | leave =>
      obtain rfl := Option.some.inj hstep
      exact ⟨horderly, h.admitted, h.tickets, h.ticketed, h.serial.leave⟩
  | arrive socket =>
      obtain ⟨⟨result, service⟩, harrive, hrest⟩ := Option.bind_eq_some_iff.mp hstep
      obtain ⟨c, hbackend, rfl⟩ := Option.map_eq_some_iff.mp hrest
      obtain ⟨instruction, -, htells⟩ := h.serial.arrived harrive
      refine h.backend hbackend ?_ horderly fun _ hserial => hserial.arrive harrive
      rintro stimulus ⟨⟩ report ⟨⟩ -
      exact ⟨instruction, htells⟩
  | trade trade =>
      obtain ⟨terminal, htrade, rfl⟩ := Option.map_eq_some_iff.mp hstep
      obtain ⟨htickets, hserial⟩ := h.later (Mt5Service.Terminal.trade_change htrade).before
      exact ⟨horderly, h.admitted, htickets, h.ticketed, hserial⟩

theorem Idle.agrees (h : link.Idle)
    (hrows : ∀ order ∈ link.backend.shared.copyOrders, order.slaveId ≠ slaveId) :
    link.Agrees slaveId where
  orderly := h.orderly
  admitted := ⟨trivial, by simp [h.backend.tasks]⟩
  tickets := by
    refine ⟨⟨fun order horder ticket _ hslave => ?_, by simp [h.backend.sent]⟩,
      by simp [h.backend.tasks]⟩
    exact absurd hslave (hrows order horder)
  ticketed := ⟨fun order horder hslave => absurd hslave (hrows order horder), by simp [h.backend.tasks]⟩
  serial := h.service ▸ Server.serial_start

/-- What the slave's rows say about its terminal. -/
structure Truthful (slaveId : Uuid) (link : Mt5Link) : Prop where
  /-- An OPEN that is EXECUTED has had its position. -/
  opens : ∀ row ∈ link.backend.shared.copyOrders, row.slaveId = slaveId → row.type = .open →
    row.status = .executed → ∃ opening ∈ link.terminal.openings, ∃ instruction,
      Mt5Service.OpenedBy instruction opening ∧ instruction.copyId = row.id ∧
        row.slaveTicket = some (toString opening.position.ticket)
  /-- A CLOSE that is EXECUTED names the position of an OPEN of its master ticket, which is gone. -/
  closes : ∀ row ∈ link.backend.shared.copyOrders, row.slaveId = slaveId → row.type = .close →
    row.status = .executed → ∃ opening ∈ link.terminal.openings, ∃ instruction,
      Mt5Service.OpenedBy instruction opening ∧
        row.slaveTicket = some (toString opening.position.ticket) ∧
        opening.position.ticket ∉ link.terminal.positions.map Mt5Service.Position.ticket ∧
        ∃ opened ∈ link.backend.shared.copyOrders, opened.slaveId = slaveId ∧ opened.type = .open ∧
          opened.masterTicket = row.masterTicket ∧ instruction.copyId = opened.id

theorem Agrees.truthful (h : link.Agrees slaveId) : link.Truthful slaveId where
  opens row hrow hslave htype hstatus := by
    obtain ⟨ticket, hticket⟩ := Option.isSome_iff_exists.mp (h.ticketed.1 row hrow hslave hstatus)
    obtain ⟨opening, hopening, instruction, hinstruction, hid, rfl⟩ :=
      Mt5Service.Terminal.gave_iff.mp (h.gave hrow hslave htype hticket)
    exact ⟨opening, hopening, instruction, (h.orderly.opened opening hopening _ hinstruction).2, hid,
      hticket⟩
  closes row hrow hslave htype hstatus := by
    obtain ⟨ticket, hticket⟩ := Option.isSome_iff_exists.mp (h.ticketed.1 row hrow hslave hstatus)
    obtain ⟨⟨core, hcore, hcoreSlave, hcoreType, hmaster, hgave⟩, hclosed⟩ :=
      (settledSources_row h.orderly.grounded.1 hrow hslave (h.tickets.1.rows row hrow) hticket).2 htype
    obtain ⟨opened, hopened, rfl⟩ := World.exists_of_mem_cores hcore
    obtain ⟨opening, hopening, instruction, hinstruction, hid, rfl⟩ :=
      Mt5Service.Terminal.gave_iff.mp hgave
    exact ⟨opening, hopening, instruction, (h.orderly.opened opening hopening _ hinstruction).2, hticket,
      (Mt5Service.Terminal.mem_closed.mp hclosed).2, opened, hopened, hcoreSlave, hcoreType, hmaster, hid⟩

/-- As long as nobody else reports for the slave, an MT5 slave's rows say what has happened at its
terminal. -/
theorem run_tells_truth (slaveId connectorId : Uuid) (start link : Mt5Link) (actions : List Mt5Action)
    (hstart : start.Idle) (hrows : ∀ order ∈ start.backend.shared.copyOrders, order.slaveId ≠ slaveId)
    (hrun : follow (restrict (step slaveId connectorId) (Obeys slaveId)) start actions = some link) :
    link.Truthful slaveId := by
  have hpreserved : Preserved (restrict (step slaveId connectorId) (Obeys slaveId)) (Agrees slaveId) :=
    fun _ _ _ h hstep => agrees_step (restrict_eq_some.mp hstep).1 h (restrict_eq_some.mp hstep).2
  exact (hpreserved.follow (hstart.agrees hrows) hrun).truthful

end Mt5Link

open Sample Mt5Link in
theorem reconnected_tells_truth : mt5Start.Idle ∧ ∃ link,
    follow (restrict (step 5 9) (Obeys 5)) mt5Start reconnected = some link ∧
      (∃ row ∈ link.backend.shared.copyOrders, row.type = .close ∧ row.status = .executed) ∧
      link.Truthful 5 := by
  have hidle : mt5Start.Idle := ⟨⟨⟨by decide, by decide, by decide, by decide⟩, rfl, rfl⟩, rfl, by decide⟩
  have hruns : ∃ link, follow (restrict (step 5 9) (Obeys 5)) mt5Start reconnected = some link ∧
      ∃ row ∈ link.backend.shared.copyOrders, row.type = .close ∧ row.status = .executed := by
    decide +kernel
  obtain ⟨link, hrun, hclosed⟩ := hruns
  exact ⟨hidle, link, hrun, hclosed,
    run_tells_truth 5 9 mt5Start link reconnected hidle (by decide) hrun⟩

end ForexCopy
