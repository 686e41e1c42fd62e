import ForexCopy.Proof.Terminal.Tickets

/-!
# Trade identity

The master's ticket is never taken for the slave's. Read in the history of a run, the sources of tickets
say that a CLOSE or MODIFY names a ticket which its own slave has reported for an OPEN of the same
master ticket, in whatever order messages, dispatches and polls come.
-/

namespace ForexCopy

open Machine

/-- In one of the actions the slave reports the ticket for the copy order. -/
def ReportedIn (actions : List Action) (slaveId copyId : Uuid) (ticket : String) : Prop :=
  ∃ a ∈ actions, ∃ stimulus ∈ a.stimulus, ∃ result, stimulus.report = some (slaveId, result) ∧
    result.copyId = copyId ∧ result.slaveTicket = some ticket

/-- In the course of the actions a call looks a ticket up for the slave and the master ticket, and finds
this one: it is the ticket of an OPEN copy order that is EXECUTED by then, as the slave has reported it
before. -/
def LookedUpIn (start : Config) (actions : List Action) (slaveId : Uuid)
    (masterTicket ticket : String) : Prop :=
  ∃ before a c, before ++ [a] <+: actions ∧ follow Backend.step start before = some c ∧
    (∃ task ∈ a.resumed c, task.lookingUp = some (slaveId, masterTicket)) ∧
    findExecutedOpenSlaveTicket slaveId masterTicket c.shared.copyOrders = some ticket ∧
    ∃ order ∈ c.shared.copyOrders, order.slaveId = slaveId ∧ order.masterTicket = masterTicket ∧
      order.type = .open ∧ order.status = .executed ∧ order.slaveTicket = some ticket ∧
      ReportedIn before slaveId order.id ticket

/-- The sources in the history of a run. -/
def historySources (start : Config) (actions : List Action) : TicketSources :=
  ⟨ReportedIn actions, LookedUpIn start actions⟩

theorem historySources_within (start : Config) (before after : List Action) :
    (historySources start before).Within (historySources start (before ++ after)) where
  reported := by
    rintro slaveId copyId ticket ⟨a, ha, hrest⟩
    exact ⟨a, List.mem_append_left _ ha, hrest⟩
  lookedUp := by
    rintro slaveId masterTicket ticket ⟨front, a, c, hprefix, hrest⟩
    exact ⟨front, a, c, hprefix.trans (List.prefix_append _ _), hrest⟩

/-- What the backend knows after a history. -/
structure Config.Traces (c start : Config) (actions : List Action) : Prop where
  grounded : grounded.Holds c
  admitted : admission.Holds c
  tickets : (historySources start actions).outline.Holds c

theorem Config.Traces.step {start c c' : Config} {before : List Action} {a : Action}
    (hbefore : follow Backend.step start before = some c) (h : c.Traces start before)
    (hstep : Backend.step c a = some c') : c'.Traces start (before ++ [a]) := by
  have hwithin := historySources_within start before [a]
  refine ⟨grounded_preserved h.grounded hstep, admission_preserved h.admitted hstep, ?_⟩
  refine TicketSources.outline_step h.grounded h.admitted (TicketSources.outline_mono h.tickets hwithin)
    hstep ?_ ?_
  · rintro task htask ⟨slaveId, masterTicket⟩ hquery ticket hfound
    obtain ⟨order, horder, hslave, hmaster, htype, hstatus, hticket⟩ :=
      findExecutedOpenSlaveTicket_eq_some hfound
    have hreported := h.tickets.1.rows order horder ticket hticket
    exact ⟨before, a, c, List.prefix_rfl, hbefore, ⟨task, htask, hquery⟩, hfound, order, horder, hslave,
      hmaster, htype, hstatus, hticket, hslave ▸ hreported⟩
  · rintro stimulus hstimulus ⟨slaveId, result⟩ hreport ticket hticket
    exact ⟨a, by simp, stimulus, hstimulus, result, hreport, rfl, hticket⟩

/-- A CLOSE or MODIFY is only ever handed over with a ticket, and it is one that the slave has reported
for an OPEN copy order of the same master ticket, EXECUTED when the ticket was looked up. -/
theorem delivered_ticket_reported (start c : Config) (actions : List Action) (hstart : start.Idle)
    (hblank : ∀ order ∈ start.shared.copyOrders, order.slaveTicket = none)
    (hrun : follow Backend.step start actions = some c) (delivery : Delivery)
    (hdelivery : delivery ∈ c.shared.sent)
    (hacts : delivery.instruction.action = .close ∨ delivery.instruction.action = .modify) :
    ∃ order ∈ c.shared.copyOrders, order.id = delivery.instruction.copyId ∧
      order.slaveId = delivery.slaveId ∧ order.type = delivery.instruction.action ∧
      ∃ ticket, delivery.instruction.slaveTicket = some ticket ∧ ticket ≠ "" ∧
        LookedUpIn start actions delivery.slaveId order.masterTicket ticket := by
  have hinitial : start.Traces start [] := by
    refine ⟨hstart.grounded, ⟨trivial, by simp [hstart.tasks]⟩, ⟨?_, ?_⟩, by simp [hstart.tasks]⟩
    · intro order horder ticket hticket
      rw [hblank order horder] at hticket
      cases hticket
    · simp [hstart.sent]
  have hstep : ∀ before mid a mid', follow Backend.step start before = some mid →
      Config.Traces mid start before → Backend.step mid a = some mid' →
      Config.Traces mid' start (before ++ [a]) :=
    fun _ _ _ _ hbefore h hstep => h.step hbefore hstep
  have h := follow_history (P := fun before mid => Config.Traces mid start before) hinitial hstep hrun
  obtain ⟨core, hcore, hid, hslave, htype, hfound⟩ := h.tickets.1.sent delivery hdelivery hacts
  obtain ⟨order, horder, rfl⟩ := World.exists_of_mem_cores hcore
  exact ⟨order, horder, hid, hslave, htype, hfound⟩

/-- The OPEN is copied and reported, then the CLOSE is copied. -/
def Sample.openedThenClosed : List Action :=
  .arrive (.masterEvent Sample.openEvent) :: Sample.settle 8 ++ Sample.reported 1 "875421" ++
    .arrive (.masterEvent Sample.closeEvent) :: Sample.settle 7

theorem closed_ticket_reported :
    ∃ c, follow Backend.step (Sample.config Sample.mt5Slave [Sample.openEvent, Sample.closeEvent])
        Sample.openedThenClosed = some c ∧
      ∃ delivery ∈ c.shared.sent, delivery.instruction.action = .close ∧
        ∃ order ∈ c.shared.copyOrders, order.id = delivery.instruction.copyId ∧
          order.slaveId = delivery.slaveId ∧ order.type = delivery.instruction.action ∧
          ∃ ticket, delivery.instruction.slaveTicket = some ticket ∧ ticket ≠ "" ∧
            LookedUpIn (Sample.config Sample.mt5Slave [Sample.openEvent, Sample.closeEvent])
              Sample.openedThenClosed delivery.slaveId order.masterTicket ticket := by
  have hruns : ∃ c,
      follow Backend.step (Sample.config Sample.mt5Slave [Sample.openEvent, Sample.closeEvent])
        Sample.openedThenClosed = some c ∧
      ∃ delivery ∈ c.shared.sent, delivery.instruction.action = .close := by
    decide +kernel
  obtain ⟨c, hrun, delivery, hdelivery, hclose⟩ := hruns
  have hidle : Config.Idle (Sample.config Sample.mt5Slave [Sample.openEvent, Sample.closeEvent]) :=
    ⟨⟨by decide, by decide, by decide, by decide⟩, rfl, rfl⟩
  exact ⟨c, hrun, delivery, hdelivery, hclose,
    delivered_ticket_reported _ c _ hidle (by decide) hrun delivery hdelivery (.inl hclose)⟩

end ForexCopy
