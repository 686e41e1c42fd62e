import ForexCopy.Proof.Terminal.Given

/-!
# Tickets of what has happened

At a slave for which nobody else reports, a ticket recorded for an OPEN was given to its position, one
recorded for a CLOSE is that of a position that is closed, and no copy order is EXECUTED without one.
-/

namespace ForexCopy

open Machine Pool

/-- A ticket reported for an OPEN was given to its position, one reported for a CLOSE is that of a position
that is closed. -/
def settledSources (slaveId : Uuid) (cores : List CopyOrder) (terminal : Terminal) : TicketSources where
  Reported id copyId ticket := id = slaveId → ∃ core ∈ cores, core.id = copyId ∧
    (core.type = .open → terminal.Gave copyId ticket) ∧
    (core.type = .close → terminal.Opened slaveId cores core.masterTicket ticket ∧
      ticket ∈ terminal.closed)
  LookedUp id masterTicket ticket :=
    id = slaveId → terminal.Opened slaveId cores masterTicket ticket

section

variable {slaveId : Uuid} {cores cores' : List CopyOrder} {terminal terminal' : Terminal}

theorem settledSources_within (hcores : cores ⊆ cores') (hbefore : terminal.Before terminal') :
    (settledSources slaveId cores terminal).Within (settledSources slaveId cores' terminal') where
  reported id copyId ticket h hslave := by
    obtain ⟨core, hcore, hid, hopens, hcloses⟩ := h hslave
    refine ⟨core, hcores hcore, hid, fun htype => (hopens htype).mono hbefore, fun htype => ?_⟩
    exact ⟨(hcloses htype).1.mono hcores hbefore, hbefore.closed (hcloses htype).2⟩
  lookedUp id masterTicket ticket h hslave := (h hslave).mono hcores hbefore

variable {w : World} {order : CopyOrder} {ticket : String}

theorem settledSources_row (hsound : w.Sound) (horder : order ∈ w.copyOrders)
    (hslave : order.slaveId = slaveId) (h : (settledSources slaveId w.cores terminal).Row order)
    (hticket : order.slaveTicket = some ticket) :
    (order.type = .open → terminal.Gave order.id ticket) ∧
      (order.type = .close → terminal.Opened slaveId w.cores order.masterTicket ticket ∧
        ticket ∈ terminal.closed) := by
  obtain ⟨core, hcore, hid, hopens, hcloses⟩ := h ticket hticket hslave
  obtain rfl := hsound.core_eq hcore horder hid.symm
  exact ⟨hopens, hcloses⟩

end

namespace Terminal.Executed

variable {terminal terminal' : Terminal} {instruction : CopyInstruction} {result : ExecutionResult}

theorem closed_of_close (h : terminal.Executed instruction terminal' result)
    (haction : instruction.action = .close) {ticket : String} (hticket : ticket ∈ result.slaveTicket) :
    ticket ∈ terminal'.closed := by
  cases h with
  | failed => cases hticket
  | closed =>
      obtain rfl := Option.some.inj hticket
      exact List.mem_cons_self
  | opened hother | modified _ hother =>
      rw [haction] at hother
      cases hother

theorem ticket_isSome (h : terminal.Executed instruction terminal' result)
    (hstatus : result.status = .executed) : result.slaveTicket.isSome := by
  cases h with
  | failed => cases hstatus
  | opened | closed | modified => rfl

end Terminal.Executed

/-! ### No execution without a ticket -/

def Task.Ticketed (slaveId : Uuid) : Task → Prop
  | .message id result _ => id = slaveId → result.status = .executed → result.slaveTicket.isSome
  | _ => True

/-- Every copy order of the slave that is EXECUTED has a ticket. -/
def ticketed (slaveId : Uuid) : Outline World Task where
  shared w := ∀ order ∈ w.copyOrders, order.slaveId = slaveId → order.status = .executed →
    order.slaveTicket.isSome
  task _ t := t.Ticketed slaveId

section

variable {slaveId : Uuid} {w w' : World}

theorem Task.Background.ticketed {task : Task} (h : task.Background) : task.Ticketed slaveId :=
  Task.of_background (fun _ _ => trivial) (fun _ => trivial) (fun _ _ _ _ => trivial) h

theorem ticketed_insert {order : CopyOrder} (hstatus : order.status ≠ .executed)
    (h : (ticketed slaveId).shared w) : (ticketed slaveId).shared (w.insertOrder order) := by
  intro row hrow hslave hexecuted
  rcases List.mem_append.mp hrow with hold | hnew
  · exact h row hold hslave hexecuted
  · obtain rfl := List.mem_singleton.mp hnew
    exact absurd hexecuted hstatus

theorem ticketed_update {copyId : Uuid} {change : CopyOrder → CopyOrder}
    (hchange : ∀ order ∈ w.copyOrders, order.id = copyId → (change order).slaveId = slaveId →
      (change order).status = .executed → (change order).slaveTicket.isSome)
    (h : (ticketed slaveId).shared w) : (ticketed slaveId).shared (w.updateOrder copyId change) := by
  intro row hrow hslave hexecuted
  obtain ⟨old, hold, ⟨hid, rfl⟩ | ⟨-, rfl⟩⟩ := Table.mem_update.mp hrow
  · exact hchange old hold hid hslave hexecuted
  · exact h _ hold hslave hexecuted

theorem Task.Step.ticketed {reply : Reply} {task : Task} {next : List Task}
    (hstep : Task.Step reply w task w' next) (hsound : w.Sound) (hgrounded : task.Grounded w)
    (hw : (ticketed slaveId).shared w) (htask : task.Ticketed slaveId) :
    (ForexCopy.ticketed slaveId).shared w' ∧ ∀ t ∈ next, t.Ticketed slaveId := by
  cases hstep with
  | ends => exact ⟨hw, by simp⟩
  | background _ hnext hsame =>
      refine ⟨fun order horder => hw order (hsame.copyOrders ▸ horder), fun t ht => ?_⟩
      exact (hnext t ht).ticketed
  | persist => exact ⟨hw, by simp⟩
  | eventRead | copyRead | pollRead => exact ⟨hw, by simp [Ticketed]⟩
  | fanOut => exact ⟨hw, by simp [Ticketed]⟩
  | refuse => exact ⟨ticketed_insert (by simp [CopyRun.failedOrder, CopyRun.order]) hw, by simp⟩
  | insert run resolvedSymbol slaveTicket volume hkey hnext =>
      refine ⟨ticketed_insert (by simp [CopyRun.pendingOrder, CopyRun.order]) hw, fun t ht => ?_⟩
      obtain ⟨rfl, -⟩ | rfl := hnext.mem ht
      · trivial
      · trivial
  | push => exact ⟨ticketed_insert (by simp [CopyRun.pendingOrder, CopyRun.order]) hw, by simp [Ticketed]⟩
  | markOffline | pollFailed =>
      exact ⟨ticketed_update (fun _ _ _ _ h => by cases h) hw, by simp⟩
  | markSent run copyId sent =>
      exact ⟨ticketed_update (fun _ _ _ _ h => by cases sent <;> cases h) hw, by simp⟩
  | respond | respondLost =>
      exact ⟨ticketed_update (fun _ _ _ _ h => by cases h) hw, by simp⟩
  | messageRead => exact ⟨hw, by simpa [Ticketed] using htask⟩
  | record id result read =>
      obtain ⟨hread, hreadSlave, hreadId⟩ := hgrounded
      refine ⟨ticketed_update (fun order horder hid hslave hstatus => ?_) hw, by simp⟩
      have hsame := hsound.core_eq hread horder (hid.trans hreadId.symm)
      have hto : id = slaveId :=
        hreadSlave.symm.trans ((CopyOrder.slaveId_of_core hsame).symm.trans hslave)
      have hexecuted : result.status = .executed := by
        cases hresult : result.status with
        | executed => rfl
        | failed =>
            simp only [CopyOrder.record, hresult] at hstatus
            cases hstatus
      obtain ⟨ticket, hticket⟩ := Option.isSome_iff_exists.mp (htask hto hexecuted)
      simp [CopyOrder.record, hticket]

theorem ticketed_step {c c' : Config} {a : Action} (hgrounded : grounded.Holds c)
    (h : (ticketed slaveId).Holds c) (hstep : Backend.step c a = some c')
    (hreports : ∀ stimulus ∈ a.stimulus, ∀ report ∈ stimulus.report, report.1 = slaveId →
      report.2.status = .executed → report.2.slaveTicket.isSome) : (ticketed slaveId).Holds c' := by
  refine Backend.outline_step h hstep ?_ ?_ fun _ _ _ _ hother => hother
  · intro _ reply task w' next _ hget hmove
    have hmem := List.mem_of_getElem? hget
    exact hmove.ticketed hgrounded.1 (hgrounded.2 task hmem) h.1 (h.2 task hmem)
  · rintro stimulus rfl
    obtain ⟨horders, -, -⟩ := stimulus.apply_frame c.shared
    refine ⟨fun order horder => h.1 order (horders ▸ horder), fun t ht => ?_⟩
    rcases Stimulus.started ht with hback | ⟨event, rfl⟩ | ⟨id, result, hreport, rfl⟩ | ⟨id, -, rfl⟩
    · exact hback.ticketed
    · trivial
    · exact hreports stimulus rfl (id, result) hreport
    · trivial

end

end ForexCopy
