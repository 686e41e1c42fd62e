import ForexCopy.Proof.Terminal.Transport

/-!
# What the backend knows is so

A ticket in an OPEN row was given out by the terminal for that copy order, a ticket in a CLOSE
instruction is one of its master ticket, and a result of a CLOSE comes after the position was closed. A
terminal never takes back what it has opened and closed, so all this stays true however long a call
takes.
-/

namespace ForexCopy

open Machine Pool

/-! ### Evidence at the terminal -/

structure Terminal.Before (terminal terminal' : Terminal) : Prop where
  opened : terminal.opened ⊆ terminal'.opened
  closed : terminal.closed ⊆ terminal'.closed

def Terminal.Gave (terminal : Terminal) (copyId : Uuid) (ticket : String) : Prop :=
  ∃ position ∈ terminal.opened, position.copyId = copyId ∧ position.ticket = ticket

/-- The ticket was given out for an OPEN copy of the master ticket. -/
def Terminal.Opened (slaveId : Uuid) (cores : List CopyOrder) (terminal : Terminal)
    (masterTicket ticket : String) : Prop :=
  ∃ core ∈ cores, core.slaveId = slaveId ∧ core.type = .open ∧ core.masterTicket = masterTicket ∧
    terminal.Gave core.id ticket

/-- The position of an OPEN copy of the master ticket was closed. -/
def Terminal.Retired (slaveId : Uuid) (cores : List CopyOrder) (terminal : Terminal)
    (masterTicket : String) : Prop :=
  ∃ ticket, terminal.Opened slaveId cores masterTicket ticket ∧ ticket ∈ terminal.closed

/-- A CLOSE instruction names a ticket of its copy order's master ticket. -/
def CopyInstruction.Evident (slaveId : Uuid) (cores : List CopyOrder) (terminal : Terminal)
    (instruction : CopyInstruction) : Prop :=
  instruction.action = .close → ∃ core ∈ cores, core.id = instruction.copyId ∧
    core.slaveId = slaveId ∧ ∃ ticket, instruction.slaveTicket = some ticket ∧
      terminal.Opened slaveId cores core.masterTicket ticket

/-- What a result reports has happened. -/
def ExecutionResult.Evident (slaveId : Uuid) (cores : List CopyOrder) (terminal : Terminal)
    (result : ExecutionResult) : Prop :=
  ∃ core ∈ cores, core.id = result.copyId ∧ core.slaveId = slaveId ∧
    (core.type = .open → ∀ ticket ∈ result.slaveTicket, terminal.Gave core.id ticket) ∧
    (core.type = .close → terminal.Retired slaveId cores core.masterTicket)

/-- The reasons for which a CLOSE is never handed over. -/
def notHandedOver : List String := ["NO_MATCHING_OPEN_COPY", "SLAVE_OFFLINE"]

/-- What a row tells has happened; a CLOSE whose position was not closed is one that was not handed
over. -/
structure CopyOrder.Evident (slaveId : Uuid) (cores : List CopyOrder) (terminal : Terminal)
    (order : CopyOrder) : Prop where
  opens : order.type = .open → ∀ ticket ∈ order.slaveTicket, terminal.Gave order.id ticket
  closes : order.type = .close →
    order.status = .pending ∨ order.status = .sent ∨
      (order.status = .failed ∧ ∃ reason ∈ notHandedOver, order.errorReason = some reason) ∨
      terminal.Retired slaveId cores order.masterTicket

section

variable {slaveId : Uuid} {cores cores' : List CopyOrder} {terminal terminal' : Terminal}
  {masterTicket ticket : String}

theorem Terminal.Gave.mono {copyId : Uuid} (h : terminal.Gave copyId ticket)
    (hbefore : terminal.Before terminal') : terminal'.Gave copyId ticket := by
  obtain ⟨position, hposition, hrest⟩ := h
  exact ⟨position, hbefore.opened hposition, hrest⟩

theorem Terminal.Opened.mono (h : terminal.Opened slaveId cores masterTicket ticket)
    (hcores : cores ⊆ cores') (hbefore : terminal.Before terminal') :
    terminal'.Opened slaveId cores' masterTicket ticket := by
  obtain ⟨core, hcore, hslave, htype, hmaster, hgave⟩ := h
  exact ⟨core, hcores hcore, hslave, htype, hmaster, hgave.mono hbefore⟩

theorem Terminal.Retired.mono (h : terminal.Retired slaveId cores masterTicket)
    (hcores : cores ⊆ cores') (hbefore : terminal.Before terminal') :
    terminal'.Retired slaveId cores' masterTicket := by
  obtain ⟨ticket, hopened, hclosed⟩ := h
  exact ⟨ticket, hopened.mono hcores hbefore, hbefore.closed hclosed⟩

theorem CopyInstruction.Evident.mono {instruction : CopyInstruction}
    (h : instruction.Evident slaveId cores terminal) (hcores : cores ⊆ cores')
    (hbefore : terminal.Before terminal') : instruction.Evident slaveId cores' terminal' := by
  intro haction
  obtain ⟨core, hcore, hid, hslave, ticket, hticket, hopened⟩ := h haction
  exact ⟨core, hcores hcore, hid, hslave, ticket, hticket, hopened.mono hcores hbefore⟩

theorem ExecutionResult.Evident.mono {result : ExecutionResult}
    (h : result.Evident slaveId cores terminal) (hcores : cores ⊆ cores')
    (hbefore : terminal.Before terminal') : result.Evident slaveId cores' terminal' := by
  obtain ⟨core, hcore, hid, hslave, hopens, hcloses⟩ := h
  exact ⟨core, hcores hcore, hid, hslave,
    fun htype ticket hticket => (hopens htype ticket hticket).mono hbefore,
    fun htype => (hcloses htype).mono hcores hbefore⟩

theorem CopyOrder.Evident.mono {order : CopyOrder} (h : order.Evident slaveId cores terminal)
    (hcores : cores ⊆ cores') (hbefore : terminal.Before terminal') :
    order.Evident slaveId cores' terminal' where
  opens htype ticket hticket := (h.opens htype ticket hticket).mono hbefore
  closes htype := by
    rcases h.closes htype with hpending | hsent | hfailed | hretired
    · exact .inl hpending
    · exact .inr (.inl hsent)
    · exact .inr (.inr (.inl hfailed))
    · exact .inr (.inr (.inr (hretired.mono hcores hbefore)))

end

theorem Terminal.Before.refl (terminal : Terminal) : terminal.Before terminal :=
  ⟨List.Subset.refl _, List.Subset.refl _⟩

theorem Terminal.Before.trans {terminal terminal' terminal'' : Terminal}
    (h : terminal.Before terminal') (h' : terminal'.Before terminal'') : terminal.Before terminal'' :=
  ⟨List.Subset.trans h.opened h'.opened, List.Subset.trans h.closed h'.closed⟩

/-! ### Evidence in the backend -/

structure World.Evident (slaveId : Uuid) (terminal : Terminal) (w : World) : Prop where
  rows : ∀ order ∈ w.copyOrders, order.slaveId = slaveId → order.Evident slaveId w.cores terminal
  sent : ∀ delivery ∈ w.sent, delivery.slaveId = slaveId →
    delivery.instruction.Evident slaveId w.cores terminal

def Task.Evident (slaveId : Uuid) (terminal : Terminal) (w : World) : Task → Prop
  | .copy run (.createOrder _ slaveTicket _) => run.slave.id = slaveId → run.event.type = .close →
    ∃ ticket, slaveTicket = some ticket ∧
      terminal.Opened slaveId w.cores run.event.masterTicket ticket
  | .copy run (.failOrder reason _) => run.event.type = .close → reason ∈ notHandedOver
  | .message id result .findOrder => id = slaveId → result.Evident slaveId w.cores terminal
  | .message id result (.record order) => id = slaveId →
    result.Evident slaveId w.cores terminal ∧ order.Evident slaveId w.cores terminal
  | .poll id (.resolveSymbol order _ slaveTicket) => id = slaveId → order.type = .close →
    ∃ ticket, slaveTicket = some ticket ∧ terminal.Opened slaveId w.cores order.masterTicket ticket
  | .poll id (.markSent instruction) => id = slaveId → instruction.Evident slaveId w.cores terminal
  | _ => True

def evidence (slaveId : Uuid) (terminal : Terminal) : Outline World Task :=
  ⟨World.Evident slaveId terminal, Task.Evident slaveId terminal⟩

section

variable {slaveId : Uuid} {terminal : Terminal} {w w' : World}

theorem World.Evident.of_eq (h : w.Evident slaveId terminal) (horders : w'.copyOrders = w.copyOrders)
    (hsent : w'.sent = w.sent) : w'.Evident slaveId terminal := by
  have hcores : w'.cores = w.cores := congrArg (List.map CopyOrder.core) horders
  exact ⟨horders ▸ hcores ▸ h.rows, hsent ▸ hcores ▸ h.sent⟩

theorem World.Evident.opened_of_found (h : w.Evident slaveId terminal) {masterTicket ticket : String}
    (hfound : findExecutedOpenSlaveTicket slaveId masterTicket w.copyOrders = some ticket) :
    terminal.Opened slaveId w.cores masterTicket ticket := by
  obtain ⟨order, horder, hslave, hmaster, htype, -, hticket⟩ :=
    findExecutedOpenSlaveTicket_eq_some hfound
  exact ⟨order.core, World.core_mem_cores horder, hslave, htype, hmaster,
    (h.rows order horder hslave).opens htype ticket hticket⟩

theorem World.Evident.insertOrder (h : w.Evident slaveId terminal) {order : CopyOrder}
    (horder : order.Evident slaveId w.cores terminal) :
    (w.insertOrder order).Evident slaveId terminal := by
  have hcores : w.cores ⊆ (w.insertOrder order).cores := by simp
  refine ⟨fun row hrow hslave => ?_, fun delivery hdelivery hslave => ?_⟩
  · rcases List.mem_append.mp hrow with hold | hnew
    · exact (h.rows row hold hslave).mono hcores (.refl terminal)
    · obtain rfl := List.mem_singleton.mp hnew
      exact horder.mono hcores (.refl terminal)
  · exact (h.sent delivery hdelivery hslave).mono hcores (.refl terminal)

theorem World.Evident.updateOrder (h : w.Evident slaveId terminal) {copyId : Uuid}
    {change : CopyOrder → CopyOrder} (hcore : KeepsCore change)
    (hchange : ∀ order ∈ w.copyOrders, order.id = copyId → order.slaveId = slaveId →
      (change order).Evident slaveId w.cores terminal) :
    (w.updateOrder copyId change).Evident slaveId terminal := by
  have hcores : (w.updateOrder copyId change).cores = w.cores := World.cores_updateOrder copyId hcore
  refine ⟨fun row hrow hslave => ?_, hcores ▸ h.sent⟩
  rw [hcores]
  obtain ⟨old, hold, ⟨hid, rfl⟩ | ⟨-, rfl⟩⟩ := Table.mem_update.mp hrow
  · exact hchange old hold hid ((hcore.slaveId old).symm.trans hslave)
  · exact h.rows row hold hslave

theorem World.Evident.deliver (h : w.Evident slaveId terminal)
    (horders : w'.copyOrders = w.copyOrders) {delivery : Delivery}
    (hsent : w'.sent = w.sent ++ [delivery])
    (hdelivery : delivery.slaveId = slaveId → delivery.instruction.Evident slaveId w.cores terminal) :
    w'.Evident slaveId terminal := by
  have hcores : w'.cores = w.cores := congrArg (List.map CopyOrder.core) horders
  refine ⟨horders ▸ hcores ▸ h.rows, fun d hd => ?_⟩
  rw [hsent, List.mem_append, List.mem_singleton] at hd
  rw [hcores]
  rcases hd with hold | rfl
  · exact h.sent d hold
  · exact hdelivery

theorem CopyOrder.Evident.markFailed {cores : List CopyOrder} {order : CopyOrder}
    (h : order.Evident slaveId cores terminal) {reason : String} (hreason : reason ∈ notHandedOver) :
    (order.markFailed reason).Evident slaveId cores terminal where
  opens := h.opens
  closes _ := .inr (.inr (.inl ⟨rfl, reason, hreason, rfl⟩))

theorem CopyOrder.Evident.markSent {cores : List CopyOrder} {order : CopyOrder}
    (h : order.Evident slaveId cores terminal) (now : DateTime) :
    (order.markSent now).Evident slaveId cores terminal where
  opens := h.opens
  closes _ := .inr (.inl rfl)

theorem World.Evident.markFailed (h : w.Evident slaveId terminal) {copyId : Uuid} {reason : String}
    (hreason : reason ∈ notHandedOver) :
    (w.updateOrder copyId (CopyOrder.markFailed reason)).Evident slaveId terminal :=
  h.updateOrder (keepsCore_markFailed _) fun order horder _ hslave =>
    (h.rows order horder hslave).markFailed hreason

theorem World.Evident.markSent (h : w.Evident slaveId terminal) (copyId : Uuid) (now : DateTime) :
    (w.updateOrder copyId (CopyOrder.markSent now)).Evident slaveId terminal :=
  h.updateOrder (keepsCore_markSent _) fun order horder _ hslave =>
    (h.rows order horder hslave).markSent now

theorem CopyOrder.Evident.record {order read : CopyOrder} {result : ExecutionResult} (hw : w.Sound)
    (horder : order ∈ w.copyOrders) (hid : order.id = result.copyId) (hread : read.core ∈ w.cores)
    (hreadId : read.id = result.copyId) (hresult : result.Evident slaveId w.cores terminal)
    (hknown : read.Evident slaveId w.cores terminal) (now : DateTime) :
    (CopyOrder.record result read now order).Evident slaveId w.cores terminal := by
  obtain ⟨core, hcore, hcoreId, -, hopens, hcloses⟩ := hresult
  obtain rfl := hw.core_eq hcore horder (hid.trans hcoreId.symm)
  have hsame : order.core = read.core := hw.core_eq hread horder (hid.trans hreadId.symm)
  have htype : read.type = order.type := CopyOrder.type_of_core hsame.symm
  refine ⟨fun hopen ticket hticket => ?_, fun hclose => .inr (.inr (.inr (hcloses hclose)))⟩
  have hgave := hopens hopen ticket
  simp only [CopyOrder.record] at hticket hopen
  cases hfound : result.slaveTicket with
  | none =>
      rw [hfound] at hticket
      have hgaveRead := hknown.opens (htype.trans hopen) ticket hticket
      rwa [hreadId.trans hid.symm] at hgaveRead
  | some found =>
      rw [hfound] at hticket hgave
      exact hgave hticket

/-! ### Every step -/

theorem CopyRead.evident {run : CopyRun} {point point' : CopyPoint}
    (hread : CopyRead w run point point') (hw : w.Evident slaveId terminal)
    (hadmitted : run.Admitted point) : (Task.copy run point').Evident slaveId terminal w := by
  cases hread with
  | symbol =>
      unfold CopyRun.afterSymbol
      split_ifs with hticket
      · trivial
      · trivial
      · exact fun _ hclose => absurd (.inl hclose) hticket
  | ticket resolvedSymbol =>
      unfold CopyRun.afterTicket
      split
      · exact fun _ => by simp [notHandedOver]
      · rename_i slaveTicket hticket
        rintro rfl -
        exact ⟨slaveTicket, rfl, hw.opened_of_found (truthy_eq_some.mp hticket).1⟩
  | opens | closes | offline => trivial
  | closesAfterOpens | opensAfterCloses =>
      -- The limits are those of an OPEN.
      have hopen : run.event.type = .open := hadmitted
      unfold CopyRun.afterPositions
      repeat' split
      all_goals simp [Task.Evident, hopen]

theorem PollRead.evident {id : Uuid} {point point' : PollPoint} (hread : PollRead w id point point')
    (hw : w.Evident slaveId terminal) (hgrounded : (Task.poll id point).Grounded w)
    (h : (Task.poll id point).Evident slaveId terminal w) :
    (Task.poll id point').Evident slaveId terminal w := by
  cases hread with
  | order =>
      unfold pickUp
      split_ifs with htype
      · trivial
      · exact fun _ hclose => absurd (.inl hclose) htype
  | noTicket => trivial
  | ticket tradeEvent hticket =>
      rintro rfl -
      exact ⟨_, rfl, hw.opened_of_found (truthy_eq_some.mp hticket).1⟩
  | symbol order tradeEvent slaveTicket =>
      intro hid hclose
      obtain ⟨ticket, hticket, hopened⟩ := h hid hclose
      exact ⟨order.core, hgrounded.1, rfl, hgrounded.2.trans hid, ticket, hticket, hopened⟩

theorem Task.Background.evident {task : Task} (h : task.Background) :
    task.Evident slaveId terminal w :=
  Task.of_background (fun _ _ => trivial) (fun _ => trivial) (fun _ _ _ _ => trivial) h

/-- A step tells no more than has happened. -/
theorem Task.Step.evident {reply : Reply} {task : Task} {next : List Task}
    (hstep : Task.Step reply w task w' next) (hsound : w.Sound) (hgrounded : task.Grounded w)
    (hadmitted : task.Admitted) (hw : w.Evident slaveId terminal)
    (htask : task.Evident slaveId terminal w) :
    w'.Evident slaveId terminal ∧ ∀ t ∈ next, t.Evident slaveId terminal w' := by
  have hpending : ∀ (run : CopyRun) (volume : Option ℚ),
      (run.pendingOrder w.nextCopyId volume).Evident slaveId w.cores terminal := fun _ _ =>
    ⟨fun _ _ hticket => (by cases hticket), fun _ => .inl rfl⟩
  cases hstep with
  | ends => exact ⟨hw, by simp⟩
  | background _ hnext hsame =>
      exact ⟨hw.of_eq hsame.copyOrders hsame.sent, fun t ht => (hnext t ht).evident⟩
  | persist => exact ⟨hw.of_eq rfl rfl, by simp⟩
  | eventRead => exact ⟨hw, by simp [Evident]⟩
  | fanOut => exact ⟨hw, by simp [Evident]⟩
  | copyRead hread => exact ⟨hw, by simpa using hread.evident hw hadmitted.2⟩
  | refuse run reason requestedVolume =>
      refine ⟨hw.insertOrder ⟨fun _ _ hticket => (by cases hticket), fun hclose => ?_⟩, by simp⟩
      exact .inr (.inr (.inl ⟨rfl, reason, htask hclose, rfl⟩))
  | insert run resolvedSymbol slaveTicket volume hkey hnext =>
      refine ⟨hw.insertOrder (hpending run volume), fun t ht => ?_⟩
      obtain ⟨rfl, -⟩ | rfl := hnext.mem ht
      · trivial
      · trivial
  | push run resolvedSymbol slaveTicket volume =>
      refine ⟨(hw.insertOrder (hpending run volume)).deliver rfl rfl fun hslave hclose => ?_,
        by simp [Evident]⟩
      obtain ⟨ticket, hticket, hopened⟩ := htask hslave hclose
      exact ⟨(run.pendingOrder w.nextCopyId volume).core, by simp, rfl, hslave, ticket, hticket,
        hopened.mono (by simp) (.refl terminal)⟩
  | markOffline => exact ⟨hw.markFailed (by simp [notHandedOver]), by simp⟩
  | markSent run copyId sent =>
      obtain ⟨⟨-, rfl⟩, -⟩ := hgrounded
      exact ⟨hw.markSent _ _, by simp⟩
  | @messageRead id result order hfound hslave =>
      refine ⟨hw, ?_⟩
      simp only [List.mem_singleton, forall_eq]
      exact fun hid => ⟨htask hid, hw.rows order (Table.lookup_mem hfound) (hslave.trans hid)⟩
  | record id result read =>
      obtain ⟨hread, hreadSlave, hreadId⟩ := hgrounded
      refine ⟨hw.updateOrder (keepsCore_record _ _ _) fun order horder hid hslave => ?_, by simp⟩
      have hsame := hsound.core_eq hread horder (hid.trans hreadId.symm)
      have hto : id = slaveId :=
        hreadSlave.symm.trans ((CopyOrder.slaveId_of_core hsame).symm.trans hslave)
      obtain ⟨hresult, hknown⟩ := htask hto
      exact .record hsound horder hid hread hreadId hresult hknown _
  | pollRead hread => exact ⟨hw, by simpa using hread.evident hw hgrounded htask⟩
  | pollFailed => exact ⟨hw.markFailed (by simp [notHandedOver]), by simp⟩
  | respond id instruction =>
      refine ⟨(hw.markSent instruction.copyId w.now).deliver rfl rfl fun hslave => ?_, by simp⟩
      rw [World.cores_updateOrder _ (keepsCore_markSent _)]
      exact htask hslave
  | respondLost => exact ⟨hw.markSent _ _, by simp⟩

theorem Task.Evident.mono {terminal' : Terminal} {task : Task} (h : task.Evident slaveId terminal w)
    (hcores : w.cores ⊆ w'.cores) (hbefore : terminal.Before terminal') :
    task.Evident slaveId terminal' w' := by
  unfold Task.Evident at h ⊢
  split
  · intro hslave hclose
    obtain ⟨ticket, hticket, hopened⟩ := h hslave hclose
    exact ⟨ticket, hticket, hopened.mono hcores hbefore⟩
  · exact h
  · exact fun hid => (h hid).mono hcores hbefore
  · exact fun hid => ⟨(h hid).1.mono hcores hbefore, (h hid).2.mono hcores hbefore⟩
  · intro hid hclose
    obtain ⟨ticket, hticket, hopened⟩ := h hid hclose
    exact ⟨ticket, hticket, hopened.mono hcores hbefore⟩
  · exact fun hid => (h hid).mono hcores hbefore
  · trivial

end

variable {slaveId : Uuid} {terminal terminal' : Terminal} {c c' : Config} {a : Action}

theorem evidence_mono (h : (evidence slaveId terminal).Holds c) (hbefore : terminal.Before terminal') :
    (evidence slaveId terminal').Holds c where
  left :=
    ⟨fun order horder hslave => (h.1.rows order horder hslave).mono (List.Subset.refl _) hbefore,
      fun delivery hdelivery hslave =>
        (h.1.sent delivery hdelivery hslave).mono (List.Subset.refl _) hbefore⟩
  right task htask := (h.2 task htask).mono (List.Subset.refl _) hbefore

theorem evidence_step (hgrounded : grounded.Holds c) (hadmitted : admission.Holds c)
    (h : (evidence slaveId terminal).Holds c) (hstep : Backend.step c a = some c')
    (hreports : ∀ stimulus ∈ a.stimulus, ∀ report ∈ stimulus.report, report.1 = slaveId →
      report.2.Evident slaveId c.shared.cores terminal) :
    (evidence slaveId terminal).Holds c' := by
  refine Backend.outline_step h hstep ?_ ?_ fun w' other _ hbefore hother =>
    Task.Evident.mono hother hbefore.cores.subset (.refl terminal)
  · intro _ reply task w' next _ hget hmove
    have hmem := List.mem_of_getElem? hget
    exact hmove.evident hgrounded.1 (hgrounded.2 task hmem) (hadmitted.2 task hmem) h.1
      (h.2 task hmem)
  · rintro stimulus rfl
    obtain ⟨horders, hsent, -⟩ := stimulus.apply_frame c.shared
    have hcores : (stimulus.apply c.shared).1.cores = c.shared.cores :=
      congrArg (List.map CopyOrder.core) horders
    refine ⟨h.1.of_eq horders hsent, fun t ht => ?_⟩
    rcases Stimulus.started ht with hback | ⟨event, rfl⟩ | ⟨id, result, hreport, rfl⟩ | ⟨id, -, rfl⟩
    · exact hback.evident
    · trivial
    · intro hid
      rw [hcores]
      exact hreports stimulus rfl (id, result) hreport hid
    · trivial

end ForexCopy
