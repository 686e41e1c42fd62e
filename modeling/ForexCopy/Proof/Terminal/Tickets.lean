import ForexCopy.Proof.Terminal.Transport

/-!
# Where a ticket comes from

A copy order's ticket is what its slave has reported for it, and a CLOSE or MODIFY carries what an
executed OPEN of its slave and master ticket had for a ticket when it was looked up. Both are stated
over two relations that only grow: what has been reported, and what has been looked up. In the history
of a run they name the messages and the queries a ticket has gone through.
-/

namespace ForexCopy

open Machine Pool

structure TicketSources where
  /-- The slave has reported the ticket for the copy order. -/
  Reported : (slaveId copyId : Uuid) → (ticket : String) → Prop
  /-- The ticket was found for the slave and the master ticket. -/
  LookedUp : (slaveId : Uuid) → (masterTicket ticket : String) → Prop

structure TicketSources.Within (sources sources' : TicketSources) : Prop where
  reported : ∀ slaveId copyId ticket,
    sources.Reported slaveId copyId ticket → sources'.Reported slaveId copyId ticket
  lookedUp : ∀ slaveId masterTicket ticket,
    sources.LookedUp slaveId masterTicket ticket → sources'.LookedUp slaveId masterTicket ticket

/-- The actions that need a position of the slave. -/
def TradeEventType.actsOnPosition (type : TradeEventType) : Prop := type = .close ∨ type = .modify

instance (type : TradeEventType) : Decidable type.actsOnPosition :=
  inferInstanceAs (Decidable (_ ∨ _))

/-- The slave and the master ticket that a call is about to look a ticket up for. -/
def Task.lookingUp : Task → Option (Uuid × String)
  | .copy run (.findTicket _) => some (run.slave.id, run.event.masterTicket)
  | .poll slaveId (.findTicket order _) => some (slaveId, order.masterTicket)
  | _ => none

namespace TicketSources

variable (sources : TicketSources)

/-- The ticket was looked up, and is one. -/
def Found (slaveId : Uuid) (masterTicket : String) (slaveTicket : Option String) : Prop :=
  ∃ ticket, slaveTicket = some ticket ∧ ticket ≠ "" ∧ sources.LookedUp slaveId masterTicket ticket

def Row (order : CopyOrder) : Prop :=
  ∀ ticket ∈ order.slaveTicket, sources.Reported order.slaveId order.id ticket

def Result (slaveId : Uuid) (result : ExecutionResult) : Prop :=
  ∀ ticket ∈ result.slaveTicket, sources.Reported slaveId result.copyId ticket

/-- A CLOSE or MODIFY of a copy order carries a ticket found for its slave and master ticket. -/
def Instruction (cores : List CopyOrder) (slaveId : Uuid) (instruction : CopyInstruction) : Prop :=
  instruction.action.actsOnPosition → ∃ core ∈ cores, core.id = instruction.copyId ∧
    core.slaveId = slaveId ∧ core.type = instruction.action ∧
    sources.Found slaveId core.masterTicket instruction.slaveTicket

structure Tables (w : World) : Prop where
  rows : ∀ order ∈ w.copyOrders, sources.Row order
  sent : ∀ delivery ∈ w.sent, sources.Instruction w.cores delivery.slaveId delivery.instruction

def Call (w : World) : Task → Prop
  | .copy run (.createOrder _ slaveTicket _) => run.event.type.actsOnPosition →
    sources.Found run.slave.id run.event.masterTicket slaveTicket
  | .message slaveId result .findOrder => sources.Result slaveId result
  | .message slaveId result (.record order) => sources.Result slaveId result ∧ sources.Row order
  | .poll slaveId (.resolveSymbol order _ slaveTicket) => order.type.actsOnPosition →
    sources.Found slaveId order.masterTicket slaveTicket
  | .poll slaveId (.markSent instruction) => sources.Instruction w.cores slaveId instruction
  | _ => True

/-- Every ticket in the backend comes from these sources. -/
def outline : Outline World Task := ⟨sources.Tables, sources.Call⟩

end TicketSources

namespace TicketSources

variable {sources sources' : TicketSources} {w w' : World} {cores cores' : List CopyOrder}

theorem Within.refl (sources : TicketSources) : sources.Within sources :=
  ⟨fun _ _ _ h => h, fun _ _ _ h => h⟩

theorem Found.mono {slaveId : Uuid} {masterTicket : String} {slaveTicket : Option String}
    (h : sources.Found slaveId masterTicket slaveTicket) (hwithin : sources.Within sources') :
    sources'.Found slaveId masterTicket slaveTicket := by
  obtain ⟨ticket, hticket, hne, hlooked⟩ := h
  exact ⟨ticket, hticket, hne, hwithin.lookedUp _ _ _ hlooked⟩

theorem Row.mono {order : CopyOrder} (h : sources.Row order) (hwithin : sources.Within sources') :
    sources'.Row order :=
  fun ticket hticket => hwithin.reported _ _ _ (h ticket hticket)

theorem Result.mono {slaveId : Uuid} {result : ExecutionResult} (h : sources.Result slaveId result)
    (hwithin : sources.Within sources') : sources'.Result slaveId result :=
  fun ticket hticket => hwithin.reported _ _ _ (h ticket hticket)

theorem Instruction.mono {slaveId : Uuid} {instruction : CopyInstruction}
    (h : sources.Instruction cores slaveId instruction) (hcores : cores ⊆ cores')
    (hwithin : sources.Within sources') : sources'.Instruction cores' slaveId instruction := by
  intro hacts
  obtain ⟨core, hcore, hid, hslave, htype, hfound⟩ := h hacts
  exact ⟨core, hcores hcore, hid, hslave, htype, hfound.mono hwithin⟩

theorem Call.mono {task : Task} (h : sources.Call w task) (hcores : w.cores ⊆ w'.cores)
    (hwithin : sources.Within sources') : sources'.Call w' task := by
  unfold Call at h ⊢
  split
  · exact fun hacts => (h hacts).mono hwithin
  · exact Result.mono h hwithin
  · exact ⟨h.1.mono hwithin, h.2.mono hwithin⟩
  · exact fun hacts => (h hacts).mono hwithin
  · exact Instruction.mono h hcores hwithin
  · trivial

theorem outline_mono {c : Config} (h : sources.outline.Holds c) (hwithin : sources.Within sources') :
    sources'.outline.Holds c where
  left :=
    ⟨fun order horder => (h.1.rows order horder).mono hwithin,
      fun delivery hdelivery => (h.1.sent delivery hdelivery).mono (List.Subset.refl _) hwithin⟩
  right task htask := Call.mono (h.2 task htask) (List.Subset.refl _) hwithin

/-! ### Writes -/

theorem Tables.of_eq (h : sources.Tables w) (horders : w'.copyOrders = w.copyOrders)
    (hsent : w'.sent = w.sent) : sources.Tables w' := by
  have hcores : w'.cores = w.cores := congrArg (List.map CopyOrder.core) horders
  exact ⟨horders ▸ h.rows, hsent ▸ hcores ▸ h.sent⟩

theorem Tables.insertOrder (h : sources.Tables w) {order : CopyOrder} (hnone : order.slaveTicket = none) :
    sources.Tables (w.insertOrder order) := by
  have hcores : w.cores ⊆ (w.insertOrder order).cores := by simp
  refine ⟨fun row hrow => ?_, fun delivery hdelivery =>
    (h.sent delivery hdelivery).mono hcores (.refl sources)⟩
  rcases List.mem_append.mp hrow with hold | hnew
  · exact h.rows row hold
  · obtain rfl := List.mem_singleton.mp hnew
    simp [Row, hnone]

theorem Tables.updateOrder (h : sources.Tables w) {copyId : Uuid} {change : CopyOrder → CopyOrder}
    (hcore : KeepsCore change)
    (hchange : ∀ order ∈ w.copyOrders, order.id = copyId → sources.Row (change order)) :
    sources.Tables (w.updateOrder copyId change) := by
  have hcores : (w.updateOrder copyId change).cores = w.cores := World.cores_updateOrder copyId hcore
  refine ⟨fun row hrow => ?_, hcores ▸ h.sent⟩
  obtain ⟨old, hold, ⟨hid, rfl⟩ | ⟨-, rfl⟩⟩ := Table.mem_update.mp hrow
  · exact hchange old hold hid
  · exact h.rows row hold

theorem Tables.markFailed (h : sources.Tables w) (copyId : Uuid) (reason : String) :
    sources.Tables (w.updateOrder copyId (CopyOrder.markFailed reason)) :=
  h.updateOrder (keepsCore_markFailed _) fun order horder _ => h.rows order horder

theorem Tables.markSent (h : sources.Tables w) (copyId : Uuid) (now : DateTime) :
    sources.Tables (w.updateOrder copyId (CopyOrder.markSent now)) :=
  h.updateOrder (keepsCore_markSent _) fun order horder _ => h.rows order horder

theorem Tables.deliver (h : sources.Tables w) (horders : w'.copyOrders = w.copyOrders)
    {delivery : Delivery} (hsent : w'.sent = w.sent ++ [delivery])
    (hdelivery : sources.Instruction w.cores delivery.slaveId delivery.instruction) :
    sources.Tables w' := by
  have hcores : w'.cores = w.cores := congrArg (List.map CopyOrder.core) horders
  refine ⟨horders ▸ h.rows, fun d hd => ?_⟩
  rw [hsent, List.mem_append, List.mem_singleton] at hd
  rw [hcores]
  rcases hd with hold | rfl
  · exact h.sent d hold
  · exact hdelivery

/-- The recorded ticket is the reported one, or the one the row had when it was read. -/
theorem Row.record {order read : CopyOrder} {result : ExecutionResult} {slaveId : Uuid}
    (hid : order.id = result.copyId) (hslave : order.slaveId = slaveId) (hcore : read.core = order.core)
    (hresult : sources.Result slaveId result) (hread : sources.Row read) (now : DateTime) :
    sources.Row (CopyOrder.record result read now order) := by
  intro ticket hticket
  have hreadId : read.id = order.id := CopyOrder.id_of_core hcore
  have hreadSlave : read.slaveId = order.slaveId := CopyOrder.slaveId_of_core hcore
  simp only [CopyOrder.record] at hticket ⊢
  cases hgiven : result.slaveTicket with
  | none =>
      rw [hgiven] at hticket
      rw [← hreadId, ← hreadSlave]
      exact hread ticket hticket
  | some given =>
      rw [hgiven] at hticket
      rw [hid, hslave]
      exact hresult ticket (hgiven ▸ hticket)

/-! ### Every step -/

theorem Call.of_background {task : Task} (h : task.Background) : sources.Call w task :=
  Task.of_background (fun _ _ => trivial) (fun _ => trivial) (fun _ _ _ _ => trivial) h

theorem Call.of_copyRead {run : CopyRun} {point point' : CopyPoint}
    (hread : CopyRead w run point point') (hadmitted : run.Admitted point)
    (hlook : ∀ query ∈ (Task.copy run point).lookingUp, ∀ ticket,
      findExecutedOpenSlaveTicket query.1 query.2 w.copyOrders = some ticket →
        sources.LookedUp query.1 query.2 ticket) : sources.Call w (.copy run point') := by
  cases hread with
  | symbol =>
      unfold CopyRun.afterSymbol
      split_ifs with hacts
      · trivial
      · trivial
      · exact fun h => absurd h hacts
  | ticket resolvedSymbol =>
      unfold CopyRun.afterTicket
      split
      · trivial
      · rename_i ticket hticket
        obtain ⟨hfound, hne⟩ := truthy_eq_some.mp hticket
        exact fun _ => ⟨ticket, rfl, hne, hlook _ rfl ticket hfound⟩
  | opens | closes | offline => trivial
  | closesAfterOpens | opensAfterCloses =>
      -- The limits are those of an OPEN.
      have hopen : run.event.type = .open := hadmitted
      unfold CopyRun.afterPositions
      repeat' split
      all_goals simp [Call, TradeEventType.actsOnPosition, hopen]

theorem Call.of_pollRead {slaveId : Uuid} {point point' : PollPoint}
    (hread : PollRead w slaveId point point')
    (hgrounded : (Task.poll slaveId point).Grounded w)
    (h : sources.Call w (.poll slaveId point))
    (hlook : ∀ query ∈ (Task.poll slaveId point).lookingUp, ∀ ticket,
      findExecutedOpenSlaveTicket query.1 query.2 w.copyOrders = some ticket →
        sources.LookedUp query.1 query.2 ticket) : sources.Call w (.poll slaveId point') := by
  cases hread with
  | order =>
      unfold pickUp
      split_ifs with hacts
      · trivial
      · exact fun h => absurd h hacts
  | noTicket => trivial
  | @ticket order tradeEvent ticket hticket =>
      obtain ⟨hfound, hne⟩ := truthy_eq_some.mp hticket
      exact fun _ => ⟨ticket, rfl, hne, hlook _ rfl ticket hfound⟩
  | symbol order tradeEvent slaveTicket =>
      intro hacts
      exact ⟨order.core, hgrounded.1, rfl, hgrounded.2, rfl, h hacts⟩

theorem of_step {reply : Reply} {task : Task} {next : List Task}
    (hstep : Task.Step reply w task w' next) (hsound : w.Sound) (hgrounded : task.Grounded w)
    (hadmitted : task.Admitted) (hw : sources.Tables w) (htask : sources.Call w task)
    (hlook : ∀ query ∈ task.lookingUp, ∀ ticket,
      findExecutedOpenSlaveTicket query.1 query.2 w.copyOrders = some ticket →
        sources.LookedUp query.1 query.2 ticket) :
    sources.Tables w' ∧ ∀ t ∈ next, sources.Call w' t := by
  cases hstep with
  | ends => exact ⟨hw, by simp⟩
  | background _ hnext hsame =>
      exact ⟨hw.of_eq hsame.copyOrders hsame.sent, fun t ht => .of_background (hnext t ht)⟩
  | persist => exact ⟨hw.of_eq rfl rfl, by simp⟩
  | eventRead => exact ⟨hw, by simp [Call]⟩
  | fanOut => exact ⟨hw, by simp [Call]⟩
  | copyRead hread => exact ⟨hw, by simpa using Call.of_copyRead hread hadmitted.2 hlook⟩
  | refuse => exact ⟨hw.insertOrder rfl, by simp⟩
  | insert run resolvedSymbol slaveTicket volume hkey hnext =>
      refine ⟨hw.insertOrder rfl, fun t ht => ?_⟩
      obtain ⟨rfl, -⟩ | rfl := hnext.mem ht
      · trivial
      · trivial
  | push run resolvedSymbol slaveTicket volume =>
      refine ⟨(hw.insertOrder rfl).deliver rfl rfl fun hacts => ?_, by simp [Call]⟩
      exact ⟨(run.pendingOrder w.nextCopyId volume).core, by simp, rfl, rfl, rfl, htask hacts⟩
  | markOffline => exact ⟨hw.markFailed _ _, by simp⟩
  | markSent run copyId sent =>
      obtain ⟨⟨-, rfl⟩, -⟩ := hgrounded
      exact ⟨hw.markSent _ _, by simp⟩
  | messageRead hfound =>
      refine ⟨hw, ?_⟩
      simp only [List.mem_singleton, forall_eq]
      exact ⟨htask, hw.rows _ (Table.lookup_mem hfound)⟩
  | record slaveId result read =>
      obtain ⟨hread, hreadSlave, hreadId⟩ := hgrounded
      refine ⟨hw.updateOrder (keepsCore_record _ _ _) fun order horder hid => ?_, by simp⟩
      have hsame := hsound.core_eq hread horder (hid.trans hreadId.symm)
      exact .record hid ((CopyOrder.slaveId_of_core hsame).trans hreadSlave) hsame.symm htask.1 htask.2 _
  | pollRead hread => exact ⟨hw, by simpa using Call.of_pollRead hread hgrounded htask hlook⟩
  | pollFailed => exact ⟨hw.markFailed _ _, by simp⟩
  | respond slaveId instruction =>
      refine ⟨(hw.markSent instruction.copyId w.now).deliver rfl rfl ?_, by simp⟩
      rw [World.cores_updateOrder _ (keepsCore_markSent _)]
      exact htask
  | respondLost => exact ⟨hw.markSent _ _, by simp⟩

/-- The sources hold on when they contain what an action looks up and what it reports. -/
theorem outline_step {c c' : Config} {a : Action} (hgrounded : grounded.Holds c)
    (hadmitted : admission.Holds c) (h : sources.outline.Holds c)
    (hstep : Backend.step c a = some c')
    (hlook : ∀ task ∈ a.resumed c, ∀ query ∈ task.lookingUp, ∀ ticket,
      findExecutedOpenSlaveTicket query.1 query.2 c.shared.copyOrders = some ticket →
        sources.LookedUp query.1 query.2 ticket)
    (hreports : ∀ stimulus ∈ a.stimulus, ∀ report ∈ stimulus.report,
      sources.Result report.1 report.2) : sources.outline.Holds c' := by
  refine Backend.outline_step h hstep ?_ ?_ fun w' other _ hbefore hother =>
    Call.mono hother hbefore.cores.subset (.refl sources)
  · rintro i reply task w' next rfl hget hmove
    have hmem := List.mem_of_getElem? hget
    exact of_step hmove hgrounded.1 (hgrounded.2 task hmem) (hadmitted.2 task hmem) h.1
      (h.2 task hmem) (hlook task hget)
  · rintro stimulus rfl
    obtain ⟨horders, hsent, -⟩ := stimulus.apply_frame c.shared
    refine ⟨h.1.of_eq horders hsent, fun t ht => ?_⟩
    rcases Stimulus.started ht with hback | ⟨event, rfl⟩ | ⟨id, result, hreport, rfl⟩ | ⟨id, -, rfl⟩
    · exact .of_background hback
    · trivial
    · exact hreports stimulus rfl (id, result) hreport
    · trivial

end TicketSources

end ForexCopy
