import ForexCopy.Proof.Step

/-!
# What the rest of a run can rely on

A copy order is never deleted, and once it exists only the columns that tell how far it got are
written. The other columns are its core. Copy orders and deliveries only accumulate, so what a
suspended call knows about the core of a row it once read stays true whatever runs beside it.
-/

namespace ForexCopy

open Pool

/-- The columns of a copy order that are never written again. -/
def CopyOrder.core (order : CopyOrder) : CopyOrder :=
  { order with
    status := .pending, slaveTicket := none, executionPrice := none, errorReason := none
    sentAt := none, executedAt := none }

namespace CopyOrder

variable (order : CopyOrder)

@[simp] theorem core_id : order.core.id = order.id := rfl
@[simp] theorem core_slaveId : order.core.slaveId = order.slaveId := rfl
@[simp] theorem core_type : order.core.type = order.type := rfl
@[simp] theorem core_masterTicket : order.core.masterTicket = order.masterTicket := rfl
@[simp] theorem core_tradeEventId : order.core.tradeEventId = order.tradeEventId := rfl
@[simp] theorem core_requestedVolume : order.core.requestedVolume = order.requestedVolume := rfl
@[simp] theorem core_dispatchKey : order.core.dispatchKey = order.dispatchKey := rfl

@[simp] theorem core_markSent (now : DateTime) : (order.markSent now).core = order.core := rfl

@[simp] theorem core_markFailed (reason : String) : (order.markFailed reason).core = order.core := rfl

@[simp] theorem core_record (result : ExecutionResult) (read : CopyOrder) (now : DateTime) :
    (CopyOrder.record result read now order).core = order.core := rfl

/-! Rows with one core agree on its columns. -/

section

variable {a b : CopyOrder} (h : a.core = b.core)

include h

theorem id_of_core : a.id = b.id := by
  simpa using congrArg CopyOrder.id h

theorem slaveId_of_core : a.slaveId = b.slaveId := by
  simpa using congrArg CopyOrder.slaveId h

theorem type_of_core : a.type = b.type := by
  simpa using congrArg CopyOrder.type h

theorem masterTicket_of_core : a.masterTicket = b.masterTicket := by
  simpa using congrArg CopyOrder.masterTicket h

theorem requestedVolume_of_core : a.requestedVolume = b.requestedVolume := by
  simpa using congrArg CopyOrder.requestedVolume h

end

end CopyOrder

def World.cores (w : World) : List CopyOrder := w.copyOrders.map CopyOrder.core

/-- A change of a row that leaves its core alone. -/
def KeepsCore (change : CopyOrder → CopyOrder) : Prop := ∀ order, (change order).core = order.core

theorem KeepsCore.id {change : CopyOrder → CopyOrder} (h : KeepsCore change) (order : CopyOrder) :
    (change order).id = order.id := CopyOrder.id_of_core (h order)

theorem KeepsCore.slaveId {change : CopyOrder → CopyOrder} (h : KeepsCore change) (order : CopyOrder) :
    (change order).slaveId = order.slaveId := CopyOrder.slaveId_of_core (h order)

theorem keepsCore_markSent (now : DateTime) : KeepsCore (CopyOrder.markSent now) := fun _ => rfl

theorem keepsCore_markFailed (reason : String) : KeepsCore (CopyOrder.markFailed reason) :=
  fun _ => rfl

theorem keepsCore_record (result : ExecutionResult) (read : CopyOrder) (now : DateTime) :
    KeepsCore (CopyOrder.record result read now) := fun _ => rfl

theorem keepsCore_ite {sent : Bool} {f g : CopyOrder → CopyOrder} (hf : KeepsCore f)
    (hg : KeepsCore g) : KeepsCore (if sent then f else g) := by
  cases sent
  · exact hg
  · exact hf

namespace World

variable {w w' : World}

@[simp] theorem copyOrders_insertOrder (w : World) (order : CopyOrder) :
    (w.insertOrder order).copyOrders = w.copyOrders ++ [order] := rfl

@[simp] theorem copyOrders_push (w : World) (slaveId : Uuid) (instruction : CopyInstruction) :
    (w.push slaveId instruction).copyOrders = w.copyOrders := rfl

@[simp] theorem copyOrders_respond (w : World) (slaveId : Uuid) (instruction : CopyInstruction) :
    (w.respond slaveId instruction).copyOrders = w.copyOrders := rfl

@[simp] theorem copyOrders_updateOrder (w : World) (copyId : Uuid) (change : CopyOrder → CopyOrder) :
    (w.updateOrder copyId change).copyOrders =
      Table.update CopyOrder.id copyId change w.copyOrders := rfl

@[simp] theorem sent_insertOrder (w : World) (order : CopyOrder) :
    (w.insertOrder order).sent = w.sent := rfl

@[simp] theorem sent_push (w : World) (slaveId : Uuid) (instruction : CopyInstruction) :
    (w.push slaveId instruction).sent = w.sent ++ [⟨.push, slaveId, instruction⟩] := rfl

@[simp] theorem sent_respond (w : World) (slaveId : Uuid) (instruction : CopyInstruction) :
    (w.respond slaveId instruction).sent = w.sent ++ [⟨.poll, slaveId, instruction⟩] := rfl

@[simp] theorem sent_updateOrder (w : World) (copyId : Uuid) (change : CopyOrder → CopyOrder) :
    (w.updateOrder copyId change).sent = w.sent := rfl

@[simp] theorem cores_insertOrder (w : World) (order : CopyOrder) :
    (w.insertOrder order).cores = w.cores ++ [order.core] := by
  simp [cores]

@[simp] theorem cores_push (w : World) (slaveId : Uuid) (instruction : CopyInstruction) :
    (w.push slaveId instruction).cores = w.cores := rfl

@[simp] theorem cores_respond (w : World) (slaveId : Uuid) (instruction : CopyInstruction) :
    (w.respond slaveId instruction).cores = w.cores := rfl

theorem cores_updateOrder {change : CopyOrder → CopyOrder} (copyId : Uuid)
    (hchange : KeepsCore change) : (w.updateOrder copyId change).cores = w.cores :=
  Table.map_update w.copyOrders hchange

theorem map_cores {β : Type*} {f : CopyOrder → β} (hf : ∀ order : CopyOrder, f order.core = f order) :
    w.cores.map f = w.copyOrders.map f := by
  unfold cores
  rw [List.map_map]
  exact List.map_congr_left fun order _ => hf order

theorem core_mem_cores {order : CopyOrder} (h : order ∈ w.copyOrders) : order.core ∈ w.cores :=
  List.mem_map_of_mem h

theorem exists_of_mem_cores {core : CopyOrder} (h : core ∈ w.cores) :
    ∃ order ∈ w.copyOrders, order.core = core :=
  List.mem_map.mp h

theorem nextCopyId_notMem (w : World) : w.nextCopyId ∉ w.copyOrders.map CopyOrder.id :=
  Table.fresh_notMem _

theorem ne_nextCopyId {core : CopyOrder} (h : core ∈ w.cores) : core.id ≠ w.nextCopyId := by
  intro heq
  obtain ⟨order, horder, rfl⟩ := exists_of_mem_cores h
  exact w.nextCopyId_notMem (List.mem_map.mpr ⟨order, horder, heq⟩)

theorem ne_nextCopyId_of_mem {order : CopyOrder} (h : order ∈ w.copyOrders) :
    order.id ≠ w.nextCopyId :=
  fun hid => ne_nextCopyId (core_mem_cores h) hid

/-- `w'` is a later world than `w`: it has kept every copy order and every delivery. -/
structure Before (w w' : World) : Prop where
  cores : w.cores <+: w'.cores
  sent : w.sent <+: w'.sent

theorem Before.of_eq (horders : w'.copyOrders = w.copyOrders) (hsent : w'.sent = w.sent) :
    w.Before w' where
  cores := by
    unfold World.cores
    rw [horders]
  sent := by rw [hsent]

theorem Before.updateOrder {change : CopyOrder → CopyOrder} (copyId : Uuid)
    (hchange : KeepsCore change) : w.Before (w.updateOrder copyId change) where
  cores := by rw [cores_updateOrder copyId hchange]
  sent := List.prefix_rfl

theorem Before.trans {w'' : World} (h : w.Before w') (h' : w'.Before w'') : w.Before w'' :=
  ⟨h.cores.trans h'.cores, h.sent.trans h'.sent⟩

theorem Before.mem_cores {core : CopyOrder} (h : w.Before w') (hcore : core ∈ w.cores) :
    core ∈ w'.cores :=
  h.cores.subset hcore

end World

theorem Task.Step.before {reply : Reply} {w w' : World} {task : Task} {next : List Task}
    (h : Task.Step reply w task w' next) : w.Before w' := by
  cases h with
  | background _ _ hsame => exact .of_eq hsame.copyOrders hsame.sent
  | refuse => exact ⟨by simp, List.prefix_rfl⟩
  | insert => exact ⟨by simp, List.prefix_rfl⟩
  | push => exact ⟨by simp, by simp⟩
  | markOffline => exact .updateOrder _ (keepsCore_markFailed _)
  | markSent => exact .updateOrder _ (keepsCore_ite (keepsCore_markSent _) (keepsCore_markFailed _))
  | record => exact .updateOrder _ (keepsCore_record _ _ _)
  | pollFailed => exact .updateOrder _ (keepsCore_markFailed _)
  | respond slaveId instruction =>
      have hmarked : w.Before (w.updateOrder instruction.copyId (CopyOrder.markSent w.now)) :=
        .updateOrder _ (keepsCore_markSent _)
      exact hmarked.trans ⟨by simp, by simp⟩
  | respondLost => exact .updateOrder _ (keepsCore_markSent _)
  | _ => exact .of_eq rfl rfl

/-! ### Stimuli -/

/-- The calls a stimulus starts, before their first await. -/
inductive Task.Starting : Task → Prop
  | background {task : Task} (h : task.Background) : Starting task
  | masterEvent (event : NormalizedTradeEvent) : Starting (.masterEvent event .findEvent)
  | message (slaveId : Uuid) (result : ExecutionResult) : Starting (.message slaveId result .findOrder)
  | poll (slaveId : Uuid) : Starting (.poll slaveId .findOrder)

theorem Task.Starting.ingest (event : NormalizedTradeEvent) (point : IngestPoint) :
    (Task.ingest event point).Starting := .background trivial

theorem Task.Starting.heartbeat (connectorId : Uuid) (accountInfo : Option AccountSnapshot)
    (time : DateTime) (point : HeartbeatPoint) :
    (Task.heartbeat connectorId accountInfo time point).Starting := .background trivial

theorem Stimulus.apply_frame (w : World) (stimulus : Stimulus) :
    (stimulus.apply w).1.copyOrders = w.copyOrders ∧ (stimulus.apply w).1.sent = w.sent ∧
      ∀ task ∈ (stimulus.apply w).2, task.Starting := by
  cases stimulus with
  | ingest masterId payload =>
      simp only [apply, ingestTradeEvent]
      split_ifs
      · exact ⟨rfl, rfl, by simpa using .ingest _ _⟩
      · exact ⟨rfl, rfl, by simp⟩
  | masterEvent event =>
      refine ⟨rfl, rfl, ?_⟩
      simp only [apply, handleMasterEvent]
      split_ifs
      · simpa using .masterEvent event
      · simp
  | poll slaveId connectorId =>
      exact ⟨rfl, rfl, by simpa [apply] using ⟨.heartbeat _ _ _ _, .poll slaveId⟩⟩
  | slaveMessage slaveId connectorId message =>
      cases message with
      | none => exact ⟨rfl, rfl, by simpa [apply, handleSlaveMessage] using .heartbeat _ _ _ _⟩
      | some result =>
          exact ⟨rfl, rfl, by
            simpa [apply, handleSlaveMessage] using ⟨.heartbeat _ _ _ _, .message slaveId result⟩⟩
  | executionResult slaveId connectorId body =>
      cases body with
      | none => exact ⟨rfl, rfl, by simp [apply]⟩
      | some result =>
          exact ⟨rfl, rfl, by
            simpa [apply, handleSlaveMessage] using ⟨.heartbeat _ _ _ _, .message slaveId result⟩⟩
  | heartbeat connectorId accountInfo =>
      exact ⟨rfl, rfl, by simpa [apply] using .heartbeat _ _ _ _⟩
  | connect slaveId connectorId => exact ⟨rfl, rfl, by simpa [apply] using .heartbeat _ _ _ _⟩
  | patchSlave id input =>
      simp only [apply, World.patchSlave]
      split_ifs
      · exact ⟨rfl, rfl, by simp⟩
      · exact ⟨rfl, rfl, by simp⟩
  | expireKey | sweepOfflineConnectors | upsertSymbolMapping | deleteSymbolMapping | disconnect
  | tick | rearrange => exact ⟨rfl, rfl, by simp [apply]⟩

theorem Stimulus.before (w : World) (stimulus : Stimulus) : w.Before (stimulus.apply w).1 :=
  .of_eq (stimulus.apply_frame w).1 (stimulus.apply_frame w).2.1

/-! ### The rules for the backend -/

namespace Backend

variable {c c' : Config} {a : Action}

theorem step_before (hstep : Backend.step c a = some c') : c.shared.Before c'.shared := by
  cases a with
  | resume i reply =>
      obtain ⟨_, task, _, w', next, _, _, hmove, rfl⟩ := resume_cases Task.step hstep
      exact (Task.step_sound hmove).before
  | arrive stimulus =>
      obtain rfl := Option.some.inj hstep
      exact stimulus.before _

/-- An invariant of the world alone survives an action when every step and every stimulus keeps it. -/
theorem world_step {P : World → Prop} (hstep : Backend.step c a = some c')
    (resume : ∀ i reply task w' next, a = .resume i reply → c.tasks[i]? = some task →
      Task.Step reply c.shared task w' next → P w')
    (arrive : ∀ stimulus, a = .arrive stimulus → P (stimulus.apply c.shared).1) : P c'.shared := by
  cases a with
  | resume i reply =>
      obtain ⟨_, task, _, w', next, hget, _, hmove, rfl⟩ := resume_cases Task.step hstep
      exact resume i reply task w' next rfl hget (Task.step_sound hmove)
  | arrive stimulus =>
      obtain rfl := Option.some.inj hstep
      exact arrive stimulus rfl

/-- An outline survives an action: a call's step is correct for its successors, no step and no
stimulus interferes with a waiting call, and what a stimulus starts satisfies its assertion. -/
theorem outline_step {o : Outline World Task} (hc : o.Holds c) (hstep : Backend.step c a = some c')
    (correct : ∀ i reply task w' next, a = .resume i reply → c.tasks[i]? = some task →
      Task.Step reply c.shared task w' next → o.shared w' ∧ ∀ t ∈ next, o.task w' t)
    (arrive : ∀ stimulus, a = .arrive stimulus → o.shared (stimulus.apply c.shared).1 ∧
      ∀ t ∈ (stimulus.apply c.shared).2, o.task (stimulus.apply c.shared).1 t)
    (free : ∀ w' other, other ∈ c.tasks → c.shared.Before w' → o.task c.shared other →
      o.task w' other) : o.Holds c' := by
  cases a with
  | resume i reply =>
      refine Outline.Holds.resume Task.step hc hstep ?_ ?_
      · intro task w' next hget hmove _ _
        exact correct i reply task w' next rfl hget (Task.step_sound hmove)
      · intro task w' next _ hmove _ other hother htask
        exact free w' other hother (Task.step_sound hmove).before htask
  | arrive stimulus =>
      obtain rfl := Option.some.inj hstep
      obtain ⟨hshared, hstarted⟩ := arrive stimulus rfl
      exact Outline.Holds.arrive hshared
        (fun task ht => free _ task ht (stimulus.before _) (hc.2 task ht)) hstarted

/-- A ledger survives an action in which the waiting calls have no part beside the one that steps. -/
theorem ledger_step {M : Type*} [AddCommMonoid M] {l : Ledger World Task M} (hc : l.Holds c)
    (hstep : Backend.step c a = some c')
    (settle : ∀ i reply task w' next, a = .resume i reply → c.tasks[i]? = some task →
      Task.Step reply c.shared task w' next → ∀ rest, total l.hold c.tasks = l.hold task + rest →
        l.balance c.shared (l.hold task + rest) → l.balance w' (total l.hold next + rest))
    (arrive : ∀ stimulus, a = .arrive stimulus → ∀ held, l.balance c.shared held →
      l.balance (stimulus.apply c.shared).1 held)
    (starting : ∀ task : Task, task.Starting → l.hold task = 0) : l.Holds c' := by
  cases a with
  | resume i reply =>
      refine Ledger.Holds.resume Task.step hc hstep fun task w' next hget hmove rest => ?_
      exact settle i reply task w' next rfl hget (Task.step_sound hmove) rest
  | arrive stimulus =>
      obtain rfl := Option.some.inj hstep
      exact Ledger.Holds.arrive (arrive stimulus rfl _ hc)
        (total_eq_zero fun task ht => starting task ((stimulus.apply_frame c.shared).2.2 task ht))

end Backend

end ForexCopy
