import ForexCopy.Proof.Admission
import ForexCopy.Proof.Polling.Once
import ForexCopy.Slave.Serial

/-!
# What a call does when it runs alone

Run from beginning to end, a dispatch adds at most one row and at most one instruction, a poll takes
one row off the queue, and a report writes one row. The three outcomes are stated once, with what the
call has checked on its way; the rest of the proof reaches the calls only through them.
-/

namespace ForexCopy

namespace Config

theorem settle_cons (n : ℕ) (w : World) (task : Task) (rest : List Task) :
    Config.settle (n + 1) ⟨w, task :: rest⟩ =
      Config.settle n ⟨(task.step .ok w).1, (task.step .ok w).2 ++ rest⟩ := rfl

@[simp] theorem settle_nil (n : ℕ) (w : World) : Config.settle n ⟨w, []⟩ = ⟨w, []⟩ := by
  cases n <;> rfl

theorem settle_single (n : ℕ) (w : World) (task : Task) :
    Config.settle (n + 1) ⟨w, [task]⟩ =
      Config.settle n ⟨(task.step .ok w).1, (task.step .ok w).2⟩ := by
  rw [settle_cons, List.append_nil]

end Config

namespace World

variable {w : World}

theorem copyOrders_update_inserted {order : CopyOrder} (hid : order.id = w.nextCopyId)
    (change : CopyOrder → CopyOrder) :
    Table.update CopyOrder.id w.nextCopyId change (w.copyOrders ++ [order]) =
      w.copyOrders ++ [change order] :=
  Table.update_append_last (fun _ hrow => ne_nextCopyId_of_mem hrow) hid

end World

/-! ### A dispatch -/

namespace CopyRun

/-- What a run has found when it inserts a row to be sent: an OPEN is sized and within the limits, a
CLOSE or MODIFY has the ticket of an executed OPEN. -/
structure Ready (w : World) (run : CopyRun) (slaveTicket : Option String) (volume : Option ℚ) :
    Prop where
  opens : run.event.type = .open → slaveTicket = none ∧ ∃ sized, volume = some sized ∧
    calculateVolume .double run.sizing = .volume sized ∧
    checkEntryAllowed (run.entryCheck
      (w.getOpenPositionsSummary run.slave.id).count) = .allowed ∧
    checkExposureAllowed (run.exposureCheck
      (w.getOpenPositionsSummary run.slave.id).totalVolume sized) = .allowed
  acts : run.event.type ≠ .open → ∃ ticket, slaveTicket = some ticket ∧
    findExecutedOpenSlaveTicket run.slave.id run.event.masterTicket w.copyOrders = some ticket

/-- The event has not been dispatched to the slave before. -/
def Unsent (w : World) (run : CopyRun) : Prop :=
  (run.tradeEventId, run.slave.id) ∉ w.copyOrders.map CopyOrder.dispatchKey

/-- The row and the instruction a dispatch adds. -/
inductive Outcome (w : World) (run : CopyRun) : List CopyOrder → List Delivery → Prop
  | duplicate : Outcome w run [] []
  | failed (reason : String) (volume : Option ℚ) (hunsent : run.Unsent w) :
      Outcome w run [run.failedOrder w.nextCopyId reason volume] []
  | queued (slaveTicket : Option String) (volume : Option ℚ) (hunsent : run.Unsent w)
      (hready : run.Ready w slaveTicket volume) :
      Outcome w run [run.pendingOrder w.nextCopyId volume] []
  | pushed (resolvedSymbol : String) (slaveTicket : Option String) (volume : Option ℚ)
      (hunsent : run.Unsent w) (hready : run.Ready w slaveTicket volume)
      (hplatform : run.slave.platform ≠ "MT4") (honline : w.isSlaveConnected run.slave.id = true) :
      Outcome w run [(run.pendingOrder w.nextCopyId volume).markSent w.now]
        [⟨.push, run.slave.id, run.instruction w.nextCopyId resolvedSymbol slaveTicket volume⟩]

def LeadsTo (w : World) (run : CopyRun) (w' : World) : Prop :=
  ∃ rows deliveries, run.Outcome w rows deliveries ∧ w'.copyOrders = w.copyOrders ++ rows ∧
    w'.sent = w.sent ++ deliveries

variable {w : World} {run : CopyRun} {n : ℕ}

theorem leadsTo_same : run.LeadsTo w w := ⟨[], [], .duplicate, by simp, by simp⟩

theorem settle_failOrder (reason : String) (volume : Option ℚ) :
    run.LeadsTo w (Config.settle (n + 1) ⟨w, [.copy run (.failOrder reason volume)]⟩).shared := by
  rw [Config.settle_single]
  simp only [Task.step, copyToSlaveStep, World.createOrder]
  split_ifs with hkey
  · rw [Config.settle_nil]
    exact leadsTo_same
  · simp only [Reply.settle, Config.settle_nil]
    exact ⟨_, [], .failed reason volume hkey, rfl, by simp⟩

theorem settle_markOffline {inserted : World} {volume : Option ℚ}
    (horders : inserted.copyOrders = w.copyOrders ++ [run.pendingOrder w.nextCopyId volume])
    (hsent : inserted.sent = w.sent) (hunsent : run.Unsent w) :
    run.LeadsTo w
      (Config.settle (n + 1) ⟨inserted, [.copy run (.markOffline w.nextCopyId)]⟩).shared := by
  rw [Config.settle_single]
  simp only [Task.step, copyToSlaveStep, Reply.settle, Config.settle_nil]
  refine ⟨[run.failedOrder w.nextCopyId "SLAVE_OFFLINE" volume], [], .failed _ volume hunsent, ?_, ?_⟩
  · rw [World.copyOrders_updateOrder, horders]
    exact World.copyOrders_update_inserted rfl _
  · rw [World.sent_updateOrder, hsent, List.append_nil]

theorem settle_createOrder {slaveTicket : Option String} {volume : Option ℚ}
    (resolvedSymbol : String) (hready : run.Ready w slaveTicket volume) :
    run.LeadsTo w (Config.settle (n + 3)
      ⟨w, [.copy run (.createOrder resolvedSymbol slaveTicket volume)]⟩).shared := by
  rw [Config.settle_single]
  simp only [Task.step, copyToSlaveStep, World.createOrder]
  split_ifs with hkey
  · rw [Config.settle_nil]
    exact leadsTo_same
  · simp only [dispatch]
    split_ifs with hplatform honline
    · -- The row of a polling slave waits, unless no connector of the slave is online.
      rw [Config.settle_single]
      simp only [Task.step, copyToSlaveStep, Reply.query, Reply.settle]
      split_ifs
      · rw [Config.settle_nil]
        exact ⟨_, [], .queued slaveTicket volume hkey hready, rfl, by simp⟩
      · exact settle_markOffline rfl rfl hkey
    · have hconnected : w.isSlaveConnected run.slave.id = true := honline
      simp only [World.sendToSlave, honline, if_true]
      rw [Config.settle_single]
      simp only [Task.step, copyToSlaveStep, Reply.settle, if_true, Config.settle_nil]
      refine ⟨_, _, .pushed resolvedSymbol slaveTicket volume hkey hready hplatform hconnected, ?_,
        rfl⟩
      exact World.copyOrders_update_inserted rfl _
    · exact settle_markOffline rfl rfl hkey

theorem settle_afterTicket (htype : run.event.type ≠ .open) (resolvedSymbol : String) :
    run.LeadsTo w (Config.settle (n + 3) ⟨w, [.copy run (run.afterTicket resolvedSymbol
      (findExecutedOpenSlaveTicket run.slave.id run.event.masterTicket w.copyOrders))]⟩).shared := by
  unfold afterTicket
  split
  · exact settle_failOrder _ _
  · rename_i slaveTicket hticket
    refine settle_createOrder resolvedSymbol ⟨fun hopen => absurd hopen htype, fun _ => ?_⟩
    exact ⟨slaveTicket, rfl, (truthy_eq_some.mp hticket).1⟩

theorem settle_afterPositions (htype : run.event.type = .open) (resolvedSymbol : String) :
    run.LeadsTo w (Config.settle (n + 3) ⟨w, [.copy run (run.afterPositions resolvedSymbol
      (w.getOpenPositionsSummary run.slave.id))]⟩).shared := by
  cases hpoint : run.afterPositions resolvedSymbol
      (w.getOpenPositionsSummary run.slave.id) with
  | createOrder symbol slaveTicket volume =>
      obtain ⟨hentry, hticket, sized, hvolume, hsized, hexposure⟩ :=
        afterPositions_eq_createOrder hpoint
      exact settle_createOrder symbol
        ⟨fun _ => ⟨hticket, sized, hvolume, hsized, hentry, hexposure⟩, fun h => absurd htype h⟩
  | failOrder => exact settle_failOrder _ _
  | _ =>
      unfold afterPositions at hpoint
      repeat' split at hpoint
      all_goals cases hpoint

theorem alone_leadsTo (hcopyable : isCopyableEvent run.event) :
    run.LeadsTo w (w.alone [.copy run .resolveSymbol]).shared := by
  unfold World.alone awaits
  rw [Config.settle_single]
  simp only [Task.step, copyToSlaveStep, Reply.query, Reply.settle, afterSymbol]
  split_ifs with hticket hopen
  · have htype : run.event.type ≠ .open := by
      rcases hticket with h | h <;> simp [h]
    rw [Config.settle_single]
    exact settle_afterTicket htype _
  · rw [Config.settle_single]
    simp only [Task.step, copyToSlaveStep]
    rw [Config.settle_single]
    exact settle_afterPositions hopen _
  · rcases hcopyable with h | h | h
    · exact absurd h hopen
    · exact absurd (.inl h) hticket
    · exact absurd (.inr h) hticket

end CopyRun

/-! ### A poll and a report -/

namespace World

variable {w : World} {slaveId : Uuid}

/-- What a poll comes to: nothing, or the oldest waiting row is failed or handed over. -/
inductive Polled (w : World) (slaveId : Uuid) : World → Prop
  | nothing : Polled w slaveId w
  | failed {order : CopyOrder} (holdest : oldestPending slaveId w.copyOrders = some order) :
      Polled w slaveId (w.updateOrder order.id (CopyOrder.markFailed "NO_MATCHING_OPEN_COPY"))
  | responded {order : CopyOrder} (tradeEvent : TradeEvent) (resolvedSymbol : String)
      (slaveTicket : Option String) (holdest : oldestPending slaveId w.copyOrders = some order)
      (hacts : order.type = .close ∨ order.type = .modify → ∃ ticket, slaveTicket = some ticket ∧
        findExecutedOpenSlaveTicket slaveId order.masterTicket w.copyOrders = some ticket) :
      Polled w slaveId ((w.updateOrder order.id (CopyOrder.markSent w.now)).respond slaveId
        (order.instruction tradeEvent resolvedSymbol slaveTicket))

theorem settle_resolveSymbol {order : CopyOrder} {slaveTicket : Option String} {n : ℕ}
    (tradeEvent : TradeEvent) (holdest : oldestPending slaveId w.copyOrders = some order)
    (hacts : order.type = .close ∨ order.type = .modify → ∃ ticket, slaveTicket = some ticket ∧
      findExecutedOpenSlaveTicket slaveId order.masterTicket w.copyOrders = some ticket) :
    w.Polled slaveId (Config.settle (n + 2)
      ⟨w, [.poll slaveId (.resolveSymbol order tradeEvent slaveTicket)]⟩).shared := by
  rw [Config.settle_single]
  simp only [Task.step, pendingInstructionStep, Reply.query, Reply.settle]
  rw [Config.settle_single]
  simp only [Task.step, pendingInstructionStep, Config.settle_nil]
  exact .responded tradeEvent _ slaveTicket holdest hacts

theorem alone_polled : w.Polled slaveId (w.alone [.poll slaveId .findOrder]).shared := by
  unfold World.alone awaits
  rw [Config.settle_single]
  simp only [Task.step, pendingInstructionStep]
  split
  · exact .nothing
  · rename_i order holdest
    split
    · exact .nothing
    · rename_i tradeEvent hevent
      simp only [Reply.query, Reply.settle, pickUp]
      split_ifs with htype
      · rw [Config.settle_single]
        simp only [Task.step, pendingInstructionStep]
        split
        · simp only [Reply.query, Reply.settle]
          rw [Config.settle_single]
          exact .failed holdest
        · rename_i ticket hticket
          exact settle_resolveSymbol tradeEvent holdest
            fun _ => ⟨ticket, rfl, (truthy_eq_some.mp hticket).1⟩
      · exact settle_resolveSymbol tradeEvent holdest fun hacts => absurd hacts htype

theorem alone_recorded {result : ExecutionResult} {row : CopyOrder}
    (hids : (w.copyOrders.map CopyOrder.id).Nodup) (hrow : row ∈ w.copyOrders)
    (hid : row.id = result.copyId) (hslave : row.slaveId = slaveId) :
    (w.alone [.message slaveId result .findOrder]).shared =
      w.updateOrder result.copyId (CopyOrder.record result row w.now) := by
  unfold World.alone awaits
  rw [Config.settle_single]
  simp only [Task.step, slaveMessageStep, Table.lookup_of_mem hids hrow hid, if_pos hslave,
    Reply.query, Reply.settle]
  rw [Config.settle_single]
  simp only [Task.step, slaveMessageStep, Reply.settle, Config.settle_nil]

end World

/-! ### Everything else -/

theorem Task.Step.aside {reply : Reply} {w w' : World} {task : Task} {next : List Task}
    (hstep : Task.Step reply w task w' next) (htask : task.Background) :
    w'.copyOrders = w.copyOrders ∧ w'.sent = w.sent ∧ ∀ t ∈ next, t.Background := by
  cases hstep with
  | ends => exact ⟨rfl, rfl, by simp⟩
  | background _ hnext hsame => exact ⟨hsame.copyOrders, hsame.sent, hnext⟩
  | persist => exact ⟨rfl, rfl, by simp⟩
  | _ => exact htask.elim

/-- The calls that have no part in copying leave the copy orders and what was handed over. -/
theorem Config.settle_aside (n : ℕ) (w : World) {tasks : List Task}
    (htasks : ∀ t ∈ tasks, t.Background) :
    (Config.settle n ⟨w, tasks⟩).shared.copyOrders = w.copyOrders ∧
      (Config.settle n ⟨w, tasks⟩).shared.sent = w.sent := by
  induction n generalizing w tasks with
  | zero => exact ⟨rfl, rfl⟩
  | succ n ih =>
      cases tasks with
      | nil => exact ⟨rfl, rfl⟩
      | cons task rest =>
          rw [settle_cons]
          obtain ⟨horders, hsent, hnext⟩ :=
            (Task.step_sound rfl : Task.Step .ok w task _ (task.step .ok w).2).aside
              (htasks task List.mem_cons_self)
          have hall : ∀ t ∈ (task.step .ok w).2 ++ rest, t.Background := fun t ht =>
            (List.mem_append.mp ht).elim (hnext t) fun h => htasks t (List.mem_cons_of_mem _ h)
          obtain ⟨horders', hsent'⟩ := ih (task.step .ok w).1 hall
          exact ⟨horders'.trans horders, hsent'.trans hsent⟩

end ForexCopy
