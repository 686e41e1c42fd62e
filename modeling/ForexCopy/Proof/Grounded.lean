import ForexCopy.Proof.Rows

/-!
# Every call stands on a row

The outline that the other invariants use: identifiers and dispatch keys stay unique, whatever was
handed to a slave names a copy order of that slave, and a suspended call that will write a row, or
hand its instruction over, knows the core of an existing row of its slave.
-/

namespace ForexCopy

open Pool

/-- The unique columns are unique, and every delivery is of an existing copy order. -/
structure World.Sound (w : World) : Prop where
  ids : (w.copyOrders.map CopyOrder.id).Nodup
  keys : (w.copyOrders.map CopyOrder.dispatchKey).Nodup
  sent : ∀ delivery ∈ w.sent, ∃ core ∈ w.cores, core.id = delivery.instruction.copyId ∧
    core.slaveId = delivery.slaveId ∧ core.type = delivery.instruction.action

/-- What a call knows of the row it is about, and which transport it is on. -/
def Task.Grounded (w : World) : Task → Prop
  | .copy run (.findConnector copyId) =>
    run.slave.platform = "MT4" ∧ ∃ volume, (run.pendingOrder copyId volume).core ∈ w.cores
  | .copy run (.markOffline copyId) => ∃ volume, (run.pendingOrder copyId volume).core ∈ w.cores
  | .copy run (.markSent copyId sent) =>
    (run.slave.platform ≠ "MT4" ∧ sent = true) ∧
      ∃ volume, (run.pendingOrder copyId volume).core ∈ w.cores
  | .message slaveId result (.record order) =>
    order.core ∈ w.cores ∧ order.slaveId = slaveId ∧ order.id = result.copyId
  | .poll slaveId (.findTicket order _) | .poll slaveId (.markFailed order)
  | .poll slaveId (.resolveSymbol order _ _) => order.core ∈ w.cores ∧ order.slaveId = slaveId
  | .poll slaveId (.markSent instruction) =>
    ∃ core ∈ w.cores, core.id = instruction.copyId ∧ core.slaveId = slaveId ∧
      core.type = instruction.action
  | _ => True

def grounded : Outline World Task := ⟨World.Sound, Task.Grounded⟩

namespace World

variable {w w' : World}

theorem Sound.of_cores (h : w.Sound) (hcores : w'.cores = w.cores) (hsent : w'.sent = w.sent) :
    w'.Sound where
  ids := by
    rw [← map_cores (f := CopyOrder.id) fun _ => rfl, hcores, map_cores fun _ => rfl]
    exact h.ids
  keys := by
    rw [← map_cores (f := CopyOrder.dispatchKey) fun _ => rfl, hcores, map_cores fun _ => rfl]
    exact h.keys
  sent := by
    rw [hcores, hsent]
    exact h.sent

theorem Sound.updateOrder (h : w.Sound) {change : CopyOrder → CopyOrder} (copyId : Uuid)
    (hchange : KeepsCore change) : (w.updateOrder copyId change).Sound :=
  h.of_cores (cores_updateOrder copyId hchange) rfl

theorem Sound.insertOrder (h : w.Sound) {order : CopyOrder} (hid : order.id = w.nextCopyId)
    (hkey : order.dispatchKey ∉ w.copyOrders.map CopyOrder.dispatchKey) :
    (w.insertOrder order).Sound where
  ids := Table.nodup_append_of_notMem h.ids (hid ▸ w.nextCopyId_notMem)
  keys := Table.nodup_append_of_notMem h.keys hkey
  sent := fun delivery hdelivery => by
    obtain ⟨core, hcore, hrest⟩ := h.sent delivery hdelivery
    exact ⟨core, by simp [hcore], hrest⟩

theorem Sound.core_eq (h : w.Sound) {core : CopyOrder} (hcore : core ∈ w.cores) {order : CopyOrder}
    (horder : order ∈ w.copyOrders) (hid : order.id = core.id) : order.core = core := by
  obtain ⟨row, hrow, rfl⟩ := exists_of_mem_cores hcore
  obtain rfl := Table.eq_of_key_eq h.ids horder hrow hid
  rfl

theorem Sound.deliver (h : w.Sound) (horders : w'.copyOrders = w.copyOrders) {delivery : Delivery}
    (hsent : w'.sent = w.sent ++ [delivery])
    (hcore : ∃ core ∈ w.cores, core.id = delivery.instruction.copyId ∧
      core.slaveId = delivery.slaveId ∧ core.type = delivery.instruction.action) : w'.Sound where
  ids := horders ▸ h.ids
  keys := horders ▸ h.keys
  sent := fun d hd => by
    have hcores : w'.cores = w.cores := congrArg (List.map CopyOrder.core) horders
    rw [hsent, List.mem_append, List.mem_singleton] at hd
    rw [hcores]
    rcases hd with hold | rfl
    · exact h.sent d hold
    · exact hcore

end World

namespace Task

variable {w w' : World}

theorem Grounded.mono {task : Task} (h : task.Grounded w) (hbefore : w.Before w') :
    task.Grounded w' := by
  unfold Grounded at h ⊢
  split
  · exact ⟨h.1, h.2.imp fun _ => hbefore.mem_cores⟩
  · exact h.imp fun _ => hbefore.mem_cores
  · exact ⟨h.1, h.2.imp fun _ => hbefore.mem_cores⟩
  · exact ⟨hbefore.mem_cores h.1, h.2⟩
  · exact ⟨hbefore.mem_cores h.1, h.2⟩
  · exact ⟨hbefore.mem_cores h.1, h.2⟩
  · exact ⟨hbefore.mem_cores h.1, h.2⟩
  · exact h.imp fun _ hcore => ⟨hbefore.mem_cores hcore.1, hcore.2⟩
  · trivial

theorem Background.grounded {task : Task} (h : task.Background) : task.Grounded w :=
  Task.of_background (fun _ _ => trivial) (fun _ => trivial) (fun _ _ _ _ => trivial) h

theorem Starting.grounded {task : Task} (h : task.Starting) : task.Grounded w := by
  cases h with
  | background h => exact h.grounded
  | masterEvent | message | poll => trivial

theorem CopyPoint.HasNoRow.grounded {point : CopyPoint} (h : point.HasNoRow) (w : World)
    (run : CopyRun) : (Task.copy run point).Grounded w := by
  cases point with
  | findConnector | markOffline | markSent => cases h
  | _ => trivial

theorem CopyRead.grounded {run : CopyRun} {point point' : CopyPoint}
    (hread : CopyRead w run point point') (h : (Task.copy run point).Grounded w) :
    (Task.copy run point').Grounded w := by
  cases hread.leads with
  | inl hpoint => exact CopyPoint.HasNoRow.grounded hpoint w run
  | inr hoffline =>
      obtain ⟨copyId, rfl, rfl, -⟩ := hoffline
      exact h.2

theorem PollRead.grounded {slaveId : Uuid} {point point' : PollPoint}
    (hread : PollRead w slaveId point point') (h : (Task.poll slaveId point).Grounded w) :
    (Task.poll slaveId point').Grounded w := by
  cases hread with
  | order holdest hevent =>
      have hmem := List.mem_of_find?_eq_some holdest
      have hprop := List.find?_some holdest
      simp only [decide_eq_true_eq] at hprop
      unfold pickUp
      split_ifs <;> exact ⟨World.core_mem_cores hmem, hprop.1⟩
  | noTicket => exact h
  | ticket => exact h
  | symbol order => exact ⟨order.core, h.1, rfl, h.2, rfl⟩

/-- A step leaves its successors on the row the call stood on, or on the one it inserts. -/
theorem Step.grounded {reply : Reply} {task : Task} {next : List Task}
    (hstep : Task.Step reply w task w' next) (hw : w.Sound) (htask : task.Grounded w) :
    w'.Sound ∧ ∀ t ∈ next, t.Grounded w' := by
  cases hstep with
  | ends => exact ⟨hw, by simp⟩
  | background _ hnext hsame =>
      refine ⟨hw.of_cores ?_ hsame.sent, fun t ht => (hnext t ht).grounded⟩
      exact congrArg (List.map CopyOrder.core) hsame.copyOrders
  | persist => exact ⟨hw.of_cores rfl rfl, by simp⟩
  | eventRead => exact ⟨hw, by simp [Grounded]⟩
  | fanOut => exact ⟨hw, by simp [Grounded]⟩
  | copyRead hread => exact ⟨hw, by simpa using CopyRead.grounded hread htask⟩
  | refuse run reason requestedVolume hkey => exact ⟨hw.insertOrder rfl hkey, by simp⟩
  | insert run resolvedSymbol slaveTicket volume hkey hnext =>
      refine ⟨hw.insertOrder rfl hkey, fun t ht => ?_⟩
      obtain ⟨rfl, hplatform⟩ | rfl := hnext.mem ht
      · exact ⟨hplatform, volume, by simp⟩
      · exact ⟨volume, by simp⟩
  | push run resolvedSymbol slaveTicket volume hkey hplatform =>
      have hinserted : (w.insertOrder (run.pendingOrder w.nextCopyId volume)).Sound :=
        hw.insertOrder rfl hkey
      refine ⟨hinserted.deliver rfl rfl ?_, by simpa using ⟨⟨hplatform, rfl⟩, volume, by simp⟩⟩
      exact ⟨(run.pendingOrder w.nextCopyId volume).core, by simp, rfl, rfl, rfl⟩
  | markOffline => exact ⟨hw.updateOrder _ (keepsCore_markFailed _), by simp⟩
  | markSent =>
      exact ⟨hw.updateOrder _ (keepsCore_ite (keepsCore_markSent _) (keepsCore_markFailed _)),
        by simp⟩
  | messageRead hfound hslave =>
      refine ⟨hw, ?_⟩
      simpa using ⟨World.core_mem_cores (Table.lookup_mem hfound), hslave, Table.lookup_key hfound⟩
  | record => exact ⟨hw.updateOrder _ (keepsCore_record _ _ _), by simp⟩
  | pollRead hread => exact ⟨hw, by simpa using PollRead.grounded hread htask⟩
  | pollFailed => exact ⟨hw.updateOrder _ (keepsCore_markFailed _), by simp⟩
  | respond slaveId instruction =>
      refine ⟨(hw.updateOrder _ (keepsCore_markSent _)).deliver rfl rfl ?_, by simp⟩
      rw [World.cores_updateOrder _ (keepsCore_markSent _)]
      exact htask
  | respondLost => exact ⟨hw.updateOrder _ (keepsCore_markSent _), by simp⟩

end Task

theorem grounded_preserved : Machine.Preserved Backend.step grounded.Holds := by
  intro c a c' hc hstep
  refine Backend.outline_step hc hstep ?_ ?_ ?_
  · intro _ reply task w' next _ hget hmove
    exact hmove.grounded hc.1 (hc.2 task (List.mem_of_getElem? hget))
  · intro stimulus _
    obtain ⟨horders, hsent, hstarted⟩ := stimulus.apply_frame c.shared
    refine ⟨World.Sound.of_cores hc.1 ?_ hsent, fun t ht => (hstarted t ht).grounded⟩
    exact congrArg (List.map CopyOrder.core) horders
  · intro w' other _ hbefore hother
    exact hother.mono hbefore

/-! ### Where runs start -/

structure World.Keyed (w : World) : Prop where
  eventIds : (w.tradeEvents.map TradeEvent.eventId).Nodup
  tradeEventIds : (w.tradeEvents.map TradeEvent.id).Nodup
  copyIds : (w.copyOrders.map CopyOrder.id).Nodup
  dispatchKeys : (w.copyOrders.map CopyOrder.dispatchKey).Nodup

/-- The backend before a run: nothing is under way and nothing has been handed over yet. -/
structure Config.Idle (c : Config) : Prop where
  keyed : c.shared.Keyed
  tasks : c.tasks = []
  sent : c.shared.sent = []

theorem Config.Idle.grounded {c : Config} (h : c.Idle) : grounded.Holds c where
  left := ⟨h.keyed.copyIds, h.keyed.dispatchKeys, by simp [h.sent]⟩
  right := by simp [h.tasks]

end ForexCopy
