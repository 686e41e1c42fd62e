import ForexCopy.Proof.Admission
import ForexCopy.Proof.Polling.Once
import ForexCopy.Proof.Slaves

/-!
# The emergency stop

`copyToSlave` tests the flag on the slave row that the fan-out read, before it creates the row of an
OPEN; a poll that picks the row up later does not test it again. So a stop that is set while an OPEN
of the slave is still waiting, in memory or in the queue, does not hold that OPEN back. A stop set
while none is waiting holds back every later one.
-/

namespace ForexCopy

open Machine Pool

def World.Stopped (w : World) (slaveId : Uuid) : Prop :=
  (∃ slave ∈ w.slaves, slave.id = slaveId) ∧
    ∀ slave ∈ w.slaves, slave.id = slaveId → slave.emergencyStop = true

def CopyPoint.BeforeInsert : CopyPoint → Prop
  | .resolveSymbol | .findTicket _ | .readPositions _ | .readCloses _ _ | .readOpens _ _
  | .createOrder _ _ _ => True
  | .failOrder _ _ | .findConnector _ | .markOffline _ | .markSent _ _ => False

instance (point : CopyPoint) : Decidable point.BeforeInsert := by
  unfold CopyPoint.BeforeInsert
  split <;> infer_instance

/-- The call may still send the slave an OPEN, on a row of the slave with the stop off. -/
def Task.MaySendOpen (slaveId : Uuid) : Task → Prop
  | .masterEvent event (.findMaster _ slaves) =>
    event.type = .open ∧ ∃ slave ∈ slaves, slave.id = slaveId ∧ slave.emergencyStop = false
  | .copy run point =>
    run.event.type = .open ∧ run.slave.id = slaveId ∧ run.slave.emergencyStop = false ∧
      point.BeforeInsert
  | .poll polling (.findTicket order _) | .poll polling (.resolveSymbol order _ _) =>
    polling = slaveId ∧ order.type = .open
  | .poll polling (.markSent instruction) => polling = slaveId ∧ instruction.action = .open
  | _ => False

theorem Task.Background.not_maySendOpen {slaveId : Uuid} {task : Task} (h : task.Background) :
    ¬task.MaySendOpen slaveId :=
  Task.of_background (fun _ _ => id) (fun _ => id) (fun _ _ _ _ => id) h

instance (slaveId : Uuid) (task : Task) : Decidable (task.MaySendOpen slaveId) := by
  unfold Task.MaySendOpen
  split <;> infer_instance

/-- No OPEN of the slave waits, neither in memory nor in the queue. -/
structure Config.NoOpenWaiting (c : Config) (slaveId : Uuid) : Prop where
  tasks : ∀ task ∈ c.tasks, ¬task.MaySendOpen slaveId
  queue : ∀ order ∈ c.shared.copyOrders, order.slaveId = slaveId → order.type = .open →
    order.status ≠ .pending

instance (c : Config) (slaveId : Uuid) : Decidable (c.NoOpenWaiting slaveId) :=
  decidable_of_iff (_ ∧ _) ⟨fun h => ⟨h.1, h.2⟩, fun h => ⟨h.tasks, h.queue⟩⟩

/-- A stop is set only while no OPEN of the slave waits. -/
def StopsWhenNoneWaits (c : Config) : Action → Prop
  | .arrive (.patchSlave id input) => input.emergencyStop = some true → c.NoOpenWaiting id
  | _ => True

instance (c : Config) (a : Action) : Decidable (StopsWhenNoneWaits c a) := by
  unfold StopsWhenNoneWaits
  split <;> infer_instance

/-! ### Nothing waits while the stop is on -/

/-- While the stop is on, no OPEN of the slave waits. -/
def stopOutline (slaveId : Uuid) : Outline World Task where
  shared w := w.Stopped slaveId → ∀ order ∈ w.copyOrders, order.slaveId = slaveId →
    order.type = .open → order.status ≠ .pending
  task w t := w.Stopped slaveId → ¬t.MaySendOpen slaveId

section

variable {w w' : World} {slaveId : Uuid}

theorem World.stopped_iff_of_slaves (h : w'.slaves.map Slave.config = w.slaves.map Slave.config) :
    w'.Stopped slaveId ↔ w.Stopped slaveId := by
  have hconfig : ∀ u : World, u.Stopped slaveId ↔
      (∃ slave ∈ u.slaves.map Slave.config, slave.id = slaveId) ∧
        ∀ slave ∈ u.slaves.map Slave.config, slave.id = slaveId → slave.emergencyStop = true := by
    intro u
    simp [World.Stopped, Slave.config]
  rw [hconfig, hconfig, h]

theorem CopyRead.maySendOpen {run : CopyRun} {point point' : CopyPoint}
    (hread : CopyRead w run point point') (h : (Task.copy run point').MaySendOpen slaveId) :
    (Task.copy run point).MaySendOpen slaveId := by
  obtain ⟨htype, hid, hstop, hpoint⟩ := h
  cases hread with
  | offline => exact hpoint.elim
  | _ => exact ⟨htype, hid, hstop, trivial⟩

theorem PollRead.maySendOpen {polling : Uuid} {point point' : PollPoint}
    (hread : PollRead w polling point point')
    (hqueue : ∀ order ∈ w.copyOrders, order.slaveId = slaveId → order.type = .open →
      order.status ≠ .pending)
    (h : (Task.poll polling point').MaySendOpen slaveId) :
    (Task.poll polling point).MaySendOpen slaveId := by
  cases hread with
  | @order order tradeEvent holdest =>
      obtain ⟨hmem, hslave, hpending⟩ := World.oldestPending_eq_some holdest
      have hopen : polling = slaveId ∧ order.type = .open := by
        unfold pickUp at h
        split_ifs at h <;> exact h
      exact absurd hpending (hqueue order hmem (hslave.trans hopen.1) hopen.2)
  | noTicket => exact h.elim
  | ticket => exact h
  | symbol => exact h

theorem queue_insertOrder {order : CopyOrder}
    (hqueue : ∀ row ∈ w.copyOrders, row.slaveId = slaveId → row.type = .open → row.status ≠ .pending)
    (hnew : order.slaveId = slaveId → order.type = .open → order.status ≠ .pending) :
    ∀ row ∈ (w.insertOrder order).copyOrders, row.slaveId = slaveId → row.type = .open →
      row.status ≠ .pending := by
  intro row hrow
  rcases List.mem_append.mp hrow with hold | hlast
  · exact hqueue row hold
  · obtain rfl := List.mem_singleton.mp hlast
    exact hnew

theorem queue_updateOrder {copyId : Uuid} {change : CopyOrder → CopyOrder}
    (hqueue : ∀ row ∈ w.copyOrders, row.slaveId = slaveId → row.type = .open → row.status ≠ .pending)
    (hchange : Settles change) :
    ∀ row ∈ (w.updateOrder copyId change).copyOrders, row.slaveId = slaveId → row.type = .open →
      row.status ≠ .pending := by
  intro row hrow
  obtain ⟨old, hold, ⟨-, rfl⟩ | ⟨-, rfl⟩⟩ := Table.mem_update.mp hrow
  · exact fun _ _ => hchange old
  · exact hqueue row hold

/-- A run that inserts the row of an OPEN has a slave row without the stop, so under the stop it is of
another slave. -/
theorem insert_not_open {run : CopyRun} {resolvedSymbol : String} {slaveTicket : Option String}
    {volume : Option ℚ}
    (hadmitted : (Task.copy run (.createOrder resolvedSymbol slaveTicket volume)).Admitted)
    (hmay : ¬(Task.copy run (.createOrder resolvedSymbol slaveTicket volume)).MaySendOpen slaveId) :
    run.slave.id = slaveId → run.event.type ≠ .open :=
  fun hid hopen => hmay ⟨hopen, hid, (hadmitted.2.1 hopen).1, trivial⟩

end

/-- While the stop is on a step leaves no OPEN of the slave waiting, and hands none over. -/
theorem Task.Step.stopped {reply : Reply} {w w' : World} {task : Task} {next : List Task}
    {slaveId : Uuid} (hstep : Task.Step reply w task w' next) (hadmitted : task.Admitted)
    (hstop : w.Stopped slaveId) (hmay : ¬task.MaySendOpen slaveId)
    (hqueue : ∀ order ∈ w.copyOrders, order.slaveId = slaveId → order.type = .open →
      order.status ≠ .pending) :
    (∀ order ∈ w'.copyOrders, order.slaveId = slaveId → order.type = .open →
      order.status ≠ .pending) ∧
    (∀ t ∈ next, ¬t.MaySendOpen slaveId) ∧
    ∀ delivery ∈ w.deliveriesSince w', delivery.slaveId = slaveId →
      delivery.instruction.action ≠ .open := by
  have hsame : ∀ u : World, u.sent = w.sent → ∀ delivery ∈ w.deliveriesSince u,
      delivery.slaveId = slaveId → delivery.instruction.action ≠ .open := by
    intro u hu
    simp [World.deliveriesSince, hu]
  cases hstep with
  | background htask hnext hkeep =>
      exact ⟨hkeep.copyOrders ▸ hqueue, fun t ht => (hnext t ht).not_maySendOpen,
        hsame _ hkeep.sent⟩
  | eventRead hread =>
      refine ⟨hqueue, fun t ht => ?_, hsame _ rfl⟩
      obtain rfl := List.mem_singleton.mp ht
      cases hread with
      | found | wait | again => exact fun h => h
      | slaves =>
          rintro ⟨-, slave, hslave, hid, hoff⟩
          have hon := hstop.2 slave (List.mem_of_mem_filter hslave) hid
          rw [hoff] at hon
          cases hon
  | fanOut event tradeEventId slaves =>
      refine ⟨hqueue, fun t ht => ?_, hsame _ rfl⟩
      obtain ⟨slave, hslave, rfl⟩ := List.mem_map.mp ht
      exact fun h => hmay ⟨h.1, slave, hslave, h.2.1, h.2.2.1⟩
  | copyRead hread =>
      refine ⟨hqueue, fun t ht => ?_, hsame _ rfl⟩
      obtain rfl := List.mem_singleton.mp ht
      exact fun h => hmay (hread.maySendOpen h)
  | refuse run reason requestedVolume =>
      exact ⟨queue_insertOrder hqueue (by simp [CopyRun.failedOrder, CopyRun.order]), by simp,
        hsame _ rfl⟩
  | insert run resolvedSymbol slaveTicket volume hkey hnext =>
      refine ⟨queue_insertOrder hqueue ?_, fun t ht => ?_, hsame _ rfl⟩
      · exact fun hid hopen => absurd hopen (insert_not_open hadmitted hmay hid)
      · obtain ⟨rfl, -⟩ | rfl := hnext.mem ht
        · exact fun h => h.2.2.2
        · exact fun h => h.2.2.2
  | push run resolvedSymbol slaveTicket volume =>
      have hother := insert_not_open hadmitted hmay
      refine ⟨queue_insertOrder hqueue fun hid hopen => absurd hopen (hother hid), ?_, ?_⟩
      · simp [MaySendOpen, CopyPoint.BeforeInsert]
      · simpa [World.deliveriesSince, CopyRun.instruction] using hother
  | markOffline =>
      exact ⟨queue_updateOrder hqueue (settles_markFailed _), by simp, hsame _ rfl⟩
  | markSent =>
      exact ⟨queue_updateOrder hqueue (settles_ite (settles_markSent _) (settles_markFailed _)),
        by simp, hsame _ rfl⟩
  | messageRead => exact ⟨hqueue, by simp [MaySendOpen], hsame _ rfl⟩
  | record => exact ⟨queue_updateOrder hqueue (settles_record _ _ _), by simp, hsame _ rfl⟩
  | pollRead hread =>
      refine ⟨hqueue, fun t ht => ?_, hsame _ rfl⟩
      obtain rfl := List.mem_singleton.mp ht
      exact fun h => hmay (hread.maySendOpen hqueue h)
  | pollFailed => exact ⟨queue_updateOrder hqueue (settles_markFailed _), by simp, hsame _ rfl⟩
  | respond polling instruction =>
      refine ⟨queue_updateOrder hqueue (settles_markSent _), by simp, ?_⟩
      simpa [World.deliveriesSince] using fun hid hopen => hmay ⟨hid, hopen⟩
  | respondLost => exact ⟨queue_updateOrder hqueue (settles_markSent _), by simp, hsame _ rfl⟩
  | _ => exact ⟨hqueue, by simp, hsame _ rfl⟩

theorem Stimulus.stopped {w : World} {stimulus : Stimulus} {slaveId : Uuid}
    (h : (stimulus.apply w).1.Stopped slaveId) : w.Stopped slaveId ∨
      ∃ input, stimulus = .patchSlave slaveId input ∧ input.emergencyStop = some true := by
  rcases stimulus.apply_slaves w with hsame | ⟨id, input, rfl, -, hupdate⟩
  · exact .inl ((World.stopped_iff_of_slaves (by rw [hsame])).mp h)
  · by_cases hset : id = slaveId ∧ input.emergencyStop = some true
    · exact .inr ⟨input, by rw [hset.1], hset.2⟩
    · refine .inl ?_
      unfold World.Stopped at h ⊢
      rw [hupdate] at h
      obtain ⟨⟨slave, hslave, hid⟩, hon⟩ := h
      constructor
      · obtain ⟨old, hold, ⟨-, rfl⟩ | ⟨-, rfl⟩⟩ := Table.mem_update.mp hslave
        · exact ⟨old, hold, hid⟩
        · exact ⟨slave, hold, hid⟩
      · intro old hold holdId
        by_cases hkey : old.id = id
        · have hpatched := hon _ (Table.mem_update_of_eq hold hkey) holdId
          have hinput : input.emergencyStop ≠ some true := fun h => hset ⟨hkey ▸ holdId, h⟩
          cases hflag : input.emergencyStop with
          | none => simpa [Slave.patch, hflag] using hpatched
          | some flag => cases flag <;> simp_all [Slave.patch]
        · exact hon old (Table.mem_update_of_ne hold hkey) holdId

theorem Task.Starting.not_maySendOpen {task : Task} {slaveId : Uuid} (h : task.Starting) :
    ¬task.MaySendOpen slaveId := by
  cases h with
  | background h => exact h.not_maySendOpen
  | masterEvent | message | poll => exact fun hsend => hsend

theorem stopOutline_preserved (slaveId : Uuid) :
    Preserved (restrict Backend.step StopsWhenNoneWaits) fun c =>
      admission.Holds c ∧ (stopOutline slaveId).Holds c := by
  refine admission_preserved.restrict.and fun c a c' hc h hstep => ?_
  obtain ⟨hok, hstep⟩ := restrict_eq_some.mp hstep
  cases a with
  | resume i reply =>
      refine Outline.Holds.resume Task.step h hstep ?_ ?_
      · intro task w' next hget hmove hqueue hmay
        have hmoved := Task.step_sound hmove
        have hstops : w'.Stopped slaveId ↔ c.shared.Stopped slaveId :=
          World.stopped_iff_of_slaves hmoved.slaves
        have hkept := fun hstop : c.shared.Stopped slaveId =>
          hmoved.stopped (hc.2 task (List.mem_of_getElem? hget)) hstop (hmay hstop) (hqueue hstop)
        exact ⟨fun hstop => (hkept (hstops.mp hstop)).1,
          fun t ht hstop => (hkept (hstops.mp hstop)).2.1 t ht⟩
      · intro task w' next _ hmove _ other _ hother hstop
        exact hother ((World.stopped_iff_of_slaves (Task.step_sound hmove).slaves).mp hstop)
  | arrive stimulus =>
      obtain rfl := Option.some.inj hstep
      obtain ⟨horders, -, hstarted⟩ := stimulus.apply_frame c.shared
      -- The stop was on already, or it is set now while nothing waits.
      have hnone : (stimulus.apply c.shared).1.Stopped slaveId → c.NoOpenWaiting slaveId := by
        intro hstop
        rcases stimulus.stopped hstop with hbefore | ⟨input, rfl, hset⟩
        · exact ⟨fun task htask => h.2 task htask hbefore, h.1 hbefore⟩
        · exact hok hset
      refine Outline.Holds.arrive (fun hstop => ?_) (fun task htask hstop => ?_)
        fun task htask _ => (hstarted task htask).not_maySendOpen
      · rw [horders]
        exact (hnone hstop).queue
      · exact (hnone hstop).tasks task htask

/-! ### Effective stops -/

structure Config.NoneStopped (c : Config) : Prop where
  idle : c.Idle
  running : ∀ slave ∈ c.shared.slaves, slave.emergencyStop = false

/-- While the stop of a slave is on, no step hands it an OPEN. -/
def StopIsEffective : Prop :=
  ∀ (slaveId : Uuid) (start c c' : Config) (actions : List Action) (a : Action),
    start.NoneStopped → follow Backend.step start actions = some c →
    Backend.step c a = some c' → c.shared.Stopped slaveId → ∀ delivery ∈ c.shared.deliveriesSince c'.shared,
      delivery.slaveId = slaveId → delivery.instruction.action ≠ .open

/-- An OPEN is in the queue when the stop is set, and a poll comes after. -/
def Sample.stopBeforePoll : List Action :=
  [.arrive (.patchSlave 4 { emergencyStop := some true }), .arrive (.poll 4 9), .resume 1 .ok,
    .resume 1 .ok]

theorem stop_does_not_hold_back_queue : ¬StopIsEffective := by
  intro h
  have hruns : ∃ c, follow Backend.step (Sample.queued Sample.mt4Slave Sample.openEvent)
      Sample.stopBeforePoll = some c ∧
      (∀ slave ∈ c.shared.slaves, slave.id = 4 ∧ slave.emergencyStop = true) ∧
      c.shared.slaves ≠ [] ∧ ∃ c', Backend.step c (.resume 1 .ok) = some c' ∧
        ∃ delivery ∈ c.shared.deliveriesSince c'.shared,
          delivery.slaveId = 4 ∧ delivery.instruction.action = .open := by
    decide +kernel
  obtain ⟨c, hrun, hon, hsome, c', hstep, delivery, hdelivery, hslave, hopen⟩ := hruns
  obtain ⟨slave, hslaves⟩ := List.exists_mem_of_ne_nil _ hsome
  have hstart : (Sample.queued Sample.mt4Slave Sample.openEvent).NoneStopped :=
    ⟨⟨⟨by decide, by decide, by decide, by decide⟩, rfl, rfl⟩, by decide⟩
  exact h 4 _ c c' _ _ hstart hrun hstep
    ⟨⟨slave, hslaves, (hon slave hslaves).1⟩, fun other hother _ => (hon other hother).2⟩
    delivery hdelivery hslave hopen

/-- A stop that is set only while no OPEN of the slave waits is effective. -/
theorem stop_effective_of_none_waiting (slaveId : Uuid) (start c c' : Config)
    (actions : List Action) (a : Action) (hstart : start.NoneStopped)
    (hrun : Backend.run StopsWhenNoneWaits start actions = some c)
    (hstep : Backend.step c a = some c') (hstop : c.shared.Stopped slaveId) :
    ∀ delivery ∈ c.shared.deliveriesSince c'.shared, delivery.slaveId = slaveId →
      delivery.instruction.action ≠ .open := by
  have hinit : (stopOutline slaveId).Holds start := by
    refine ⟨fun hstopped => ?_, by simp [hstart.idle.tasks]⟩
    obtain ⟨⟨slave, hslave, hid⟩, hon⟩ := hstopped
    have hoff := hstart.running slave hslave
    rw [hon slave hslave hid] at hoff
    cases hoff
  have hadmission : admission.Holds start := ⟨trivial, by simp [hstart.idle.tasks]⟩
  obtain ⟨hadmitted, hqueue, hmay⟩ :=
    (stopOutline_preserved slaveId).follow ⟨hadmission, hinit⟩ hrun
  cases a with
  | resume i reply =>
      obtain ⟨_, task, _, w', next, hget, _, hmove, rfl⟩ := resume_cases Task.step hstep
      have htask := List.mem_of_getElem? hget
      exact ((Task.step_sound hmove).stopped (hadmitted.2 task htask) hstop (hmay task htask hstop)
        (hqueue hstop)).2.2
  | arrive stimulus =>
      obtain rfl := Option.some.inj hstep
      simp [World.deliveriesSince, Pool.arrive, (stimulus.apply_frame c.shared).2.1]

/-- The stop is set, and the OPEN comes after. -/
def Sample.stopBeforeOpen : List Action :=
  [.arrive (.patchSlave 4 { emergencyStop := some true }),
    .arrive (.masterEvent Sample.openEvent)] ++ Sample.settle 6

theorem stop_before_open_effective :
    ∃ c c', Backend.run StopsWhenNoneWaits (Sample.config Sample.mt4Slave [Sample.openEvent])
        Sample.stopBeforeOpen = some c ∧ Backend.step c (.resume 0 .ok) = some c' ∧
      ∀ delivery ∈ c.shared.deliveriesSince c'.shared, delivery.slaveId = 4 →
        delivery.instruction.action ≠ .open := by
  have hruns : ∃ c, Backend.run StopsWhenNoneWaits
      (Sample.config Sample.mt4Slave [Sample.openEvent]) Sample.stopBeforeOpen = some c ∧
      (∃ slave ∈ c.shared.slaves, slave.id = 4) ∧
      (∀ slave ∈ c.shared.slaves, slave.id = 4 → slave.emergencyStop = true) ∧
      (Backend.step c (.resume 0 .ok)).isSome := by
    decide +kernel
  obtain ⟨c, hrun, hsome, hon, hstep⟩ := hruns
  obtain ⟨c', hstep⟩ := Option.isSome_iff_exists.mp hstep
  have hstart : (Sample.config Sample.mt4Slave [Sample.openEvent]).NoneStopped :=
    ⟨⟨⟨by decide, by decide, by decide, by decide⟩, rfl, rfl⟩, by decide⟩
  exact ⟨c, c', hrun, hstep,
    stop_effective_of_none_waiting 4 _ c c' _ _ hstart hrun hstep ⟨hsome, hon⟩⟩

end ForexCopy
