import ForexCopy.Proof.Grounded
import ForexCopy.Proof.Slaves
import ForexCopy.Slave.PollingEa

/-!
# What a lost response loses

The row of a poll is SENT before the response leaves, so a response that does not arrive takes its
instruction with it: no later poll chooses the row again. Where every response arrives, and no handler
fails between its update and its response, a SENT row of a polling slave is one the EA has received.
-/

namespace ForexCopy

open Machine Pool

/-! ### SENT means responded -/

def World.Responded (w : World) (slaveId : Uuid) : Prop :=
  ∀ order ∈ w.copyOrders, order.slaveId = slaveId → order.status = .sent →
    ∃ delivery ∈ w.sent, delivery.transport = .poll ∧ delivery.slaveId = slaveId ∧
      delivery.instruction.copyId = order.id

/-- The slave, if it is that one, polls. -/
def Slave.PollsAs (slaveId : Uuid) (slave : Slave) : Prop :=
  slave.id = slaveId → slave.platform = "MT4"

instance (slaveId : Uuid) (slave : Slave) : Decidable (slave.PollsAs slaveId) :=
  inferInstanceAs (Decidable (_ → _))

def Task.marks : Task → Bool
  | .poll _ (.markSent _) => true
  | _ => false

/-- No SENT update of a poll takes effect without the response. -/
def RespondsWhenMarked (c : Config) (a : Action) : Prop :=
  a.reply = some .lost → ∀ task ∈ a.resumed c, task.marks = false

instance (c : Config) (a : Action) : Decidable (RespondsWhenMarked c a) :=
  inferInstanceAs (Decidable (a.reply = some .lost → ∀ task ∈ a.resumed c, task.marks = false))

namespace World

variable {w w' : World} {slaveId : Uuid}

theorem Responded.of_eq (h : w.Responded slaveId) (horders : w'.copyOrders = w.copyOrders)
    (hsent : w'.sent = w.sent) : w'.Responded slaveId := by
  unfold Responded
  rw [horders, hsent]
  exact h

theorem Responded.insertOrder (h : w.Responded slaveId) {order : CopyOrder}
    (hstatus : order.status ≠ .sent) : (w.insertOrder order).Responded slaveId := by
  intro row hrow hslave hsent
  rcases List.mem_append.mp hrow with hold | hnew
  · exact h row hold hslave hsent
  · obtain rfl := List.mem_singleton.mp hnew
    exact absurd hsent hstatus

theorem Responded.push (h : w.Responded slaveId) (other : Uuid) (instruction : CopyInstruction) :
    (w.push other instruction).Responded slaveId := by
  intro row hrow hslave hsent
  obtain ⟨delivery, hdelivery, hrest⟩ := h row hrow hslave hsent
  exact ⟨delivery, by simp [hdelivery], hrest⟩

theorem Responded.updateOrder (h : w.Responded slaveId) {copyId : Uuid}
    {change : CopyOrder → CopyOrder} (hcore : KeepsCore change)
    (hchange : ∀ order ∈ w.copyOrders, order.id = copyId → order.slaveId = slaveId →
      (change order).status ≠ .sent) : (w.updateOrder copyId change).Responded slaveId := by
  intro row hrow hslave hsent
  obtain ⟨old, hold, ⟨hid, rfl⟩ | ⟨-, rfl⟩⟩ := Table.mem_update.mp hrow
  · exact absurd hsent (hchange old hold hid ((hcore.slaveId old).symm.trans hslave))
  · exact h row hold hslave hsent

theorem Responded.respond (h : w.Responded slaveId) {polling : Uuid} {instruction : CopyInstruction}
    (hrow : ∀ order ∈ w.copyOrders, order.id = instruction.copyId → order.slaveId = polling) :
    ((w.updateOrder instruction.copyId (CopyOrder.markSent w.now)).respond polling
      instruction).Responded slaveId := by
  intro row hmem hslave hsent
  obtain ⟨old, hold, ⟨hid, rfl⟩ | ⟨-, rfl⟩⟩ := Table.mem_update.mp hmem
  · refine ⟨⟨.poll, polling, instruction⟩, by simp, rfl, ?_, hid.symm⟩
    exact (hrow old hold hid).symm.trans hslave
  · obtain ⟨delivery, hdelivery, hrest⟩ := h row hold hslave hsent
    exact ⟨delivery, by simp [hdelivery], hrest⟩

end World

/-- Every step of a call keeps every SENT row of a polling slave in a response. -/
theorem Task.Step.responded {reply : Reply} {w w' : World} {task : Task} {next : List Task}
    {slaveId : Uuid} (hstep : Task.Step reply w task w' next) (hw : w.Sound)
    (htask : task.Grounded w) (hslaves : task.HoldsSlaves (Slave.PollsAs slaveId))
    (hlost : ∀ polling instruction, task = .poll polling (.markSent instruction) → reply ≠ .lost)
    (h : w.Responded slaveId) : w'.Responded slaveId := by
  cases hstep with
  | background _ _ hsame => exact h.of_eq hsame.copyOrders hsame.sent
  | refuse => exact h.insertOrder (by simp [CopyRun.failedOrder, CopyRun.order])
  | insert => exact h.insertOrder (by simp [CopyRun.pendingOrder, CopyRun.order])
  | push run => exact (h.insertOrder (by simp [CopyRun.pendingOrder, CopyRun.order])).push _ _
  | markOffline =>
      exact h.updateOrder (keepsCore_markFailed _) fun _ _ _ _ => by simp [CopyOrder.markFailed]
  | markSent run copyId sent =>
      -- A run that has pushed is of a slave that does not poll, and so is its row.
      obtain ⟨⟨hplatform, -⟩, volume, hcore⟩ := htask
      refine h.updateOrder (keepsCore_ite (keepsCore_markSent _) (keepsCore_markFailed _)) ?_
      intro order horder hid hslave
      have hsame := hw.core_eq hcore horder hid
      have hrun : run.slave.id = slaveId :=
        (CopyOrder.slaveId_of_core hsame).symm.trans hslave
      exact absurd (hslaves hrun) hplatform
  | record slaveId result =>
      refine h.updateOrder (keepsCore_record _ _ _) fun _ _ _ _ => ?_
      cases hstatus : result.status <;>
        simp [CopyOrder.record, ExecutionStatus.toCopyOrderStatus, hstatus]
  | pollFailed =>
      exact h.updateOrder (keepsCore_markFailed _) fun _ _ _ _ => by simp [CopyOrder.markFailed]
  | respond polling instruction =>
      obtain ⟨core, hcore, hcoreId, hcoreSlave, -⟩ := htask
      refine h.respond fun order horder hid => ?_
      rw [← order.core_slaveId, hw.core_eq hcore horder (hid.trans hcoreId.symm), hcoreSlave]
  | respondLost polling instruction hreply => exact absurd hreply (hlost polling instruction rfl)
  | _ => exact h.of_eq rfl rfl

theorem pollsAs_ofConfig (slaveId : Uuid) : OfConfig (Slave.PollsAs slaveId) := by
  intro a b hconfig h hid
  have hplatform : a.config.platform = b.config.platform := by rw [hconfig]
  have hsame : a.config.id = b.config.id := by rw [hconfig]
  exact hplatform.symm.trans (h (hsame.trans hid))

theorem responded_preserved (slaveId : Uuid) :
    Preserved (restrict Backend.step RespondsWhenMarked) fun c =>
      (grounded.Holds c ∧ (slavesOutline (Slave.PollsAs slaveId)).Holds c) ∧
        c.shared.Responded slaveId := by
  have hslaves : Preserved (restrict Backend.step RespondsWhenMarked)
      (slavesOutline (Slave.PollsAs slaveId)).Holds :=
    slaves_preserved (pollsAs_ofConfig slaveId) fun _ _ _ _ _ slave _ _ h => h
  refine (grounded_preserved.restrict.and fun _ _ _ _ h hstep => hslaves h hstep).and ?_
  intro c a c' hc h hstep
  obtain ⟨hok, hstep⟩ := restrict_eq_some.mp hstep
  refine Backend.world_step (P := (World.Responded · slaveId)) hstep ?_ ?_
  · rintro i reply task w' next rfl hget hmove
    have hmem := List.mem_of_getElem? hget
    refine hmove.responded hc.1.1 (hc.1.2 task hmem) (hc.2.2 task hmem) ?_ h
    rintro polling instruction rfl rfl
    exact Bool.noConfusion (hok rfl _ hget)
  · intro stimulus _
    exact h.of_eq (stimulus.apply_frame _).1 (stimulus.apply_frame _).2.1

/-! ### Responded means received -/

namespace PollingEa

/-- The backend and the EA before a run: the slave polls, none of its rows is SENT, and nothing is on
its way. -/
structure Idle (slaveId : Uuid) (ea : PollingEa) : Prop where
  backend : Config.Idle ea.backend
  platform : ∀ slave ∈ ea.backend.shared.slaves, slave.PollsAs slaveId
  notSent : ∀ order ∈ ea.backend.shared.copyOrders, order.slaveId = slaveId → order.status ≠ .sent

def serves (slaveId : Uuid) : Task → Bool
  | .poll polling _ => polling = slaveId
  | _ => false

/-- The EA polls again only when its last poll has been answered or has failed. -/
def PollsInTurn (slaveId : Uuid) (ea : PollingEa) : PollingEaAction → Prop
  | .backend (.arrive (.poll polling _)) =>
    polling = slaveId → ea.onTheWay = [] ∧ ∀ task ∈ ea.backend.tasks, ¬serves slaveId task
  | _ => True

instance (slaveId : Uuid) (ea : PollingEa) (a : PollingEaAction) :
    Decidable (PollsInTurn slaveId ea a) := by
  unfold PollsInTurn
  split <;> infer_instance

/-- No response is lost, and no handler fails between its SENT update and its response. -/
def NothingLost (ea : PollingEa) : PollingEaAction → Prop
  | .backend action => RespondsWhenMarked ea.backend action
  | .receive _ => True
  | .lose _ => False

instance (ea : PollingEa) (a : PollingEaAction) : Decidable (NothingLost ea a) := by
  unfold NothingLost
  split <;> infer_instance

/-- With nothing on its way, every SENT row of the slave has been received by the EA. -/
def PickedUp (slaveId : Uuid) (ea : PollingEa) : Prop :=
  ea.onTheWay = [] → ∀ order ∈ ea.backend.shared.copyOrders, order.slaveId = slaveId →
    order.status = .sent → ∃ instruction ∈ ea.received, instruction.copyId = order.id

/-- Every response to the slave is on its way or has been received. -/
def Accounted (slaveId : Uuid) (ea : PollingEa) : Prop :=
  ∀ delivery ∈ ea.backend.shared.sent, delivery.transport = .poll → delivery.slaveId = slaveId →
    delivery.instruction ∈ ea.onTheWay ∨ delivery.instruction ∈ ea.received

variable {slaveId : Uuid} {ea ea' : PollingEa}

theorem Accounted.backend (h : ea.Accounted slaveId) {c : Config}
    (hbefore : ea.backend.shared.Before c.shared) :
    Accounted slaveId { ea with
      backend := c
      onTheWay := ea.onTheWay ++ responsesSince slaveId ea.backend.shared c.shared } := by
  intro delivery hdelivery htransport hslave
  obtain ⟨new, hnew⟩ := hbefore.sent
  have hsince : responsesSince slaveId ea.backend.shared c.shared =
      (new.filter fun delivery =>
        delivery.transport = .poll ∧ delivery.slaveId = slaveId).map Delivery.instruction := by
    rw [responsesSince, World.deliveriesSince, ← hnew, List.drop_left]
  dsimp only at hdelivery ⊢
  rw [← hnew, List.mem_append] at hdelivery
  rw [hsince, List.mem_append]
  rcases hdelivery with hold | hdelivery
  · exact (h delivery hold htransport hslave).imp_left .inl
  · refine .inl (.inr (List.mem_map_of_mem (List.mem_filter.mpr ⟨hdelivery, ?_⟩)))
    simp [htransport, hslave]

theorem Accounted.receive (h : ea.Accounted slaveId) {i : ℕ} {instruction : CopyInstruction}
    (hget : ea.onTheWay[i]? = some instruction) :
    Accounted slaveId { ea with
      onTheWay := ea.onTheWay.eraseIdx i, received := ea.received ++ [instruction] } := by
  intro delivery hdelivery htransport hslave
  dsimp only
  rcases h delivery hdelivery htransport hslave with hway | hreceived
  · by_cases hsame : delivery.instruction = instruction
    · exact .inr (by simp [hsame])
    · obtain ⟨j, hj⟩ := List.getElem?_of_mem hway
      have hne : j ≠ i := by
        rintro rfl
        exact hsame (Option.some.inj (hj.symm.trans hget))
      exact .inl (List.mem_eraseIdx_iff_getElem?.mpr ⟨j, hne, hj⟩)
  · exact .inr (List.mem_append_left _ hreceived)

/-- What every step keeps in a run that loses nothing. -/
structure Kept (slaveId : Uuid) (ea : PollingEa) : Prop where
  backend : (grounded.Holds ea.backend ∧ (slavesOutline (Slave.PollsAs slaveId)).Holds ea.backend) ∧
    ea.backend.shared.Responded slaveId
  accounted : ea.Accounted slaveId

theorem kept_preserved (slaveId : Uuid) :
    Preserved (restrict (PollingEa.step slaveId) NothingLost) (Kept slaveId) := by
  intro ea a ea' h hstep
  obtain ⟨hok, hstep⟩ := restrict_eq_some.mp hstep
  cases a with
  | backend action =>
      obtain ⟨c, hbackend, rfl⟩ := Option.map_eq_some_iff.mp hstep
      have hrestricted : restrict Backend.step RespondsWhenMarked ea.backend action = some c :=
        restrict_eq_some.mpr ⟨hok, hbackend⟩
      exact ⟨responded_preserved slaveId h.backend hrestricted,
        h.accounted.backend (Backend.step_before hbackend)⟩
  | receive i =>
      obtain ⟨instruction, hget, rfl⟩ := Option.map_eq_some_iff.mp hstep
      exact ⟨h.backend, h.accounted.receive hget⟩
  | lose => exact hok.elim

theorem Idle.kept {start : PollingEa} (h : start.Idle slaveId) : start.Kept slaveId where
  backend := by
    refine ⟨⟨h.backend.grounded, h.platform, by simp [h.backend.tasks]⟩, ?_⟩
    exact fun order horder hslave hsent => absurd hsent (h.notSent order horder hslave)
  accounted := by simp [Accounted, h.backend.sent]

/-- The instruction of every SENT row is received, however polls and losses fall. -/
def NothingLostAtPickup : Prop :=
  ∀ (slaveId : Uuid) (start ea : PollingEa) (actions : List PollingEaAction), start.Idle slaveId →
    follow (restrict (PollingEa.step slaveId) (PollsInTurn slaveId)) start actions = some ea →
    ea.PickedUp slaveId

def Sample.lostResponse : List PollingEaAction :=
  [.backend (.arrive (.poll 4 9)), .backend (.resume 1 .ok), .backend (.resume 1 .ok),
    .backend (.resume 1 .ok), .lose 0]

theorem lost_response_loses_instruction : ¬NothingLostAtPickup := by
  intro h
  have hruns : ∃ ea, follow (restrict (PollingEa.step 4) (PollsInTurn 4))
      ⟨Sample.queued Sample.mt4Slave Sample.openEvent, [], []⟩ Sample.lostResponse = some ea ∧
      ea.onTheWay = [] ∧ ea.received = [] ∧
      ∃ order ∈ ea.backend.shared.copyOrders, order.slaveId = 4 ∧ order.status = .sent := by
    decide +kernel
  obtain ⟨ea, hrun, hquiet, hnone, order, horder, hslave, hsent⟩ := hruns
  have hidle : Idle 4 ⟨Sample.queued Sample.mt4Slave Sample.openEvent, [], []⟩ :=
    ⟨⟨⟨by decide, by decide, by decide, by decide⟩, rfl, rfl⟩, by decide, by decide⟩
  obtain ⟨instruction, hreceived, -⟩ := h 4 _ ea _ hidle hrun hquiet order horder hslave hsent
  rw [hnone] at hreceived
  cases hreceived

/-- In a run that loses no response, every SENT row of the slave has been received once nothing is on
its way. -/
theorem picked_up_of_nothing_lost (slaveId : Uuid) (start ea : PollingEa)
    (actions : List PollingEaAction) (hstart : start.Idle slaveId)
    (hrun : follow (restrict (PollingEa.step slaveId) NothingLost) start actions = some ea) :
    ea.PickedUp slaveId := by
  obtain ⟨⟨-, hresponded⟩, haccounted⟩ := (kept_preserved slaveId).follow hstart.kept hrun
  intro hquiet order horder hslave hsent
  obtain ⟨delivery, hdelivery, htransport, hto, hid⟩ := hresponded order horder hslave hsent
  rcases haccounted delivery hdelivery htransport hto with hway | hreceived
  · rw [hquiet] at hway
    cases hway
  · exact ⟨delivery.instruction, hreceived, hid⟩

def Sample.arrivedResponse : List PollingEaAction :=
  [.backend (.arrive (.poll 4 9)), .backend (.resume 1 .ok), .backend (.resume 1 .ok),
    .backend (.resume 1 .ok), .receive 0]

theorem arrived_response_picked_up :
    ∃ ea, follow (restrict (PollingEa.step 4) NothingLost)
        ⟨Sample.queued Sample.mt4Slave Sample.openEvent, [], []⟩ Sample.arrivedResponse = some ea ∧
      ea.PickedUp 4 := by
  have hruns : (follow (restrict (PollingEa.step 4) NothingLost)
      ⟨Sample.queued Sample.mt4Slave Sample.openEvent, [], []⟩ Sample.arrivedResponse).isSome := by
    decide +kernel
  obtain ⟨ea, hrun⟩ := Option.isSome_iff_exists.mp hruns
  have hidle : Idle 4 ⟨Sample.queued Sample.mt4Slave Sample.openEvent, [], []⟩ :=
    ⟨⟨⟨by decide, by decide, by decide, by decide⟩, rfl, rfl⟩, by decide, by decide⟩
  exact ⟨ea, hrun, picked_up_of_nothing_lost 4 _ ea _ hidle hrun⟩

end PollingEa

end ForexCopy
