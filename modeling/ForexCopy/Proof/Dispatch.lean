import ForexCopy.Proof.Grounded

/-!
# One dispatch per event and slave

Three layers keep a trade event from being copied twice: the idempotency key, which expires, the unique
event id of its row, and the unique pair of trade event and slave of the copy order that is created
before anything is sent. The last two suffice: however often an event is ingested or delivered, one
row, one copy order for a slave and one push to it are all that can come of it.
-/

namespace ForexCopy

open Machine

def World.pushes (w : World) : List Delivery := w.sent.filter (·.transport = .push)

/-- The copy order is one of the event for the slave. -/
def CopyOrder.IsFor (order : CopyOrder) (w : World) (eventId : String) (slaveId : Uuid) : Prop :=
  order.slaveId = slaveId ∧
    ∃ tradeEvent ∈ w.tradeEvents, tradeEvent.id = order.tradeEventId ∧ tradeEvent.eventId = eventId

instance (order : CopyOrder) (w : World) (eventId : String) (slaveId : Uuid) :
    Decidable (order.IsFor w eventId slaveId) :=
  inferInstanceAs (Decidable (_ ∧ _))

/-- The delivery is of a copy order of the event for the slave. -/
def Delivery.IsFor (delivery : Delivery) (w : World) (eventId : String) (slaveId : Uuid) : Prop :=
  delivery.slaveId = slaveId ∧
    ∃ order ∈ w.copyOrders, order.id = delivery.instruction.copyId ∧ order.IsFor w eventId slaveId

instance (delivery : Delivery) (w : World) (eventId : String) (slaveId : Uuid) :
    Decidable (delivery.IsFor w eventId slaveId) :=
  inferInstanceAs (Decidable (_ ∧ _))

namespace World

variable {w w' : World}

/-- Trade events are keyed, and no copy order was pushed twice. -/
structure PushedOnce (w : World) : Prop where
  eventIds : (w.tradeEvents.map TradeEvent.eventId).Nodup
  tradeEventIds : (w.tradeEvents.map TradeEvent.id).Nodup
  pushes : (w.pushes.map fun delivery => delivery.instruction.copyId).Nodup

theorem PushedOnce.of_eq (h : w.PushedOnce) (hevents : w'.tradeEvents = w.tradeEvents)
    (hpushes : w'.pushes = w.pushes) : w'.PushedOnce :=
  ⟨hevents ▸ h.eventIds, hevents ▸ h.tradeEventIds, hpushes ▸ h.pushes⟩

theorem PushedOnce.insertTradeEvent (h : w.PushedOnce) {event : NormalizedTradeEvent}
    (hnew : event.eventId ∉ w.tradeEvents.map TradeEvent.eventId) :
    (w.insertTradeEvent (event.row w.nextTradeEventId)).PushedOnce where
  eventIds := Table.nodup_append_of_notMem h.eventIds hnew
  tradeEventIds := Table.nodup_append_of_notMem h.tradeEventIds (Table.fresh_notMem _)
  pushes := h.pushes

theorem Sound.nextCopyId_notMem_pushes (h : w.Sound) :
    w.nextCopyId ∉ w.pushes.map fun delivery => delivery.instruction.copyId := by
  rintro hmem
  obtain ⟨delivery, hdelivery, hid⟩ := List.mem_map.mp hmem
  obtain ⟨core, hcore, hcoreId, -⟩ := h.sent delivery (List.mem_of_mem_filter hdelivery)
  exact ne_nextCopyId hcore (hcoreId.trans hid)

theorem PushedOnce.push (h : w.PushedOnce) (hw : w.Sound) (order : CopyOrder) (slaveId : Uuid)
    {instruction : CopyInstruction} (hid : instruction.copyId = w.nextCopyId) :
    ((w.insertOrder order).push slaveId instruction).PushedOnce where
  eventIds := h.eventIds
  tradeEventIds := h.tradeEventIds
  pushes := by
    have hpushes : ((w.insertOrder order).push slaveId instruction).pushes =
        w.pushes ++ [⟨.push, slaveId, instruction⟩] := by
      simp [World.pushes]
    rw [hpushes]
    exact Table.nodup_append_of_notMem h.pushes (hid ▸ hw.nextCopyId_notMem_pushes)

end World

theorem Task.Step.pushedOnce {reply : Reply} {w w' : World} {task : Task} {next : List Task}
    (hstep : Task.Step reply w task w' next) (hw : w.Sound) (h : w.PushedOnce) : w'.PushedOnce := by
  cases hstep with
  | background _ _ hsame =>
      exact h.of_eq hsame.tradeEvents (congrArg (List.filter _) hsame.sent)
  | persist event hnew => exact h.insertTradeEvent hnew
  | push run => exact h.push hw _ run.slave.id rfl
  | respond slaveId instruction => exact h.of_eq rfl (by simp [World.pushes])
  | _ => exact h.of_eq rfl rfl

theorem Stimulus.apply_tradeEvents (w : World) (stimulus : Stimulus) :
    (stimulus.apply w).1.tradeEvents = w.tradeEvents := by
  cases stimulus with
  | ingest masterId payload =>
      simp only [apply, ingestTradeEvent]
      split_ifs <;> rfl
  | executionResult slaveId connectorId body => cases body <;> rfl
  | patchSlave id input =>
      simp only [apply, World.patchSlave]
      split_ifs <;> rfl
  | _ => rfl

theorem pushedOnce_preserved :
    Preserved Backend.step fun c => grounded.Holds c ∧ c.shared.PushedOnce := by
  refine grounded_preserved.and fun c a c' hc h hstep => ?_
  refine Backend.world_step hstep ?_ ?_
  · intro _ _ _ _ _ _ _ hmove
    exact hmove.pushedOnce hc.1 h
  · intro stimulus _
    exact h.of_eq (stimulus.apply_tradeEvents _)
      (congrArg (List.filter _) (stimulus.apply_frame _).2.1)

/-- Whatever is ingested, delivered, retried or lost, an event has one row, one copy order for a slave
and one push to it, and every push is of a copy order of the slave it goes to. -/
theorem dispatched_at_most_once (start c : Config) (actions : List Action) (hstart : start.Idle)
    (hrun : follow Backend.step start actions = some c) (eventId : String) (slaveId : Uuid) :
    (c.shared.tradeEvents.filter (·.eventId = eventId)).length ≤ 1 ∧
      (c.shared.copyOrders.filter (·.IsFor c.shared eventId slaveId)).length ≤ 1 ∧
      (c.shared.pushes.filter (·.IsFor c.shared eventId slaveId)).length ≤ 1 ∧
      ∀ delivery ∈ c.shared.pushes, ∃ order ∈ c.shared.copyOrders,
        order.id = delivery.instruction.copyId ∧ order.slaveId = delivery.slaveId := by
  have hpushed : start.shared.PushedOnce :=
    ⟨hstart.keyed.eventIds, hstart.keyed.tradeEventIds, by simp [World.pushes, hstart.sent]⟩
  obtain ⟨⟨hsound, -⟩, hpushed⟩ := pushedOnce_preserved.follow ⟨hstart.grounded, hpushed⟩ hrun
  -- Two copy orders of the event for the slave are of one trade event, so they share their key.
  have horders : ∀ a b : CopyOrder, a.IsFor c.shared eventId slaveId →
      b.IsFor c.shared eventId slaveId → a.dispatchKey = b.dispatchKey := by
    rintro a b ⟨haslave, ea, hea, haid, haevent⟩ ⟨hbslave, eb, heb, hbid, hbevent⟩
    obtain rfl := Table.eq_of_key_eq hpushed.eventIds hea heb (haevent.trans hbevent.symm)
    exact Prod.ext (haid.symm.trans hbid) (haslave.trans hbslave.symm)
  refine ⟨?_, ?_, ?_, fun delivery hdelivery => ?_⟩
  · refine Table.length_filter_le_one hpushed.eventIds fun a _ b _ ha hb => ?_
    exact (of_decide_eq_true ha).trans (of_decide_eq_true hb).symm
  · refine Table.length_filter_le_one hsound.keys fun a _ b _ ha hb => ?_
    exact horders a b (of_decide_eq_true ha) (of_decide_eq_true hb)
  · refine Table.length_filter_le_one hpushed.pushes fun a _ b _ ha hb => ?_
    obtain ⟨-, oa, hoa, haid, ha⟩ := of_decide_eq_true ha
    obtain ⟨-, ob, hob, hbid, hb⟩ := of_decide_eq_true hb
    obtain rfl := Table.eq_of_key_eq hsound.keys hoa hob (horders oa ob ha hb)
    exact haid.symm.trans hbid
  · obtain ⟨core, hcore, hid, hslave, -⟩ := hsound.sent delivery (List.mem_of_mem_filter hdelivery)
    obtain ⟨order, horder, rfl⟩ := World.exists_of_mem_cores hcore
    exact ⟨order, horder, hid, hslave⟩

def Sample.redelivery : List Action :=
  [.arrive (.ingest 1 Sample.openEvent.toTradeEventPayload)] ++ Sample.settle 3 ++
    [.arrive (.masterEvent Sample.openEvent), .arrive (.masterEvent Sample.openEvent)] ++
    Sample.settle 15

theorem redelivery_pushed_once :
    ∃ c, follow Backend.step (Sample.config Sample.mt5Slave []) Sample.redelivery = some c ∧
      (c.shared.pushes.filter (·.IsFor c.shared "OPEN-7-1001" 5)).length = 1 := by
  have hruns : ∃ c, follow Backend.step (Sample.config Sample.mt5Slave []) Sample.redelivery =
      some c ∧ 1 ≤ (c.shared.pushes.filter (·.IsFor c.shared "OPEN-7-1001" 5)).length := by
    decide +kernel
  obtain ⟨c, hrun, hpushed⟩ := hruns
  have hidle : (Sample.config Sample.mt5Slave []).Idle :=
    ⟨⟨by decide, by decide, by decide, by decide⟩, rfl, rfl⟩
  have hatMost := (dispatched_at_most_once _ c _ hidle hrun "OPEN-7-1001" 5).2.2.1
  exact ⟨c, hrun, hatMost.antisymm hpushed⟩

end ForexCopy
