import ForexCopy.Proof.Dispatch
import ForexCopy.Proof.Slaves

/-!
# The order of dispatch

Every message on a master's channel starts a handler of its own, and nothing makes a handler wait for
those of earlier messages: one that finds its event not yet persisted sleeps, and a later one overtakes
it. The suspended calls stand in the order of their messages, so a push that is sent while no earlier
call can still send one for the same position keeps that order.
-/

namespace ForexCopy

open Machine Pool

/-- The position of the master that the event is about. -/
def NormalizedTradeEvent.position (event : NormalizedTradeEvent) : Uuid × String :=
  (event.masterId, event.masterTicket)

/-- The message that an action delivers on a master's channel. -/
def Action.message : Action → Option NormalizedTradeEvent
  | .arrive (.masterEvent event) => some event
  | _ => none

def messages (actions : List Action) : List NormalizedTradeEvent := actions.filterMap Action.message

def World.pushesTo (w : World) (slaveId : Uuid) : List Delivery :=
  w.pushes.filter (·.slaveId = slaveId)

/-- The delivery is the instruction to copy the event. -/
structure Delivery.CopyOf (w : World) (delivery : Delivery) (event : NormalizedTradeEvent) : Prop where
  order : ∃ order ∈ w.copyOrders, order.id = delivery.instruction.copyId ∧
    order.IsFor w event.eventId delivery.slaveId ∧ order.masterId = event.masterId ∧
    order.masterTicket = event.masterTicket
  action : delivery.instruction.action = event.type
  side : delivery.instruction.side = event.side
  sl : delivery.instruction.sl = event.sl
  tp : delivery.instruction.tp = event.tp

/-- What was pushed to the slave copies messages, those of each position in the order of the messages. -/
def World.FollowsOrder (w : World) (slaveId : Uuid) (messages : List NormalizedTradeEvent) : Prop :=
  ∃ events, List.Forall₂ (Delivery.CopyOf w) (w.pushesTo slaveId) events ∧ ∀ position,
    (events.filter (·.position = position)).Sublist (messages.filter (·.position = position))

/-! ### What can still be sent -/

/-- The slave is among those that the handler goes on to copy to, as far as these are known. -/
def EventPoint.reaches (slaveId : Uuid) : EventPoint → Bool
  | .findMaster _ slaves => (slaves.map Slave.id).contains slaveId
  | .findEvent | .sleep | .findEventAgain | .findSlaves _ => true

/-- The run has not inserted its row yet, and can still send its instruction. -/
def CopyPoint.undispatched : CopyPoint → Bool
  | .resolveSymbol | .findTicket _ | .readPositions _ | .readCloses _ _ | .readOpens _ _
  | .createOrder _ _ _ => true
  | .failOrder _ _ | .findConnector _ | .markOffline _ | .markSent _ _ => false

/-- The event of which the call can still send a copy to the slave. -/
def Task.undispatched (slaveId : Uuid) : Task → Option NormalizedTradeEvent
  | .masterEvent event point => if point.reaches slaveId then some event else none
  | .copy run point => if run.slave.id = slaveId ∧ point.undispatched then some run.event else none
  | _ => none

/-- The run that gets its row inserted and pushes its instruction at once. -/
def Task.pushing (reply : Reply) (w : World) : Task → Option CopyRun
  | .copy run (.createOrder _ _ volume) =>
    if (w.createOrder (run.pendingOrder w.nextCopyId volume)).isSome ∧ reply.Resolves ∧
        run.slave.platform ≠ "MT4" ∧ w.isSlaveConnected run.slave.id then
      some run
    else
      none
  | _ => none

/-- The calls that earlier messages have started. -/
def Action.earlier (c : Config) : Action → List Task
  | .resume i _ => c.tasks.take i
  | .arrive _ => []

/-- No push is sent while an earlier call can still send one for the same position to the same slave. -/
def PushesInTurn (c : Config) (a : Action) : Prop :=
  ∀ reply ∈ a.reply, ∀ task ∈ a.resumed c, ∀ run ∈ task.pushing reply c.shared,
    ∀ earlier ∈ a.earlier c, ∀ event ∈ earlier.undispatched run.slave.id,
      event.position ≠ run.event.position

instance (c : Config) (a : Action) : Decidable (PushesInTurn c a) :=
  inferInstanceAs (Decidable (∀ reply ∈ a.reply, ∀ task ∈ a.resumed c,
    ∀ run ∈ task.pushing reply c.shared, ∀ earlier ∈ a.earlier c,
    ∀ event ∈ earlier.undispatched run.slave.id, _))

/-! ### What the calls know of their event -/

def World.HasEvent (w : World) (tradeEventId : Uuid) (event : NormalizedTradeEvent) : Prop :=
  ∃ row ∈ w.tradeEvents, row.id = tradeEventId ∧ row.eventId = event.eventId

/-- The event of the call has a row once the call has read it, and its slaves are distinct. -/
def Task.Placed (w : World) : Task → Prop
  | .masterEvent event (.findSlaves tradeEventId) => w.HasEvent tradeEventId event
  | .masterEvent event (.findMaster tradeEventId slaves) =>
    w.HasEvent tradeEventId event ∧ (slaves.map Slave.id).Nodup
  | .copy run _ => w.HasEvent run.tradeEventId run.event
  | _ => True

def placement : Outline World Task := ⟨fun w => (w.slaves.map Slave.id).Nodup, Task.Placed⟩

variable {w w' : World} {reply : Reply} {task : Task} {next : List Task}

theorem World.HasEvent.mono {tradeEventId : Uuid} {event : NormalizedTradeEvent}
    (h : w.HasEvent tradeEventId event) (hevents : w.tradeEvents ⊆ w'.tradeEvents) :
    w'.HasEvent tradeEventId event := by
  obtain ⟨row, hrow, hids⟩ := h
  exact ⟨row, hevents hrow, hids⟩

theorem Task.Placed.mono (h : task.Placed w) (hevents : w.tradeEvents ⊆ w'.tradeEvents) :
    task.Placed w' := by
  unfold Placed at h ⊢
  split
  · exact h.mono hevents
  · exact ⟨h.1.mono hevents, h.2⟩
  · exact h.mono hevents
  · trivial

theorem Task.Background.placed (h : task.Background) : task.Placed w :=
  Task.of_background (fun _ _ => trivial) (fun _ => trivial) (fun _ _ _ _ => trivial) h

theorem Task.Starting.placed (h : task.Starting) : task.Placed w := by
  cases h with
  | background h => exact h.placed
  | masterEvent | message | poll => trivial

theorem Task.Step.tradeEvents_subset (hstep : Task.Step reply w task w' next) :
    w.tradeEvents ⊆ w'.tradeEvents := by
  cases hstep with
  | background _ _ hsame => exact hsame.tradeEvents ▸ List.Subset.refl _
  | persist => exact List.subset_append_left _ _
  | _ => exact List.Subset.refl _

theorem Backend.step_tradeEvents {c c' : Config} {a : Action} (hstep : Backend.step c a = some c') :
    c.shared.tradeEvents ⊆ c'.shared.tradeEvents := by
  refine Backend.world_step (P := fun w => c.shared.tradeEvents ⊆ w.tradeEvents) hstep ?_ ?_
  · intro _ _ _ _ _ _ _ hmove
    exact hmove.tradeEvents_subset
  · intro stimulus _
    exact (stimulus.apply_tradeEvents c.shared).symm ▸ List.Subset.refl _

theorem Task.Step.placed (hstep : Task.Step reply w task w' next)
    (hslaves : (w.slaves.map Slave.id).Nodup) (htask : task.Placed w) : ∀ t ∈ next, t.Placed w' := by
  cases hstep with
  | background _ hnext _ => exact fun t ht => (hnext t ht).placed
  | eventRead hread =>
      cases hread with
      | found _ hfound =>
          simpa [Placed] using
            ⟨_, Table.lookup_mem hfound, rfl, (Table.lookup_key hfound : TradeEvent.eventId _ = _)⟩
      | wait | again => simp [Placed]
      | slaves => simpa [Placed] using ⟨htask, eligibleSlaves_ids_nodup hslaves _⟩
  | fanOut event tradeEventId slaves =>
      intro t ht
      obtain ⟨slave, -, rfl⟩ := List.mem_map.mp ht
      exact htask.1
  | copyRead => simpa [Placed] using htask
  | insert run resolvedSymbol slaveTicket volume hkey hnext =>
      intro t ht
      obtain ⟨rfl, -⟩ | rfl := hnext.mem ht
      · exact htask
      · exact htask
  | push =>
      intro t ht
      obtain rfl := List.mem_singleton.mp ht
      exact htask
  | messageRead | pollRead => simp [Placed]
  | _ => simp

theorem Task.Step.slaveIds (hstep : Task.Step reply w task w' next) :
    w'.slaves.map Slave.id = w.slaves.map Slave.id := by
  have hids : ∀ slaves : List Slave, slaves.map Slave.id = (slaves.map Slave.config).map Slave.id := by
    simp [Slave.config]
  rw [hids w'.slaves, hids w.slaves, hstep.slaves]

theorem Stimulus.apply_slaveIds (w : World) (stimulus : Stimulus) :
    (stimulus.apply w).1.slaves.map Slave.id = w.slaves.map Slave.id := by
  rcases stimulus.apply_slaves w with hsame | ⟨id, input, -, -, hupdate⟩
  · rw [hsame]
  · rw [hupdate]
    exact Table.map_update w.slaves fun _ => rfl

theorem placement_preserved : Preserved Backend.step placement.Holds := by
  intro c a c' hc hstep
  have hevents := Backend.step_tradeEvents hstep
  cases a with
  | resume i reply =>
      refine Outline.Holds.resume Task.step hc hstep ?_ ?_
      · intro task w' next _ hmove hslaves htask
        have hstep := Task.step_sound hmove
        refine ⟨?_, hstep.placed hslaves htask⟩
        change (w'.slaves.map Slave.id).Nodup
        exact hstep.slaveIds ▸ hslaves
      · intro task w' next _ hmove _ other _ hother
        exact Task.Placed.mono hother (Task.step_sound hmove).tradeEvents_subset
  | arrive stimulus =>
      obtain rfl := Option.some.inj hstep
      refine Outline.Holds.arrive ?_ (fun task ht => Task.Placed.mono (hc.2 task ht) hevents)
        fun task ht => ((stimulus.apply_frame c.shared).2.2 task ht).placed
      change ((stimulus.apply c.shared).1.slaves.map Slave.id).Nodup
      exact stimulus.apply_slaveIds c.shared ▸ hc.1

/-! ### One step of a call -/

theorem Task.Background.undispatched (h : task.Background) (slaveId : Uuid) :
    task.undispatched slaveId = none :=
  Task.of_background (fun _ _ => rfl) (fun _ => rfl) (fun _ _ _ _ => rfl) h

theorem undispatched_copies (event : NormalizedTradeEvent) (tradeEventId : Uuid)
    (account : MasterAccount) {slaves : List Slave} (hslaves : (slaves.map Slave.id).Nodup)
    (slaveId : Uuid) :
    ((slaves.map fun slave => Task.copy ⟨slave, tradeEventId, event, account⟩ .resolveSymbol).filterMap
      (Task.undispatched slaveId)).Sublist
        ((Task.masterEvent event (.findMaster tradeEventId slaves)).undispatched slaveId).toList := by
  induction slaves with
  | nil => simp
  | cons slave rest ih =>
      rw [List.map_cons, List.nodup_cons] at hslaves
      by_cases hslave : slave.id = slaveId
      · have hrest : (rest.map fun slave =>
            Task.copy ⟨slave, tradeEventId, event, account⟩ .resolveSymbol).filterMap
              (Task.undispatched slaveId) = [] := by
          refine List.filterMap_eq_nil_iff.mpr fun t ht => ?_
          obtain ⟨other, hother, rfl⟩ := List.mem_map.mp ht
          have hne : other.id ≠ slaveId := fun h =>
            hslaves.1 (List.mem_map.mpr ⟨other, hother, h.trans hslave.symm⟩)
          simp [Task.undispatched, hne]
        rw [List.map_cons, List.filterMap_cons, hrest]
        simp [Task.undispatched, EventPoint.reaches, CopyPoint.undispatched, hslave]
      · have ih := ih hslaves.2
        simp only [Task.undispatched, EventPoint.reaches, List.map_cons, List.filterMap_cons, hslave,
          false_and, if_false] at ih ⊢
        simpa [Ne.symm hslave] using ih

/-- A call has no more to send than before, and that to the slaves it had to send to. -/
theorem Task.Step.undispatched_sublist (hstep : Task.Step reply w task w' next)
    (htask : task.Placed w) (slaveId : Uuid) :
    (next.filterMap (Task.undispatched slaveId)).Sublist (task.undispatched slaveId).toList := by
  cases hstep with
  | background _ hnext _ =>
      have hnone : next.filterMap (Task.undispatched slaveId) = [] :=
        List.filterMap_eq_nil_iff.mpr fun t ht => (hnext t ht).undispatched slaveId
      exact hnone ▸ List.nil_sublist _
  | @eventRead event point point' hread =>
      have hreaches : point.reaches slaveId = true := by
        cases hread with
        | found hpoint => rcases hpoint with rfl | rfl <;> rfl
        | wait | again | slaves => rfl
      simp only [Task.undispatched, hreaches, if_true, Option.toList_some]
      by_cases hreaches' : point'.reaches slaveId <;> simp [Task.undispatched, hreaches']
  | fanOut event tradeEventId slaves => exact undispatched_copies event _ _ htask.2 slaveId
  | @copyRead run point point' hread =>
      have hpoint : point'.undispatched → point.undispatched := by
        cases hread with
        | offline => simp [CopyPoint.undispatched]
        | _ => exact fun _ => rfl
      by_cases hsends : run.slave.id = slaveId ∧ point'.undispatched
      · simp [Task.undispatched, hsends, hpoint hsends.2]
      · simp only [Task.undispatched, if_neg hsends, List.filterMap_cons, List.filterMap_nil]
        exact List.nil_sublist _
  | insert run resolvedSymbol slaveTicket volume hkey hnext =>
      have hnone : next.filterMap (Task.undispatched slaveId) = [] := by
        refine List.filterMap_eq_nil_iff.mpr fun t ht => ?_
        obtain ⟨rfl, -⟩ | rfl := hnext.mem ht <;> simp [Task.undispatched, CopyPoint.undispatched]
      exact hnone ▸ List.nil_sublist _
  | push => simp [Task.undispatched, CopyPoint.undispatched]
  | messageRead | pollRead => simp [Task.undispatched]
  | _ => simp

/-! ### What is sent -/

theorem Delivery.CopyOf.mono {delivery : Delivery} {event : NormalizedTradeEvent}
    (h : delivery.CopyOf w event) (hbefore : w.Before w') (hevents : w.tradeEvents ⊆ w'.tradeEvents) :
    delivery.CopyOf w' event := by
  obtain ⟨order, horder, hid, ⟨hslave, row, hrow, hrowId, heventId⟩, hmaster, hticket⟩ := h.order
  obtain ⟨order', horder', hcore⟩ :=
    World.exists_of_mem_cores (hbefore.mem_cores (World.core_mem_cores horder))
  have htradeEvent : order'.tradeEventId = order.tradeEventId :=
    (congrArg CopyOrder.tradeEventId hcore :)
  have hmaster' : order'.masterId = order.masterId := (congrArg CopyOrder.masterId hcore :)
  refine ⟨⟨order', horder', (CopyOrder.id_of_core hcore).trans hid, ?_, hmaster'.trans hmaster,
    (CopyOrder.masterTicket_of_core hcore).trans hticket⟩, h.action, h.side, h.sl, h.tp⟩
  exact ⟨(CopyOrder.slaveId_of_core hcore).trans hslave, row, hevents hrow,
    hrowId.trans htradeEvent.symm, heventId⟩

theorem CopyRun.push_copyOf {run : CopyRun} (hevent : w.HasEvent run.tradeEventId run.event)
    (resolvedSymbol : String) (slaveTicket : Option String) (volume : Option ℚ) :
    let instruction := run.instruction w.nextCopyId resolvedSymbol slaveTicket volume
    Delivery.CopyOf ((w.insertOrder (run.pendingOrder w.nextCopyId volume)).push run.slave.id instruction)
      ⟨.push, run.slave.id, instruction⟩ run.event := by
  obtain ⟨row, hrow, hid, heventId⟩ := hevent
  refine ⟨⟨run.pendingOrder w.nextCopyId volume, by simp, rfl, ?_, rfl, rfl⟩, rfl, rfl, rfl, rfl⟩
  exact ⟨rfl, row, hrow, hid, heventId⟩

/-- A step sends nothing to the slave, or the call's own copy. -/
theorem Task.Step.pushesTo (hstep : Task.Step reply w task w' next) (htask : task.Placed w)
    (slaveId : Uuid) :
    w'.pushesTo slaveId = w.pushesTo slaveId ∨ ∃ run ∈ task.pushing reply w, run.slave.id = slaveId ∧
      task.undispatched slaveId = some run.event ∧
      next.filterMap (Task.undispatched slaveId) = [] ∧
      ∃ delivery, w'.pushesTo slaveId = w.pushesTo slaveId ++ [delivery] ∧
        delivery.CopyOf w' run.event := by
  cases hstep with
  | background _ _ hsame =>
      left
      unfold World.pushesTo World.pushes
      rw [hsame.sent]
  | push run resolvedSymbol slaveTicket volume hkey hplatform honline hreply =>
      by_cases hslave : run.slave.id = slaveId
      · have hcreated : (w.createOrder (run.pendingOrder w.nextCopyId volume)).isSome := by
          rw [World.createOrder, if_neg (show (run.pendingOrder _ volume).dispatchKey ∉ _ from hkey)]
          rfl
        refine .inr ⟨run, if_pos ⟨hcreated, hreply, hplatform, honline⟩, hslave, ?_, ?_, _, ?_,
          CopyRun.push_copyOf htask resolvedSymbol slaveTicket volume⟩
        · simp [undispatched, CopyPoint.undispatched, hslave]
        · simp [undispatched, CopyPoint.undispatched]
        · simp [World.pushesTo, World.pushes, hslave]
      · left
        simp [World.pushesTo, World.pushes, hslave]
  | respond slaveId instruction =>
      left
      simp [World.pushesTo, World.pushes]
  | _ => exact .inl rfl

/-! ### The order -/

/-- What was pushed to the slave follows the order, and what can still be sent goes on with it. -/
def World.InOrder (w : World) (slaveId : Uuid) (messages pending : List NormalizedTradeEvent) : Prop :=
  ∃ events, List.Forall₂ (Delivery.CopyOf w) (w.pushesTo slaveId) events ∧ ∀ position,
    ((events ++ pending).filter (·.position = position)).Sublist
      (messages.filter (·.position = position))

namespace World

variable {slaveId : Uuid} {messages pending pending' : List NormalizedTradeEvent}

theorem InOrder.mono (h : w.InOrder slaveId messages pending) (hbefore : w.Before w')
    (hevents : w.tradeEvents ⊆ w'.tradeEvents) (hpushes : w'.pushesTo slaveId = w.pushesTo slaveId)
    (hpending : pending'.Sublist pending) : w'.InOrder slaveId messages pending' := by
  obtain ⟨events, hcopies, horder⟩ := h
  refine ⟨events, hpushes ▸ hcopies.imp fun _ _ h => h.mono hbefore hevents, fun position => ?_⟩
  exact (((List.Sublist.refl events).append hpending).filter _).trans (horder position)

theorem InOrder.message {started : List NormalizedTradeEvent} (h : w.InOrder slaveId messages pending)
    {message : List NormalizedTradeEvent} (hstarted : started.Sublist message) :
    w.InOrder slaveId (messages ++ message) (pending ++ started) := by
  obtain ⟨events, hcopies, horder⟩ := h
  refine ⟨events, hcopies, fun position => ?_⟩
  rw [← List.append_assoc, List.filter_append (events ++ pending), List.filter_append messages]
  exact (horder position).append (hstarted.filter _)

/-- A copy may be sent when nothing of its position is due before it. -/
theorem InOrder.push {front back : List NormalizedTradeEvent} {event : NormalizedTradeEvent}
    (h : w.InOrder slaveId messages (front ++ event :: back)) (hbefore : w.Before w')
    (hevents : w.tradeEvents ⊆ w'.tradeEvents) {delivery : Delivery}
    (hpushes : w'.pushesTo slaveId = w.pushesTo slaveId ++ [delivery])
    (hcopy : delivery.CopyOf w' event) (hturn : ∀ e ∈ front, e.position ≠ event.position) :
    w'.InOrder slaveId messages (front ++ back) := by
  obtain ⟨events, hcopies, horder⟩ := h
  refine ⟨events ++ [event], ?_, fun position => ?_⟩
  · rw [hpushes]
    exact List.rel_append (hcopies.imp fun _ _ h => h.mono hbefore hevents) (.cons hcopy .nil)
  · have hsame : (events ++ [event] ++ (front ++ back)).filter (·.position = position) =
        (events ++ (front ++ event :: back)).filter (·.position = position) := by
      by_cases hposition : event.position = position
      · have hfront : front.filter (·.position = position) = [] :=
          List.filter_eq_nil_iff.mpr fun e he => by simpa [← hposition] using hturn e he
        simp [hfront, hposition]
      · simp [hposition]
    exact hsame ▸ horder position

end World

theorem Stimulus.undispatched_sublist (w : World) (stimulus : Stimulus) (slaveId : Uuid) :
    ((stimulus.apply w).2.filterMap (Task.undispatched slaveId)).Sublist
      (messages [.arrive stimulus]) := by
  cases stimulus with
  | masterEvent event =>
      simp only [apply, handleMasterEvent]
      split_ifs <;> simp [messages, Action.message, Task.undispatched, EventPoint.reaches]
  | ingest masterId payload =>
      simp only [apply, ingestTradeEvent]
      split_ifs <;> simp [Task.undispatched, List.filterMap_cons]
  | slaveMessage slaveId connectorId message =>
      cases message <;> simp [apply, handleSlaveMessage, Task.undispatched, List.filterMap_cons]
  | executionResult slaveId connectorId body =>
      cases body <;> simp [apply, handleSlaveMessage, Task.undispatched, List.filterMap_cons]
  | _ => simp [apply, Task.undispatched, List.filterMap_cons]

structure Config.InOrder (c : Config) (slaveId : Uuid) (actions : List Action) : Prop where
  placed : placement.Holds c
  order : c.shared.InOrder slaveId (messages actions) (c.tasks.filterMap (Task.undispatched slaveId))

theorem Config.InOrder.step {c c' : Config} {before : List Action} {a : Action} {slaveId : Uuid}
    (h : c.InOrder slaveId before) (hturn : PushesInTurn c a) (hstep : Backend.step c a = some c') :
    c'.InOrder slaveId (before ++ [a]) := by
  refine ⟨placement_preserved h.placed hstep, ?_⟩
  have hbefore := Backend.step_before hstep
  have hevents := Backend.step_tradeEvents hstep
  have hmessages : messages (before ++ [a]) = messages before ++ messages [a] :=
    List.filterMap_append
  rw [hmessages]
  cases a with
  | arrive stimulus =>
      obtain rfl := Option.some.inj hstep
      have hpushes : (stimulus.apply c.shared).1.pushesTo slaveId = c.shared.pushesTo slaveId := by
        unfold World.pushesTo World.pushes
        rw [(stimulus.apply_frame c.shared).2.1]
      simp only [Pool.arrive, List.filterMap_append]
      exact (h.order.mono hbefore hevents hpushes (.refl _)).message
        (stimulus.undispatched_sublist c.shared slaveId)
  | resume i reply =>
      obtain ⟨task, w', next, hget, htasks, hmove, rfl⟩ := resume_split Task.step hstep
      have hstep := Task.step_sound hmove
      have htask : task.Placed c.shared := h.placed.2 task (List.mem_of_getElem? hget)
      have hmessage : messages [Action.resume i reply] = [] := rfl
      have horder := h.order
      rw [hmessage, List.append_nil, List.filterMap_append, List.filterMap_append]
      have hcons : ∀ rest : List Task, (task :: rest).filterMap (Task.undispatched slaveId) =
          (task.undispatched slaveId).toList ++ rest.filterMap (Task.undispatched slaveId) := by
        intro rest
        cases hevent : task.undispatched slaveId <;> simp [hevent]
      rw [htasks, List.filterMap_append, hcons] at horder
      rcases hstep.pushesTo htask slaveId with hpushes | ⟨run, hrun, hslave, hevent, hdone, delivery,
        hpushes, hcopy⟩
      · refine horder.mono hbefore hevents hpushes ?_
        exact (List.Sublist.refl _).append
          ((hstep.undispatched_sublist htask slaveId).append (List.Sublist.refl _))
      · rw [hevent, Option.toList_some, List.singleton_append] at horder
        rw [hdone, List.nil_append]
        refine horder.push hbefore hevents hpushes hcopy fun event hmem => ?_
        obtain ⟨earlier, hearlier, hsome⟩ := List.mem_filterMap.mp hmem
        exact hturn reply rfl task hget run hrun earlier hearlier event (hslave ▸ hsome)

/-- Where all messages are about one position, the stop losses reach the slave in their order. -/
theorem World.FollowsOrder.stopLosses {slaveId : Uuid} {messages : List NormalizedTradeEvent}
    (h : w.FollowsOrder slaveId messages) {position : Uuid × String}
    (hposition : ∀ event ∈ messages, event.position = position) :
    ((w.pushesTo slaveId).map fun delivery => delivery.instruction.sl).Sublist
      (messages.map fun event => event.sl) := by
  obtain ⟨events, hcopies, horder⟩ := h
  have hstops : (w.pushesTo slaveId).map (fun delivery => delivery.instruction.sl) =
      events.map fun event => event.sl := by
    refine List.forall₂_eq_eq_eq ▸ List.forall₂_map_left_iff.mpr (List.forall₂_map_right_iff.mpr ?_)
    exact hcopies.imp fun _ _ hcopy => hcopy.sl
  have hall : ∀ event ∈ events, event.position = position := by
    intro event hevent
    have hmem : event ∈ messages.filter (·.position = event.position) :=
      (horder event.position).subset (List.mem_filter.mpr ⟨hevent, by simp⟩)
    exact hposition event (List.mem_of_mem_filter hmem)
  have hevents : events.filter (·.position = position) = events :=
    List.filter_eq_self.mpr fun event hevent => by simpa using hall event hevent
  rw [hstops]
  exact (hevents ▸ (horder position).trans List.filter_sublist).map _

namespace Sample

def firstModify : NormalizedTradeEvent where
  eventId := "MODIFY-7-1001-1"
  masterTicket := "1001"
  type := .modify
  symbol := "EURUSD"
  sl := some 1
  masterId := 1
  valid := by decide +kernel

def secondModify : NormalizedTradeEvent :=
  { firstModify with eventId := "MODIFY-7-1001-2", sl := some 2, valid := by decide +kernel }

/-- The slave holds its copy of the first event's position. -/
def holding (events : List NormalizedTradeEvent) : Config :=
  let c := config mt5Slave (openEvent :: events)
  let opened : CopyRun := ⟨mt5Slave, 0, openEvent, ⟨none, none⟩⟩
  let row := opened.pendingOrder 1 (some 1)
  { c with shared := c.shared.insertOrder (CopyOrder.record (executed 1 "875421") row 0 row) }

/-- The first change is not persisted yet when its handler looks for it. The second one is, and its
handler ends while the first one sleeps. -/
def overtaken : List Action :=
  .arrive (.ingest 1 firstModify.toTradeEventPayload) :: settle 2 ++
    [.arrive (.masterEvent firstModify), .resume 1 .ok, .resume 0 .ok,
      .arrive (.ingest 1 secondModify.toTradeEventPayload)] ++ List.replicate 3 (.resume 1 .ok) ++
    .arrive (.masterEvent secondModify) :: List.replicate 7 (.resume 1 .ok) ++ settle 8

/-- Both handlers run side by side, the first one a step ahead. -/
def sideBySide : List Action :=
  [.arrive (.masterEvent firstModify), .arrive (.masterEvent secondModify)] ++
    (List.replicate 6 [.resume 0 .ok, .resume 1 .ok]).flatten ++ settle 2

end Sample

open Sample in
/-- A handler that waits for its event is overtaken, and the slave is left with the older stop loss. -/
theorem overtaken_breaks_order :
    (holding []).Idle ∧ messages overtaken = [firstModify, secondModify] ∧
    firstModify.position = secondModify.position ∧
    ∃ c, follow Backend.step (holding []) overtaken = some c ∧
      (c.shared.pushesTo 5).map (fun delivery => delivery.instruction.sl) = [some 2, some 1] ∧
      ¬c.shared.FollowsOrder 5 (messages overtaken) := by
  have hruns : ∃ c, follow Backend.step (holding []) overtaken = some c ∧
      (c.shared.pushesTo 5).map (fun delivery => delivery.instruction.sl) = [some 2, some 1] := by
    decide +kernel
  obtain ⟨c, hrun, hstops⟩ := hruns
  have hidle : (holding []).Idle := ⟨⟨by decide, by decide, by decide, by decide⟩, rfl, rfl⟩
  have hmessages : messages overtaken = [firstModify, secondModify] := by decide +kernel
  have hposition : ∀ event ∈ messages overtaken, event.position = (1, "1001") := by
    rw [hmessages]
    decide
  refine ⟨hidle, hmessages, rfl, c, hrun, hstops, fun h => ?_⟩
  have horder := h.stopLosses hposition
  rw [hstops, hmessages] at horder
  exact absurd horder (by decide +kernel)

/-- What is pushed in turn follows the order of the messages. -/
theorem pushes_follow_order (start c : Config) (actions : List Action) (slaveId : Uuid)
    (hstart : start.Idle) (hslaves : (start.shared.slaves.map Slave.id).Nodup)
    (hrun : Backend.run PushesInTurn start actions = some c) :
    c.shared.FollowsOrder slaveId (messages actions) := by
  have hinitial : start.InOrder slaveId [] := by
    refine ⟨⟨hslaves, by simp [hstart.tasks]⟩, [], ?_, by simp [hstart.tasks]⟩
    simp [World.pushesTo, World.pushes, hstart.sent]
  have h := follow_history (P := fun before mid => mid.InOrder slaveId before) hinitial
    (fun before mid a mid' _ h hstep =>
      h.step (restrict_eq_some.mp hstep).1 (restrict_eq_some.mp hstep).2) hrun
  obtain ⟨events, hcopies, horder⟩ := h.order
  refine ⟨events, hcopies, fun position => ?_⟩
  exact ((List.sublist_append_left events _).filter _).trans (horder position)

open Sample in
theorem side_by_side_follows_order :
    ∃ c, Backend.run PushesInTurn (holding [firstModify, secondModify]) sideBySide = some c ∧
      (c.shared.pushesTo 5).map (fun delivery => delivery.instruction.sl) = [some 1, some 2] ∧
      c.shared.FollowsOrder 5 (messages sideBySide) := by
  have hruns : ∃ c, Backend.run PushesInTurn (holding [firstModify, secondModify]) sideBySide = some c ∧
      (c.shared.pushesTo 5).map (fun delivery => delivery.instruction.sl) = [some 1, some 2] := by
    decide +kernel
  obtain ⟨c, hrun, hstops⟩ := hruns
  have hidle : (holding [firstModify, secondModify]).Idle :=
    ⟨⟨by decide, by decide, by decide, by decide⟩, rfl, rfl⟩
  exact ⟨c, hrun, hstops, pushes_follow_order _ c _ 5 hidle (by decide) hrun⟩

end ForexCopy
