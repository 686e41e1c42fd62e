import ForexCopy.Backend.System

/-!
# What a step can do

Every invariant of the backend is proved by cases on what a suspended call can do when its operation
settles. The cases are stated once, with the guards that the code checks and the successors it leaves,
and the step functions are shown to do nothing else.
-/

namespace ForexCopy

/-! ### Reads -/

inductive EventRead (w : World) (event : NormalizedTradeEvent) : EventPoint → EventPoint → Prop
  | found {point : EventPoint} {tradeEvent : TradeEvent}
      (hpoint : point = .findEvent ∨ point = .findEventAgain)
      (hfound : Table.lookup TradeEvent.eventId event.eventId w.tradeEvents = some tradeEvent) :
      EventRead w event point (.findSlaves tradeEvent.id)
  | wait (hnone : Table.lookup TradeEvent.eventId event.eventId w.tradeEvents = none) :
      EventRead w event .findEvent .sleep
  | again : EventRead w event .sleep .findEventAgain
  | slaves (tradeEventId : Uuid) :
      EventRead w event (.findSlaves tradeEventId)
        (.findMaster tradeEventId (eligibleSlaves event.masterId w.slaves))

inductive CopyRead (w : World) (run : CopyRun) : CopyPoint → CopyPoint → Prop
  | symbol :
      CopyRead w run .resolveSymbol
        (run.afterSymbol (w.resolveSlaveSymbol run.slave.id run.event.symbol))
  | ticket (resolvedSymbol : String) :
      CopyRead w run (.findTicket resolvedSymbol)
        (run.afterTicket resolvedSymbol
          (findExecutedOpenSlaveTicket run.slave.id run.event.masterTicket w.copyOrders))
  | opens (resolvedSymbol : String) :
      CopyRead w run (.readPositions resolvedSymbol)
        (.readCloses resolvedSymbol (w.findExecuted run.slave.id .open))
  | closes (resolvedSymbol : String) :
      CopyRead w run (.readPositions resolvedSymbol)
        (.readOpens resolvedSymbol (w.findExecuted run.slave.id .close))
  | closesAfterOpens (resolvedSymbol : String) (opens : List CopyOrder) :
      CopyRead w run (.readCloses resolvedSymbol opens)
        (run.afterPositions resolvedSymbol (openPositionsSummary
          (copyOrderPositions opens (w.findExecuted run.slave.id .close))))
  | opensAfterCloses (resolvedSymbol : String) (closes : List CopyOrder) :
      CopyRead w run (.readOpens resolvedSymbol closes)
        (run.afterPositions resolvedSymbol (openPositionsSummary
          (copyOrderPositions (w.findExecuted run.slave.id .open) closes)))
  | offline (copyId : Uuid) (hoffline : w.hasOnlineConnector run.slave.id = false) :
      CopyRead w run (.findConnector copyId) (.markOffline copyId)

/-- The points of `copyToSlave` at which a run has not inserted a row to go on with. -/
def CopyPoint.HasNoRow : CopyPoint → Prop
  | .resolveSymbol | .findTicket _ | .readPositions _ | .readCloses _ _ | .readOpens _ _
  | .failOrder _ _ | .createOrder _ _ _ => True
  | .findConnector _ | .markOffline _ | .markSent _ _ => False

/-- A read leads to another of these points, or no connector has been found. -/
theorem CopyRead.leads {w : World} {run : CopyRun} {point point' : CopyPoint}
    (hread : CopyRead w run point point') : point'.HasNoRow ∨
      ∃ copyId, point = .findConnector copyId ∧ point' = .markOffline copyId ∧
        w.hasOnlineConnector run.slave.id = false := by
  cases hread with
  | symbol =>
      unfold CopyRun.afterSymbol
      split_ifs <;> exact .inl trivial
  | ticket =>
      unfold CopyRun.afterTicket
      split <;> exact .inl trivial
  | opens | closes => exact .inl trivial
  | closesAfterOpens | opensAfterCloses =>
      unfold CopyRun.afterPositions
      repeat' split
      all_goals exact .inl trivial
  | offline copyId hoffline => exact .inr ⟨copyId, rfl, rfl, hoffline⟩

inductive PollRead (w : World) (slaveId : Uuid) : PollPoint → PollPoint → Prop
  | order {order : CopyOrder} {tradeEvent : TradeEvent}
      (holdest : oldestPending slaveId w.copyOrders = some order)
      (hevent : Table.lookup TradeEvent.id order.tradeEventId w.tradeEvents = some tradeEvent) :
      PollRead w slaveId .findOrder (pickUp order tradeEvent)
  | noTicket {order : CopyOrder} (tradeEvent : TradeEvent)
      (hnone : truthy (findExecutedOpenSlaveTicket slaveId order.masterTicket w.copyOrders) = none) :
      PollRead w slaveId (.findTicket order tradeEvent) (.markFailed order)
  | ticket {order : CopyOrder} (tradeEvent : TradeEvent) {ticket : String}
      (hticket : truthy (findExecutedOpenSlaveTicket slaveId order.masterTicket w.copyOrders) =
        some ticket) :
      PollRead w slaveId (.findTicket order tradeEvent)
        (.resolveSymbol order tradeEvent (some ticket))
  | symbol (order : CopyOrder) (tradeEvent : TradeEvent) (slaveTicket : Option String) :
      PollRead w slaveId (.resolveSymbol order tradeEvent slaveTicket)
        (.markSent (order.instruction tradeEvent
          (w.resolveSlaveSymbol slaveId tradeEvent.symbol) slaveTicket))

/-! ### Steps -/

/-- The calls that never touch a copy order. -/
def Task.Background : Task → Prop
  | .ingest _ _ | .persist _ | .heartbeat _ _ _ _ => True
  | .masterEvent _ _ | .copy _ _ | .message _ _ _ | .poll _ _ => False

/-- What holds of the three kinds of calls holds of every call in the background. -/
@[elab_as_elim] theorem Task.of_background {P : Task → Prop}
    (ingest : ∀ event point, P (.ingest event point))
    (persist : ∀ event, P (.persist event))
    (heartbeat : ∀ connectorId accountInfo time point,
      P (.heartbeat connectorId accountInfo time point)) {task : Task} (h : task.Background) :
    P task := by
  cases task with
  | ingest event point => exact ingest event point
  | persist event => exact persist event
  | heartbeat connectorId accountInfo time point =>
      exact heartbeat connectorId accountInfo time point
  | masterEvent | copy | message | poll => exact h.elim

/-- A slave's row without the account figures that heartbeats keep current. -/
def Slave.config (slave : Slave) : Slave := { slave with balance := none, equity := none }

/-- What the calls in the background leave as it is. -/
structure World.SameTrading (w w' : World) : Prop where
  tradeEvents : w'.tradeEvents = w.tradeEvents
  copyOrders : w'.copyOrders = w.copyOrders
  sent : w'.sent = w.sent
  slaves : w'.slaves.map Slave.config = w.slaves.map Slave.config

/-- What remains of a `copyToSlave` run that has inserted its row without sending anything. -/
inductive CopyRun.Inserted (w : World) (run : CopyRun) : List Task → Prop
  | failed : Inserted w run []
  | queued (hplatform : run.slave.platform = "MT4") :
      Inserted w run [.copy run (.findConnector w.nextCopyId)]
  | offline (hplatform : run.slave.platform ≠ "MT4")
      (hoffline : w.isSlaveConnected run.slave.id = false) :
      Inserted w run [.copy run (.markOffline w.nextCopyId)]

/-- What a suspended call can do when its operation settles. -/
inductive Task.Step (reply : Reply) (w : World) : Task → World → List Task → Prop
  /-- The call fails without an effect, or has nothing more to do. -/
  | ends (task : Task)
      (hsent : ∀ run copyId sent, task = .copy run (.markSent copyId sent) → reply = .rejected) :
      Step reply w task w []
  | background {task : Task} {w' : World} {next : List Task} (htask : task.Background)
      (hnext : ∀ t ∈ next, t.Background) (hsame : w.SameTrading w') : Step reply w task w' next
  | persist (event : NormalizedTradeEvent)
      (hnew : event.eventId ∉ w.tradeEvents.map TradeEvent.eventId) :
      Step reply w (.persist event) (w.insertTradeEvent (event.row w.nextTradeEventId)) []
  | eventRead {event : NormalizedTradeEvent} {point point' : EventPoint}
      (hread : EventRead w event point point') :
      Step reply w (.masterEvent event point) w [.masterEvent event point']
  | fanOut (event : NormalizedTradeEvent) (tradeEventId : Uuid) (slaves : List Slave) :
      Step reply w (.masterEvent event (.findMaster tradeEventId slaves)) w
        (slaves.map fun slave =>
          .copy ⟨slave, tradeEventId, event, masterAccount event.masterId w.masters⟩ .resolveSymbol)
  | copyRead {run : CopyRun} {point point' : CopyPoint} (hread : CopyRead w run point point') :
      Step reply w (.copy run point) w [.copy run point']
  /-- `failCopyOrder` -/
  | refuse (run : CopyRun) (reason : String) (requestedVolume : Option ℚ)
      (hkey : (run.tradeEventId, run.slave.id) ∉ w.copyOrders.map CopyOrder.dispatchKey) :
      Step reply w (.copy run (.failOrder reason requestedVolume))
        (w.insertOrder (run.failedOrder w.nextCopyId reason requestedVolume)) []
  | insert (run : CopyRun) (resolvedSymbol : String) (slaveTicket : Option String)
      (volume : Option ℚ) {next : List Task}
      (hkey : (run.tradeEventId, run.slave.id) ∉ w.copyOrders.map CopyOrder.dispatchKey)
      (hnext : run.Inserted w next) :
      Step reply w (.copy run (.createOrder resolvedSymbol slaveTicket volume))
        (w.insertOrder (run.pendingOrder w.nextCopyId volume)) next
  | push (run : CopyRun) (resolvedSymbol : String) (slaveTicket : Option String) (volume : Option ℚ)
      (hkey : (run.tradeEventId, run.slave.id) ∉ w.copyOrders.map CopyOrder.dispatchKey)
      (hplatform : run.slave.platform ≠ "MT4") (honline : w.isSlaveConnected run.slave.id = true)
      (hreply : reply.Resolves) :
      Step reply w (.copy run (.createOrder resolvedSymbol slaveTicket volume))
        ((w.insertOrder (run.pendingOrder w.nextCopyId volume)).push run.slave.id
          (run.instruction w.nextCopyId resolvedSymbol slaveTicket volume))
        [.copy run (.markSent w.nextCopyId true)]
  | markOffline (run : CopyRun) (copyId : Uuid) :
      Step reply w (.copy run (.markOffline copyId))
        (w.updateOrder copyId (CopyOrder.markFailed "SLAVE_OFFLINE")) []
  | markSent (run : CopyRun) (copyId : Uuid) (sent : Bool) :
      Step reply w (.copy run (.markSent copyId sent))
        (w.updateOrder copyId
          (if sent then CopyOrder.markSent w.now else CopyOrder.markFailed "SEND_FAILED")) []
  | messageRead {slaveId : Uuid} {result : ExecutionResult} {order : CopyOrder}
      (hfound : Table.lookup CopyOrder.id result.copyId w.copyOrders = some order)
      (hslave : order.slaveId = slaveId) :
      Step reply w (.message slaveId result .findOrder) w
        [.message slaveId result (.record order)]
  | record (slaveId : Uuid) (result : ExecutionResult) (order : CopyOrder) :
      Step reply w (.message slaveId result (.record order))
        (w.updateOrder result.copyId (CopyOrder.record result order w.now)) []
  | pollRead {slaveId : Uuid} {point point' : PollPoint} (hread : PollRead w slaveId point point') :
      Step reply w (.poll slaveId point) w [.poll slaveId point']
  | pollFailed (slaveId : Uuid) (order : CopyOrder) :
      Step reply w (.poll slaveId (.markFailed order))
        (w.updateOrder order.id (CopyOrder.markFailed "NO_MATCHING_OPEN_COPY")) []
  | respond (slaveId : Uuid) (instruction : CopyInstruction) :
      Step reply w (.poll slaveId (.markSent instruction))
        ((w.updateOrder instruction.copyId (CopyOrder.markSent w.now)).respond slaveId instruction) []
  /-- The row is SENT, but the handler fails instead of responding. -/
  | respondLost (slaveId : Uuid) (instruction : CopyInstruction) (hlost : reply = .lost) :
      Step reply w (.poll slaveId (.markSent instruction))
        (w.updateOrder instruction.copyId (CopyOrder.markSent w.now)) []

theorem CopyRun.Inserted.mem {w : World} {run : CopyRun} {next : List Task}
    (h : run.Inserted w next) {t : Task} (ht : t ∈ next) :
    (t = .copy run (.findConnector w.nextCopyId) ∧ run.slave.platform = "MT4") ∨
      t = .copy run (.markOffline w.nextCopyId) := by
  cases h with
  | failed => simp at ht
  | queued hplatform => exact .inl ⟨List.mem_singleton.mp ht, hplatform⟩
  | offline => exact .inr (List.mem_singleton.mp ht)

namespace Task

variable {reply : Reply} {w w' : World} {next : List Task}

theorem Step.done (task : Task)
    (hsent : ∀ run copyId sent, task ≠ .copy run (.markSent copyId sent)) :
    Step reply w task w [] :=
  .ends task fun run copyId sent h => absurd h (hsent run copyId sent)

theorem Step.of_query {task : Task}
    (hsent : ∀ run copyId sent, task ≠ .copy run (.markSent copyId sent))
    (hnext : Step reply w task w next) :
    Step reply w task (reply.query w next).1 (reply.query w next).2 := by
  cases reply
  · exact hnext
  · exact hnext
  · exact .done task hsent
  · exact .done task hsent

theorem Step.of_settle {task : Task} (hnext : Step reply w task w' []) :
    Step reply w task (reply.settle w w' ([] : List Task)).1 (reply.settle w w' []).2 := by
  cases reply
  · exact hnext
  · exact hnext
  · exact .ends task fun _ _ _ _ => rfl
  · exact hnext

theorem ingestStep_sound (event : NormalizedTradeEvent) (point : IngestPoint) :
    Step reply w (.ingest event point) (ingestStep reply w event point).1
      (ingestStep reply w event point).2 := by
  cases point with
  | setKey =>
      simp only [ingestStep]
      split_ifs <;> cases reply <;>
        exact .background trivial (by simp [Background]) ⟨rfl, rfl, rfl, rfl⟩
  | publish =>
      cases reply <;> exact .background trivial (by simp [ingestStep, Background]) ⟨rfl, rfl, rfl, rfl⟩

theorem persistTradeEventStep_sound (event : NormalizedTradeEvent) :
    Step reply w (.persist event) (persistTradeEventStep reply w event).1
      (persistTradeEventStep reply w event).2 := by
  simp only [persistTradeEventStep, World.createTradeEvent]
  split_ifs with hkey
  · exact .done _ (by simp)
  · exact .of_settle (.persist event hkey)

theorem updateAccount_sameTrading (connector : Connector) (account : AccountSnapshot) :
    w.SameTrading (w.updateAccount connector account) := by
  unfold World.updateAccount
  split
  · exact ⟨rfl, rfl, rfl, rfl⟩
  · exact ⟨rfl, rfl, rfl, Table.map_update w.slaves fun _ => rfl⟩
  · exact ⟨rfl, rfl, rfl, rfl⟩

theorem heartbeatStep_sound (connectorId : Uuid) (accountInfo : Option AccountSnapshot)
    (time : DateTime) (point : HeartbeatPoint) :
    Step reply w (.heartbeat connectorId accountInfo time point)
      (heartbeatStep reply w connectorId accountInfo time point).1
      (heartbeatStep reply w connectorId accountInfo time point).2 := by
  cases point with
  | setKey =>
      exact .of_query (by simp) (.background trivial (by simp [Background]) ⟨rfl, rfl, rfl, rfl⟩)
  | updateConnector =>
      simp only [heartbeatStep]
      split
      · exact .done _ (by simp)
      · cases reply <;>
          exact .background trivial (by simp [Reply.settle, Background]) ⟨rfl, rfl, rfl, rfl⟩
  | updateOwner connector =>
      simp only [heartbeatStep]
      split
      · exact .done _ (by simp)
      · exact .of_settle (.background trivial (by simp) (updateAccount_sameTrading connector _))

theorem masterEventStep_sound (event : NormalizedTradeEvent) (point : EventPoint) :
    Step reply w (.masterEvent event point) (masterEventStep reply w event point).1
      (masterEventStep reply w event point).2 := by
  cases point with
  | findEvent =>
      simp only [masterEventStep]
      split
      · rename_i hfound
        exact .of_query (by simp) (.eventRead (.found (.inl rfl) hfound))
      · rename_i hnone
        exact .of_query (by simp) (.eventRead (.wait hnone))
  | sleep => exact .eventRead .again
  | findEventAgain =>
      simp only [masterEventStep]
      split
      · rename_i hfound
        exact .of_query (by simp) (.eventRead (.found (.inr rfl) hfound))
      · exact .of_query (by simp) (.done _ (by simp))
  | findSlaves tradeEventId => exact .of_query (by simp) (.eventRead (.slaves tradeEventId))
  | findMaster tradeEventId slaves => exact .of_query (by simp) (.fanOut event tradeEventId slaves)

theorem dispatch_sound (hreply : reply.Resolves) (run : CopyRun) (resolvedSymbol : String)
    (slaveTicket : Option String) (volume : Option ℚ)
    (hkey : (run.tradeEventId, run.slave.id) ∉ w.copyOrders.map CopyOrder.dispatchKey) :
    let outcome := run.dispatch (w.insertOrder (run.pendingOrder w.nextCopyId volume))
      w.nextCopyId resolvedSymbol slaveTicket volume
    Step reply w (.copy run (.createOrder resolvedSymbol slaveTicket volume)) outcome.1
      outcome.2 := by
  intro outcome
  have hconnected : (w.insertOrder (run.pendingOrder w.nextCopyId volume)).isSlaveConnected
    run.slave.id = w.isSlaveConnected run.slave.id := rfl
  by_cases hplatform : run.slave.platform = "MT4"
  · simp only [outcome, CopyRun.dispatch, if_pos hplatform]
    exact .insert run resolvedSymbol slaveTicket volume hkey (.queued hplatform)
  · cases honline : w.isSlaveConnected run.slave.id with
    | false =>
        simp only [outcome, CopyRun.dispatch, if_neg hplatform, hconnected, honline]
        exact .insert run resolvedSymbol slaveTicket volume hkey (.offline hplatform honline)
    | true =>
        simp only [outcome, CopyRun.dispatch, if_neg hplatform, World.sendToSlave, hconnected,
          honline]
        exact .push run resolvedSymbol slaveTicket volume hkey hplatform honline hreply

theorem copyToSlaveStep_sound (run : CopyRun) (point : CopyPoint) :
    Step reply w (.copy run point) (copyToSlaveStep reply w run point).1
      (copyToSlaveStep reply w run point).2 := by
  cases point with
  | resolveSymbol => exact .of_query (by simp) (.copyRead .symbol)
  | findTicket resolvedSymbol => exact .of_query (by simp) (.copyRead (.ticket resolvedSymbol))
  | readPositions resolvedSymbol =>
      cases reply with
      | ok => exact .copyRead (.opens resolvedSymbol)
      | swapped => exact .copyRead (.closes resolvedSymbol)
      | rejected => exact .done _ (by simp)
      | lost => exact .done _ (by simp)
  | readCloses resolvedSymbol opens =>
      exact .of_query (by simp) (.copyRead (.closesAfterOpens resolvedSymbol opens))
  | readOpens resolvedSymbol closes =>
      exact .of_query (by simp) (.copyRead (.opensAfterCloses resolvedSymbol closes))
  | failOrder reason requestedVolume =>
      simp only [copyToSlaveStep, World.createOrder]
      split_ifs with hkey
      · exact .done _ (by simp)
      · exact .of_settle (.refuse run reason requestedVolume hkey)
  | createOrder resolvedSymbol slaveTicket volume =>
      simp only [copyToSlaveStep, World.createOrder]
      split_ifs with hkey
      · exact .done _ (by simp)
      · cases reply with
        | ok => exact dispatch_sound (.inl rfl) run resolvedSymbol slaveTicket volume hkey
        | swapped => exact dispatch_sound (.inr rfl) run resolvedSymbol slaveTicket volume hkey
        | rejected => exact .done _ (by simp)
        | lost => exact .insert run resolvedSymbol slaveTicket volume hkey .failed
  | findConnector copyId =>
      simp only [copyToSlaveStep]
      split_ifs with honline
      · exact .of_query (by simp) (.done _ (by simp))
      · exact .of_query (by simp) (.copyRead (.offline copyId (by simpa using honline)))
  | markOffline copyId => exact .of_settle (.markOffline run copyId)
  | markSent copyId sent => exact .of_settle (.markSent run copyId sent)

theorem slaveMessageStep_sound (slaveId : Uuid) (result : ExecutionResult) (point : MessagePoint) :
    Step reply w (.message slaveId result point) (slaveMessageStep reply w slaveId result point).1
      (slaveMessageStep reply w slaveId result point).2 := by
  cases point with
  | findOrder =>
      simp only [slaveMessageStep]
      split
      · exact .of_query (by simp) (.done _ (by simp))
      · rename_i order hfound
        split_ifs with hslave
        · exact .of_query (by simp) (.messageRead hfound hslave)
        · exact .of_query (by simp) (.done _ (by simp))
  | record order => exact .of_settle (.record slaveId result order)

theorem pendingInstructionStep_sound (slaveId : Uuid) (point : PollPoint) :
    Step reply w (.poll slaveId point) (pendingInstructionStep reply w slaveId point).1
      (pendingInstructionStep reply w slaveId point).2 := by
  cases point with
  | findOrder =>
      simp only [pendingInstructionStep]
      split
      · exact .of_query (by simp) (.done _ (by simp))
      · rename_i order holdest
        split
        · exact .done _ (by simp)
        · rename_i tradeEvent hevent
          exact .of_query (by simp) (.pollRead (.order holdest hevent))
  | findTicket order tradeEvent =>
      simp only [pendingInstructionStep]
      split
      · rename_i hnone
        exact .of_query (by simp) (.pollRead (.noTicket tradeEvent hnone))
      · rename_i ticket hticket
        exact .of_query (by simp) (.pollRead (.ticket tradeEvent hticket))
  | markFailed order => exact .of_settle (.pollFailed slaveId order)
  | resolveSymbol order tradeEvent slaveTicket =>
      exact .of_query (by simp) (.pollRead (.symbol order tradeEvent slaveTicket))
  | markSent instruction =>
      cases reply with
      | ok => exact .respond slaveId instruction
      | swapped => exact .respond slaveId instruction
      | rejected => exact .done _ (by simp)
      | lost => exact .respondLost slaveId instruction rfl

/-- The step functions do nothing else. -/
theorem step_sound {task : Task} (h : task.step reply w = (w', next)) :
    Step reply w task w' next := by
  obtain rfl : (task.step reply w).1 = w' := congrArg Prod.fst h
  obtain rfl : (task.step reply w).2 = next := congrArg Prod.snd h
  cases task with
  | ingest event point => exact ingestStep_sound event point
  | persist event => exact persistTradeEventStep_sound event
  | heartbeat connectorId accountInfo time point =>
      exact heartbeatStep_sound connectorId accountInfo time point
  | masterEvent event point => exact masterEventStep_sound event point
  | copy run point => exact copyToSlaveStep_sound run point
  | message slaveId result point => exact slaveMessageStep_sound slaveId result point
  | poll slaveId point => exact pendingInstructionStep_sound slaveId point

end Task

end ForexCopy
