import ForexCopy.Backend.RiskChecks
import ForexCopy.Backend.Task
import ForexCopy.Backend.VolumeCalculator

/-!
# The copy engine

`modules/copy-engine/copyEngine.ts`: a master event fans out to one `copyToSlave` run per eligible
slave, and a slave's message records the result of an instruction. The broadcasts to the dashboards
and the log lines are left out.
-/

namespace ForexCopy

/-! ### `handleMasterEvent` -/

def isCopyableEvent (event : NormalizedTradeEvent) : Prop :=
  event.type = .open ∨ event.type = .close ∨ event.type = .modify

instance (event : NormalizedTradeEvent) : Decidable (isCopyableEvent event) :=
  inferInstanceAs (Decidable (_ ∨ _ ∨ _))

/-- The call that a message on a master's channel starts. -/
def handleMasterEvent (event : NormalizedTradeEvent) : List Task :=
  if isCopyableEvent event then [.masterEvent event .findEvent] else []

/-- The slaves an event is copied to. -/
def eligibleSlaves (masterId : Uuid) (slaves : List Slave) : List Slave :=
  slaves.filter fun slave => slave.masterId = masterId ∧ slave.copyEnabled ∧ slave.status ≠ .disabled

theorem mem_eligibleSlaves {masterId : Uuid} {slaves : List Slave} {slave : Slave} :
    slave ∈ eligibleSlaves masterId slaves ↔ slave ∈ slaves ∧ slave.masterId = masterId ∧
      slave.copyEnabled = true ∧ slave.status ≠ .disabled := by
  simp [eligibleSlaves]

def masterAccount (masterId : Uuid) (masters : List Master) : MasterAccount :=
  let master := Table.lookup Master.id masterId masters
  { masterBalance := (master.bind Master.balance).map Decimal.toNumber
    masterEquity := (master.bind Master.equity).map SignedDecimal.toNumber }

def masterEventStep (reply : Reply) (w : World) (event : NormalizedTradeEvent) :
    EventPoint → World × List Task
  | .findEvent =>
    match Table.lookup TradeEvent.eventId event.eventId w.tradeEvents with
    | some tradeEvent => reply.query w [.masterEvent event (.findSlaves tradeEvent.id)]
    | none => reply.query w [.masterEvent event .sleep]
  | .sleep => (w, [.masterEvent event .findEventAgain])
  | .findEventAgain =>
    match Table.lookup TradeEvent.eventId event.eventId w.tradeEvents with
    | some tradeEvent => reply.query w [.masterEvent event (.findSlaves tradeEvent.id)]
    | none => reply.query w []
  | .findSlaves tradeEventId =>
    reply.query w [.masterEvent event (.findMaster tradeEventId (eligibleSlaves event.masterId w.slaves))]
  | .findMaster tradeEventId slaves =>
    let account := masterAccount event.masterId w.masters
    reply.query w (slaves.map fun slave => .copy ⟨slave, tradeEventId, event, account⟩ .resolveSymbol)

/-! ### `copyToSlave` -/

namespace CopyRun

/-- The row of `failCopyOrder`, and that of a copy order about to be dispatched. -/
def order (run : CopyRun) (copyId : Uuid) (status : CopyOrderStatus) (requestedVolume : Option ℚ)
    (errorReason : Option String) : CopyOrder where
  id := copyId
  tradeEventId := run.tradeEventId
  masterId := run.event.masterId
  slaveId := run.slave.id
  masterTicket := run.event.masterTicket
  type := run.event.type
  status := status
  requestedVolume := requestedVolume.map (Decimal.ofNumber 2)
  errorReason := errorReason

def failedOrder (run : CopyRun) (copyId : Uuid) (reason : String) (requestedVolume : Option ℚ) :
    CopyOrder :=
  run.order copyId .failed requestedVolume (some reason)

def pendingOrder (run : CopyRun) (copyId : Uuid) (volume : Option ℚ) : CopyOrder :=
  run.order copyId .pending volume none

def instruction (run : CopyRun) (copyId : Uuid) (resolvedSymbol : String)
    (slaveTicket : Option String) (volume : Option ℚ) : CopyInstruction where
  copyId := copyId
  action := run.event.type
  symbol := resolvedSymbol
  side := run.event.side
  volume := volume
  sl := run.event.sl
  tp := run.event.tp
  slaveTicket := slaveTicket

def entryCheck (run : CopyRun) (currentOpenPositions : ℕ) : EntryCheckInput where
  emergencyStop := run.slave.emergencyStop
  allowedSymbols := run.slave.allowedSymbols
  blockedSymbols := run.slave.blockedSymbols
  symbol := run.event.symbol
  maxPositions := run.slave.maxPositions
  currentOpenPositions := currentOpenPositions

def exposureCheck (run : CopyRun) (currentOpenExposure incomingVolume : ℚ) : ExposureCheckInput where
  maxExposure := run.slave.maxExposure.map Decimal.toNumber
  currentOpenExposure := currentOpenExposure
  incomingVolume := incomingVolume

def sizing (run : CopyRun) : VolumeCalculatorInput where
  copyMode := run.slave.copyMode
  masterVolume := run.event.volume.getD 0
  fixedLot := run.slave.fixedLot.map Decimal.toNumber
  multiplier := run.slave.multiplier.toNumber
  masterBalance := run.masterAccount.masterBalance
  masterEquity := run.masterAccount.masterEquity
  slaveBalance := run.slave.balance.map Decimal.toNumber
  slaveEquity := run.slave.equity.map SignedDecimal.toNumber
  minLot := run.slave.minLot.toNumber
  maxLot := run.slave.maxLot.toNumber
  lotStep := run.slave.lotStep.toNumber

/-- What follows the symbol: a ticket to act on, or the summary of the open positions. -/
def afterSymbol (run : CopyRun) (resolvedSymbol : String) : CopyPoint :=
  if run.event.type = .close ∨ run.event.type = .modify then
    .findTicket resolvedSymbol
  else if run.event.type = .open then
    .readPositions resolvedSymbol
  else
    .createOrder resolvedSymbol none run.event.volume

/-- The rest of the CLOSE and MODIFY branch. -/
def afterTicket (run : CopyRun) (resolvedSymbol : String) (priorOpenTicket : Option String) :
    CopyPoint :=
  match truthy priorOpenTicket with
  | none => .failOrder "NO_MATCHING_OPEN_COPY" none
  | some slaveTicket => .createOrder resolvedSymbol (some slaveTicket) run.event.volume

/-- The rest of the OPEN branch: both checks and the sizing between them. -/
def afterPositions (run : CopyRun) (resolvedSymbol : String) (openSummary : OpenPositionsSummary) :
    CopyPoint :=
  match checkEntryAllowed (run.entryCheck openSummary.count) with
  | .refused reason => .failOrder reason none
  | .allowed =>
    match calculateVolume .double run.sizing with
    | .rejected reason => .failOrder reason run.event.volume
    | .volume volume =>
      match checkExposureAllowed (run.exposureCheck openSummary.totalVolume volume) with
      | .refused reason => .failOrder reason (some volume)
      | .allowed => .createOrder resolvedSymbol none (some volume)

/-- What follows the insert of the row. Only a push is sent from here; a polling slave's row waits. -/
def dispatch (run : CopyRun) (w : World) (copyId : Uuid) (resolvedSymbol : String)
    (slaveTicket : Option String) (volume : Option ℚ) : World × List Task :=
  if run.slave.platform = "MT4" then
    (w, [.copy run (.findConnector copyId)])
  else if w.isSlaveConnected run.slave.id then
    let (w, sent) :=
      w.sendToSlave run.slave.id (run.instruction copyId resolvedSymbol slaveTicket volume)
    (w, [.copy run (.markSent copyId sent)])
  else
    (w, [.copy run (.markOffline copyId)])

end CopyRun

def copyToSlaveStep (reply : Reply) (w : World) (run : CopyRun) : CopyPoint → World × List Task
  | .resolveSymbol =>
    let resolvedSymbol := w.resolveSlaveSymbol run.slave.id run.event.symbol
    reply.query w [.copy run (run.afterSymbol resolvedSymbol)]
  | .findTicket resolvedSymbol =>
    let priorOpenTicket :=
      findExecutedOpenSlaveTicket run.slave.id run.event.masterTicket w.copyOrders
    reply.query w [.copy run (run.afterTicket resolvedSymbol priorOpenTicket)]
  | .readPositions resolvedSymbol =>
    match reply with
    | .ok => (w, [.copy run
        (.readCloses resolvedSymbol (w.findExecuted run.slave.id .open))])
    | .swapped => (w, [.copy run
        (.readOpens resolvedSymbol (w.findExecuted run.slave.id .close))])
    | .rejected | .lost => (w, [])
  | .readCloses resolvedSymbol opens =>
    let positions := copyOrderPositions opens (w.findExecuted run.slave.id .close)
    reply.query w [.copy run (run.afterPositions resolvedSymbol (openPositionsSummary positions))]
  | .readOpens resolvedSymbol closes =>
    let positions := copyOrderPositions (w.findExecuted run.slave.id .open) closes
    reply.query w [.copy run (run.afterPositions resolvedSymbol (openPositionsSummary positions))]
  | .failOrder reason requestedVolume =>
    match w.createOrder (run.failedOrder w.nextCopyId reason requestedVolume) with
    | none => (w, [])
    | some created => reply.settle w created []
  | .createOrder resolvedSymbol slaveTicket volume =>
    match w.createOrder (run.pendingOrder w.nextCopyId volume) with
    | none => (w, [])
    | some created =>
      match reply with
      | .ok | .swapped => run.dispatch created w.nextCopyId resolvedSymbol slaveTicket volume
      | .rejected => (w, [])
      | .lost => (created, [])
  | .findConnector copyId =>
    reply.query w
      (if w.hasOnlineConnector run.slave.id then [] else [.copy run (.markOffline copyId)])
  | .markOffline copyId =>
    reply.settle w (w.updateOrder copyId (CopyOrder.markFailed "SLAVE_OFFLINE")) []
  | .markSent copyId sent =>
    reply.settle w
      (w.updateOrder copyId
        (if sent then CopyOrder.markSent w.now else CopyOrder.markFailed "SEND_FAILED")) []

/-! ### `handleSlaveMessage` -/

/-- The call that a message starts; `none` is one that is no execution result. -/
def handleSlaveMessage (slaveId : Uuid) (message : Option ExecutionResult) : List Task :=
  match message with
  | none => []
  | some result => [.message slaveId result .findOrder]

def slaveMessageStep (reply : Reply) (w : World) (slaveId : Uuid) (result : ExecutionResult) :
    MessagePoint → World × List Task
  | .findOrder =>
    match Table.lookup CopyOrder.id result.copyId w.copyOrders with
    | none => reply.query w []
    | some order =>
      reply.query w (if order.slaveId = slaveId then [.message slaveId result (.record order)] else [])
  | .record order =>
    reply.settle w (w.updateOrder result.copyId (CopyOrder.record result order w.now)) []

end ForexCopy
