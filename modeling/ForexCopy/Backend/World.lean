import ForexCopy.Backend.CopyOrderQueries

/-!
# The world the backend acts on

The database, the idempotency keys and the channels in Redis, the sockets the gateway holds, and what
the backend has handed to the outside so far: events published, answers to the master connectors,
instructions given to the slaves. The last three are logs, they only grow.
-/

namespace ForexCopy

/-- The payload of `types/tradeEvent.ts`, without the connector's timestamps. -/
structure TradeEventPayload where
  eventId : String
  masterTicket : String
  type : TradeEventType
  symbol : String
  side : Option TradeSide := none
  volume : Option ℚ := none
  price : Option ℚ := none
  sl : Option ℚ := none
  tp : Option ℚ := none
  deriving DecidableEq, Repr

/-- What `tradeEventPayloadSchema` admits. -/
def TradeEventPayload.Valid (payload : TradeEventPayload) : Prop :=
  payload.eventId ≠ "" ∧ payload.masterTicket ≠ "" ∧ payload.symbol ≠ "" ∧
    (∀ volume ∈ payload.volume, 0 < volume) ∧ (∀ price ∈ payload.price, 0 < price) ∧
    (∀ sl ∈ payload.sl, 0 ≤ sl) ∧ ∀ tp ∈ payload.tp, 0 ≤ tp

instance (payload : TradeEventPayload) : Decidable payload.Valid :=
  inferInstanceAs (Decidable (_ ∧ _ ∧ _ ∧ _ ∧ _ ∧ _ ∧ _))

/-- A valid payload under the master whose connector sent it. -/
structure NormalizedTradeEvent extends TradeEventPayload where
  masterId : Uuid
  valid : toTradeEventPayload.Valid
  deriving DecidableEq

structure CopyInstruction where
  copyId : Uuid
  action : TradeEventType
  symbol : String
  side : Option TradeSide := none
  volume : Option ℚ := none
  sl : Option ℚ := none
  tp : Option ℚ := none
  slaveTicket : Option String := none
  deriving DecidableEq, Repr

inductive ExecutionStatus
  | executed | failed
  deriving DecidableEq, Repr

def ExecutionStatus.toCopyOrderStatus : ExecutionStatus → CopyOrderStatus
  | .executed => .executed
  | .failed => .failed

structure ExecutionResult where
  copyId : Uuid
  status : ExecutionStatus
  slaveTicket : Option String := none
  executionPrice : Option ℚ := none
  reason : Option String := none
  deriving DecidableEq, Repr

structure AccountSnapshot where
  balance : ℚ
  equity : ℚ
  deriving DecidableEq, Repr

/-- How an instruction reaches a slave: over `/ws/slave`, or as the response to a poll. -/
inductive Transport
  | push | poll
  deriving DecidableEq, Repr

structure Delivery where
  transport : Transport
  slaveId : Uuid
  instruction : CopyInstruction
  deriving DecidableEq, Repr

/-- How a trade event request is answered. -/
inductive IngestStatus
  | accepted | duplicateIgnored | invalidPayload | internalError
  deriving DecidableEq, Repr

structure IngestAnswer where
  masterId : Uuid
  eventId : String
  status : IngestStatus
  deriving DecidableEq, Repr

structure Publication where
  channel : String
  event : NormalizedTradeEvent
  deriving DecidableEq

structure World where
  masters : List Master := []
  slaves : List Slave := []
  connectors : List Connector := []
  symbolMappings : List SymbolMapping := []
  tradeEvents : List TradeEvent := []
  copyOrders : List CopyOrder := []
  /-- How the rows of a query that asks for no order are arranged. -/
  scan : List ℕ := []
  idempotencyKeys : List String := []
  connections : List Uuid := []
  now : DateTime := 0
  published : List Publication := []
  answers : List IngestAnswer := []
  sent : List Delivery := []
  deriving DecidableEq

namespace World

def resolveSlaveSymbol (w : World) (slaveId : Uuid) (masterSymbol : String) : String :=
  let mapping := w.symbolMappings.find? fun mapping =>
    mapping.slaveId = slaveId ∧ mapping.masterSymbol = masterSymbol
  (mapping.map SymbolMapping.slaveSymbol).getD masterSymbol

def isSlaveConnected (w : World) (slaveId : Uuid) : Bool := w.connections.contains slaveId

def push (w : World) (slaveId : Uuid) (instruction : CopyInstruction) : World :=
  { w with sent := w.sent ++ [⟨.push, slaveId, instruction⟩] }

/-- Hand an instruction over as the response to a poll. -/
def respond (w : World) (slaveId : Uuid) (instruction : CopyInstruction) : World :=
  { w with sent := w.sent ++ [⟨.poll, slaveId, instruction⟩] }

/-- The world after the call, and whether the slave had an open socket. -/
def sendToSlave (w : World) (slaveId : Uuid) (instruction : CopyInstruction) : World × Bool :=
  if w.isSlaveConnected slaveId then (w.push slaveId instruction, true) else (w, false)

def hasOnlineConnector (w : World) (slaveId : Uuid) : Bool :=
  w.connectors.any fun connector => connector.slaveId = some slaveId ∧ connector.status = .online

/-- The rows of a query of `getCopyOrderPositions`. -/
def findExecuted (w : World) (slaveId : Uuid) (type : TradeEventType) : List CopyOrder :=
  Table.arrange w.scan (executedOrders slaveId type w.copyOrders)

/-- What `getOpenPositionsSummary` returns to a caller that runs alone. -/
def getOpenPositionsSummary (w : World) (slaveId : Uuid) : OpenPositionsSummary :=
  openPositionsSummary
    (copyOrderPositions (w.findExecuted slaveId .open) (w.findExecuted slaveId .close))

def insertOrder (w : World) (order : CopyOrder) : World :=
  { w with copyOrders := w.copyOrders ++ [order] }

/-- Insert a copy order, refused when its trade event already has one for the slave. -/
def createOrder (w : World) (order : CopyOrder) : Option World :=
  if order.dispatchKey ∈ w.copyOrders.map CopyOrder.dispatchKey then none
  else some (w.insertOrder order)

def nextCopyId (w : World) : Uuid := Table.fresh (w.copyOrders.map CopyOrder.id)

def updateOrder (w : World) (copyId : Uuid) (change : CopyOrder → CopyOrder) : World :=
  { w with copyOrders := Table.update CopyOrder.id copyId change w.copyOrders }

def insertTradeEvent (w : World) (row : TradeEvent) : World :=
  { w with tradeEvents := w.tradeEvents ++ [row] }

/-- Insert a trade event, refused when its event id is taken. -/
def createTradeEvent (w : World) (row : TradeEvent) : Option World :=
  if row.eventId ∈ w.tradeEvents.map TradeEvent.eventId then none
  else some (w.insertTradeEvent row)

def nextTradeEventId (w : World) : Uuid := Table.fresh (w.tradeEvents.map TradeEvent.id)

def answer (w : World) (masterId : Uuid) (eventId : String) (status : IngestStatus) : World :=
  { w with answers := w.answers ++ [⟨masterId, eventId, status⟩] }

def deliveriesSince (w w' : World) : List Delivery := w'.sent.drop w.sent.length

theorem mem_findExecuted {w : World} {slaveId : Uuid} {type : TradeEventType} {order : CopyOrder} :
    order ∈ w.findExecuted slaveId type ↔
      order ∈ w.copyOrders ∧ order.slaveId = slaveId ∧ order.type = type ∧ order.status = .executed :=
  Table.mem_arrange.trans mem_executedOrders

end World

def CopyOrder.markSent (now : DateTime) (order : CopyOrder) : CopyOrder :=
  { order with status := .sent, sentAt := some now }

def CopyOrder.markFailed (reason : String) (order : CopyOrder) : CopyOrder :=
  { order with status := .failed, errorReason := some reason }

/-- `read` is the row as it was found before the write. -/
def CopyOrder.record (result : ExecutionResult) (read : CopyOrder) (now : DateTime)
    (order : CopyOrder) : CopyOrder :=
  { order with
    status := result.status.toCopyOrderStatus
    slaveTicket := result.slaveTicket <|> read.slaveTicket
    executionPrice := (result.executionPrice.map (SignedDecimal.ofNumber 5)) <|> order.executionPrice
    errorReason := result.reason <|> order.errorReason
    executedAt := some now }

end ForexCopy
