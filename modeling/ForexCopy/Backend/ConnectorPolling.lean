import ForexCopy.Backend.Task

/-!
# The polling transport

`GET /api/connectors/pending-instruction` of `modules/connectors/connectorPolling.routes.ts`, from the
moment the connector's token is resolved to its slave.
-/

namespace ForexCopy

/-- The slave's PENDING row that was created first. -/
def oldestPending (slaveId : Uuid) (orders : List CopyOrder) : Option CopyOrder :=
  orders.find? fun order => order.slaveId = slaveId ∧ order.status = .pending

/-- The instruction rebuilt from the row and its trade event. -/
def CopyOrder.instruction (order : CopyOrder) (tradeEvent : TradeEvent) (resolvedSymbol : String)
    (slaveTicket : Option String) : CopyInstruction where
  copyId := order.id
  action := order.type
  symbol := resolvedSymbol
  side := tradeEvent.side
  volume := order.requestedVolume.map Decimal.toNumber
  sl := tradeEvent.sl.map Decimal.toNumber
  tp := tradeEvent.tp.map Decimal.toNumber
  slaveTicket := slaveTicket

def pickUp (order : CopyOrder) (tradeEvent : TradeEvent) : PollPoint :=
  if order.type = .close ∨ order.type = .modify then
    .findTicket order tradeEvent
  else
    .resolveSymbol order tradeEvent none

def pendingInstructionStep (reply : Reply) (w : World) (slaveId : Uuid) :
    PollPoint → World × List Task
  | .findOrder =>
    match oldestPending slaveId w.copyOrders with
    | none => reply.query w []
    | some order =>
      -- The row's trade event is a required relation: without it the query itself would fail.
      match Table.lookup TradeEvent.id order.tradeEventId w.tradeEvents with
      | none => (w, [])
      | some tradeEvent => reply.query w [.poll slaveId (pickUp order tradeEvent)]
  | .findTicket order tradeEvent =>
    match truthy (findExecutedOpenSlaveTicket slaveId order.masterTicket w.copyOrders) with
    | none => reply.query w [.poll slaveId (.markFailed order)]
    | some ticket => reply.query w [.poll slaveId (.resolveSymbol order tradeEvent (some ticket))]
  | .markFailed order =>
    reply.settle w (w.updateOrder order.id (CopyOrder.markFailed "NO_MATCHING_OPEN_COPY")) []
  | .resolveSymbol order tradeEvent slaveTicket =>
    let resolvedSymbol := w.resolveSlaveSymbol slaveId tradeEvent.symbol
    reply.query w
      [.poll slaveId (.markSent (order.instruction tradeEvent resolvedSymbol slaveTicket))]
  | .markSent instruction =>
    let marked := w.updateOrder instruction.copyId (CopyOrder.markSent w.now)
    match reply with
    | .ok | .swapped => (marked.respond slaveId instruction, [])
    | .rejected => (w, [])
    | .lost => (marked, [])

end ForexCopy
