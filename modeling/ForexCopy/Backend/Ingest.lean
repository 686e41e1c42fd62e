import ForexCopy.Backend.Task

/-!
# Ingest

`POST /api/ingest/trade-event` of `modules/ingest/ingest.routes.ts`, from the moment the connector's
token is resolved to its master, and `persistTradeEvent`. An exception in the handler is answered
with an internal error by the framework. Key expiry is an event of its own, see `Stimulus`.
-/

namespace ForexCopy

def masterEventsChannel (masterId : Uuid) : String := "master:" ++ toString masterId ++ ":events"

def World.publishTradeEvent (w : World) (event : NormalizedTradeEvent) : World :=
  { w with published := w.published ++ [⟨masterEventsChannel event.masterId, event⟩] }

/-- `SET key "1" EX ttl NX`. -/
def World.setKey (w : World) (eventId : String) : World :=
  { w with idempotencyKeys := w.idempotencyKeys ++ [eventId] }

/-- The request, up to its first call to Redis. -/
def ingestTradeEvent (w : World) (masterId : Uuid) (payload : TradeEventPayload) :
    World × List Task :=
  if valid : payload.Valid then
    (w, [.ingest { payload with masterId := masterId, valid := valid } .setKey])
  else
    (w.answer masterId payload.eventId .invalidPayload, [])

def ingestStep (reply : Reply) (w : World) (event : NormalizedTradeEvent) :
    IngestPoint → World × List Task
  | .setKey =>
    if event.eventId ∈ w.idempotencyKeys then
      match reply with
      | .ok | .swapped => (w.answer event.masterId event.eventId .duplicateIgnored, [])
      | .rejected | .lost => (w.answer event.masterId event.eventId .internalError, [])
    else
      match reply with
      | .ok | .swapped => (w.setKey event.eventId, [.ingest event .publish])
      | .rejected => (w.answer event.masterId event.eventId .internalError, [])
      | .lost => ((w.setKey event.eventId).answer event.masterId event.eventId .internalError, [])
  | .publish =>
    match reply with
    | .ok | .swapped =>
      ((w.publishTradeEvent event).answer event.masterId event.eventId .accepted, [.persist event])
    | .rejected => (w.answer event.masterId event.eventId .internalError, [])
    | .lost => ((w.publishTradeEvent event).answer event.masterId event.eventId .internalError, [])

def NormalizedTradeEvent.row (event : NormalizedTradeEvent) (id : Uuid) : TradeEvent where
  id := id
  eventId := event.eventId
  masterId := event.masterId
  masterTicket := event.masterTicket
  type := event.type
  symbol := event.symbol
  side := event.side
  volume := event.volume.map (Decimal.ofNumber 2)
  price := event.price.map (Decimal.ofNumber 5)
  sl := event.sl.map (Decimal.ofNumber 5)
  tp := event.tp.map (Decimal.ofNumber 5)

/-- Every failure of the insert is caught and logged. -/
def persistTradeEventStep (reply : Reply) (w : World) (event : NormalizedTradeEvent) :
    World × List Task :=
  match w.createTradeEvent (event.row w.nextTradeEventId) with
  | none => (w, [])
  | some created => reply.settle w created []

end ForexCopy
