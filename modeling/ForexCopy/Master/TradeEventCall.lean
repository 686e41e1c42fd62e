import ForexCopy.Backend.World

/-!
# What a master EA sends

`SendTradeEvent`, which is the same in `connectors/master-ea/ForexCopyMasterEA.mq5` and in
`connectors/master-ea-mt4/ForexCopyMasterEA.mq4`. Doubles are rational numbers. The timestamps of the
payload and the retries of the HTTP client behind the call are left out: a retry repeats a payload.
-/

namespace ForexCopy

/-- The arguments of `SendTradeEvent`; a side is left out where the source passes `""`. -/
structure TradeEventCall where
  eventId : String
  type : TradeEventType
  symbol : String
  side : Option TradeSide
  volume : ℚ
  price : ℚ
  sl : ℚ
  tp : ℚ
  masterTicket : String
  deriving DecidableEq, Repr

/-- A number that is sent only when it is positive, with this many digits, and is read as a double. -/
def positiveNumber (digits : ℕ) (value : ℚ) : Option ℚ :=
  if 0 < value then some (Decimal.ofNumber digits value).toNumber else none

/-- The JSON object, as the backend reads it. -/
def TradeEventCall.payload (call : TradeEventCall) : TradeEventPayload where
  eventId := call.eventId
  masterTicket := call.masterTicket
  type := call.type
  symbol := call.symbol
  side := call.side
  volume := positiveNumber 2 call.volume
  price := positiveNumber 5 call.price
  sl := positiveNumber 5 call.sl
  tp := positiveNumber 5 call.tp

/-- `kind + "-" + IntegerToString(login) + "-" + IntegerToString(ticket)`. -/
def ticketEventId (kind : String) (login ticket : ℕ) : String :=
  kind ++ "-" ++ toString login ++ "-" ++ toString ticket

/-- The same with the value of `g_eventSeq`, an `int`, at its end. -/
def countedEventId (kind : String) (login ticket : ℕ) (eventSeq : BitVec 32) : String :=
  ticketEventId kind login ticket ++ "-" ++ toString eventSeq.toInt

end ForexCopy
