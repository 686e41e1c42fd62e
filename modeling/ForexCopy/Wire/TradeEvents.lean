import ForexCopy.Backend.System
import ForexCopy.Library.IsoTime
import ForexCopy.Library.Schema
import ForexCopy.Master.TradeEventCall
import ForexCopy.Wire.Datetime
import ForexCopy.Wire.JsonBuilder
import ForexCopy.Wire.JsonReader

/-!
# Trade events on the wire

The text that `SendTradeEvent` of both master EAs posts to `POST /api/ingest/trade-event`, and what the
route reads in it: `tradeEventPayloadSchema` of `types/tradeEvent.ts`, and `computeLatency` of
`modules/monitoring/latency.ts`. A text that is no JSON, or that the schema refuses, is answered 400.
-/

namespace ForexCopy

open Utf16 Calendar

/-! ### `NowIso8601` -/

/-- A reading of `TimeCurrent` in seconds and the input that is subtracted from it. What is left is in
the range of `datetime`, which ends with the year 3000. -/
structure BrokerTime where
  timeCurrent : ℕ
  brokerGmtOffsetHours : ℤ
  inRange : 0 ≤ timeCurrent - brokerGmtOffsetHours * 3600 ∧
    timeCurrent - brokerGmtOffsetHours * 3600 < 32535216000

namespace BrokerTime

def utcNow (time : BrokerTime) : ℕ := (time.timeCurrent - time.brokerGmtOffsetHours * 3600).toNat

/-- `%04d` and `%02d` of `StringFormat`. -/
def padded (width n : ℕ) : Text :=
  Digits.text (if n < 10 ^ width then Digits.fixed width n else Digits.ofNat n)

def nowIso8601 (time : BrokerTime) : Text :=
  let date := Date.ofDays (Iso.epochDay + time.utcNow / 86400)
  let sec := time.utcNow % 86400
  padded 4 date.year ++ [minus] ++ padded 2 (date.month + 1) ++ [minus] ++ padded 2 (date.day + 1) ++
    [Iso.letterT] ++ padded 2 (sec / 3600) ++ [colon] ++ padded 2 (sec / 60 % 60) ++ [colon] ++
    padded 2 (sec % 60) ++ ofString ".000Z"

end BrokerTime

/-! ### `SendTradeEvent` -/

/-- The argument `side`, which is empty where there is none. -/
def sideText : Option TradeSide → Text
  | none => []
  | some side => ofString side.name

/-- The body of the request. -/
def TradeEventCall.body (call : TradeEventCall) (detectedTime sentTime : Text) : Text :=
  let json : JsonBuilder := {}
  let json := json.addString (ofString "eventId") (ofString call.eventId)
  let json := json.addString (ofString "masterTicket") (ofString call.masterTicket)
  let json := json.addString (ofString "type") (ofString call.type.name)
  let json := json.addString (ofString "symbol") (ofString call.symbol)
  let json := if (sideText call.side).length > 0 then
    json.addString (ofString "side") (sideText call.side) else json
  let json := if call.volume > 0 then json.addNumber (ofString "volume") call.volume 2 else json
  let json := if call.price > 0 then json.addNumber (ofString "price") call.price 5 else json
  let json := if call.sl > 0 then json.addNumber (ofString "sl") call.sl 5 else json
  let json := if call.tp > 0 then json.addNumber (ofString "tp") call.tp 5 else json
  let json := json.addString (ofString "masterEventTime") detectedTime
  let json := json.addString (ofString "eaSentTime") sentTime
  json.build

/-! ### `tradeEventPayloadSchema` -/

def TRADE_EVENT_TYPES : List TradeEventType :=
  [.open, .close, .modify, .partialClose, .pendingOpen, .pendingModify, .pendingCancel]

def TRADE_SIDES : List TradeSide := [.buy, .sell]

structure TimedPayload extends TradeEventPayload where
  masterEventTime : String
  eaSentTime : String
  deriving DecidableEq

open Schema in
/-- `z.string().datetime()`. -/
def datetimeSchema : Schema String := refine string fun text => datetimeRegex.rmatch (ofString text)

open Schema in
def tradeEventPayloadSchema : Schema TimedPayload :=
  object fun members => do
    let eventId ← required "eventId" nonempty members
    let masterTicket ← required "masterTicket" nonempty members
    let type ← required "type" (enum TradeEventType.name TRADE_EVENT_TYPES) members
    let symbol ← required "symbol" nonempty members
    let side ← optional "side" (enum TradeSide.name TRADE_SIDES) members
    let volume ← optional "volume" positive members
    let price ← optional "price" positive members
    let sl ← optional "sl" nonnegative members
    let tp ← optional "tp" nonnegative members
    let masterEventTime ← required "masterEventTime" datetimeSchema members
    let eaSentTime ← required "eaSentTime" datetimeSchema members
    some { eventId, masterTicket, type, symbol, side, volume, price, sl, tp, masterEventTime, eaSentTime }

/-- The payload of a request, unless it is answered 400. -/
def TimedPayload.ofBody (body : Text) : Option TimedPayload :=
  (Json.parse body).bind tradeEventPayloadSchema

/-! ### `computeLatency` -/

/-- `Date.prototype.toISOString`, up to the year 9999. -/
def toISOString (ms : ℕ) : String := Utf16.decode (Iso.text ms)

structure LatencyBreakdown where
  detectionLatencyMs : ℤ
  networkLatencyMs : ℤ
  totalLatencyMs : ℤ
  deriving DecidableEq, Repr

/-- Where `Date.parse` does not read one of the texts the latencies are no numbers. -/
def computeLatency (masterEventTime eaSentTime backendReceivedTime : String) :
    Option LatencyBreakdown := do
  let masterEventMs ← Iso.parse (ofString masterEventTime)
  let eaSentMs ← Iso.parse (ofString eaSentTime)
  let backendReceivedMs ← Iso.parse (ofString backendReceivedTime)
  let detectionLatencyMs := max 0 (eaSentMs - masterEventMs)
  let networkLatencyMs := max 0 (backendReceivedMs - eaSentMs)
  some { detectionLatencyMs, networkLatencyMs, totalLatencyMs := detectionLatencyMs + networkLatencyMs }

end ForexCopy
