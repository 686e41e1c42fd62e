import ForexCopy.Library.Json
import ForexCopy.Master.Mt4Ea
import ForexCopy.Wire.Strings

/-!
# What the connectors write

The `JsonBuilder` of `Include/ForexCopy/Json.mqh`, which all connectors have a copy of, and the heartbeat
that the MT4 slave builds with it. The orders of a pool are those that `OrderSelect` selects, in the
order of their positions.
-/

namespace ForexCopy

open Utf16 Mql

/-- The text built so far, and whether it is still to get its first member. -/
structure JsonBuilder where
  body : Text := []
  first : Bool := true
  deriving DecidableEq, Repr

namespace JsonBuilder

def appendKeyRaw (builder : JsonBuilder) (key rawValue : Text) : JsonBuilder where
  body := (if builder.first then builder.body else builder.body ++ [comma]) ++
    ([quote] ++ key ++ [quote, colon] ++ rawValue)
  first := false

def escapeString (value : Text) : Text :=
  let escaped := stringReplace value [backslash] [backslash, backslash]
  let escaped := stringReplace escaped [quote] [backslash, quote]
  let escaped := stringReplace escaped [lineFeed] [backslash, 0x6E]
  stringReplace escaped [carriageReturn] []

def addString (builder : JsonBuilder) (key value : Text) : JsonBuilder :=
  builder.appendKeyRaw key ([quote] ++ escapeString value ++ [quote])

def addNumber (builder : JsonBuilder) (key : Text) (value : ℚ) (digits : ℤ := 5) : JsonBuilder :=
  builder.appendKeyRaw key (doubleToString value digits)

def addInteger (builder : JsonBuilder) (key : Text) (value : ℤ) : JsonBuilder :=
  builder.appendKeyRaw key (integerToString value)

def addBool (builder : JsonBuilder) (key : Text) (value : Bool) : JsonBuilder :=
  builder.appendKeyRaw key (if value then ofString "true" else ofString "false")

def addRaw (builder : JsonBuilder) (key rawJson : Text) : JsonBuilder :=
  builder.appendKeyRaw key rawJson

def build (builder : JsonBuilder) : Text := [openBrace] ++ builder.body ++ [closeBrace]

end JsonBuilder

/-- A call of one of the builder's methods. -/
inductive JsonCall
  | addString (key value : Text)
  | addNumber (key : Text) (value : ℚ) (digits : ℤ)
  | addInteger (key : Text) (value : ℤ)
  | addBool (key : Text) (value : Bool)
  | addRaw (key rawJson : Text)
  deriving DecidableEq, Repr

def JsonCall.apply (builder : JsonBuilder) : JsonCall → JsonBuilder
  | .addString key value => builder.addString key value
  | .addNumber key value digits => builder.addNumber key value digits
  | .addInteger key value => builder.addInteger key value
  | .addBool key value => builder.addBool key value
  | .addRaw key rawJson => builder.addRaw key rawJson

def JsonBuilder.after (calls : List JsonCall) : JsonBuilder := calls.foldl JsonCall.apply {}

/-! ### The heartbeat of the MT4 slave -/

namespace Mt4

structure PoolOrder where
  ticket : ℤ
  type : OrderType
  symbol : Text
  lots : ℚ
  stopLoss : ℚ := 0
  takeProfit : ℚ := 0
  comment : Text := []
  deriving DecidableEq, Repr

/-- The builder of one position. -/
def positionBuilder (order : PoolOrder) : JsonBuilder :=
  let pos : JsonBuilder := {}
  let pos := pos.addString (ofString "ticket") (integerToString order.ticket)
  let pos := pos.addString (ofString "symbol") order.symbol
  let pos := pos.addString (ofString "side")
    (if order.type = .buy then ofString "BUY" else ofString "SELL")
  let pos := pos.addNumber (ofString "volume") order.lots 2
  let pos := if order.stopLoss > 0 then pos.addNumber (ofString "sl") order.stopLoss 5 else pos
  let pos := if order.takeProfit > 0 then pos.addNumber (ofString "tp") order.takeProfit 5 else pos
  if order.comment.length > 0 then pos.addString (ofString "comment") order.comment else pos

/-- One turn of the loop; pending orders are no positions. -/
def appendPosition (result : Text) (order : PoolOrder) : Text :=
  if order.type.IsMarket then
    (if result ≠ [openBracket] then result ++ [comma] else result) ++ (positionBuilder order).build
  else result

def buildPositionsJson (orders : List PoolOrder) : Text :=
  orders.foldl appendPosition [openBracket] ++ [closeBracket]

/-- The body that `SendHeartbeatNow` sends. -/
def sendHeartbeatNow (accountBalance accountEquity : ℚ) (orders : List PoolOrder) : Text :=
  let hb : JsonBuilder := {}
  let hb := hb.addNumber (ofString "balance") accountBalance 2
  let hb := hb.addNumber (ofString "equity") accountEquity 2
  let hb := hb.addRaw (ofString "positions") (buildPositionsJson orders)
  hb.build

end Mt4

end ForexCopy
