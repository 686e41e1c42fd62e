import ForexCopy.Slave.PollingEa
import ForexCopy.Wire.ExecutionResults
import ForexCopy.Wire.JsonReader

/-!
# The MT4 slave and its terminal

What `PollForInstruction` of `connectors/slave-ea-mt4/ForexCopySlaveEA.mq4` does with a response, from
the text of the response to the text of the result, and the link between the EA and the backend, on which
nothing but texts travels. The terminal keeps an order when it is closed; `OrderSelect` by ticket finds
open and closed orders alike. The broker's part is a reply to each request: a code that it is refused
with, or what comes of it. `ErrorDescription` belongs to the platform's own library. The heartbeat and
the retry queue are modelled elsewhere, and here a result may be posted any number of times.
-/

namespace ForexCopy

open Utf16 Mql

namespace Mql

/-- Blanks and a sign may stand in front of the digits; what stands behind them is not looked at. -/
def stringToInteger (text : Text) : ℤ :=
  let trimmed := text.dropWhile (· = space)
  let negative : Bool := trimmed.head? = some minus
  let unsigned := if negative ∨ trimmed.head? = some plus then trimmed.tail else trimmed
  let value : ℤ := Digits.value ((unsigned.takeWhile IsDigit).map Digits.ofUnit)
  (if negative then -value else value).bmod (2 ^ 64)

/-- The conversion of a `long` to an `int`. -/
def toInt (value : ℤ) : ℤ := value.bmod (2 ^ 32)

end Mql

namespace Mt4

structure SlaveOrder (Number : Type) where
  ticket : ℕ
  type : OrderType
  symbol : Text
  lots : Number
  openPrice : ℚ
  stopLoss : Number
  takeProfit : Number
  comment : Text
  closeTime : ℕ := 0
  closePrice : ℚ := 0
  deriving DecidableEq

/-- What the platform says about the instruction's symbol. -/
structure Market where
  selected : Bool
  ask : ℚ
  bid : ℚ
  deriving DecidableEq

inductive BrokerReply
  | refused (error : ℕ)
  /-- `ticket` is that of a new order, `price` the one it is opened or closed at. -/
  | done (ticket : ℕ) (price : ℚ) (time : ℕ)
  deriving DecidableEq

/-! ### Requests to the broker -/

section

variable {Number : Type} [DecidableEq Number] (doubles : Doubles Number)

abbrev Orders (Number : Type) := List (SlaveOrder Number)

/-- `OrderSelect(ticket, SELECT_BY_TICKET)`. -/
def orderSelect (orders : Orders Number) (ticket : ℤ) : Option (SlaveOrder Number) :=
  Table.lookup (fun order => (order.ticket : ℤ)) ticket orders

/-- A new order gets a ticket that no order has, and no order is opened without a volume. -/
def orderSend (orders : Orders Number) (reply : BrokerReply) (symbol : Text) (cmd : OrderType)
    (volume sl tp : Number) (comment : Text) : Option (Orders Number × Except ℕ ℕ) :=
  match reply with
  | .refused error => some (orders, .error error)
  | .done ticket price _ =>
    if ticket ∈ orders.map SlaveOrder.ticket ∨ 2 ^ 31 ≤ ticket ∨ volume = doubles.toNearest 0 then none
    else some (orders ++ [⟨ticket, cmd, symbol, volume, price, sl, tp, comment, 0, 0⟩], .ok ticket)

/-- A request about an order that is closed is refused. -/
def orderChange (orders : Orders Number) (reply : BrokerReply) (order : SlaveOrder Number)
    (change : SlaveOrder Number → SlaveOrder Number) : Option (Orders Number × Except ℕ Unit) :=
  match reply with
  | .refused error => some (orders, .error error)
  | .done _ _ time =>
    if 0 < order.closeTime ∨ time = 0 then none
    else some (Table.update SlaveOrder.ticket order.ticket change orders, .ok ())

def orderClose (orders : Orders Number) (reply : BrokerReply) (order : SlaveOrder Number) :
    Option (Orders Number × Except ℕ Unit) :=
  match reply with
  | .refused _ => orderChange orders reply order id
  | .done _ price time =>
    orderChange orders reply order fun order => { order with closeTime := time, closePrice := price }

def orderModify (orders : Orders Number) (reply : BrokerReply) (order : SlaveOrder Number)
    (sl tp : Number) : Option (Orders Number × Except ℕ Unit) :=
  orderChange orders reply order fun order => { order with stopLoss := sl, takeProfit := tp }

/-! ### Execution -/

variable (errorDescription : ℕ → String) (orders : Orders Number) (market : Market)
  (reply : BrokerReply)

/-- The terminal after the call and the text of the result; nothing if the broker cannot reply so. -/
def executeOpen (copyId symbol side : Text) (volume sl tp : Number) :
    Option (Orders Number × Text) :=
  if ¬market.selected then
    some (orders, failureResult copyId (ofString "symbol not available: " ++ symbol))
  else
    let price := if side = ofString "BUY" then market.ask else market.bid
    if price ≤ 0 then some (orders, failureResult copyId (ofString "no price for symbol: " ++ symbol))
    else
      let cmd : OrderType := if side = ofString "BUY" then .buy else .sell
      (orderSend doubles orders reply symbol cmd volume sl tp (ofString "copy:" ++ copyId)).map
        fun (sent, outcome) =>
          match outcome with
          | .error error =>
            (sent, failureResult copyId (ofString "OrderSend failed: " ++
              ofString (errorDescription error)))
          | .ok ticket =>
            let execPrice := ((orderSelect sent ticket).map SlaveOrder.openPrice).getD price
            (sent, successResult copyId (integerToString ticket) execPrice)

def executeClose (copyId slaveTicketStr : Text) : Option (Orders Number × Text) :=
  if slaveTicketStr.length = 0 then
    some (orders, failureResult copyId (ofString "no slaveTicket provided for CLOSE"))
  else
    let ticket := toInt (stringToInteger slaveTicketStr)
    match orderSelect orders ticket with
    | none =>
      some (orders, failureResult copyId (ofString "no open position for ticket " ++ slaveTicketStr))
    | some order =>
      let price := if order.type = .buy then market.bid else market.ask
      (orderClose orders reply order).map fun (closed, outcome) =>
        match outcome with
        | .error error =>
          (closed, failureResult copyId (ofString "OrderClose failed: " ++
            ofString (errorDescription error)))
        | .ok _ =>
          let execPrice :=
            match orderSelect closed ticket with
            | none => price
            | some order => if 0 < order.closeTime then order.closePrice else price
          (closed, successResult copyId (integerToString ticket) execPrice)

def executeModify (copyId slaveTicketStr : Text) (sl tp : Number) : Option (Orders Number × Text) :=
  if slaveTicketStr.length = 0 then
    some (orders, failureResult copyId (ofString "no slaveTicket provided for MODIFY"))
  else
    let ticket := toInt (stringToInteger slaveTicketStr)
    match orderSelect orders ticket with
    | none =>
      some (orders, failureResult copyId (ofString "no open position for ticket " ++ slaveTicketStr))
    | some order =>
      (orderModify orders reply order sl tp).map fun (modified, outcome) =>
        match outcome with
        | .error error =>
          (modified, failureResult copyId (ofString "OrderModify failed: " ++
            ofString (errorDescription error)))
        | .ok _ => (modified, successResult copyId (integerToString ticket) 0)

/-- What is done with a 200 response; a malformed one has no result. -/
def execute (call : InstructionCall Number) : Option (Orders Number × Option Text) :=
  match call with
  | .malformed => some (orders, none)
  | .executeOpen copyId symbol side volume sl tp =>
    (executeOpen doubles errorDescription orders market reply copyId symbol side volume sl tp).map
      (Prod.map id some)
  | .executeClose copyId slaveTicket =>
    (executeClose errorDescription orders market reply copyId slaveTicket).map (Prod.map id some)
  | .executeModify copyId slaveTicket sl tp =>
    (executeModify errorDescription orders reply copyId slaveTicket sl tp).map (Prod.map id some)
  | .unsupported copyId action =>
    some (orders, some (failureResult copyId (ofString "unsupported action: " ++ action)))

end

end Mt4

/-! ### The link -/

/-- The backend and the EA: the responses on their way, the orders of the terminal, and the results that
have not left the EA for good. -/
structure Mt4Link (Number : Type) where
  backend : Config
  onTheWay : List Text := []
  orders : Mt4.Orders Number := []
  results : List Text := []

inductive Mt4Action
  | backend (action : Action)
  /-- The response at the position arrives, and is executed. -/
  | receive (i : ℕ) (market : Mt4.Market) (reply : Mt4.BrokerReply)
  /-- It is lost. -/
  | lose (i : ℕ)
  /-- The result at the position reaches the backend, for the first time or again. -/
  | post (i : ℕ) (connectorId : Uuid)
  /-- It is not posted any more. -/
  | settle (i : ℕ)
  deriving DecidableEq

namespace Mt4Link

variable {Number : Type} [DecidableEq Number]

/-- The responses of the backend's polls, as they are sent. -/
def responses (doubles : Doubles Number) (uuids : UuidTexts) (slaveId : Uuid) (w w' : World) :
    List Text :=
  (PollingEa.responsesSince slaveId w w').map fun instruction =>
    (instruction.toBody doubles uuids.text).stringify doubles

def step (doubles : Doubles Number) (errorDescription : ℕ → String) (uuids : UuidTexts)
    (slaveId : Uuid) (link : Mt4Link Number) : Mt4Action → Option (Mt4Link Number)
  | .backend action =>
    (Backend.step link.backend action).map fun backend =>
      { link with
        backend := backend
        onTheWay := link.onTheWay ++
          responses doubles uuids slaveId link.backend.shared backend.shared }
  | .receive i market reply =>
    link.onTheWay[i]?.bind fun response =>
      (Mt4.execute doubles errorDescription link.orders market reply
          (pollForInstruction doubles response)).map fun (orders, result) =>
        { link with
          onTheWay := link.onTheWay.eraseIdx i
          orders := orders
          results := link.results ++ result.toList }
  | .lose i =>
    link.onTheWay[i]?.map fun _ => { link with onTheWay := link.onTheWay.eraseIdx i }
  | .post i connectorId =>
    link.results[i]?.bind fun body =>
      let stimulus := .executionResult slaveId connectorId (ExecutionResult.ofBody uuids body)
      (Backend.step link.backend (.arrive stimulus)).map fun backend => { link with backend := backend }
  | .settle i =>
    link.results[i]?.map fun _ => { link with results := link.results.eraseIdx i }

end Mt4Link

end ForexCopy
