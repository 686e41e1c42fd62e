import ForexCopy.Master.TradeEventCall

/-!
# The MT5 master

`connectors/master-ea/ForexCopyMasterEA.mq5`: the platform calls the EA for every trade transaction,
and the EA looks up the deal, the order or the position it names. A `Terminal` is what one such call
reads of the platform. The heartbeat is left out.
-/

namespace ForexCopy.Mt5

inductive DealType
  | buy | sell | other
  deriving DecidableEq, Repr

inductive DealEntry
  | «in» | out | outBy | inOut
  deriving DecidableEq, Repr

inductive OrderType
  | buy | sell | buyLimit | sellLimit | buyStop | sellStop | buyStopLimit | sellStopLimit | closeBy
  deriving DecidableEq, Repr

/-- The defaults are what the platform returns for a deal it does not find. -/
structure Deal where
  ticket : ℕ := 0
  type : DealType := .buy
  entry : DealEntry := .in
  symbol : String := ""
  volume : ℚ := 0
  price : ℚ := 0
  positionId : ℕ := 0
  deriving DecidableEq

structure Position where
  ticket : ℕ
  side : TradeSide
  symbol : String
  volume : ℚ
  sl : ℚ
  tp : ℚ
  deriving DecidableEq

structure Order where
  ticket : ℕ
  type : OrderType
  symbol : String
  priceOpen : ℚ
  sl : ℚ
  tp : ℚ
  volumeCurrent : ℚ
  deriving DecidableEq

structure Terminal where
  deals : List Deal := []
  positions : List Position := []
  orders : List Order := []
  historyOrders : List Order := []
  deriving DecidableEq

def Terminal.deal (terminal : Terminal) (ticket : ℕ) : Deal :=
  (Table.lookup Deal.ticket ticket terminal.deals).getD {}

/-- `PositionSelectByTicket`. -/
def Terminal.position (terminal : Terminal) (ticket : ℕ) : Option Position :=
  Table.lookup Position.ticket ticket terminal.positions

/-- Closing deals execute in the opposite direction of the position. -/
def sideFromDealType (dealType : DealType) (entry : DealEntry) : TradeSide :=
  if entry = .in then (if dealType = .buy then .buy else .sell)
  else (if dealType = .buy then .sell else .buy)

/-- `IsPendingOrderType`. -/
def OrderType.IsPending (type : OrderType) : Prop :=
  type = .buyLimit ∨ type = .sellLimit ∨ type = .buyStop ∨ type = .sellStop ∨
    type = .buyStopLimit ∨ type = .sellStopLimit

instance (type : OrderType) : Decidable type.IsPending :=
  inferInstanceAs (Decidable (_ ∨ _ ∨ _ ∨ _ ∨ _ ∨ _))

def sideFromOrderType (type : OrderType) : TradeSide :=
  if type = .buyLimit ∨ type = .buyStop ∨ type = .buyStopLimit then .buy else .sell

/-- The globals of the EA, and a log of what it has sent. -/
structure MasterEa where
  accountLogin : ℕ
  eventSeq : BitVec 32 := 0
  sent : List TradeEventCall := []
  deriving DecidableEq

inductive Transaction
  | dealAdd (deal : ℕ)
  | orderAdd (order : ℕ)
  | orderUpdate (order : ℕ)
  | orderDelete (order : ℕ)
  | position (position : ℕ)
  /-- The types that the EA ignores. -/
  | other
  deriving DecidableEq

namespace MasterEa

/-- Attach the EA: the globals are initialised. -/
def onInit (accountLogin : ℕ) : MasterEa := { accountLogin := accountLogin }

/-- Attach it again after it has sent what it has sent. -/
def restart (ea : MasterEa) : MasterEa := { onInit ea.accountLogin with sent := ea.sent }

def sendTradeEvent (ea : MasterEa) (call : TradeEventCall) : MasterEa :=
  { ea with sent := ea.sent ++ [call] }

def handleDealAdd (ea : MasterEa) (terminal : Terminal) (dealTicket : ℕ) : MasterEa :=
  let deal := terminal.deal dealTicket
  let side := sideFromDealType deal.type deal.entry
  let eventId := ticketEventId "DEAL" ea.accountLogin dealTicket
  if deal.type ≠ .buy ∧ deal.type ≠ .sell then
    ea
  else
    match deal.entry with
    | .in =>
      let position := terminal.position deal.positionId
      ea.sendTradeEvent ⟨eventId, .open, deal.symbol, some side, deal.volume, deal.price,
        (position.map Position.sl).getD 0, (position.map Position.tp).getD 0,
        toString deal.positionId⟩
    | .out | .outBy =>
      let type := if (terminal.position deal.positionId).isSome then .partialClose else .close
      ea.sendTradeEvent ⟨eventId, type, deal.symbol, some side, deal.volume, deal.price, 0, 0,
        toString deal.positionId⟩
    | .inOut => ea

def handleOrderAddOrUpdate (ea : MasterEa) (terminal : Terminal) (orderTicket : ℕ)
    (eventType : TradeEventType) : MasterEa :=
  match Table.lookup Order.ticket orderTicket terminal.orders with
  | none => ea
  | some order =>
    if ¬order.type.IsPending then
      ea
    else
      let eventId := countedEventId "ORDER" ea.accountLogin orderTicket (ea.eventSeq + 1)
      { ea with eventSeq := ea.eventSeq + 1 }.sendTradeEvent
        ⟨eventId, eventType, order.symbol, some (sideFromOrderType order.type), order.volumeCurrent,
          order.priceOpen, order.sl, order.tp, toString orderTicket⟩

def handleOrderDelete (ea : MasterEa) (terminal : Terminal) (orderTicket : ℕ) : MasterEa :=
  let eventId := ticketEventId "ORDERDEL" ea.accountLogin orderTicket
  match Table.lookup Order.ticket orderTicket terminal.historyOrders with
  | none =>
    ea.sendTradeEvent ⟨eventId, .pendingCancel, "", none, 0, 0, 0, 0, toString orderTicket⟩
  | some order =>
    ea.sendTradeEvent ⟨eventId, .pendingCancel, order.symbol, some (sideFromOrderType order.type), 0,
      order.priceOpen, order.sl, order.tp, toString orderTicket⟩

def handlePositionModify (ea : MasterEa) (terminal : Terminal) (positionTicket : ℕ) : MasterEa :=
  match terminal.position positionTicket with
  | none => ea
  | some position =>
    let eventId := countedEventId "POS" ea.accountLogin positionTicket (ea.eventSeq + 1)
    { ea with eventSeq := ea.eventSeq + 1 }.sendTradeEvent
      ⟨eventId, .modify, position.symbol, some position.side, position.volume, 0, position.sl,
        position.tp, toString positionTicket⟩

def onTradeTransaction (ea : MasterEa) (terminal : Terminal) : Transaction → MasterEa
  | .dealAdd deal => ea.handleDealAdd terminal deal
  | .orderAdd order => ea.handleOrderAddOrUpdate terminal order .pendingOpen
  | .orderUpdate order => ea.handleOrderAddOrUpdate terminal order .pendingModify
  | .orderDelete order => ea.handleOrderDelete terminal order
  | .position position => ea.handlePositionModify terminal position
  | .other => ea

end MasterEa

/-- What happens to an attached EA: a trade transaction, or that it is attached anew. -/
inductive Signal
  | transaction (terminal : Terminal) (transaction : Transaction)
  | restart
  deriving DecidableEq

def MasterEa.handle (ea : MasterEa) : Signal → MasterEa
  | .transaction terminal transaction => ea.onTradeTransaction terminal transaction
  | .restart => ea.restart

end ForexCopy.Mt5
