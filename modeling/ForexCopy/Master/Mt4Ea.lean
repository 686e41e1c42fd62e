import ForexCopy.Master.TradeEventCall

/-!
# The MT4 master

`connectors/master-ea-mt4/ForexCopyMasterEA.mq4`: on a timer the open and pending orders are compared
with those of the scan before. A `Terminal` is what one call reads of the platform: the orders of its
pool in the order of their positions, as far as `OrderSelect` selects them, and its history. The
heartbeat is left out.
-/

namespace ForexCopy.Mt4

/-- `other` is a type that is neither that of a market position nor that of a pending order. -/
inductive OrderType
  | buy | sell | buyLimit | sellLimit | buyStop | sellStop | other
  deriving DecidableEq, Repr

def OrderType.IsMarket (type : OrderType) : Prop := type = .buy ∨ type = .sell

instance (type : OrderType) : Decidable type.IsMarket := inferInstanceAs (Decidable (_ ∨ _))

/-- `IsPendingType`. -/
def OrderType.IsPending (type : OrderType) : Prop :=
  type = .buyLimit ∨ type = .sellLimit ∨ type = .buyStop ∨ type = .sellStop

instance (type : OrderType) : Decidable type.IsPending :=
  inferInstanceAs (Decidable (_ ∨ _ ∨ _ ∨ _))

def sideFromType (type : OrderType) : TradeSide :=
  if type = .buy ∨ type = .buyLimit ∨ type = .buyStop then .buy else .sell

structure OrderSnapshot where
  ticket : ℕ
  symbol : String
  type : OrderType
  lots : ℚ
  openPrice : ℚ
  sl : ℚ
  tp : ℚ
  deriving DecidableEq, Repr

structure HistoryOrder where
  ticket : ℕ
  lots : ℚ
  closePrice : ℚ
  closeTime : ℕ
  deriving DecidableEq, Repr

structure Terminal where
  orders : List OrderSnapshot := []
  history : List HistoryOrder := []
  deriving DecidableEq

def tolerance : ℚ := 1 / 10 ^ 7

def DoubleEquals (a b : ℚ) : Prop := |a - b| < tolerance

instance (a b : ℚ) : Decidable (DoubleEquals a b) := inferInstanceAs (Decidable (_ < _))

/-- The first entry with the ticket; the source returns its index, or -1. -/
def findByTicket (snapshot : List OrderSnapshot) (ticket : ℕ) : Option OrderSnapshot :=
  Table.lookup OrderSnapshot.ticket ticket snapshot

/-! ### The snapshots a scan takes -/

/-- The first array that `BuildCurrentSnapshots` fills. -/
def Terminal.openOrders (terminal : Terminal) : List OrderSnapshot :=
  terminal.orders.filter fun order => order.type.IsMarket

/-- The second one. -/
def Terminal.pendingOrders (terminal : Terminal) : List OrderSnapshot :=
  terminal.orders.filter fun order => ¬order.type.IsMarket ∧ order.type.IsPending

/-- `OrderSelect` by ticket finds a pool order first, and a pool order has no closing time. -/
def Terminal.findClosePrice (terminal : Terminal) (ticket : ℕ) : ℚ :=
  match findByTicket terminal.orders ticket with
  | some _ => 0
  | none =>
    match Table.lookup HistoryOrder.ticket ticket terminal.history with
    | none => 0
    | some order => if 0 < order.closeTime then order.closePrice else 0

/-- The last of the 25 most recent history entries with the ticket and the volume. -/
def Terminal.findPartialClosePrice (terminal : Terminal) (ticket : ℕ) (closedVolume : ℚ) : ℚ :=
  let recent := terminal.history.drop (terminal.history.length - 25)
  let found := recent.reverse.find? fun order =>
    order.ticket = ticket ∧ DoubleEquals order.lots closedVolume
  (found.map HistoryOrder.closePrice).getD 0

/-! ### The EA -/

/-- The globals of the EA, and a log of what it has sent. -/
structure MasterEa where
  accountLogin : ℕ
  eventSeq : BitVec 32 := 0
  openSnapshot : List OrderSnapshot := []
  pendingSnapshot : List OrderSnapshot := []
  sent : List TradeEventCall := []
  deriving DecidableEq

namespace MasterEa

/-- Attach the EA: the globals are initialised, the account's orders are the baseline. -/
def onInit (accountLogin : ℕ) (terminal : Terminal) : MasterEa where
  accountLogin := accountLogin
  openSnapshot := terminal.openOrders
  pendingSnapshot := terminal.pendingOrders

/-- Attach it again after it has sent what it has sent. -/
def restart (ea : MasterEa) (terminal : Terminal) : MasterEa :=
  { onInit ea.accountLogin terminal with sent := ea.sent }

/-- Send an event whose id ends in the order's ticket. -/
def sendTradeEvent (ea : MasterEa) (kind : String) (type : TradeEventType) (o : OrderSnapshot)
    (volume price sl tp : ℚ) : MasterEa :=
  { ea with
    sent := ea.sent ++ [{
      eventId := ticketEventId kind ea.accountLogin o.ticket
      type := type
      symbol := o.symbol
      side := some (sideFromType o.type)
      volume := volume
      price := price
      sl := sl
      tp := tp
      masterTicket := toString o.ticket }] }

/-- Increment `g_eventSeq` and send an event whose id ends in it. -/
def sendCountedEvent (ea : MasterEa) (kind : String) (type : TradeEventType) (o : OrderSnapshot)
    (volume price sl tp : ℚ) : MasterEa :=
  { ea with
    eventSeq := ea.eventSeq + 1
    sent := ea.sent ++ [{
      eventId := countedEventId kind ea.accountLogin o.ticket (ea.eventSeq + 1)
      type := type
      symbol := o.symbol
      side := some (sideFromType o.type)
      volume := volume
      price := price
      sl := sl
      tp := tp
      masterTicket := toString o.ticket }] }

def sendOpenEvent (ea : MasterEa) (o : OrderSnapshot) : MasterEa :=
  ea.sendTradeEvent "OPEN" .open o o.lots o.openPrice o.sl o.tp

def sendModifyEvent (ea : MasterEa) (o : OrderSnapshot) : MasterEa :=
  ea.sendCountedEvent "MODIFY" .modify o o.lots 0 o.sl o.tp

def sendPartialCloseEvent (ea : MasterEa) (terminal : Terminal) (o : OrderSnapshot)
    (closedVolume : ℚ) : MasterEa :=
  ea.sendCountedEvent "PARTIAL" .partialClose o closedVolume
    (terminal.findPartialClosePrice o.ticket closedVolume) 0 0

def sendCloseEvent (ea : MasterEa) (terminal : Terminal) (o : OrderSnapshot) : MasterEa :=
  ea.sendTradeEvent "CLOSE" .close o o.lots (terminal.findClosePrice o.ticket) 0 0

def sendPendingOpenEvent (ea : MasterEa) (o : OrderSnapshot) : MasterEa :=
  ea.sendTradeEvent "PENDING" .pendingOpen o o.lots o.openPrice o.sl o.tp

def sendPendingModifyEvent (ea : MasterEa) (o : OrderSnapshot) : MasterEa :=
  ea.sendCountedEvent "PENDINGMOD" .pendingModify o o.lots o.openPrice o.sl o.tp

def sendPendingCancelEvent (ea : MasterEa) (o : OrderSnapshot) : MasterEa :=
  ea.sendTradeEvent "PENDINGDEL" .pendingCancel o 0 o.openPrice o.sl o.tp

/-! `DetectOpenChanges` and `DetectPendingChanges` are two passes each: one over the current orders,
then one over those of the scan before. -/

def detectOpen (terminal : Terminal) (ea : MasterEa) (order : OrderSnapshot) : MasterEa :=
  match findByTicket ea.openSnapshot order.ticket with
  | none => ea.sendOpenEvent order
  | some prev =>
    if order.lots < prev.lots - tolerance then
      ea.sendPartialCloseEvent terminal order (prev.lots - order.lots)
    else if ¬DoubleEquals order.sl prev.sl ∨ ¬DoubleEquals order.tp prev.tp then
      ea.sendModifyEvent order
    else
      ea

def detectClosed (terminal : Terminal) (current : List OrderSnapshot) (ea : MasterEa)
    (prev : OrderSnapshot) : MasterEa :=
  if findByTicket current prev.ticket = none then ea.sendCloseEvent terminal prev else ea

def detectOpenChanges (ea : MasterEa) (terminal : Terminal) (current : List OrderSnapshot) :
    MasterEa :=
  ea.openSnapshot.foldl (detectClosed terminal current) (current.foldl (detectOpen terminal) ea)

def detectPending (ea : MasterEa) (order : OrderSnapshot) : MasterEa :=
  match findByTicket ea.pendingSnapshot order.ticket with
  | none => ea.sendPendingOpenEvent order
  | some prev =>
    if ¬DoubleEquals order.openPrice prev.openPrice ∨ ¬DoubleEquals order.sl prev.sl ∨
        ¬DoubleEquals order.tp prev.tp then
      ea.sendPendingModifyEvent order
    else
      ea

def detectCancelled (current currentOpen : List OrderSnapshot) (ea : MasterEa) (prev : OrderSnapshot) :
    MasterEa :=
  if findByTicket current prev.ticket ≠ none then
    ea
  else if findByTicket currentOpen prev.ticket ≠ none then
    ea -- it triggered, and `detectOpenChanges` has sent an OPEN for it
  else
    ea.sendPendingCancelEvent prev

def detectPendingChanges (ea : MasterEa) (current currentOpen : List OrderSnapshot) : MasterEa :=
  ea.pendingSnapshot.foldl (detectCancelled current currentOpen) (current.foldl detectPending ea)

def scanAndDetect (ea : MasterEa) (terminal : Terminal) : MasterEa :=
  let currentOpen := terminal.openOrders
  let currentPending := terminal.pendingOrders
  let detected :=
    (ea.detectOpenChanges terminal currentOpen).detectPendingChanges currentPending currentOpen
  { detected with openSnapshot := currentOpen, pendingSnapshot := currentPending }

end MasterEa

/-- What happens to an attached EA: a timer tick, or that it is attached anew. -/
inductive Signal
  | timer (terminal : Terminal)
  | restart (terminal : Terminal)
  deriving DecidableEq

def MasterEa.handle (ea : MasterEa) : Signal → MasterEa
  | .timer terminal => ea.scanAndDetect terminal
  | .restart terminal => ea.restart terminal

namespace Sample

/-- An open order, for runs that can be computed. -/
def order : OrderSnapshot := ⟨1001, "EURUSD", .buy, 2, 11 / 10, 105 / 100, 0⟩

end Sample

end ForexCopy.Mt4
