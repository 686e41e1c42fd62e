import ForexCopy.Backend.Schema

/-!
# What the copy orders say is open

`modules/copy-engine/copyOrderQueries.ts`. The queries are functions of the table, whose rows stand in
the order they were created. `getCopyOrderPositions` makes two queries, which a caller that runs
beside others may see at two different times, so what it makes of their answers is a function of its
own. Neither query asks for an order, and a sum of doubles depends on it.
-/

namespace ForexCopy

structure OpenCopyOrderInfo where
  id : Uuid
  masterTicket : String
  slaveTicket : Option String
  requestedVolume : Option ℚ
  tradeEventId : Uuid
  deriving DecidableEq, Repr

structure ClosedCopyOrderInfo where
  masterTicket : String
  slaveTicket : Option String
  deriving DecidableEq, Repr

structure CopyOrderPositions where
  «open» : List OpenCopyOrderInfo
  closed : List ClosedCopyOrderInfo
  deriving DecidableEq, Repr

structure OpenPositionsSummary where
  count : ℕ
  totalVolume : ℚ
  deriving DecidableEq, Repr

def executedOrders (slaveId : Uuid) (type : TradeEventType) (orders : List CopyOrder) :
    List CopyOrder :=
  orders.filter fun order =>
    order.slaveId = slaveId ∧ order.type = type ∧ order.status = .executed

def CopyOrder.openInfo (order : CopyOrder) : OpenCopyOrderInfo where
  id := order.id
  masterTicket := order.masterTicket
  slaveTicket := order.slaveTicket
  requestedVolume := order.requestedVolume.map Decimal.toNumber
  tradeEventId := order.tradeEventId

def CopyOrder.closedInfo (order : CopyOrder) : ClosedCopyOrderInfo where
  masterTicket := order.masterTicket
  slaveTicket := order.slaveTicket

/-- The opens whose master ticket is not among those of the closes. -/
def stillOpen (opens closes : List CopyOrder) : List CopyOrder :=
  opens.filter fun order => order.masterTicket ∉ closes.map CopyOrder.masterTicket

def copyOrderPositions (opens closes : List CopyOrder) : CopyOrderPositions where
  «open» := (stillOpen opens closes).map CopyOrder.openInfo
  closed := closes.map CopyOrder.closedInfo

def getCopyOrderPositions (slaveId : Uuid) (orders : List CopyOrder) : CopyOrderPositions :=
  copyOrderPositions (executedOrders slaveId .open orders) (executedOrders slaveId .close orders)

def openPositionsSummary (positions : CopyOrderPositions) : OpenPositionsSummary where
  count := positions.open.length
  totalVolume := Arithmetic.double.sum (positions.open.map fun info => info.requestedVolume.getD 0)

def getOpenPositionsSummary (slaveId : Uuid) (orders : List CopyOrder) : OpenPositionsSummary :=
  openPositionsSummary (getCopyOrderPositions slaveId orders)

/-- The ticket of the most recent executed OPEN copy for the slave and the master ticket. -/
def findExecutedOpenSlaveTicket (slaveId : Uuid) (masterTicket : String) (orders : List CopyOrder) :
    Option String :=
  let priorOpen := orders.reverse.find? fun order =>
    order.slaveId = slaveId ∧ order.masterTicket = masterTicket ∧ order.type = .open ∧
      order.status = .executed
  priorOpen.bind CopyOrder.slaveTicket

/-- A ticket as a condition tests it: the empty one counts as none. -/
def truthy (ticket : Option String) : Option String := ticket.filter (· ≠ "")

theorem mem_executedOrders {slaveId : Uuid} {type : TradeEventType} {orders : List CopyOrder}
    {order : CopyOrder} :
    order ∈ executedOrders slaveId type orders ↔
      order ∈ orders ∧ order.slaveId = slaveId ∧ order.type = type ∧ order.status = .executed := by
  simp [executedOrders]

theorem mem_stillOpen {opens closes : List CopyOrder} {order : CopyOrder} :
    order ∈ stillOpen opens closes ↔
      order ∈ opens ∧ ∀ close ∈ closes, close.masterTicket ≠ order.masterTicket := by
  simp [stillOpen]

theorem findExecutedOpenSlaveTicket_eq_some {slaveId : Uuid} {masterTicket ticket : String}
    {orders : List CopyOrder}
    (h : findExecutedOpenSlaveTicket slaveId masterTicket orders = some ticket) :
    ∃ order ∈ orders, order.slaveId = slaveId ∧ order.masterTicket = masterTicket ∧
      order.type = .open ∧ order.status = .executed ∧ order.slaveTicket = some ticket := by
  obtain ⟨order, hfind, hticket⟩ := Option.bind_eq_some_iff.mp h
  have hmem := List.mem_of_find?_eq_some hfind
  have hprop := List.find?_some hfind
  simp only [decide_eq_true_eq] at hprop
  exact ⟨order, List.mem_reverse.mp hmem, hprop.1, hprop.2.1, hprop.2.2.1, hprop.2.2.2, hticket⟩

theorem truthy_eq_some {ticket : Option String} {found : String} :
    truthy ticket = some found ↔ ticket = some found ∧ found ≠ "" := by
  simp [truthy, Option.filter_eq_some_iff]

end ForexCopy
