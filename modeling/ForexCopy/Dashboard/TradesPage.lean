import ForexCopy.Dashboard.Broadcasts
import ForexCopy.Library.ChangeFeed

/-!
# The Live Trades page

`GET /api/copy-orders` of `modules/dashboard/copyOrder.routes.ts` and the page of
`pages/TradesPage.tsx`, which loads it once and follows the feed of `lib/ws.ts` from then on, over the
backend that makes the broadcasts. Names of accounts and the text forms of numbers and times are left
out, and the order of the rows stands for their creation times.
-/

namespace ForexCopy

/-- A row of the page. A row that came with the feed does not know its trade event. -/
structure TradeRow where
  id : Uuid
  tradeEventId : Option Uuid
  masterId : Uuid
  slaveId : Uuid
  masterTicket : String
  type : TradeEventType
  status : CopyOrderStatus
  requestedVolume : Option ℚ
  slaveTicket : Option String
  executionPrice : Option ℚ
  errorReason : Option String
  sentAt : Option DateTime
  executedAt : Option DateTime
  symbol : Option String
  side : Option TradeSide
  deriving DecidableEq, Repr

/-! ### The initial load -/

def DEFAULT_LIMIT : ℕ := 100

def MAX_LIMIT : ℕ := 500

/-- A copy order as the route sends it, with symbol and side of its trade event. -/
def CopyOrder.tradeRow (order : CopyOrder) (w : World) : TradeRow :=
  let tradeEvent := Table.lookup TradeEvent.id order.tradeEventId w.tradeEvents
  { id := order.id
    tradeEventId := some order.tradeEventId
    masterId := order.masterId
    slaveId := order.slaveId
    masterTicket := order.masterTicket
    type := order.type
    status := order.status
    requestedVolume := order.requestedVolume.map Decimal.value
    slaveTicket := order.slaveTicket
    executionPrice := order.executionPrice.map SignedDecimal.value
    errorReason := order.errorReason
    sentAt := order.sentAt
    executedAt := order.executedAt
    symbol := tradeEvent.map TradeEvent.symbol
    side := tradeEvent.bind TradeEvent.side }

/-- The number of rows a request gets. A limit of zero counts as none. -/
def rowsToTake (limit : Option ℕ) : ℕ :=
  min ((limit.filter (· ≠ 0)).getD DEFAULT_LIMIT) MAX_LIMIT

/-- The newest copy orders first, of one master or one slave where the request names one. -/
def World.listCopyOrders (w : World) (masterId slaveId : Option Uuid) (limit : Option ℕ) :
    List TradeRow :=
  let wanted := w.copyOrders.filter fun order =>
    (∀ id ∈ masterId, order.masterId = id) ∧ ∀ id ∈ slaveId, order.slaveId = id
  ((wanted.reverse.take (rowsToTake limit)).map fun order => order.tradeRow w)

/-! ### The page -/

def MAX_ROWS : ℕ := 200

/-- The row that an event makes of the one that is there for its copy order. -/
def TradeRow.merged (event : CopyOrderBroadcast) (existing : Option TradeRow) : TradeRow where
  id := event.copyId
  tradeEventId := existing.bind TradeRow.tradeEventId
  masterId := event.masterId
  slaveId := event.slaveId
  masterTicket := event.masterTicket
  type := event.type
  status := event.status
  requestedVolume := event.volume <|> existing.bind TradeRow.requestedVolume
  slaveTicket := event.slaveTicket <|> existing.bind TradeRow.slaveTicket
  executionPrice := event.executionPrice <|> existing.bind TradeRow.executionPrice
  errorReason := event.errorReason
  sentAt := existing.bind TradeRow.sentAt
  executedAt := existing.bind TradeRow.executedAt
  symbol := some event.symbol
  side := event.side

/-- How far the request of the initial load is. -/
inductive PageLoad
  | requested
  | answered (rows : List TradeRow)
  | settled
  deriving DecidableEq, Repr

/-- The page, its current socket and how many of the messages written to it were handled. -/
structure TradesPage where
  rows : List TradeRow := []
  load : PageLoad := .requested
  socket : Option ℕ := none
  received : ℕ := 0
  deriving DecidableEq, Repr

namespace TradesPage

/-- The listener of the feed. -/
def onEvent (page : TradesPage) (event : CopyOrderBroadcast) : TradesPage :=
  { page with
    rows := ChangeFeed.upsert TradeRow.id MAX_ROWS event.copyId (TradeRow.merged event) page.rows }

/-- The response arrives, whatever the page shows by then. -/
def loadInitial (page : TradesPage) : Option TradesPage :=
  match page.load with
  | .answered rows => some { page with rows := rows, load := .settled }
  | .requested | .settled => none

end TradesPage

/-! ### The machine -/

/-- The backend, the broadcasts that are due, those that were made, and a page that follows them. -/
structure LiveTrades where
  backend : Config
  locals : List CopyLocals := []
  due : List CopyOrderBroadcast := []
  broadcasts : List CopyOrderBroadcast := []
  gateway : AdminGateway := {}
  page : TradesPage := {}

inductive LiveAction
  | backend (action : Action)
  /-- A call whose operation has resolved goes on, and broadcasts. The database may answer two calls
  in the other order than it served them. -/
  | announce (i : ℕ)
  /-- Another dashboard connects. -/
  | connect
  | advance (socket : ℕ) (state : ReadyState)
  | closed (socket : ℕ)
  /-- The page opens a socket, at first or again. -/
  | open
  /-- The close event of the page's own socket. -/
  | onclose
  /-- The next message on the page's socket is handled. -/
  | onmessage
  /-- The route answers the page's request. -/
  | serve
  | loadInitial
  | loadFails
  deriving DecidableEq

namespace LiveTrades

/-- The call that an action lets go on, and how its operation has settled. -/
def resumed (s : LiveTrades) : Action → Option (Task × Reply)
  | .resume i reply => (s.backend.tasks[i]?).map fun task => (task, reply)
  | .arrive _ => none

/-- What the page has still to handle. -/
def incoming (s : LiveTrades) : List CopyOrderBroadcast :=
  match s.page.socket with
  | none => []
  | some i => (s.gateway.written i).drop s.page.received

def act (s : LiveTrades) (action : Action) : Option LiveTrades :=
  (Backend.step s.backend action).map fun backend =>
    let resumed := s.resumed action
    { s with
      backend := backend
      locals := s.locals ++
        (resumed.bind fun (task, reply) => task.locals reply s.backend.shared).toList
      due := s.due ++
        (resumed.bind fun (task, reply) => task.broadcast reply s.backend.shared s.locals).toList }

def announce (s : LiveTrades) (i : ℕ) : Option LiveTrades :=
  (s.due[i]?).map fun broadcast =>
    { s with
      due := s.due.eraseIdx i
      broadcasts := s.broadcasts ++ [broadcast]
      gateway := s.gateway.broadcastToAdmins broadcast }

def step (s : LiveTrades) : LiveAction → Option LiveTrades
  | .backend action => s.act action
  | .announce i => s.announce i
  | .connect => some { s with gateway := s.gateway.register }
  | .advance i state => (s.gateway.advance i state).map fun gateway => { s with gateway := gateway }
  | .closed i => (s.gateway.closed i).map fun gateway => { s with gateway := gateway }
  | .open =>
    match s.page.socket with
    | none =>
      some { s with
        gateway := s.gateway.register
        page := { s.page with socket := some s.gateway.sockets.length, received := 0 } }
    | some _ => none
  | .onclose =>
    match s.page.socket with
    | none => none
    | some i =>
      if (s.gateway.sockets[i]?).map AdminSocket.state = some .closed then
        some { s with page := { s.page with socket := none } }
      else
        none
  | .onmessage =>
    match s.incoming with
    | [] => none
    | event :: _ =>
      some { s with page := { s.page.onEvent event with received := s.page.received + 1 } }
  | .serve =>
    match s.page.load with
    | .requested =>
      some { s with
        page := { s.page with
          load := .answered (s.backend.shared.listCopyOrders none none (some 100)) } }
    | .answered _ | .settled => none
  | .loadInitial => s.page.loadInitial.map fun page => { s with page := page }
  | .loadFails =>
    match s.page.load with
    | .requested | .answered _ => some { s with page := { s.page with load := .settled } }
    | .settled => none

/-- A backend with nothing under way, and a dashboard that is yet to be opened. -/
def start (w : World) : LiveTrades := { backend := ⟨w, []⟩ }

end LiveTrades

/-! ### A page that is open while a trade is copied -/

namespace Sample

def trading : World := (config mt5Slave [openEvent]).shared

/-- The page loads, an order is opened and pushed, and the slave reports that it is executed. -/
def watched : List LiveAction :=
  [.open, .serve, .loadInitial] ++
    (.arrive (.masterEvent openEvent) :: settle 8).map .backend ++ [.announce 0, .onmessage] ++
    (reported 1 "555").map .backend ++ [.announce 0, .onmessage]

end Sample

end ForexCopy
