import ForexCopy.Backend.Gateway
import ForexCopy.Backend.System

/-!
# Broadcasts to the dashboards

`broadcastCopyOrder` of `modules/copy-engine/copyEngine.ts`, which the copy engine and the polling
transport call where they go on after an awaited operation, and the sockets of
`modules/realtime/adminWsGateway.ts`. The time stamp of a broadcast is left out, as the creation times
of the rows are.
-/

namespace ForexCopy

structure CopyOrderBroadcast where
  copyId : Uuid
  masterId : Uuid
  slaveId : Uuid
  masterTicket : String
  type : TradeEventType
  status : CopyOrderStatus
  symbol : String
  side : Option TradeSide := none
  volume : Option ℚ := none
  slaveTicket : Option String := none
  executionPrice : Option ℚ := none
  errorReason : Option String := none
  deriving DecidableEq, Repr

/-! ### `broadcastCopyOrder` -/

/-- What a run of `copyToSlave` whose row exists still has at hand for its broadcasts. -/
structure CopyLocals where
  copyId : Uuid
  volume : Option ℚ
  slaveTicket : Option String
  deriving DecidableEq, Repr

/-- The variables of a run that goes on from its insert. -/
def Task.locals (reply : Reply) (w : World) : Task → Option CopyLocals
  | .copy run (.createOrder _ slaveTicket volume) =>
    if reply.Resolves ∧ (w.createOrder (run.pendingOrder w.nextCopyId volume)).isSome then
      some ⟨w.nextCopyId, volume, slaveTicket⟩
    else
      none
  | _ => none

def keptVolume (copyId : Uuid) (locals : List CopyLocals) : Option ℚ :=
  (Table.lookup CopyLocals.copyId copyId locals).bind CopyLocals.volume

def keptTicket (copyId : Uuid) (locals : List CopyLocals) : Option String :=
  (Table.lookup CopyLocals.copyId copyId locals).bind CopyLocals.slaveTicket

/-- The parameters that every broadcast of a run has. -/
def CopyRun.broadcast (run : CopyRun) (copyId : Uuid) (status : CopyOrderStatus) :
    CopyOrderBroadcast where
  copyId := copyId
  masterId := run.event.masterId
  slaveId := run.slave.id
  masterTicket := run.event.masterTicket
  type := run.event.type
  status := status
  symbol := run.event.symbol
  side := run.event.side

/-- The parameters that every broadcast about a row found in the table has. Symbol and side come with
the row, from the trade event that it requires. -/
def CopyOrder.broadcast (order : CopyOrder) (w : World) (slaveId : Uuid) (status : CopyOrderStatus) :
    CopyOrderBroadcast :=
  let tradeEvent := Table.lookup TradeEvent.id order.tradeEventId w.tradeEvents
  { copyId := order.id
    masterId := order.masterId
    slaveId := slaveId
    masterTicket := order.masterTicket
    type := order.type
    status := status
    symbol := (tradeEvent.map TradeEvent.symbol).getD ""
    side := tradeEvent.bind TradeEvent.side }

/-- What a call broadcasts when its operation has resolved. -/
def Task.resolvedBroadcast (w : World) (locals : List CopyLocals) : Task → Option CopyOrderBroadcast
  | .copy run (.failOrder reason requestedVolume) =>
    if (w.createOrder (run.failedOrder w.nextCopyId reason requestedVolume)).isSome then
      some { run.broadcast w.nextCopyId .failed with
        volume := requestedVolume, errorReason := some reason }
    else
      none
  | .copy run (.findConnector copyId) =>
    if w.hasOnlineConnector run.slave.id then
      some { run.broadcast copyId .pending with
        volume := keptVolume copyId locals, slaveTicket := keptTicket copyId locals }
    else
      none
  | .copy run (.markOffline copyId) =>
    some { run.broadcast copyId .failed with
      volume := keptVolume copyId locals, errorReason := some "SLAVE_OFFLINE" }
  | .copy run (.markSent copyId sent) =>
    some { run.broadcast copyId (if sent then .sent else .failed) with
      volume := keptVolume copyId locals
      slaveTicket := keptTicket copyId locals
      errorReason := if sent then none else some "SEND_FAILED" }
  | .message slaveId result (.record order) =>
    some { order.broadcast w slaveId result.status.toCopyOrderStatus with
      volume := order.requestedVolume.map Decimal.toNumber
      slaveTicket := result.slaveTicket <|> order.slaveTicket
      executionPrice := result.executionPrice
      errorReason := result.reason }
  | .poll slaveId (.markFailed order) =>
    some { order.broadcast w slaveId .failed with errorReason := some "NO_MATCHING_OPEN_COPY" }
  -- The handler still has the row it found; its columns that a broadcast shows are never written.
  | .poll slaveId (.markSent instruction) =>
    (Table.lookup CopyOrder.id instruction.copyId w.copyOrders).map fun order =>
      { order.broadcast w slaveId .sent with
        volume := instruction.volume, slaveTicket := instruction.slaveTicket }
  | _ => none

/-- A call whose operation rejects does not get to its broadcast. -/
def Task.broadcast (reply : Reply) (w : World) (locals : List CopyLocals) (task : Task) :
    Option CopyOrderBroadcast :=
  if reply.Resolves then task.resolvedBroadcast w locals else none

/-! ### `broadcastToAdmins` -/

/-- A socket of a dashboard, and what was written to it. -/
structure AdminSocket where
  state : ReadyState := .open
  written : List CopyOrderBroadcast := []
  deriving DecidableEq, Repr

/-- The sockets upgraded so far, a socket being its place among them, and the set `adminSockets`. -/
structure AdminGateway where
  sockets : List AdminSocket := []
  adminSockets : List ℕ := []
  deriving DecidableEq, Repr

namespace AdminGateway

def broadcastToAdmins (gateway : AdminGateway) (payload : CopyOrderBroadcast) : AdminGateway :=
  { gateway with
    sockets := gateway.sockets.mapIdx fun i socket =>
      if i ∈ gateway.adminSockets ∧ socket.state = .open then
        { socket with written := socket.written ++ [payload] }
      else
        socket }

/-- The handler of `/ws/admin`, for a new socket. -/
def register (gateway : AdminGateway) : AdminGateway where
  sockets := gateway.sockets ++ [{}]
  adminSockets := gateway.adminSockets ++ [gateway.sockets.length]

/-- The state of a socket goes on, at either side. -/
def advance (gateway : AdminGateway) (i : ℕ) (state : ReadyState) : Option AdminGateway :=
  (gateway.sockets[i]?).bind fun socket =>
    if socket.state.toNumber < state.toNumber then
      some { gateway with sockets := gateway.sockets.set i { socket with state := state } }
    else
      none

/-- The listener of the close event. -/
def closed (gateway : AdminGateway) (i : ℕ) : Option AdminGateway :=
  (gateway.sockets[i]?).bind fun socket =>
    if socket.state = .closed then
      some { gateway with adminSockets := gateway.adminSockets.filter (· ≠ i) }
    else
      none

def IsOpen (gateway : AdminGateway) (i : ℕ) : Prop :=
  (gateway.sockets[i]?).map AdminSocket.state = some .open

instance (gateway : AdminGateway) (i : ℕ) : Decidable (gateway.IsOpen i) :=
  inferInstanceAs (Decidable (_ = _))

/-- What was written to a socket. -/
def written (gateway : AdminGateway) (i : ℕ) : List CopyOrderBroadcast :=
  ((gateway.sockets[i]?).map AdminSocket.written).getD []

end AdminGateway

end ForexCopy
