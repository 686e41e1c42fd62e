import ForexCopy.Backend.Reconciliation
import ForexCopy.Backend.System

/-!
# The backend as its connectors meet it

The routes that take a connector's token and the socket of `modules/realtime/wsGateway.ts`, from the
header of a request on: `registerConnector` and `authenticateConnector` of
`modules/connectors/connector.service.ts`, and what each handler does once it knows whose token it was
given. A call carries the token it was started with, and so do the calls it leads to. A request that is
refused, or whose handler throws, ends without an answer of its own here: of the answers only the
200 to an execution result is kept.
-/

namespace ForexCopy

inductive ConnectorOwner
  | master (masterId : Uuid)
  | slave (slaveId : Uuid)
  deriving DecidableEq, Repr

inductive OwnerType
  | master | slave
  deriving DecidableEq, Repr

structure AuthenticatedConnector where
  connectorId : Uuid
  ownerType : OwnerType
  masterId : Option Uuid
  slaveId : Option Uuid
  deriving DecidableEq, Repr

namespace AuthenticatedConnector

/-- The slave, unless `auth.ownerType !== "SLAVE" || !auth.slaveId`. -/
def ownSlave (auth : AuthenticatedConnector) : Option Uuid :=
  if auth.ownerType = .slave then auth.slaveId else none

def ownMaster (auth : AuthenticatedConnector) : Option Uuid :=
  if auth.ownerType = .master then auth.masterId else none

end AuthenticatedConnector

/-- What `authenticateConnector` makes of the row it has found. -/
def Connector.authenticated (connector : Connector) : AuthenticatedConnector where
  connectorId := connector.id
  ownerType := if connector.masterId.isSome then .master else .slave
  masterId := connector.masterId
  slaveId := connector.slaveId

/-! ### Requests -/

/-- A body as a schema sees it: what it parses to, `none` when it is refused, and the fields the
schema does not know, which it strips. -/
structure Body (α : Type) where
  known : Option α
  others : List (String × String) := []
  deriving DecidableEq

/-- The account of a heartbeat, with the open positions if it reported them. -/
structure ReportedAccount extends AccountSnapshot where
  positions : Option (List SlavePositionInfo) := none
  deriving DecidableEq

structure HeartbeatBody where
  balance : Option ℚ := none
  equity : Option ℚ := none
  positions : Option (List SlavePositionInfo) := none
  deriving DecidableEq

namespace HeartbeatBody

def Valid (body : HeartbeatBody) : Prop :=
  (∀ balance ∈ body.balance, 0 ≤ balance) ∧
    ∀ positions ∈ body.positions, ∀ position ∈ positions,
      position.ticket ≠ "" ∧ position.symbol ≠ "" ∧ 0 ≤ position.volume

instance (body : HeartbeatBody) : Decidable body.Valid := inferInstanceAs (Decidable (_ ∧ _))

/-- The account, which a heartbeat reports only with both figures. -/
def accountInfo (body : HeartbeatBody) : Option ReportedAccount :=
  match body.balance, body.equity with
  | some balance, some equity =>
    some { balance := balance, equity := equity, positions := body.positions }
  | _, _ => none

/-- What the schema lets through of a heartbeat. -/
def parsed (heartbeat : Option HeartbeatBody) : Option HeartbeatBody :=
  heartbeat.filter fun body => body.Valid

end HeartbeatBody

inductive Request
  | tradeEvent (body : Body TradeEventPayload)
  | heartbeat (body : Body HeartbeatBody)
  | pendingInstruction
  | executionResult (body : Body ExecutionResult)
  /-- The upgrade of `/ws/slave`. -/
  | slaveSocket
  deriving DecidableEq

/-- What arrives on a slave's socket: no JSON, or a value that is tried as a heartbeat first and as an
execution result then. -/
inductive SocketMessage
  | malformed
  | json (heartbeat : Option HeartbeatBody) (result : Body ExecutionResult)
  deriving DecidableEq

/-- `authHeader?.startsWith("Bearer ") ? authHeader.slice(7) : undefined`, and not empty. -/
def bearerToken (authHeader : Option String) : Option String :=
  let token := authHeader.bind fun header =>
    if "Bearer ".toList.isPrefixOf header.toList then some (String.ofList (header.toList.drop 7))
    else none
  token.filter (· ≠ "")

/-! ### Calls -/

inductive AuthPoint
  | getCached
  | findConnector
  | setCached (auth : AuthenticatedConnector)
  deriving DecidableEq

/-- A suspended call of a route or of the gateway. `executionResult` is the handler of the polling
route awaiting `handleSlaveMessage`, a heartbeat is `recordHeartbeat` with the reported positions, and
the others are the backend's own calls. -/
inductive Work
  | authenticate (token : String) (request : Request) (point : AuthPoint)
  | heartbeat (connectorId : Uuid) (accountInfo : Option ReportedAccount) (time : DateTime)
      (point : HeartbeatPoint)
  | executionResult (slaveId : Uuid) (result : ExecutionResult) (point : MessagePoint)
  | backend (task : Task)
  deriving DecidableEq

/-- Work and the token it was started with, `none` for what the backend started by itself. -/
structure Call where
  token : Option String
  work : Work
  deriving DecidableEq

/-- An open socket of `/ws/slave`. -/
structure Session where
  id : ℕ
  token : String
  slaveId : Uuid
  connectorId : Uuid
  deriving DecidableEq, Repr

structure Registration where
  token : String
  connectorId : Uuid
  owner : ConnectorOwner
  deriving DecidableEq, Repr

/-- The world, the columns of its rows that only the connectors' routes use, the token cache and the
heartbeat keys in Redis, and the gateway's sockets. The last two are logs: the tokens handed out, and
the execution results of slaves that were answered 200. -/
structure Portal where
  world : World := {}
  masterSnapshots : List (Uuid × Snapshot) := []
  slaveSnapshots : List (Uuid × Snapshot) := []
  tokenHashes : List (Uuid × String) := []
  tokenCache : List (String × AuthenticatedConnector) := []
  heartbeatKeys : List (Uuid × DateTime) := []
  connections : List (Uuid × ℕ) := []
  sessions : List Session := []
  registered : List Registration := []
  acknowledged : List (Uuid × ExecutionResult) := []
  deriving DecidableEq

namespace Portal

/-! ### `registerConnector` -/

/-- The row of the master or slave that the route has looked up. -/
def ownerExists (w : World) : ConnectorOwner → Bool
  | .master masterId => w.masters.any fun master => master.id = masterId
  | .slave slaveId => w.slaves.any fun slave => slave.id = slaveId

def connectorRow (id : Uuid) : ConnectorOwner → Connector
  | .master masterId => { id := id, masterId := some masterId }
  | .slave slaveId => { id := id, slaveId := some slaveId }

/-- A registration of a token whose hash is taken violates the unique index. -/
def registerConnector (hashToken : String → String) (p : Portal) (owner : ConnectorOwner)
    (token : String) : Portal :=
  let id := Table.fresh (p.world.connectors.map Connector.id)
  if ownerExists p.world owner = false ∨ hashToken token ∈ p.tokenHashes.map Prod.snd then p
  else
    { p with
      world := { p.world with connectors := p.world.connectors ++ [connectorRow id owner] }
      tokenHashes := p.tokenHashes ++ [(id, hashToken token)]
      registered := p.registered ++ [⟨token, id, owner⟩] }

def findByTokenHash (p : Portal) (tokenHash : String) : Option Connector :=
  p.world.connectors.find? fun connector => (connector.id, tokenHash) ∈ p.tokenHashes

def cachedConnector (p : Portal) (tokenHash : String) : Option AuthenticatedConnector :=
  (Table.lookup Prod.fst tokenHash p.tokenCache).map Prod.snd

def cacheConnector (p : Portal) (tokenHash : String) (auth : AuthenticatedConnector) : Portal :=
  { p with tokenCache := Table.put tokenHash auth p.tokenCache }

/-! ### `recordHeartbeat` -/

/-- The figures, and the positions if there are any, written to the connector's owner. -/
def updateOwner (p : Portal) (connector : Connector) (account : ReportedAccount)
    (time : DateTime) : Portal :=
  let updated := { p with world := p.world.updateAccount connector account.toAccountSnapshot }
  match account.positions, connector.masterId, connector.slaveId with
  | some positions, some masterId, _ =>
    { updated with masterSnapshots := Table.put masterId ⟨positions, time⟩ p.masterSnapshots }
  | some positions, none, some slaveId =>
    { updated with slaveSnapshots := Table.put slaveId ⟨positions, time⟩ p.slaveSnapshots }
  | some _, none, none => updated
  | none, _, _ => updated

def recordHeartbeatStep (reply : Reply) (p : Portal) (connectorId : Uuid)
    (accountInfo : Option ReportedAccount) (time : DateTime) : HeartbeatPoint → Portal × List Work
  | .setKey =>
    reply.settle p { p with heartbeatKeys := Table.put connectorId time p.heartbeatKeys }
      [.heartbeat connectorId accountInfo time .updateConnector]
  | .updateConnector =>
    match Table.lookup Connector.id connectorId p.world.connectors with
    | none => (p, [])
    | some connector =>
      reply.settle p
        { p with
          world := p.world.updateConnector connectorId fun connector =>
            { connector with lastHeartbeatAt := some time, status := .online } }
        (if accountInfo.isSome then
          [.heartbeat connectorId accountInfo time (.updateOwner connector)]
        else [])
  | .updateOwner connector =>
    match accountInfo with
    | none => (p, [])
    | some account => reply.settle p (p.updateOwner connector account time) []

/-! ### The handlers -/

/-- The socket replaces one that the slave may still have open. -/
def connect (p : Portal) (token : String) (connectorId slaveId : Uuid) : Portal :=
  let id := Table.fresh (p.sessions.map Session.id)
  { p with
    sessions := p.sessions ++ [⟨id, token, slaveId, connectorId⟩]
    connections := Table.put slaveId id p.connections
    world :=
      { p.world with connections := slaveId :: p.world.connections.filter (· ≠ slaveId) } }

/-- A socket that was replaced leaves the entry of its successor alone. -/
def disconnect (p : Portal) (session : Session) : Portal :=
  let closed := { p with sessions := p.sessions.filter fun other => other.id ≠ session.id }
  if (session.slaveId, session.id) ∈ p.connections then
    { closed with
      connections := p.connections.filter fun entry => entry.1 ≠ session.slaveId
      world :=
        { p.world with connections := p.world.connections.filter (· ≠ session.slaveId) } }
  else closed

/-- What a route does with a request once its token is resolved. -/
def handle (p : Portal) (token : String) (auth : AuthenticatedConnector) :
    Request → Portal × List Work
  | .tradeEvent body =>
    match auth.ownMaster, body.known with
    | some masterId, some payload =>
      let (world, tasks) := ingestTradeEvent p.world masterId payload
      ({ p with world := world }, tasks.map .backend)
    | _, _ => (p, [])
  | .heartbeat body =>
    let accountInfo := (HeartbeatBody.parsed body.known).bind HeartbeatBody.accountInfo
    (p, [.heartbeat auth.connectorId accountInfo p.world.now .setKey])
  | .pendingInstruction =>
    match auth.ownSlave with
    | none => (p, [])
    | some slaveId =>
      (p, [.heartbeat auth.connectorId none p.world.now .setKey,
        .backend (.poll slaveId .findOrder)])
  | .executionResult body =>
    match auth.ownSlave, body.known with
    | some slaveId, some result =>
      (p, [.heartbeat auth.connectorId none p.world.now .setKey,
        .executionResult slaveId result .findOrder])
    | _, _ => (p, [])
  | .slaveSocket =>
    match auth.ownSlave with
    | none => (p, [])
    | some slaveId =>
      (p.connect token auth.connectorId slaveId,
        [.heartbeat auth.connectorId none p.world.now .setKey])

def receive (p : Portal) (session : Session) : SocketMessage → List Work
  | .malformed => []
  | .json heartbeat result =>
    match HeartbeatBody.parsed heartbeat with
    | some body => [.heartbeat session.connectorId body.accountInfo p.world.now .setKey]
    | none =>
      .heartbeat session.connectorId none p.world.now .setKey ::
        (handleSlaveMessage session.slaveId result.known).map .backend

/-- `authenticateConnector`, and the handler that goes on in the same turn. -/
def authenticateStep (hashToken : String → String) (reply : Reply) (p : Portal) (token : String)
    (request : Request) : AuthPoint → Portal × List Work
  | .getCached =>
    match p.cachedConnector (hashToken token) with
    | some auth => if reply.Resolves then p.handle token auth request else (p, [])
    | none => reply.query p [.authenticate token request .findConnector]
  | .findConnector =>
    match p.findByTokenHash (hashToken token) with
    | none => (p, [])
    | some connector =>
      reply.query p [.authenticate token request (.setCached connector.authenticated)]
  | .setCached auth =>
    let cached := p.cacheConnector (hashToken token) auth
    match reply with
    | .ok | .swapped => cached.handle token auth request
    | .rejected => (p, [])
    | .lost => (cached, [])

end Portal

def Task.messagePoint : Task → Option MessagePoint
  | .message _ _ point => some point
  | _ => none

namespace Portal

/-- The handler of the polling route: what `handleSlaveMessage` throws is caught and logged, so that
the answer is 200 however the call ends. -/
def executionResultStep (reply : Reply) (p : Portal) (slaveId : Uuid) (result : ExecutionResult)
    (point : MessagePoint) : Portal × List Work :=
  let (world, next) := slaveMessageStep reply p.world slaveId result point
  if next = [] then
    ({ p with world := world, acknowledged := p.acknowledged ++ [(slaveId, result)] }, [])
  else
    ({ p with world := world },
      (next.filterMap Task.messagePoint).map (.executionResult slaveId result))

end Portal

def Work.step (hashToken : String → String) (reply : Reply) (p : Portal) :
    Work → Portal × List Work
  | .authenticate token request point => p.authenticateStep hashToken reply token request point
  | .heartbeat connectorId accountInfo time point =>
    p.recordHeartbeatStep reply connectorId accountInfo time point
  | .executionResult slaveId result point => p.executionResultStep reply slaveId result point
  | .backend task =>
    let (world, next) := task.step reply p.world
    ({ p with world := world }, next.map .backend)

def Call.step (hashToken : String → String) (reply : Reply) (p : Portal) (call : Call) :
    Portal × List Call :=
  let (p', next) := call.work.step hashToken reply p
  (p', next.map (Call.mk call.token))

/-! ### The machine -/

/-- What happens to the backend without a connector's token. -/
def Stimulus.internal : Stimulus → Bool
  | .expireKey _ | .masterEvent _ | .sweepOfflineConnectors _ | .patchSlave _ _
  | .upsertSymbolMapping _ _ _ | .deleteSymbolMapping _ _ | .tick _ | .rearrange _ => true
  | .ingest _ _ | .poll _ _ | .slaveMessage _ _ _ | .executionResult _ _ _ | .heartbeat _ _
  | .connect _ _ | .disconnect _ => false

inductive Arrival
  /-- `POST /api/masters/:id/connectors`, or the same for a slave, with the token it generates. -/
  | register (owner : ConnectorOwner) (token : String)
  | request (authHeader : Option String) (request : Request)
  | socketMessage (socketId : ℕ) (message : SocketMessage)
  | closeSocket (socketId : ℕ)
  | expireToken (tokenHash : String)
  | backend (stimulus : Stimulus)
  deriving DecidableEq

def Arrival.apply (hashToken : String → String) (p : Portal) : Arrival → Portal × List Call
  | .register owner token => (p.registerConnector hashToken owner token, [])
  | .request authHeader asked =>
    match bearerToken authHeader with
    | none => (p, [])
    | some token => (p, [⟨some token, .authenticate token asked .getCached⟩])
  | .socketMessage socketId message =>
    match Table.lookup Session.id socketId p.sessions with
    | none => (p, [])
    | some session => (p, (p.receive session message).map (Call.mk (some session.token)))
  | .closeSocket socketId =>
    match Table.lookup Session.id socketId p.sessions with
    | none => (p, [])
    | some session => (p.disconnect session, [])
  | .expireToken tokenHash =>
    ({ p with tokenCache := p.tokenCache.filter fun entry => entry.1 ≠ tokenHash }, [])
  | .backend stimulus =>
    let (world, tasks) := stimulus.apply p.world
    ({ p with world := world }, tasks.map fun task => ⟨none, .backend task⟩)

inductive PortalAction
  | resume (i : ℕ) (reply : Reply)
  | arrive (arrival : Arrival)
  deriving DecidableEq

/-- The stimuli that come from connectors have routes of their own here. -/
def Arrival.admitted : Arrival → Bool
  | .backend stimulus => stimulus.internal
  | .register _ _ | .request _ _ | .socketMessage _ _ | .closeSocket _ | .expireToken _ => true

def Portal.step (hashToken : String → String) (c : Pool Portal Call) :
    PortalAction → Option (Pool Portal Call)
  | .resume i reply => c.resume (Call.step hashToken) i reply
  | .arrive arrival =>
    if arrival.admitted then
      some (c.arrive (arrival.apply hashToken c.shared).1 (arrival.apply hashToken c.shared).2)
    else none

end ForexCopy
