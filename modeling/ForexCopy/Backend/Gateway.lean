import ForexCopy.Backend.Schema

/-!
# The gateway and its sockets

The map of `modules/realtime/wsGateway.ts` and the handlers of `/ws/slave` that write it, over sockets
that have a life of their own: a socket may close before its token is authenticated, and its close event
may come long after its slave has connected again. A socket is its place among the upgraded ones. The
messages that arrive on a socket do not touch the map and are left out.
-/

namespace ForexCopy

/-- The states of a `WebSocket`, which it goes through in this order. -/
inductive ReadyState
  | connecting | «open» | closing | closed
  deriving DecidableEq, Repr

def ReadyState.toNumber : ReadyState → ℕ
  | .connecting => 0
  | .open => 1
  | .closing => 2
  | .closed => 3

/-- The sockets upgraded so far and the map `connections`; in logs the entries that were ever made and
what was written to the sockets. -/
structure Gateway where
  sockets : List ReadyState := []
  connections : List (Uuid × ℕ) := []
  registered : List (Uuid × ℕ) := []
  written : List (ℕ × String) := []
  deriving DecidableEq, Repr

inductive GatewayAction
  /-- A request for `/ws/slave` is upgraded, and its handler starts. -/
  | upgrade
  /-- The state of a socket goes on, at either side. -/
  | advance (socket : ℕ) (state : ReadyState)
  /-- The handler goes on with a slave's token authenticated. -/
  | authenticated (slaveId : Uuid) (socket : ℕ)
  /-- The close event of a socket reaches its listener. -/
  | close (slaveId : Uuid) (socket : ℕ)
  | send (slaveId : Uuid) (payload : String)
  deriving DecidableEq, Repr

namespace Gateway

/-- `connections.get(slaveId)`. -/
def get (gateway : Gateway) (slaveId : Uuid) : Option ℕ :=
  (Table.lookup Prod.fst slaveId gateway.connections).map Prod.snd

def IsOpen (gateway : Gateway) (socket : ℕ) : Prop := gateway.sockets[socket]? = some .open

instance (gateway : Gateway) (socket : ℕ) : Decidable (gateway.IsOpen socket) :=
  inferInstanceAs (Decidable (_ = _))

def isSlaveConnected (gateway : Gateway) (slaveId : Uuid) : Bool :=
  match gateway.get slaveId with
  | none => false
  | some socket => gateway.IsOpen socket

/-- The gateway after the call, and what it returns. -/
def sendToSlave (gateway : Gateway) (slaveId : Uuid) (payload : String) : Gateway × Bool :=
  match gateway.get slaveId with
  | none => (gateway, false)
  | some socket =>
    if gateway.IsOpen socket then
      ({ gateway with written := gateway.written ++ [(socket, payload)] }, true)
    else
      (gateway, false)

/-- `connections.set(slaveId, socket)`. -/
def register (gateway : Gateway) (slaveId : Uuid) (socket : ℕ) : Gateway :=
  { gateway with
    connections := Table.put slaveId socket gateway.connections
    registered := gateway.registered ++ [(slaveId, socket)] }

/-- The listener of the close event. -/
def closed (gateway : Gateway) (slaveId : Uuid) (socket : ℕ) : Gateway :=
  if gateway.get slaveId = some socket then
    { gateway with
      connections := gateway.connections.filter fun entry => entry.1 ≠ slaveId }
  else
    gateway

/-- A handler registers its socket once, and the listener that it adds is not called before the socket
is closed. -/
def step (gateway : Gateway) : GatewayAction → Option Gateway
  | .upgrade => some { gateway with sockets := gateway.sockets ++ [.open] }
  | .advance socket state =>
    (gateway.sockets[socket]?).bind fun before =>
      if before.toNumber < state.toNumber then
        some { gateway with sockets := gateway.sockets.set socket state }
      else
        none
  | .authenticated slaveId socket =>
    if socket < gateway.sockets.length ∧ socket ∉ gateway.registered.map Prod.snd then
      some (gateway.register slaveId socket)
    else
      none
  | .close slaveId socket =>
    if gateway.registered.contains (slaveId, socket) ∧ gateway.sockets[socket]? = some .closed then
      some (gateway.closed slaveId socket)
    else
      none
  | .send slaveId payload => some (gateway.sendToSlave slaveId payload).1

end Gateway

end ForexCopy
