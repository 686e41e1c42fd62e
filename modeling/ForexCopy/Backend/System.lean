import ForexCopy.Backend.Connectors
import ForexCopy.Backend.ConnectorPolling
import ForexCopy.Backend.CopyEngine
import ForexCopy.Backend.Ingest
import ForexCopy.Library.Machine

/-!
# The backend as a machine

A configuration is the world and the suspended calls. An action lets one of the awaited operations
settle, or is something that happens from outside: a request, a message, a delivery on a channel, a
key that expires. Nothing is assumed about the order of actions; what a result needs from it is a
condition the machine is restricted to.
-/

namespace ForexCopy

def Task.step (reply : Reply) (w : World) : Task → World × List Task
  | .ingest event point => ingestStep reply w event point
  | .persist event => persistTradeEventStep reply w event
  | .heartbeat connectorId accountInfo time point =>
    heartbeatStep reply w connectorId accountInfo time point
  | .masterEvent event point => masterEventStep reply w event point
  | .copy run point => copyToSlaveStep reply w run point
  | .message slaveId result point => slaveMessageStep reply w slaveId result point
  | .poll slaveId point => pendingInstructionStep reply w slaveId point

/-- What reaches the backend from outside. -/
inductive Stimulus
  /-- An authenticated `POST /api/ingest/trade-event`. -/
  | ingest (masterId : Uuid) (payload : TradeEventPayload)
  | expireKey (eventId : String)
  /-- A message on a master's channel. -/
  | masterEvent (event : NormalizedTradeEvent)
  /-- An authenticated `GET /api/connectors/pending-instruction`. -/
  | poll (slaveId connectorId : Uuid)
  /-- A message of a slave on its socket. -/
  | slaveMessage (slaveId connectorId : Uuid) (message : Option ExecutionResult)
  /-- An authenticated `POST /api/connectors/execution-result`. -/
  | executionResult (slaveId connectorId : Uuid) (body : Option ExecutionResult)
  | heartbeat (connectorId : Uuid) (accountInfo : Option AccountSnapshot)
  | sweepOfflineConnectors (staleBefore : DateTime)
  | patchSlave (id : Uuid) (input : UpdateSlaveInput)
  | upsertSymbolMapping (slaveId : Uuid) (masterSymbol slaveSymbol : String)
  | deleteSymbolMapping (slaveId : Uuid) (masterSymbol : String)
  | connect (slaveId connectorId : Uuid)
  | disconnect (slaveId : Uuid)
  | tick (milliseconds : ℕ)
  /-- The database gets to return rows in another order. -/
  | rearrange (scan : List ℕ)
  deriving DecidableEq

/-- The world a stimulus leaves and the calls it starts. -/
def Stimulus.apply (w : World) : Stimulus → World × List Task
  | .ingest masterId payload => ingestTradeEvent w masterId payload
  | .expireKey eventId =>
    ({ w with idempotencyKeys := w.idempotencyKeys.filter (· ≠ eventId) }, [])
  | .masterEvent event => (w, handleMasterEvent event)
  | .poll slaveId connectorId =>
    (w, [.heartbeat connectorId none w.now .setKey, .poll slaveId .findOrder])
  | .slaveMessage slaveId connectorId message =>
    (w, .heartbeat connectorId none w.now .setKey :: handleSlaveMessage slaveId message)
  -- A body that is no execution result is refused before the heartbeat.
  | .executionResult _ _ none => (w, [])
  | .executionResult slaveId connectorId (some result) =>
    (w, .heartbeat connectorId none w.now .setKey :: handleSlaveMessage slaveId (some result))
  | .heartbeat connectorId accountInfo => (w, [.heartbeat connectorId accountInfo w.now .setKey])
  | .sweepOfflineConnectors staleBefore => (w.sweepOfflineConnectors staleBefore, [])
  | .patchSlave id input => (w.patchSlave id input, [])
  | .upsertSymbolMapping slaveId masterSymbol slaveSymbol =>
    (w.upsertSymbolMapping slaveId masterSymbol slaveSymbol, [])
  | .deleteSymbolMapping slaveId masterSymbol => (w.deleteSymbolMapping slaveId masterSymbol, [])
  | .connect slaveId connectorId =>
    ({ w with connections := slaveId :: w.connections.filter (· ≠ slaveId) },
      [.heartbeat connectorId none w.now .setKey])
  | .disconnect slaveId => ({ w with connections := w.connections.filter (· ≠ slaveId) }, [])
  | .tick milliseconds => ({ w with now := w.now + milliseconds }, [])
  | .rearrange scan => ({ w with scan := scan }, [])

abbrev Config := Pool World Task

inductive Action
  | resume (i : ℕ) (reply : Reply)
  | arrive (stimulus : Stimulus)
  deriving DecidableEq

/-- A run of `copyToSlave` and the point it is at. -/
def Task.copying : Task → Option (CopyRun × CopyPoint)
  | .copy run point => some (run, point)
  | _ => none

/-- The slave whose queue a poll is about to read. -/
def Task.choosing : Task → Option Uuid
  | .poll slaveId .findOrder => some slaveId
  | _ => none

/-- The slave and its report that is about to be recorded. -/
def Task.recording : Task → Option (Uuid × ExecutionResult)
  | .message slaveId result (.record _) => some (slaveId, result)
  | _ => none

def Action.resumed (c : Config) : Action → Option Task
  | .resume i _ => c.tasks[i]?
  | .arrive _ => none

def Action.reply : Action → Option Reply
  | .resume _ reply => some reply
  | .arrive _ => none

def Action.patched : Action → Option (Uuid × UpdateSlaveInput)
  | .arrive (.patchSlave id input) => some (id, input)
  | _ => none

namespace Backend

def step (c : Config) : Action → Option Config
  | .resume i reply => c.resume Task.step i reply
  | .arrive stimulus => some (c.arrive (stimulus.apply c.shared).1 (stimulus.apply c.shared).2)

abbrev run (ok : Config → Action → Prop) [∀ c a, Decidable (ok c a)] :
    Config → List Action → Option Config :=
  Machine.follow (Machine.restrict step ok)

end Backend

/-! ### A small installation

One master with a slave on each platform, for runs that can be computed. -/

namespace Sample

def mt5Slave : Slave := { id := 5, masterId := 1 }

def mt4Slave : Slave := { id := 4, masterId := 1, platform := "MT4" }

def openEvent : NormalizedTradeEvent where
  eventId := "OPEN-7-1001"
  masterTicket := "1001"
  type := .open
  symbol := "EURUSD"
  side := some .buy
  volume := some 1
  masterId := 1
  valid := by decide +kernel

def closeEvent : NormalizedTradeEvent where
  eventId := "CLOSE-7-1001"
  masterTicket := "1001"
  type := .close
  symbol := "EURUSD"
  masterId := 1
  valid := by decide +kernel

def otherOpenEvent : NormalizedTradeEvent where
  eventId := "OPEN-7-1002"
  masterTicket := "1002"
  type := .open
  symbol := "EURUSD"
  side := some .buy
  volume := some 1
  masterId := 1
  valid := by decide +kernel

def smallOpenEvent : NormalizedTradeEvent where
  eventId := "OPEN-7-1003"
  masterTicket := "1003"
  type := .open
  symbol := "EURUSD"
  side := some .buy
  volume := some (15 / 100)
  masterId := 1
  valid := by decide +kernel

/-- The slave is online and the events are persisted. -/
def config (slave : Slave) (events : List NormalizedTradeEvent) : Config where
  shared :=
    { masters := [{ id := 1 }]
      slaves := [slave]
      connectors := [{ id := 9, slaveId := some slave.id, status := .online }]
      connections := [slave.id]
      tradeEvents := events.zipIdx.map fun (event, i) => event.row i }
  tasks := []

/-- The same with a copy order of the first event that waits to be polled. -/
def queued (slave : Slave) (event : NormalizedTradeEvent) : Config :=
  let run : CopyRun := ⟨slave, 0, event, ⟨none, none⟩⟩
  let c := config slave [event]
  { c with shared := c.shared.insertOrder (run.pendingOrder 1 (some 1)) }

/-- The actions that let the first call run on its own through `n` awaits. -/
def settle (n : ℕ) : List Action := List.replicate n (.resume 0 .ok)

def executed (copyId : Uuid) (slaveTicket : String) : ExecutionResult :=
  { copyId := copyId, status := .executed, slaveTicket := some slaveTicket }

/-- The slave with a socket sends the report, and it is recorded. -/
def reported (copyId : Uuid) (slaveTicket : String) : List Action :=
  .arrive (.slaveMessage 5 9 (some (executed copyId slaveTicket))) :: settle 4

end Sample

end ForexCopy
