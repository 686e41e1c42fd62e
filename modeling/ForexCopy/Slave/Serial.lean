import ForexCopy.Slave.Terminal

/-!
# Calls that run alone

The backend and one slave when no two calls overlap: a dispatch, a poll and the recording of a result
each run from beginning to end before anything else happens. The slave executes what it has received,
and reports what it has executed, whenever it likes.
-/

namespace ForexCopy

/-- Let the first call go on `n` times, every operation resolving. -/
def Config.settle : ℕ → Config → Config
  | 0, c => c
  | n + 1, c =>
    match Backend.step c (.resume 0 .ok) with
    | none => c
    | some c' => c'.settle n

def awaits : ℕ := 8

/-- What is left of the calls when they have run alone. -/
def World.alone (w : World) (tasks : List Task) : Config := Config.settle awaits ⟨w, tasks⟩

/-- The run of `copyToSlave` that an event starts for a slave it is copied to. -/
def World.dispatched (w : World) (slaveId : Uuid) (event : NormalizedTradeEvent)
    (account : MasterAccount) : Option CopyRun :=
  match Table.lookup TradeEvent.eventId event.eventId w.tradeEvents with
  | none => none
  | some tradeEvent =>
    match Table.lookup Slave.id slaveId (eligibleSlaves event.masterId w.slaves) with
    | none => none
    | some slave => if isCopyableEvent event then some ⟨slave, tradeEvent.id, event, account⟩ else none

inductive SerialMove
  /-- `copyToSlave` for any slave of the event's master. -/
  | dispatch (slaveId : Uuid) (event : NormalizedTradeEvent) (account : MasterAccount)
  /-- A poll of the slave. -/
  | poll
  | execute (i : ℕ) (outcome : OrderOutcome)
  /-- The result at the position is reported and recorded. -/
  | record (i : ℕ)
  /-- Whatever else reaches the backend: a trade event to ingest, a heartbeat, a change of the
  configuration or of a connection. -/
  | environment (stimulus : Stimulus)
  deriving DecidableEq

/-- The call neither copies an event nor serves a slave. -/
def Task.isAside : Task → Bool
  | .ingest _ _ | .persist _ | .heartbeat _ _ _ _ => true
  | _ => false

namespace SlaveLink

def afterCalls (link : SlaveLink) (slaveId : Uuid) (tasks : List Task) : SlaveLink :=
  let backend := link.backend.shared.alone tasks
  { backend := backend
    connector := link.connector.receive slaveId link.backend.shared backend.shared }

def serialStep (slaveId : Uuid) (link : SlaveLink) : SerialMove → Option SlaveLink
  | .dispatch id event account =>
    (link.backend.shared.dispatched id event account).map fun run =>
      link.afterCalls slaveId [.copy run .resolveSymbol]
  | .poll => some (link.afterCalls slaveId [.poll slaveId .findOrder])
  | .execute i outcome =>
    (link.connector.execute i outcome).map fun connector => { link with connector := connector }
  | .record i =>
    link.connector.results[i]?.map fun result =>
      let reported := { link.connector with results := link.connector.results.eraseIdx i }
      { link with connector := reported }.afterCalls slaveId [.message slaveId result .findOrder]
  | .environment stimulus =>
    let (w, tasks) := stimulus.apply link.backend.shared
    if tasks.all Task.isAside then some { link with backend := w.alone tasks } else none

end SlaveLink

end ForexCopy
