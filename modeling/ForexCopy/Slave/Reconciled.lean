import ForexCopy.Backend.Reconciliation
import ForexCopy.Slave.Concurrent

/-!
# A slave that is reconciled

The backend and one slave, with the heartbeats that report the slave's positions and the runs that
compare them with the copy orders. A heartbeat carries the positions of the moment it is sent. Its
update of the slave's row, under the time at which its recording began, is a step of its own, and
nothing orders it, or the queries of a run, among executions and recorded results.
-/

namespace ForexCopy

/-- A heartbeat with the history of the terminal that its positions are a view of. -/
structure PositionHeartbeat where
  terminal : Terminal
  snapshot : Snapshot
  deriving DecidableEq

/-- The positions are exactly those of the terminal, with the comments `execute_open` has given them. -/
def Terminal.Shows (terminal : Terminal) (positions : List SlavePositionInfo) : Prop :=
  positions.map (fun info => (info.ticket, info.volume, info.comment)) =
    terminal.positions.map fun position =>
      (position.ticket, position.volume, some ("copy:" ++ toString position.copyId))

instance (terminal : Terminal) (positions : List SlavePositionInfo) :
    Decidable (terminal.Shows positions) :=
  inferInstanceAs (Decidable (_ = _))

structure ReconciledSlave where
  link : SlaveLink
  reconciliation : Reconciliation
  /-- The heartbeats sent so far. -/
  heartbeats : List PositionHeartbeat := []
  /-- The snapshots that are about to be stored. -/
  storing : List Snapshot := []
  deriving DecidableEq

inductive ReconciledAction
  | link (action : LinkAction)
  /-- The slave reports its positions, and `recordHeartbeat` begins. -/
  | heartbeat (positions : List SlavePositionInfo)
  /-- The snapshot at the position reaches the slave's row. -/
  | store (i : ℕ)
  /-- Whatever the heartbeats of masters and of other slaves store. -/
  | elsewhere (masterSnapshots slaveSnapshots : List (Uuid × Snapshot))
  /-- The timer, or `POST /api/reconciliation/run`. -/
  | startRun (masterId slaveId : Option Uuid)
  | resumeRun (i : ℕ) (reply : Reply)
  deriving DecidableEq

namespace ReconciledSlave

/-- Nothing has been reported and no run has started. -/
def start (link : SlaveLink) : ReconciledSlave where
  link := link
  reconciliation := ⟨{ world := link.backend.shared }, []⟩

def withBooks (s : ReconciledSlave) (books : Books) : ReconciledSlave :=
  { s with reconciliation := ⟨books, s.reconciliation.tasks⟩ }

def step (env : ReconciliationEnv) (slaveId : Uuid) (transport : Transport) (s : ReconciledSlave) :
    ReconciledAction → Option ReconciledSlave
  | .link action =>
    (s.link.step slaveId transport action).map fun link =>
      { s with link := link }.withBooks { s.reconciliation.shared with world := link.backend.shared }
  | .heartbeat positions =>
    let terminal := s.link.connector.terminal
    if terminal.Shows positions then
      let snapshot : Snapshot := ⟨positions, s.link.backend.shared.now⟩
      some { s with
        heartbeats := s.heartbeats ++ [⟨terminal, snapshot⟩]
        storing := s.storing ++ [snapshot] }
    else
      none
  | .store i =>
    s.storing[i]?.map fun snapshot =>
      let others := s.reconciliation.shared.slaveSnapshots.filter fun entry => entry.1 ≠ slaveId
      { s with storing := s.storing.eraseIdx i }.withBooks
        { s.reconciliation.shared with slaveSnapshots := others ++ [(slaveId, snapshot)] }
  | .elsewhere masterSnapshots slaveSnapshots =>
    let others := slaveSnapshots.filter fun entry => entry.1 ≠ slaveId
    let own := s.reconciliation.shared.slaveSnapshots.filter fun entry => entry.1 = slaveId
    some (s.withBooks { s.reconciliation.shared with
      masterSnapshots := masterSnapshots, slaveSnapshots := others ++ own })
  | .startRun masterId slaveId =>
    (Reconciliation.step env s.reconciliation (.start masterId slaveId)).map fun reconciliation =>
      { s with reconciliation := reconciliation }
  | .resumeRun i reply =>
    (Reconciliation.step env s.reconciliation (.resume i reply)).map fun reconciliation =>
      { s with reconciliation := reconciliation }

end ReconciledSlave

namespace ReconciledAction

def ofLink : ReconciledAction → Option LinkAction
  | .link action => some action
  | _ => none

/-- The run whose operation resolves. -/
def resolved (s : ReconciledSlave) : ReconciledAction → Option Reconcile
  | .resumeRun i .ok | .resumeRun i .swapped => s.reconciliation.tasks[i]?
  | _ => none

/-- The slave obeys, and its positions change only by its instructions. -/
def Obeys (slaveId : Uuid) (transport : Transport) (a : ReconciledAction) : Prop :=
  ∀ action ∈ a.ofLink, action.Obeys slaveId transport

instance (slaveId : Uuid) (transport : Transport) (a : ReconciledAction) :
    Decidable (a.Obeys slaveId transport) :=
  inferInstanceAs (Decidable (∀ action ∈ a.ofLink, _))

end ReconciledAction

end ForexCopy
