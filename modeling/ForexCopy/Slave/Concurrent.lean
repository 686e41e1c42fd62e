import ForexCopy.Slave.Terminal

/-!
# Calls that overlap

The backend and one slave side by side: every await of a call, every execution and every report is a
step of its own. A slave over a socket is pushed to and reports there, a slave that polls posts its
reports.
-/

namespace ForexCopy

inductive LinkAction
  | backend (action : Action)
  | execute (i : ℕ) (outcome : OrderOutcome)
  /-- The result at the position leaves for the backend. -/
  | report (i : ℕ) (connectorId : Uuid)
  deriving DecidableEq

def Transport.reporting (transport : Transport) (slaveId connectorId : Uuid)
    (result : ExecutionResult) : Stimulus :=
  match transport with
  | .push => .slaveMessage slaveId connectorId (some result)
  | .poll => .executionResult slaveId connectorId (some result)

namespace SlaveLink

def step (slaveId : Uuid) (transport : Transport) (link : SlaveLink) :
    LinkAction → Option SlaveLink
  | .backend action =>
    (Backend.step link.backend action).map fun backend =>
      { backend := backend
        connector := link.connector.receive slaveId link.backend.shared backend.shared }
  | .execute i outcome =>
    (link.connector.execute i outcome).map fun connector => { link with connector := connector }
  | .report i connectorId =>
    link.connector.results[i]?.bind fun result =>
      let stimulus := transport.reporting slaveId connectorId result
      (Backend.step link.backend (.arrive stimulus)).map fun backend =>
        { backend := backend
          connector := { link.connector with results := link.connector.results.eraseIdx i } }

end SlaveLink

/-! ### A slave that obeys -/

/-- A well-formed report and the slave it comes from. -/
def Stimulus.report : Stimulus → Option (Uuid × ExecutionResult)
  | .slaveMessage slaveId _ (some result) | .executionResult slaveId _ (some result) =>
    some (slaveId, result)
  | _ => none

def Stimulus.poller : Stimulus → Option Uuid
  | .poll slaveId _ => some slaveId
  | _ => none

def Action.stimulus : Action → Option Stimulus
  | .arrive stimulus => some stimulus
  | .resume _ _ => none

def OrderOutcome.isDone : OrderOutcome → Bool
  | .done _ => true
  | .refused _ => false

namespace LinkAction

def ofBackend : LinkAction → Option Action
  | .backend action => some action
  | _ => none

def outcome : LinkAction → Option OrderOutcome
  | .execute _ outcome => some outcome
  | _ => none

/-- The broker carries out every order, nobody else reports for the slave, and the slave polls only if
that is its transport. -/
structure Obeys (slaveId : Uuid) (transport : Transport) (a : LinkAction) : Prop where
  done : ∀ outcome ∈ a.outcome, outcome.isDone
  reports : ∀ action ∈ a.ofBackend, ∀ stimulus ∈ action.stimulus, ∀ report ∈ stimulus.report,
    report.1 ≠ slaveId
  polls : ∀ action ∈ a.ofBackend, ∀ stimulus ∈ action.stimulus, ∀ id ∈ stimulus.poller,
    id = slaveId → transport = .poll

instance (slaveId : Uuid) (transport : Transport) (a : LinkAction) :
    Decidable (a.Obeys slaveId transport) :=
  decidable_of_iff (_ ∧ _ ∧ _)
    ⟨fun h => ⟨h.1, h.2.1, h.2.2⟩, fun h => ⟨h.done, h.reports, h.polls⟩⟩

end LinkAction

end ForexCopy
