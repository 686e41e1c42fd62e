import ForexCopy.Backend.System

/-!
# A slave that polls

`PollForInstruction` of `connectors/slave-ea-mt4/ForexCopySlaveEA.mq4` at the other end of its
connection. A response the backend has given is on its way until it arrives or is lost; a request that
is lost leaves no trace, and any answer but a 200 response only makes the EA poll again.
-/

namespace ForexCopy

structure PollingEa where
  backend : Config
  /-- The 200 responses given and not yet arrived. -/
  onTheWay : List CopyInstruction := []
  /-- The instructions the EA has received. -/
  received : List CopyInstruction := []

inductive PollingEaAction
  | backend (action : Action)
  /-- The response at the position arrives. -/
  | receive (i : ℕ)
  /-- The response at the position is lost: the EA sees the status -1. -/
  | lose (i : ℕ)

namespace PollingEa

def responsesSince (slaveId : Uuid) (w w' : World) : List CopyInstruction :=
  ((w.deliveriesSince w').filter fun delivery =>
    delivery.transport = .poll ∧ delivery.slaveId = slaveId).map Delivery.instruction

def step (slaveId : Uuid) (ea : PollingEa) : PollingEaAction → Option PollingEa
  | .backend action =>
    (Backend.step ea.backend action).map fun backend =>
      { ea with
        backend := backend
        onTheWay := ea.onTheWay ++ responsesSince slaveId ea.backend.shared backend.shared }
  | .receive i =>
    ea.onTheWay[i]?.map fun instruction =>
      { ea with onTheWay := ea.onTheWay.eraseIdx i, received := ea.received ++ [instruction] }
  | .lose i =>
    ea.onTheWay[i]?.map fun _ => { ea with onTheWay := ea.onTheWay.eraseIdx i }

end PollingEa

end ForexCopy
