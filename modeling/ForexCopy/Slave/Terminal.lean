import ForexCopy.Backend.System

/-!
# A slave's terminal

`execute_open`, `execute_close` and `execute_modify` of `connectors/slave-service/main.py`, which
`connectors/slave-ea-mt4/ForexCopySlaveEA.mq4` mirrors. The broker decides whether an order is carried
out and which ticket a position gets: that part is the outcome an instruction is executed with. A
terminal is told by its history, the positions it has opened and the tickets it has closed.
-/

namespace ForexCopy

structure Position where
  /-- The copy order named in the position's comment. -/
  copyId : Uuid
  ticket : String
  volume : ℚ
  deriving DecidableEq, Repr

structure Terminal where
  opened : List Position := []
  closed : List String := []
  deriving DecidableEq, Repr

inductive OrderOutcome
  /-- It is carried out; a new position gets the ticket. -/
  | done (ticket : String)
  | refused (reason : String)
  deriving DecidableEq, Repr

def CopyInstruction.success (instruction : CopyInstruction) (slaveTicket : String) : ExecutionResult :=
  { copyId := instruction.copyId, status := .executed, slaveTicket := some slaveTicket }

def CopyInstruction.failure (instruction : CopyInstruction) (reason : String) : ExecutionResult :=
  { copyId := instruction.copyId, status := .failed, reason := some reason }

namespace Terminal

def positions (terminal : Terminal) : List Position :=
  terminal.opened.filter fun position => position.ticket ∉ terminal.closed

def «open» (terminal : Terminal) (position : Position) : Terminal :=
  { terminal with opened := terminal.opened ++ [position] }

def close (terminal : Terminal) (ticket : String) : Terminal :=
  { terminal with closed := ticket :: terminal.closed }

/-- The broker never gives out an empty ticket, nor one it has given out before. -/
def executeOpen (terminal : Terminal) (instruction : CopyInstruction) (ticket : String) :
    Option (Terminal × ExecutionResult) :=
  match instruction.volume with
  | none => none
  | some volume =>
    if ticket = "" ∨ ticket ∈ terminal.opened.map Position.ticket then none
    else some (terminal.open ⟨instruction.copyId, ticket, volume⟩, instruction.success ticket)

/-- CLOSE and MODIFY fail without an open position of the ticket they name. -/
def onPosition (terminal : Terminal) (instruction : CopyInstruction)
    (change : String → Terminal) : Terminal × ExecutionResult :=
  match instruction.slaveTicket with
  | none => (terminal, instruction.failure "no slaveTicket provided")
  | some ticket =>
    if ticket ∈ terminal.positions.map Position.ticket then
      (change ticket, instruction.success ticket)
    else
      (terminal, instruction.failure ("no open position for ticket " ++ ticket))

/-- The terminal after the instruction and the result it reports; nothing if the broker cannot answer
with the outcome. -/
def execute (terminal : Terminal) (instruction : CopyInstruction) :
    OrderOutcome → Option (Terminal × ExecutionResult)
  | .refused reason => some (terminal, instruction.failure reason)
  | .done ticket =>
    match instruction.action with
    | .open => terminal.executeOpen instruction ticket
    | .close => some (terminal.onPosition instruction terminal.close)
    | .modify => some (terminal.onPosition instruction fun _ => terminal)
    | .partialClose | .pendingOpen | .pendingModify | .pendingCancel =>
      some (terminal, instruction.failure "unsupported action")

theorem mem_positions {terminal : Terminal} {position : Position} :
    position ∈ terminal.positions ↔
      position ∈ terminal.opened ∧ position.ticket ∉ terminal.closed := by
  simp [positions]

inductive Executed (terminal : Terminal) (instruction : CopyInstruction) :
    Terminal → ExecutionResult → Prop
  | failed (reason : String) : Executed terminal instruction terminal (instruction.failure reason)
  | opened {ticket : String} {volume : ℚ} (haction : instruction.action = .open)
      (hvolume : instruction.volume = some volume)
      (hfresh : ticket ∉ terminal.opened.map Position.ticket) :
      Executed terminal instruction (terminal.open ⟨instruction.copyId, ticket, volume⟩)
        (instruction.success ticket)
  | closed {ticket : String} (haction : instruction.action = .close)
      (hticket : instruction.slaveTicket = some ticket) :
      Executed terminal instruction (terminal.close ticket) (instruction.success ticket)
  | modified (ticket : String) (haction : instruction.action = .modify) :
      Executed terminal instruction terminal (instruction.success ticket)

theorem execute_executed {terminal terminal' : Terminal} {instruction : CopyInstruction}
    {outcome : OrderOutcome} {result : ExecutionResult}
    (h : terminal.execute instruction outcome = some (terminal', result)) :
    terminal.Executed instruction terminal' result := by
  cases outcome with
  | refused reason =>
      obtain ⟨rfl, rfl⟩ := Prod.mk.inj (Option.some.inj h)
      exact .failed reason
  | done ticket =>
      cases haction : instruction.action with
      | «open» =>
          simp only [execute, haction, executeOpen] at h
          split at h
          · cases h
          · rename_i volume hvolume
            split_ifs at h with hticket
            obtain ⟨rfl, rfl⟩ := Prod.mk.inj (Option.some.inj h)
            exact .opened haction hvolume fun hmem => hticket (.inr hmem)
      | close =>
          simp only [execute, haction, onPosition, Option.some.injEq] at h
          split at h
          · obtain ⟨rfl, rfl⟩ := Prod.mk.inj h
            exact .failed _
          · rename_i slaveTicket hslaveTicket
            split_ifs at h
            · obtain ⟨rfl, rfl⟩ := Prod.mk.inj h
              exact .closed haction hslaveTicket
            · obtain ⟨rfl, rfl⟩ := Prod.mk.inj h
              exact .failed _
      | modify =>
          simp only [execute, haction, onPosition, Option.some.injEq] at h
          split at h
          · obtain ⟨rfl, rfl⟩ := Prod.mk.inj h
            exact .failed _
          · split_ifs at h
            · obtain ⟨rfl, rfl⟩ := Prod.mk.inj h
              exact .modified _ haction
            · obtain ⟨rfl, rfl⟩ := Prod.mk.inj h
              exact .failed _
      | partialClose | pendingOpen | pendingModify | pendingCancel =>
          simp only [execute, haction, Option.some.injEq] at h
          obtain ⟨rfl, rfl⟩ := Prod.mk.inj h
          exact .failed _

end Terminal

/-! ### The connector -/

/-- The slave's end of the connection: instructions it has received and not executed, and results it
has not reported. -/
structure SlaveConnector where
  terminal : Terminal := {}
  instructions : List CopyInstruction := []
  results : List ExecutionResult := []
  deriving DecidableEq, Repr

namespace SlaveConnector

/-- Receive what the backend has handed over to the slave between `w` and `w'`. -/
def receive (connector : SlaveConnector) (slaveId : Uuid) (w w' : World) : SlaveConnector :=
  { connector with
    instructions := connector.instructions ++
      ((w.deliveriesSince w').filter fun delivery => delivery.slaveId = slaveId).map
        Delivery.instruction }

def execute (connector : SlaveConnector) (i : ℕ) (outcome : OrderOutcome) : Option SlaveConnector :=
  match connector.instructions[i]? with
  | none => none
  | some instruction =>
    (connector.terminal.execute instruction outcome).map fun (terminal, result) =>
      { terminal := terminal
        instructions := connector.instructions.eraseIdx i
        results := connector.results ++ [result] }

/-- An instruction that is executed leaves its result in its place. -/
theorem execute_cases {connector connector' : SlaveConnector} {i : ℕ} {outcome : OrderOutcome}
    (h : connector.execute i outcome = some connector') :
    ∃ instruction terminal result, connector.instructions[i]? = some instruction ∧
      connector.terminal.execute instruction outcome = some (terminal, result) ∧
      connector' = ⟨terminal, connector.instructions.eraseIdx i, connector.results ++ [result]⟩ := by
  unfold execute at h
  cases hget : connector.instructions[i]? with
  | none => simp [hget] at h
  | some instruction =>
      simp only [hget] at h
      obtain ⟨⟨terminal, result⟩, hterminal, rfl⟩ := Option.map_eq_some_iff.mp h
      exact ⟨instruction, terminal, result, rfl, hterminal, rfl⟩

section

variable {slaveId : Uuid} {w w' : World} (connector : SlaveConnector)

theorem receive_eq {deliveries : List Delivery} (hsent : w'.sent = w.sent ++ deliveries) :
    connector.receive slaveId w w' = { connector with
      instructions := connector.instructions ++
        (deliveries.filter fun delivery => delivery.slaveId = slaveId).map Delivery.instruction } := by
  rw [receive, World.deliveriesSince, hsent, List.drop_left]

theorem receive_same (hsent : w'.sent = w.sent) : connector.receive slaveId w w' = connector := by
  rw [connector.receive_eq (hsent.trans (List.append_nil _).symm)]
  simp

end

end SlaveConnector

structure SlaveLink where
  backend : Config
  connector : SlaveConnector := {}
  deriving DecidableEq

end ForexCopy
