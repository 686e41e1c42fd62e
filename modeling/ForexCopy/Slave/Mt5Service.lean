import ForexCopy.Library.Sessions
import ForexCopy.Slave.Concurrent
import ForexCopy.Wire.JsonReader
import Mathlib.Data.List.DropRight

/-!
# The MT5 slave service and its terminal

`connectors/slave-service/main.py`: what it does with an instruction, and its connections to `/ws/slave`,
on which it executes one instruction after the other. The broker's part is a reply to each request. A
request that is not reported as done may have been carried out all the same, in part or in full. Others
trade at the terminal as well. An instruction is told by its members, numbers are exact, and a ticket is
that of a position, as on a hedging account. Heartbeats, and members of requests that the platform alone
reads, are left out.
-/

namespace ForexCopy

def Python.isSpace (c : Char) : Bool :=
  c = ' ' ∨ (9 ≤ c.toNat ∧ c.toNat ≤ 13) ∨ (28 ≤ c.toNat ∧ c.toNat ≤ 31)

/-- `int` of a text in ASCII. An underscore may stand between two digits. -/
def Python.int (text : String) : Option ℤ :=
  let chars := (text.toList.dropWhile Python.isSpace).rdropWhile Python.isSpace
  let unsigned := if chars.head? = some '-' ∨ chars.head? = some '+' then chars.tail else chars
  let groups := unsigned.splitOn '_'
  if groups.all fun group => group ≠ [] ∧ group.all Char.isDigit then
    let value : ℤ := Nat.ofDigitChars 10 groups.flatten 0
    some (if chars.head? = some '-' then -value else value)
  else
    none

namespace Mt5Service

/-! ### The terminal -/

structure Position where
  ticket : ℕ
  symbol : String
  type : TradeSide
  volume : ℚ
  sl : ℚ
  tp : ℚ
  comment : String
  deriving DecidableEq, Repr

/-- A position as it was opened, and the instruction it was opened for unless someone else did. -/
structure Opening where
  position : Position
  instruction : Option CopyInstruction := none
  deriving DecidableEq, Repr

/-- The open positions and, in a log, every position there ever was. -/
structure Terminal where
  positions : List Position := []
  openings : List Opening := []
  deriving DecidableEq, Repr

namespace Terminal

def tickets (terminal : Terminal) : List ℕ :=
  terminal.openings.map fun opening => opening.position.ticket

/-- A new position gets a ticket that no position has had. -/
def «open» (terminal : Terminal) (opening : Opening) : Option Terminal :=
  if opening.position.ticket ∈ terminal.tickets then none
  else some {
    positions := terminal.positions ++ [opening.position]
    openings := terminal.openings ++ [opening] }

def remove (terminal : Terminal) (ticket : ℕ) : Terminal :=
  { terminal with positions := terminal.positions.filter fun position => position.ticket ≠ ticket }

def update (terminal : Terminal) (ticket : ℕ) (volume sl tp : ℚ) : Terminal :=
  { terminal with
    positions := Table.update Position.ticket ticket
      (fun position => { position with volume := volume, sl := sl, tp := tp }) terminal.positions }

/-- `positions_get(ticket=ticket)`. -/
def positionsGet (terminal : Terminal) (ticket : ℤ) : Option Position :=
  Table.lookup (fun position => (position.ticket : ℤ)) ticket terminal.positions

end Terminal

/-- What happens at the terminal without the service. -/
inductive Trade
  | opened (position : Position)
  | removed (ticket : ℕ)
  | updated (ticket : ℕ) (volume sl tp : ℚ)
  deriving DecidableEq, Repr

def Terminal.trade (terminal : Terminal) : Trade → Option Terminal
  | .opened position => terminal.open { position := position }
  | .removed ticket => some (terminal.remove ticket)
  | .updated ticket volume sl tp => some (terminal.update ticket volume sl tp)

/-! ### Requests to the broker -/

inductive BrokerReply
  /-- `TRADE_RETCODE_DONE`, with the ticket of a new position and the price. -/
  | done (order : ℕ) (price : ℚ)
  /-- No result, or one with another code and a comment, after a part of the volume was dealt. -/
  | notDone (comment : Option String) (order : ℕ) (dealt : ℚ)
  deriving DecidableEq, Repr

/-- What the platform answers while an instruction is executed. -/
structure Platform where
  selected : Bool
  /-- Whether there is tick data; the price of a request is taken from it. -/
  hasTick : Bool
  reply : BrokerReply
  lastError : String
  deriving DecidableEq, Repr

/-- The part of the volume that is dealt; nothing if the broker cannot reply so. -/
def BrokerReply.dealt (reply : BrokerReply) (volume : ℚ) : Option ℚ :=
  match reply with
  | .done _ _ => if 0 < volume then some volume else none
  | .notDone _ _ dealt => if dealt = 0 ∨ (0 < dealt ∧ dealt ≤ volume) then some dealt else none

def BrokerReply.order : BrokerReply → ℕ
  | .done order _ | .notDone _ order _ => order

namespace Terminal

/-- `order_send` of a deal that opens the position. -/
def sendOpen (terminal : Terminal) (reply : BrokerReply) (instruction : CopyInstruction)
    (position : Position) : Option Terminal :=
  (reply.dealt position.volume).bind fun dealt =>
    if dealt = 0 then some terminal
    else terminal.open ⟨{ position with ticket := reply.order, volume := dealt }, some instruction⟩

/-- `order_send` of a deal that closes the position. -/
def sendClose (terminal : Terminal) (reply : BrokerReply) (position : Position) : Option Terminal :=
  (reply.dealt position.volume).map fun dealt =>
    if dealt = 0 then terminal
    else if dealt = position.volume then terminal.remove position.ticket
    else terminal.update position.ticket (position.volume - dealt) position.sl position.tp

/-- `order_send` of new stops, which is done only where there is a position. -/
def sendStops (terminal : Terminal) (reply : BrokerReply) (ticket : ℤ) (sl tp : ℚ) : Option Terminal :=
  match terminal.positionsGet ticket, reply with
  | some position, .done _ _ => some (terminal.update position.ticket position.volume sl tp)
  | none, .done _ _ => none
  | some position, .notDone _ _ dealt =>
    some (if dealt = 0 then terminal else terminal.update position.ticket position.volume sl tp)
  | none, .notDone _ _ _ => some terminal

end Terminal

/-! ### Execution -/

/-- What a handler raises. -/
inductive Raised
  | keyError (key : String)
  | valueError
  deriving DecidableEq, Repr

/-- `_failure`. -/
def failure (instruction : CopyInstruction) (reason : String) : ExecutionResult :=
  { copyId := instruction.copyId, status := .failed, reason := some reason }

/-- The reason that is reported for a request that is not done. -/
def Platform.reason (platform : Platform) (comment : Option String) : String :=
  (truthy comment).getD platform.lastError

def comment (instruction : CopyInstruction) : String := "copy:" ++ toString instruction.copyId

section

variable (terminal : Terminal) (platform : Platform) (instruction : CopyInstruction)

/-- The terminal after the call, and what it returns or raises; nothing if the broker cannot reply so. -/
def executeOpen : Option (Terminal × Except Raised ExecutionResult) :=
  if ¬platform.selected then
    some (terminal, .ok (failure instruction ("symbol not available: " ++ instruction.symbol)))
  else
    match platform.hasTick, instruction.side, instruction.volume with
    | false, _, _ =>
      some (terminal, .ok (failure instruction ("no tick data for symbol: " ++ instruction.symbol)))
    | true, none, _ => some (terminal, .error (.keyError "side"))
    | true, some _, none => some (terminal, .error (.keyError "volume"))
    | true, some side, some volume =>
      -- The ticket is the broker's.
      let request : Position := {
        ticket := 0, symbol := instruction.symbol, type := side
        volume := volume, sl := instruction.sl.getD 0, tp := instruction.tp.getD 0
        comment := comment instruction }
      (terminal.sendOpen platform.reply instruction request).map fun terminal =>
        match platform.reply with
        | .done order price => (terminal, .ok {
            copyId := instruction.copyId, status := .executed
            slaveTicket := some (toString order), executionPrice := some price })
        | .notDone comment _ _ =>
          (terminal, .ok (failure instruction ("order_send failed: " ++ platform.reason comment)))

def executeClose : Option (Terminal × Except Raised ExecutionResult) :=
  match instruction.slaveTicket with
  | none => some (terminal, .error (.keyError "slaveTicket"))
  | some text =>
    match Python.int text with
    | none => some (terminal, .error .valueError)
    | some ticket =>
      match terminal.positionsGet ticket, platform.hasTick with
      | none, _ =>
        some (terminal, .ok (failure instruction ("no open position for ticket " ++ toString ticket)))
      | some position, false =>
        some (terminal, .ok (failure instruction ("no tick data for symbol: " ++ position.symbol)))
      | some position, true =>
        (terminal.sendClose platform.reply position).map fun terminal =>
          match platform.reply with
          | .done _ price => (terminal, .ok {
              copyId := instruction.copyId, status := .executed
              slaveTicket := some (toString ticket), executionPrice := some price })
          | .notDone comment _ _ =>
            (terminal, .ok (failure instruction ("close failed: " ++ platform.reason comment)))

def executeModify : Option (Terminal × Except Raised ExecutionResult) :=
  match instruction.slaveTicket with
  | none => some (terminal, .error (.keyError "slaveTicket"))
  | some text =>
    match Python.int text with
    | none => some (terminal, .error .valueError)
    | some ticket =>
      (terminal.sendStops platform.reply ticket (instruction.sl.getD 0) (instruction.tp.getD 0)).map
        fun terminal =>
          match platform.reply with
          | .done _ _ => (terminal, .ok {
              copyId := instruction.copyId, status := .executed, slaveTicket := some (toString ticket) })
          | .notDone comment _ _ =>
            (terminal, .ok (failure instruction ("modify failed: " ++ platform.reason comment)))

/-- `handle_instruction`. -/
def handleInstruction : Option (Terminal × Except Raised ExecutionResult) :=
  match instruction.action with
  | .open => executeOpen terminal platform instruction
  | .close => executeClose terminal platform instruction
  | .modify => executeModify terminal platform instruction
  | .partialClose | .pendingOpen | .pendingModify | .pendingCancel =>
    some (terminal, .ok (failure instruction ("unsupported action: " ++ instruction.action.name)))

end

end Mt5Service

/-! ### The link -/

/-- The backend and the service. The sessions are the sockets that the service has opened, `registered`
is the one in the map of the gateway. -/
structure Mt5Link where
  backend : Config
  service : Server CopyInstruction ExecutionResult := {}
  registered : Option ℕ := none
  terminal : Mt5Service.Terminal := {}
  deriving DecidableEq

inductive Mt5Action
  | backend (action : Action)
  /-- `run_once` connects. -/
  | connect
  /-- The gateway has authenticated the socket. -/
  | register (socket : ℕ)
  /-- The close event of the socket reaches the gateway. -/
  | closed (socket : ℕ)
  /-- The next message of the socket is read. -/
  | receive
  | execute (platform : Mt5Service.Platform)
  /-- `ws.send` of the result. -/
  | send
  /-- `run_once` ends: the connection is lost, or the process is. -/
  | leave
  /-- The next result of the socket arrives. -/
  | arrive (socket : ℕ)
  | trade (trade : Mt5Service.Trade)
  deriving DecidableEq

/-- The slave whose entry in the map of the gateway a stimulus writes. -/
def Stimulus.connection : Stimulus → Option Uuid
  | .connect slaveId _ | .disconnect slaveId => some slaveId
  | _ => none

namespace Mt5Link

/-- The instructions that were pushed to the slave. -/
def pushed (slaveId : Uuid) (deliveries : List Delivery) : List CopyInstruction :=
  (deliveries.filter fun delivery => delivery.transport = .push ∧ delivery.slaveId = slaveId).map
    Delivery.instruction

/-- The socket in the map after an action of the backend. -/
def afterAction (slaveId : Uuid) (link : Mt5Link) (action : Action) : Option ℕ :=
  if action.stimulus.bind Stimulus.connection = some slaveId then none else link.registered

/-- What is pushed is written to the socket that is registered. -/
def write (slaveId : Uuid) (link : Mt5Link) (backend : Config) : Server CopyInstruction ExecutionResult :=
  match link.registered with
  | none => link.service
  | some socket =>
    link.service.write socket (pushed slaveId (link.backend.shared.deliveriesSince backend.shared))

def step (slaveId connectorId : Uuid) (link : Mt5Link) : Mt5Action → Option Mt5Link
  | .backend action =>
    (Backend.step link.backend action).map fun backend =>
      { link with
        backend := backend
        service := link.write slaveId backend
        registered := link.afterAction slaveId action }
  | .connect => link.service.open.map fun service => { link with service := service }
  | .register socket =>
    if socket < link.service.sessions.length then
      (Backend.step link.backend (.arrive (.connect slaveId connectorId))).map fun backend =>
        { link with backend := backend, registered := some socket }
    else
      none
  | .closed socket =>
    if link.registered = some socket then
      (Backend.step link.backend (.arrive (.disconnect slaveId))).map fun backend =>
        { link with backend := backend, registered := none }
    else
      some link
  | .receive => link.service.take.map fun service => { link with service := service }
  | .execute platform =>
    match link.service.phase with
    | .working _ instruction =>
      (Mt5Service.handleInstruction link.terminal platform instruction).bind fun (terminal, outcome) =>
        (link.service.finish outcome.toOption).map fun service =>
          { link with service := service, terminal := terminal }
    | _ => none
  | .send => link.service.reply.map fun service => { link with service := service }
  | .leave => some { link with service := link.service.leave }
  | .arrive socket =>
    (link.service.arrive socket).bind fun (result, service) =>
      let stimulus := .slaveMessage slaveId connectorId (some result)
      (Backend.step link.backend (.arrive stimulus)).map fun backend =>
        { link with backend := backend, service := service }
  | .trade trade => (link.terminal.trade trade).map fun terminal => { link with terminal := terminal }

end Mt5Link

end ForexCopy
