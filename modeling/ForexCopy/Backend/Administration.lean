import ForexCopy.Backend.Portal
import ForexCopy.Library.Trail

/-!
# The administration

The routes behind `requireAdminAuth`: `modules/masters/master.routes.ts`, `modules/slaves/slave.routes.ts`
with `symbolMapping.service.ts`, `registerConnector` and `writeAudit`, and the login of `modules/auth`. A
handler looks up, writes, audits and answers, with an await at each. What `jsonwebtoken` and `bcryptjs` do
with a secret and a password is a parameter. The rest of the backend runs beside the handlers. Requests
that only read are left out, as are numbers that their columns cannot hold.
-/

namespace ForexCopy

/-! ### Bodies -/

/-- The columns of a master or a slave that only the administration uses. -/
structure Account where
  name : String
  accountNumber : String
  broker : String
  server : String
  deriving DecidableEq, Repr

def Account.Valid (account : Account) : Prop :=
  ∀ text ∈ [account.name, account.accountNumber, account.broker, account.server], text ≠ ""

instance (account : Account) : Decidable account.Valid := inferInstanceAs (Decidable (∀ text ∈ _, _))

structure CreateMasterInput where
  account : Account
  platform : String := "MT5"
  deriving DecidableEq, Repr

def CreateMasterInput.Valid (input : CreateMasterInput) : Prop := input.account.Valid

instance (input : CreateMasterInput) : Decidable input.Valid := inferInstanceAs (Decidable input.account.Valid)

/-- The settings are those of `updateSlaveSchema` without `copyEnabled`. -/
structure CreateSlaveInput where
  masterId : Uuid
  account : Account
  platform : String := "MT5"
  settings : UpdateSlaveInput := {}
  deriving DecidableEq, Repr

def CreateSlaveInput.Valid (input : CreateSlaveInput) : Prop :=
  input.account.Valid ∧ input.settings.Valid

instance (input : CreateSlaveInput) : Decidable input.Valid := inferInstanceAs (Decidable (_ ∧ _))

structure CreateSymbolMappingInput where
  masterSymbol : String
  slaveSymbol : String
  deriving DecidableEq, Repr

def CreateSymbolMappingInput.Valid (input : CreateSymbolMappingInput) : Prop :=
  input.masterSymbol ≠ "" ∧ input.slaveSymbol ≠ ""

instance (input : CreateSymbolMappingInput) : Decidable input.Valid := inferInstanceAs (Decidable (_ ∧ _))

/-- A request with what its body parses to, if it is not refused; a connector with the token that is
generated for it. -/
inductive AdminRequest
  | createMaster (body : Option CreateMasterInput)
  | createSlave (body : Option CreateSlaveInput)
  | updateSlave (id : Uuid) (body : Option UpdateSlaveInput)
  | registerConnector (owner : ConnectorOwner) (token : String)
  | setSymbolMapping (slaveId : Uuid) (body : Option CreateSymbolMappingInput)
  | deleteSymbolMapping (slaveId mappingId : Uuid)
  deriving DecidableEq

def AdminRequest.successCode : AdminRequest → ℕ
  | .createMaster _ | .createSlave _ | .registerConnector _ _ | .setSymbolMapping _ _ => 201
  | .updateSlave _ _ => 200
  | .deleteSymbolMapping _ _ => 204

/-! ### The columns of a slave that a request may change -/

inductive SlaveColumn
  | copyEnabled | copyMode | fixedLot | multiplier | minLot | maxLot | lotStep
  | emergencyStop | allowedSymbols | blockedSymbols | maxPositions | maxExposure
  deriving DecidableEq, Repr

inductive ColumnValue
  | null
  | flag (value : Bool)
  | mode (value : CopyMode)
  | number (value : ℕ)
  /-- A `Decimal`, which is serialized as a string. -/
  | decimal (value : ℚ)
  | symbols (value : List String)
  deriving DecidableEq, Repr

def Slave.column (slave : Slave) : SlaveColumn → ColumnValue
  | .copyEnabled => .flag slave.copyEnabled
  | .copyMode => .mode slave.copyMode
  | .fixedLot => (slave.fixedLot.map fun lot => .decimal lot.value).getD .null
  | .multiplier => .decimal slave.multiplier.value
  | .minLot => .decimal slave.minLot.value
  | .maxLot => .decimal slave.maxLot.value
  | .lotStep => .decimal slave.lotStep.value
  | .emergencyStop => .flag slave.emergencyStop
  | .allowedSymbols => .symbols slave.allowedSymbols
  | .blockedSymbols => .symbols slave.blockedSymbols
  | .maxPositions => (slave.maxPositions.map .number).getD .null
  | .maxExposure => (slave.maxExposure.map fun exposure => .decimal exposure.value).getD .null

/-- `Object.keys(parsed.data)`. -/
def UpdateSlaveInput.changedKeys (input : UpdateSlaveInput) : List SlaveColumn :=
  [(SlaveColumn.copyEnabled, input.copyEnabled.isSome), (.copyMode, input.copyMode.isSome),
    (.fixedLot, input.fixedLot.isSome), (.multiplier, input.multiplier.isSome),
    (.minLot, input.minLot.isSome), (.maxLot, input.maxLot.isSome), (.lotStep, input.lotStep.isSome),
    (.emergencyStop, input.emergencyStop.isSome), (.allowedSymbols, input.allowedSymbols.isSome),
    (.blockedSymbols, input.blockedSymbols.isSome), (.maxPositions, input.maxPositions.isSome),
    (.maxExposure, input.maxExposure.isSome)].filterMap fun (column, present) =>
      if present then some column else none

/-- `pick(source)`. -/
def UpdateSlaveInput.pick (input : UpdateSlaveInput) (source : Slave) : List (SlaveColumn × ColumnValue) :=
  Trail.pick input.changedKeys source.column

/-! ### The audit log -/

inductive AuditAction
  | masterCreated | slaveCreated | slaveUpdated | connectorRegistered
  | symbolMappingSet | symbolMappingDeleted
  deriving DecidableEq, Repr

inductive AuditEntity
  | master (id : Uuid)
  | slave (id : Uuid)
  | connector (id : Uuid)
  deriving DecidableEq, Repr

inductive AuditValue
  | master (master : Master) (input : CreateMasterInput)
  | slave (slave : Slave) (account : Account)
  | columns (values : List (SlaveColumn × ColumnValue))
  | owner (owner : ConnectorOwner)
  | mapping (masterSymbol slaveSymbol : String)
  | mappingId (id : Uuid)
  deriving DecidableEq, Repr

structure AuditRecord where
  actor : String := "admin"
  action : AuditAction
  entity : AuditEntity
  oldValue : Option AuditValue := none
  newValue : Option AuditValue := none
  ip : Option String
  deriving DecidableEq, Repr

/-! ### Calls -/

structure AdminTokenPayload where
  adminId : Uuid
  username : String
  deriving DecidableEq, Repr

inductive AdminPoint
  | createMaster (input : CreateMasterInput)
  | findMaster (input : CreateSlaveInput)
  | createSlave (input : CreateSlaveInput)
  | findSlave (id : Uuid) (input : UpdateSlaveInput)
  | updateSlave (existing : Slave) (input : UpdateSlaveInput)
  | findOwner (owner : ConnectorOwner) (token : String)
  | createConnector (owner : ConnectorOwner) (token : String)
  | findMappedSlave (slaveId : Uuid) (body : Option CreateSymbolMappingInput)
  | upsertMapping (slaveId : Uuid) (input : CreateSymbolMappingInput)
  | deleteMapping (slaveId mappingId : Uuid)
  | audit (record : AuditRecord)
  deriving DecidableEq

/-- A suspended handler, with the administrator whose token it was let in with. -/
structure AdminCall where
  admin : AdminTokenPayload
  ip : Option String
  request : AdminRequest
  point : AdminPoint
  deriving DecidableEq

structure Admin where
  id : Uuid
  username : String
  passwordHash : String
  deriving DecidableEq, Repr

/-- The world and the columns of its rows that only the administration uses: a mapping's identifier stands
beside its key, and is not used again when the mapping is deleted. The last two are logs, of the tokens
handed out by `login` and of the answers. -/
structure Registry where
  world : World := {}
  masterInputs : List (Uuid × CreateMasterInput) := []
  slaveAccounts : List (Uuid × Account) := []
  mappingIds : List (Uuid × Uuid × String) := []
  deletedMappings : List Uuid := []
  tokenHashes : List (Uuid × String) := []
  admins : List Admin := []
  auditLog : List AuditRecord := []
  issued : List (String × AdminTokenPayload) := []
  answered : List (AdminRequest × ℕ) := []
  deriving DecidableEq

namespace Registry

def answer (r : Registry) (request : AdminRequest) (code : ℕ) : Registry :=
  { r with answered := r.answered ++ [(request, code)] }

def writeAudit (r : Registry) (record : AuditRecord) : Registry :=
  { r with auditLog := r.auditLog ++ [record] }

/-! ### The writes of the handlers -/

/-- An account number that is taken violates the unique index. -/
def createMaster (r : Registry) (input : CreateMasterInput) : Option (Registry × Master) :=
  if input.account.accountNumber ∈ r.masterInputs.map fun entry => entry.2.account.accountNumber then none
  else
    let master : Master := { id := Table.fresh (r.world.masters.map Master.id) }
    some ({ r with
      world := { r.world with masters := r.world.masters ++ [master] }
      masterInputs := r.masterInputs ++ [(master.id, input)] }, master)

def slaveRow (id : Uuid) (input : CreateSlaveInput) : Slave :=
  Slave.patch { input.settings with copyEnabled := none }
    { id := id, masterId := input.masterId, platform := input.platform }

def createSlave (r : Registry) (input : CreateSlaveInput) : Option (Registry × Slave) :=
  if input.account.accountNumber ∈ r.slaveAccounts.map fun entry => entry.2.accountNumber then none
  else
    let slave := slaveRow (Table.fresh (r.world.slaves.map Slave.id)) input
    some ({ r with
      world := { r.world with slaves := r.world.slaves ++ [slave] }
      slaveAccounts := r.slaveAccounts ++ [(slave.id, input.account)] }, slave)

def createConnector (hashToken : String → String) (r : Registry) (owner : ConnectorOwner)
    (token : String) : Option (Registry × Connector) :=
  if hashToken token ∈ r.tokenHashes.map Prod.snd then none
  else
    let connector := Portal.connectorRow (Table.fresh (r.world.connectors.map Connector.id)) owner
    some ({ r with
      world := { r.world with connectors := r.world.connectors ++ [connector] }
      tokenHashes := r.tokenHashes ++ [(connector.id, hashToken token)] }, connector)

/-- A mapping that exists keeps its identifier. -/
def upsertSymbolMapping (r : Registry) (slaveId : Uuid) (masterSymbol slaveSymbol : String) : Registry :=
  let key := (slaveId, masterSymbol)
  { r with
    world := r.world.upsertSymbolMapping slaveId masterSymbol slaveSymbol
    mappingIds :=
      if (r.mappingIds.map Prod.snd).contains key then r.mappingIds
      else r.mappingIds ++ [(Table.fresh (r.mappingIds.map Prod.fst ++ r.deletedMappings), key)] }

/-- The mapping of the identifier, if it is the slave's. -/
def mappingKey (r : Registry) (slaveId mappingId : Uuid) : Option (Uuid × String) :=
  ((Table.lookup Prod.fst mappingId r.mappingIds).map Prod.snd).filter fun key => key.1 = slaveId

/-- The registry after the call, and whether there was one to delete. -/
def deleteSymbolMapping (r : Registry) (slaveId mappingId : Uuid) : Registry × Bool :=
  match r.mappingKey slaveId mappingId with
  | none => (r, false)
  | some key =>
    ({ r with
      world := r.world.deleteSymbolMapping slaveId key.2
      mappingIds := r.mappingIds.filter fun entry => entry.1 ≠ mappingId
      deletedMappings := r.deletedMappings ++ [mappingId] }, true)

end Registry

/-! ### The handlers -/

namespace AdminCall

variable (call : AdminCall) (reply : Reply) (r : Registry)

/-- What the handler throws is answered 500. -/
def fail (r : Registry) : Registry × List AdminCall := (r.answer call.request 500, [])

/-- The last await of the handler, after which it answers. -/
def finish (code : ℕ) : Registry × List AdminCall :=
  if reply.Resolves then (r.answer call.request code, []) else call.fail r

/-- The handler goes on behind a read. -/
def goOn (point : AdminPoint) : Registry × List AdminCall :=
  if reply.Resolves then (r, [{ call with point := point }]) else call.fail r

/-- The handler goes on behind a write, with its audit record. -/
def commit (written : Registry) (record : AuditRecord) : Registry × List AdminCall :=
  match reply with
  | .ok | .swapped => (written, [{ call with point := .audit record }])
  | .rejected => call.fail r
  | .lost => call.fail written

def step (hashToken : String → String) (call : AdminCall) (reply : Reply) (r : Registry) :
    Registry × List AdminCall :=
  match call.point with
  | .createMaster input =>
    match r.createMaster input with
    | none => call.fail r
    | some (written, master) =>
      call.commit reply r written
        { action := .masterCreated, entity := .master master.id, ip := call.ip
          newValue := some (.master master input) }
  | .findMaster input =>
    if r.world.masters.any fun master => master.id = input.masterId then
      call.goOn reply r (.createSlave input)
    else call.finish reply r 404
  | .createSlave input =>
    match r.createSlave input with
    | none => call.fail r
    | some (written, slave) =>
      call.commit reply r written
        { action := .slaveCreated, entity := .slave slave.id, ip := call.ip
          newValue := some (.slave slave input.account) }
  | .findSlave id input =>
    match Table.lookup Slave.id id r.world.slaves with
    | none => call.finish reply r 404
    | some existing => call.goOn reply r (.updateSlave existing input)
  | .updateSlave existing input =>
    match Table.lookup Slave.id existing.id r.world.slaves with
    | none => call.fail r
    | some row =>
      call.commit reply r { r with world := r.world.updateSlave existing.id (Slave.patch input) }
        { action := .slaveUpdated, entity := .slave existing.id, ip := call.ip
          oldValue := some (.columns (input.pick existing))
          newValue := some (.columns (input.pick (row.patch input))) }
  | .findOwner owner token =>
    if Portal.ownerExists r.world owner then call.goOn reply r (.createConnector owner token)
    else call.finish reply r 404
  | .createConnector owner token =>
    match r.createConnector hashToken owner token with
    | none => call.fail r
    | some (written, connector) =>
      call.commit reply r written
        { action := .connectorRegistered, entity := .connector connector.id, ip := call.ip
          newValue := some (.owner owner) }
  | .findMappedSlave slaveId body =>
    if r.world.slaves.any fun slave => slave.id = slaveId then
      match body.filter fun input => input.Valid with
      | none => call.finish reply r 400
      | some input => call.goOn reply r (.upsertMapping slaveId input)
    else call.finish reply r 404
  | .upsertMapping slaveId input =>
    call.commit reply r (r.upsertSymbolMapping slaveId input.masterSymbol input.slaveSymbol)
      { action := .symbolMappingSet, entity := .slave slaveId, ip := call.ip
        newValue := some (.mapping input.masterSymbol input.slaveSymbol) }
  | .deleteMapping slaveId mappingId =>
    match r.deleteSymbolMapping slaveId mappingId with
    | (_, false) => call.finish reply r 404
    | (written, true) =>
      call.commit reply r written
        { action := .symbolMappingDeleted, entity := .slave slaveId, ip := call.ip
          oldValue := some (.mappingId mappingId) }
  | .audit record =>
    match reply with
    | .ok | .swapped => ((r.writeAudit record).answer call.request call.request.successCode, [])
    | .rejected => call.fail r
    | .lost => call.fail (r.writeAudit record)

end AdminCall

/-! ### Authentication -/

/-- `jwt.verify` and `jwt.sign` with the secret and the lifetime of the environment, and
`bcrypt.compare`. -/
structure AdminCrypto where
  verify : (now : DateTime) → (token : String) → Option AdminTokenPayload
  sign : (now : DateTime) → AdminTokenPayload → String
  compare : (password passwordHash : String) → Bool

/-- The token of the header, even an empty one, or else that of the query. -/
def adminToken (authHeader queryToken : Option String) : Option String :=
  let headerToken := authHeader.bind fun header =>
    if "Bearer ".toList.isPrefixOf header.toList then some (String.ofList (header.toList.drop 7))
    else none
  headerToken <|> queryToken

def AdminCrypto.requireAdminAuth (crypto : AdminCrypto) (now : DateTime)
    (authHeader queryToken : Option String) : Option AdminTokenPayload :=
  ((adminToken authHeader queryToken).filter (· ≠ "")).bind (crypto.verify now)

/-- `login`: a bad username and a bad password are not told apart. -/
def Registry.login (crypto : AdminCrypto) (r : Registry) (username password : String) :
    Option (String × AdminTokenPayload) :=
  ((Table.lookup Admin.username username r.admins).filter fun admin =>
      crypto.compare password admin.passwordHash).map fun admin =>
    let payload : AdminTokenPayload := { adminId := admin.id, username := admin.username }
    (crypto.sign r.world.now payload, payload)

/-- What a handler does before its first await. -/
def AdminRequest.start : AdminRequest → Except ℕ AdminPoint
  | .createMaster body =>
    match body.filter fun input => input.Valid with
    | none => .error 400
    | some input => .ok (.createMaster input)
  | .createSlave body =>
    match body.filter fun input => input.Valid with
    | none => .error 400
    | some input => .ok (.findMaster input)
  | .updateSlave id body =>
    match body.filter fun input => input.Valid with
    | none => .error 400
    | some input => .ok (.findSlave id input)
  | .registerConnector owner token => .ok (.findOwner owner token)
  | .setSymbolMapping slaveId body => .ok (.findMappedSlave slaveId body)
  | .deleteSymbolMapping slaveId mappingId => .ok (.deleteMapping slaveId mappingId)

/-! ### The machine -/

inductive RegistryCall
  | admin (call : AdminCall)
  | backend (task : Task)
  deriving DecidableEq

def RegistryCall.step (hashToken : String → String) (reply : Reply) (r : Registry) :
    RegistryCall → Registry × List RegistryCall
  | .admin call =>
    let (written, next) := call.step hashToken reply r
    (written, next.map .admin)
  | .backend task =>
    let (world, next) := task.step reply r.world
    ({ r with world := world }, next.map .backend)

inductive RegistryArrival
  | request (authHeader queryToken ip : Option String) (request : AdminRequest)
  | login (username password : String)
  | backend (stimulus : Stimulus)
  deriving DecidableEq

/-- The routes of this machine stand for these stimuli. -/
def Stimulus.administrative : Stimulus → Bool
  | .patchSlave _ _ | .upsertSymbolMapping _ _ _ | .deleteSymbolMapping _ _ => true
  | _ => false

def RegistryArrival.apply (crypto : AdminCrypto) (r : Registry) :
    RegistryArrival → Option (Registry × List RegistryCall)
  | .request authHeader queryToken ip asked =>
    match crypto.requireAdminAuth r.world.now authHeader queryToken with
    | none => some (r.answer asked 401, [])
    | some admin =>
      match asked.start with
      | .error code => some (r.answer asked code, [])
      | .ok point => some (r, [.admin ⟨admin, ip, asked, point⟩])
  | .login username password =>
    -- `loginSchema` refuses an empty string.
    if username = "" ∨ password = "" then some (r, [])
    else some ({ r with issued := r.issued ++ (r.login crypto username password).toList }, [])
  | .backend stimulus =>
    if stimulus.administrative then none
    else
      let (world, tasks) := stimulus.apply r.world
      some ({ r with world := world }, tasks.map .backend)

inductive RegistryAction
  | resume (i : ℕ) (reply : Reply)
  | arrive (arrival : RegistryArrival)
  deriving DecidableEq

def Registry.step (crypto : AdminCrypto) (hashToken : String → String) (c : Pool Registry RegistryCall) :
    RegistryAction → Option (Pool Registry RegistryCall)
  | .resume i reply => c.resume (RegistryCall.step hashToken) i reply
  | .arrive arrival =>
    (arrival.apply crypto c.shared).map fun (registry, calls) => c.arrive registry calls

namespace Sample

/-- There is one token, and a password is its own hash. -/
def adminCrypto : AdminCrypto where
  verify _ token := if token = "jwt" then some ⟨1, "admin"⟩ else none
  sign _ _ := "jwt"
  compare password passwordHash := password = passwordHash

/-- One administrator, one master. -/
def registry : Pool Registry RegistryCall where
  shared :=
    { world := { masters := [{ id := 1 }] }
      masterInputs := [(1, { account := ⟨"Master", "7", "Broker", "Server"⟩ })]
      admins := [⟨1, "admin", "secret"⟩] }
  tasks := []

def settled (n : ℕ) : List RegistryAction := List.replicate n (.resume 0 .ok)

/-- The administrator logs in, adds a slave with a connector, and stops it. -/
def administered : List RegistryAction :=
  .arrive (.login "admin" "secret") ::
  .arrive (.request none (some "jwt") none
    (.createSlave (some { masterId := 1, account := ⟨"Slave", "8", "Broker", "Server"⟩ }))) :: settled 3 ++
  .arrive (.request none (some "jwt") none (.registerConnector (.slave 1) "token")) :: settled 3 ++
  .arrive (.request (some "Bearer jwt") none none
    (.updateSlave 1 (some { emergencyStop := some true }))) :: settled 3

end Sample

end ForexCopy
