import ForexCopy.Backend.Task

/-!
# Connectors and slaves

The parts of `modules/connectors/connector.service.ts` and `modules/slaves/slave.routes.ts` that the
copy path depends on: heartbeats, which keep a connector online and its owner's account figures
current, and changes of a slave's configuration. Reported positions and audit records are left out.
-/

namespace ForexCopy

/-! ### `recordHeartbeat` -/

def World.updateConnector (w : World) (id : Uuid) (change : Connector → Connector) : World :=
  { w with connectors := Table.update Connector.id id change w.connectors }

def World.updateMaster (w : World) (id : Uuid) (change : Master → Master) : World :=
  { w with masters := Table.update Master.id id change w.masters }

def World.updateSlave (w : World) (id : Uuid) (change : Slave → Slave) : World :=
  { w with slaves := Table.update Slave.id id change w.slaves }

/-- The account figures, written to whichever entity the connector belongs to. -/
def World.updateAccount (w : World) (connector : Connector) (account : AccountSnapshot) : World :=
  match connector.masterId, connector.slaveId with
  | some masterId, _ =>
    w.updateMaster masterId fun master =>
      { master with
        balance := some (Decimal.ofNumber 2 account.balance)
        equity := some (SignedDecimal.ofNumber 2 account.equity) }
  | none, some slaveId =>
    w.updateSlave slaveId fun slave =>
      { slave with
        balance := some (Decimal.ofNumber 2 account.balance)
        equity := some (SignedDecimal.ofNumber 2 account.equity) }
  | none, none => w

def heartbeatStep (reply : Reply) (w : World) (connectorId : Uuid)
    (accountInfo : Option AccountSnapshot) (time : DateTime) : HeartbeatPoint → World × List Task
  | .setKey => reply.query w [.heartbeat connectorId accountInfo time .updateConnector]
  | .updateConnector =>
    match Table.lookup Connector.id connectorId w.connectors with
    | none => (w, [])
    | some connector =>
      reply.settle w
        (w.updateConnector connectorId fun connector =>
          { connector with lastHeartbeatAt := some time, status := .online })
        (if accountInfo.isSome then
          [.heartbeat connectorId accountInfo time (.updateOwner connector)]
        else [])
  | .updateOwner connector =>
    match accountInfo with
    | none => (w, [])
    | some account => reply.settle w (w.updateAccount connector account) []

/-- Marks as offline what was online without a heartbeat since `staleBefore`. -/
def World.sweepOfflineConnectors (w : World) (staleBefore : DateTime) : World :=
  { w with
    connectors := w.connectors.map fun connector =>
      if connector.status = .online ∧ ∀ time ∈ connector.lastHeartbeatAt, time < staleBefore then
        { connector with status := .offline }
      else
        connector }

/-! ### `PATCH /api/slaves/:id` -/

structure UpdateSlaveInput where
  copyEnabled : Option Bool := none
  copyMode : Option CopyMode := none
  fixedLot : Option ℚ := none
  multiplier : Option ℚ := none
  minLot : Option ℚ := none
  maxLot : Option ℚ := none
  lotStep : Option ℚ := none
  emergencyStop : Option Bool := none
  allowedSymbols : Option (List String) := none
  blockedSymbols : Option (List String) := none
  maxPositions : Option ℕ := none
  maxExposure : Option ℚ := none
  deriving DecidableEq, Repr

def UpdateSlaveInput.Valid (input : UpdateSlaveInput) : Prop :=
  (∀ number ∈ [input.fixedLot, input.multiplier, input.minLot, input.maxLot, input.lotStep,
    input.maxExposure], ∀ value ∈ number, 0 < value) ∧
  (∀ symbols ∈ [input.allowedSymbols, input.blockedSymbols], ∀ list ∈ symbols, "" ∉ list) ∧
  ∀ maxPositions ∈ input.maxPositions, 0 < maxPositions

instance (input : UpdateSlaveInput) : Decidable input.Valid :=
  inferInstanceAs (Decidable (_ ∧ _ ∧ _))

/-- The row after the update: a field that the request leaves out keeps its value. -/
def Slave.patch (input : UpdateSlaveInput) (slave : Slave) : Slave :=
  { slave with
    copyEnabled := input.copyEnabled.getD slave.copyEnabled
    copyMode := input.copyMode.getD slave.copyMode
    fixedLot := (input.fixedLot.map (Decimal.ofNumber 2)) <|> slave.fixedLot
    multiplier := (input.multiplier.map (Decimal.ofNumber 4)).getD slave.multiplier
    minLot := (input.minLot.map (Decimal.ofNumber 2)).getD slave.minLot
    maxLot := (input.maxLot.map (Decimal.ofNumber 2)).getD slave.maxLot
    lotStep := (input.lotStep.map (Decimal.ofNumber 2)).getD slave.lotStep
    emergencyStop := input.emergencyStop.getD slave.emergencyStop
    allowedSymbols := input.allowedSymbols.getD slave.allowedSymbols
    blockedSymbols := input.blockedSymbols.getD slave.blockedSymbols
    maxPositions := input.maxPositions <|> slave.maxPositions
    maxExposure := (input.maxExposure.map (Decimal.ofNumber 2)) <|> slave.maxExposure }

/-- The committed update; a request that is not valid, or for no slave, changes nothing. -/
def World.patchSlave (w : World) (id : Uuid) (input : UpdateSlaveInput) : World :=
  if input.Valid then w.updateSlave id (Slave.patch input) else w

/-! ### Symbol mappings -/

def World.upsertSymbolMapping (w : World) (slaveId : Uuid) (masterSymbol slaveSymbol : String) :
    World :=
  { w with
    symbolMappings :=
      w.symbolMappings.filter (fun mapping =>
        ¬(mapping.slaveId = slaveId ∧ mapping.masterSymbol = masterSymbol)) ++
      [⟨slaveId, masterSymbol, slaveSymbol⟩] }

def World.deleteSymbolMapping (w : World) (slaveId : Uuid) (masterSymbol : String) : World :=
  { w with
    symbolMappings := w.symbolMappings.filter fun mapping =>
      ¬(mapping.slaveId = slaveId ∧ mapping.masterSymbol = masterSymbol) }

end ForexCopy
