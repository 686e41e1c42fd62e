import ForexCopy.Library.Decimal
import ForexCopy.Library.Table

/-!
# The database

The rows of `db/prisma/schema.prisma` that the copy path reads and writes, with the columns it uses.
Identifiers are generated and never compared except for equality, so they are natural numbers; times
are milliseconds. Lots, prices and limits are unsigned decimals because every schema that admits them
asks for a positive number; an equity and an execution price may be of either sign.
-/

namespace ForexCopy

/-- A generated identifier. -/
abbrev Uuid := ℕ

/-- Milliseconds on the backend's clock. -/
abbrev DateTime := ℕ

inductive SlaveStatus
  | online | offline | connecting | error | disabled
  deriving DecidableEq, Repr

inductive ConnectorStatus
  | online | offline | connecting | error
  deriving DecidableEq, Repr

inductive TradeEventType
  | «open» | close | modify | partialClose | pendingOpen | pendingModify | pendingCancel
  deriving DecidableEq, Repr

inductive TradeSide
  | buy | sell
  deriving DecidableEq, Repr

inductive CopyOrderStatus
  | pending | sent | executed | failed | rejected
  deriving DecidableEq, Repr

inductive CopyMode
  | fixedLot | multiplier | balanceProportional | equityProportional
  deriving DecidableEq, Repr

structure Master where
  id : Uuid
  balance : Option (Decimal 2) := none
  equity : Option (SignedDecimal 2) := none
  deriving DecidableEq, Repr

structure Slave where
  id : Uuid
  masterId : Uuid
  platform : String := "MT5"
  status : SlaveStatus := .connecting
  copyEnabled : Bool := true
  copyMode : CopyMode := .multiplier
  fixedLot : Option (Decimal 2) := none
  multiplier : Decimal 4 := ⟨10000⟩
  minLot : Decimal 2 := ⟨1⟩
  maxLot : Decimal 2 := ⟨1000⟩
  lotStep : Decimal 2 := ⟨1⟩
  balance : Option (Decimal 2) := none
  equity : Option (SignedDecimal 2) := none
  emergencyStop : Bool := false
  allowedSymbols : List String := []
  blockedSymbols : List String := []
  maxPositions : Option ℕ := none
  maxExposure : Option (Decimal 2) := none
  deriving DecidableEq, Repr

structure SymbolMapping where
  slaveId : Uuid
  masterSymbol : String
  slaveSymbol : String
  deriving DecidableEq, Repr

structure Connector where
  id : Uuid
  masterId : Option Uuid := none
  slaveId : Option Uuid := none
  status : ConnectorStatus := .connecting
  lastHeartbeatAt : Option DateTime := none
  deriving DecidableEq, Repr

structure TradeEvent where
  id : Uuid
  eventId : String
  masterId : Uuid
  masterTicket : String
  type : TradeEventType
  symbol : String
  side : Option TradeSide
  volume : Option (Decimal 2)
  price : Option (Decimal 5)
  sl : Option (Decimal 5)
  tp : Option (Decimal 5)
  deriving DecidableEq, Repr

structure CopyOrder where
  id : Uuid
  tradeEventId : Uuid
  masterId : Uuid
  slaveId : Uuid
  masterTicket : String
  type : TradeEventType
  status : CopyOrderStatus := .pending
  requestedVolume : Option (Decimal 2) := none
  slaveTicket : Option String := none
  executionPrice : Option (SignedDecimal 5) := none
  errorReason : Option String := none
  sentAt : Option DateTime := none
  executedAt : Option DateTime := none
  deriving DecidableEq, Repr

/-- A copy order is finished once its result or its failure is recorded. -/
def CopyOrder.Finished (order : CopyOrder) : Prop :=
  order.status = .executed ∨ order.status = .failed

instance (order : CopyOrder) : Decidable order.Finished :=
  inferInstanceAs (Decidable (_ ∨ _))

/-- The key of the unique constraint on `copy_orders`. -/
def CopyOrder.dispatchKey (order : CopyOrder) : Uuid × Uuid := (order.tradeEventId, order.slaveId)

end ForexCopy
