import ForexCopy.Backend.World
import ForexCopy.Library.Tasks

/-!
# Suspended calls

One constructor for each asynchronous function of the backend, with its arguments and the await it is
suspended at. A point carries what the function has computed and will still use.
-/

namespace ForexCopy

/-- The master's figures, read once for all slaves of an event. -/
structure MasterAccount where
  masterBalance : Option ℚ
  masterEquity : Option ℚ
  deriving DecidableEq, Repr

/-- The arguments of `copyToSlave`. The slave row is the one the fan-out read. -/
structure CopyRun where
  slave : Slave
  tradeEventId : Uuid
  event : NormalizedTradeEvent
  masterAccount : MasterAccount
  deriving DecidableEq

inductive CopyPoint
  | resolveSymbol
  | findTicket (resolvedSymbol : String)
  /-- Both queries of `getCopyOrderPositions` are under way. -/
  | readPositions (resolvedSymbol : String)
  | readCloses (resolvedSymbol : String) (opens : List CopyOrder)
  | readOpens (resolvedSymbol : String) (closes : List CopyOrder)
  | failOrder (reason : String) (requestedVolume : Option ℚ)
  | createOrder (resolvedSymbol : String) (slaveTicket : Option String) (volume : Option ℚ)
  | findConnector (copyId : Uuid)
  | markOffline (copyId : Uuid)
  | markSent (copyId : Uuid) (sent : Bool)
  deriving DecidableEq

inductive EventPoint
  | findEvent
  | sleep
  | findEventAgain
  | findSlaves (tradeEventId : Uuid)
  | findMaster (tradeEventId : Uuid) (slaves : List Slave)
  deriving DecidableEq

inductive MessagePoint
  | findOrder
  | record (order : CopyOrder)
  deriving DecidableEq

inductive PollPoint
  | findOrder
  | findTicket (order : CopyOrder) (tradeEvent : TradeEvent)
  | markFailed (order : CopyOrder)
  | resolveSymbol (order : CopyOrder) (tradeEvent : TradeEvent) (slaveTicket : Option String)
  | markSent (instruction : CopyInstruction)
  deriving DecidableEq

inductive IngestPoint
  | setKey
  | publish
  deriving DecidableEq

inductive HeartbeatPoint
  | setKey
  | updateConnector
  | updateOwner (connector : Connector)
  deriving DecidableEq

inductive Task
  | ingest (event : NormalizedTradeEvent) (point : IngestPoint)
  | persist (event : NormalizedTradeEvent)
  | heartbeat (connectorId : Uuid) (accountInfo : Option AccountSnapshot) (time : DateTime)
      (point : HeartbeatPoint)
  | masterEvent (event : NormalizedTradeEvent) (point : EventPoint)
  | copy (run : CopyRun) (point : CopyPoint)
  | message (slaveId : Uuid) (result : ExecutionResult) (point : MessagePoint)
  | poll (slaveId : Uuid) (point : PollPoint)
  deriving DecidableEq

end ForexCopy
