import ForexCopy.Backend.World
import ForexCopy.Library.Schema
import ForexCopy.Wire.JsonBuilder

/-!
# Execution results on the wire

The texts of `SuccessResult` and `FailureResult` of `connectors/slave-ea-mt4/ForexCopySlaveEA.mq4`, and
`executionResultSchema` of `types/copyOrder.ts`, which `POST /api/connectors/execution-result` reads them
with.
-/

namespace ForexCopy

open Utf16 Mql

namespace Mt4

def successResult (copyId slaveTicket : Text) (executionPrice : ℚ) : Text :=
  let json : JsonBuilder := {}
  let json := json.addString (ofString "copyId") copyId
  let json := json.addString (ofString "status") (ofString "EXECUTED")
  let json := json.addString (ofString "slaveTicket") slaveTicket
  let json := if executionPrice > 0 then json.addNumber (ofString "executionPrice") executionPrice 5
    else json
  json.build

def failureResult (copyId reason : Text) : Text :=
  let json : JsonBuilder := {}
  let json := json.addString (ofString "copyId") copyId
  let json := json.addString (ofString "status") (ofString "FAILED")
  let json := json.addString (ofString "reason") reason
  json.build

end Mt4

def ExecutionStatus.name : ExecutionStatus → String
  | .executed => "EXECUTED"
  | .failed => "FAILED"

/-- The texts of the identifiers. -/
structure UuidTexts where
  text : Uuid → String
  /-- The identifier that a text names. -/
  read : String → Uuid
  read_text : ∀ id, read (text id) = id

open Schema in
def executionResultSchema (uuids : UuidTexts) : Schema ExecutionResult :=
  object fun members => do
    let copyId ← required "copyId" nonempty members
    let status ← required "status" (enum ExecutionStatus.name [.executed, .failed]) members
    let slaveTicket ← optional "slaveTicket" string members
    let executionPrice ← optional "executionPrice" number members
    let reason ← optional "reason" string members
    some { copyId := uuids.read copyId, status, slaveTicket, executionPrice, reason }

/-- The result in the body of a request, unless it is answered 400. -/
def ExecutionResult.ofBody (uuids : UuidTexts) (body : Text) : Option ExecutionResult :=
  (Json.parse body).bind (executionResultSchema uuids)

end ForexCopy
