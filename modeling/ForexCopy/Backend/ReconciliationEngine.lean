import ForexCopy.Backend.CopyOrderQueries

/-!
# The reconciliation engine

`modules/reconciliation/reconciliationEngine.ts`: the positions of the master, the books of the system
and the positions of the slave, compared. A difference is what subtraction of doubles makes of it. Each
loop of `compareState` is the list of the findings it pushes, and a `Map` made from a list has the last
entry of each key.
-/

namespace ForexCopy

structure MasterPositionInfo where
  ticket : String
  symbol : String
  volume : ℚ
  deriving DecidableEq

structure SlavePositionInfo where
  ticket : String
  symbol : String
  volume : ℚ
  sl : Option ℚ := none
  tp : Option ℚ := none
  comment : Option String := none
  deriving DecidableEq

structure OpenCopyInfo where
  copyId : String
  masterTicket : String
  slaveTicket : Option String
  requestedVolume : Option ℚ
  deriving DecidableEq

structure ClosedCopyInfo where
  masterTicket : String
  slaveTicket : Option String
  deriving DecidableEq

structure ExpectedSlTp where
  sl : Option ℚ
  tp : Option ℚ
  deriving DecidableEq

inductive FindingType
  | missingCopy | slavePositionMissing | volumeMismatch | sltpMismatch | slaveNotClosed
  | unexpectedSlavePosition | duplicateSlavePosition
  deriving DecidableEq, Repr

inductive FindingDetails
  | none
  | missing (symbol : String) (volume : ℚ)
  | volumes (expected actual : ℚ)
  | stops (expectedSl expectedTp actualSl actualTp : Option ℚ)
  | unexpected (symbol : String) (volume : ℚ) (comment : Option String)
  | duplicate (copyId : String) (duplicateCount : ℕ)
  deriving DecidableEq

structure Finding where
  type : FindingType
  masterTicket : Option String := none
  slaveTicket : Option String := none
  details : FindingDetails := .none
  deriving DecidableEq

structure CompareStateInput where
  masterPositions : List MasterPositionInfo
  openCopies : List OpenCopyInfo
  closedCopies : List ClosedCopyInfo
  slavePositions : List SlavePositionInfo
  expectedSlTpByMasterTicket : String → Option ExpectedSlTp
  volumeTolerance : Option ℚ := none
  priceTolerance : Option ℚ := none

def defaultVolumeTolerance : ℚ := 1 / 100

def defaultPriceTolerance : ℚ := 1 / 10000

/-- The characters that `.` of a regular expression does not match. -/
def isLineTerminator (c : Char) : Bool := c = '\n' ∨ c = '\r' ∨ c = '\u2028' ∨ c = '\u2029'

/-- The group of `/^copy:(.+)$/`. -/
def matchCopyComment (comment : String) : Option String :=
  match comment.toList with
  | 'c' :: 'o' :: 'p' :: 'y' :: ':' :: rest =>
    if rest ≠ [] ∧ rest.all fun c => !isLineTerminator c then some (String.ofList rest) else none
  | _ => none

def extractCopyId (comment : Option String) : Option String :=
  (truthy comment).bind matchCopyComment

/-- A lookup in the `Map` made from a list: the last entry with the key. -/
def mapGet {α : Type*} (key : α → String) (entries : List α) (k : String) : Option α :=
  Table.lookup key k entries.reverse

/-- Whether a stop or a target that should be there is missing or elsewhere. -/
def priceMismatch (priceTolerance : ℚ) (expected actual : Option ℚ) : Prop :=
  match expected, actual with
  | none, _ => False
  | some _, none => True
  | some expected, some actual => priceTolerance < |Arithmetic.double.sub actual expected|

instance (priceTolerance : ℚ) : ∀ expected actual : Option ℚ,
    Decidable (priceMismatch priceTolerance expected actual)
  | none, _ => inferInstanceAs (Decidable False)
  | some _, none => inferInstanceAs (Decidable True)
  | some _, some _ => inferInstanceAs (Decidable (_ < _))

namespace CompareStateInput

def slavePosition (input : CompareStateInput) (ticket : String) : Option SlavePositionInfo :=
  mapGet SlavePositionInfo.ticket input.slavePositions ticket

def volumeTolerated (input : CompareStateInput) : ℚ :=
  input.volumeTolerance.getD defaultVolumeTolerance

def priceTolerated (input : CompareStateInput) : ℚ :=
  input.priceTolerance.getD defaultPriceTolerance

/-- The pass over the master's positions. -/
def missingCopies (input : CompareStateInput) (position : MasterPositionInfo) : List Finding :=
  if (mapGet OpenCopyInfo.masterTicket input.openCopies position.ticket).isNone ∧
      (mapGet ClosedCopyInfo.masterTicket input.closedCopies position.ticket).isNone then
    [{ type := .missingCopy
       masterTicket := some position.ticket
       details := .missing position.symbol position.volume }]
  else
    []

def volumeMismatches (input : CompareStateInput) (copy : OpenCopyInfo) (position : SlavePositionInfo) :
    List Finding :=
  match copy.requestedVolume with
  | none => []
  | some requestedVolume =>
    if input.volumeTolerated < |Arithmetic.double.sub position.volume requestedVolume| then
      [{ type := .volumeMismatch
         masterTicket := some copy.masterTicket
         slaveTicket := copy.slaveTicket
         details := .volumes requestedVolume position.volume }]
    else
      []

def sltpMismatches (input : CompareStateInput) (copy : OpenCopyInfo) (position : SlavePositionInfo) :
    List Finding :=
  match input.expectedSlTpByMasterTicket copy.masterTicket with
  | none => []
  | some expected =>
    if priceMismatch input.priceTolerated expected.sl position.sl ∨
        priceMismatch input.priceTolerated expected.tp position.tp then
      [{ type := .sltpMismatch
         masterTicket := some copy.masterTicket
         slaveTicket := copy.slaveTicket
         details := .stops expected.sl expected.tp position.sl position.tp }]
    else
      []

/-- The pass over the open copies. -/
def openFindings (input : CompareStateInput) (copy : OpenCopyInfo) : List Finding :=
  match truthy copy.slaveTicket with
  | none => []
  | some slaveTicket =>
    match input.slavePosition slaveTicket with
    | none =>
      [{ type := .slavePositionMissing
         masterTicket := some copy.masterTicket
         slaveTicket := some slaveTicket }]
    | some position => input.volumeMismatches copy position ++ input.sltpMismatches copy position

/-- The pass over the closed copies. -/
def closedFindings (input : CompareStateInput) (copy : ClosedCopyInfo) : List Finding :=
  match truthy copy.slaveTicket with
  | none => []
  | some slaveTicket =>
    if (input.slavePosition slaveTicket).isSome then
      [{ type := .slaveNotClosed
         masterTicket := some copy.masterTicket
         slaveTicket := some slaveTicket }]
    else
      []

/-- The open copy that a position's comment names. -/
def namedCopy (input : CompareStateInput) (position : SlavePositionInfo) : Option String :=
  (extractCopyId position.comment).filter fun copyId =>
    copyId ∈ input.openCopies.map OpenCopyInfo.copyId

def unexpectedPositions (input : CompareStateInput) (position : SlavePositionInfo) : List Finding :=
  match input.namedCopy position with
  | some _ => []
  | none =>
    [{ type := .unexpectedSlavePosition
       slaveTicket := some position.ticket
       details := .unexpected position.symbol position.volume position.comment }]

/-- Add a position to the list of its copy; a new key comes last. -/
def addPosition (positionsByCopyId : List (String × List SlavePositionInfo)) (copyId : String)
    (position : SlavePositionInfo) : List (String × List SlavePositionInfo) :=
  match positionsByCopyId with
  | [] => [(copyId, [position])]
  | (key, positions) :: rest =>
    if key = copyId then (key, positions ++ [position]) :: rest
    else (key, positions) :: addPosition rest copyId position

def groupPosition (input : CompareStateInput) (positionsByCopyId : List (String × List SlavePositionInfo))
    (position : SlavePositionInfo) : List (String × List SlavePositionInfo) :=
  match input.namedCopy position with
  | none => positionsByCopyId
  | some copyId => addPosition positionsByCopyId copyId position

def positionsByCopyId (input : CompareStateInput) : List (String × List SlavePositionInfo) :=
  input.slavePositions.foldl input.groupPosition []

/-- The pass over the positions of one copy. -/
def duplicatePositions (copyId : String) (positions : List SlavePositionInfo) : List Finding :=
  if positions.length ≤ 1 then []
  else
    positions.map fun position =>
      { type := .duplicateSlavePosition
        slaveTicket := some position.ticket
        details := .duplicate copyId positions.length }

end CompareStateInput

def compareState (input : CompareStateInput) : List Finding :=
  input.masterPositions.flatMap input.missingCopies ++
    input.openCopies.flatMap input.openFindings ++
    input.closedCopies.flatMap input.closedFindings ++
    input.slavePositions.flatMap input.unexpectedPositions ++
    input.positionsByCopyId.flatMap fun (copyId, positions) =>
      CompareStateInput.duplicatePositions copyId positions

theorem mapGet_isNone_iff {α : Type*} {key : α → String} {entries : List α} {k : String} :
    (mapGet key entries k).isNone ↔ ∀ entry ∈ entries, key entry ≠ k := by
  simp [mapGet, Table.lookup]

theorem mapGet_eq_some {α : Type*} {key : α → String} {entries : List α} {k : String} {entry : α}
    (h : mapGet key entries k = some entry) : entry ∈ entries ∧ key entry = k :=
  ⟨List.mem_reverse.mp (Table.lookup_mem h), Table.lookup_key h⟩

end ForexCopy
