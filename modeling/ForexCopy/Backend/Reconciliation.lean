import ForexCopy.Backend.ReconciliationEngine
import ForexCopy.Backend.World
import ForexCopy.Library.Tasks

/-!
# The reconciliation runs

`modules/reconciliation/reconciliation.service.ts`: a run reads the slaves with their masters, and for
each pair with fresh snapshots reads the books, compares, deletes the pair's findings and inserts those
it has found. Runs are started by a timer and by `POST /api/reconciliation/run`, and nothing keeps two
of them apart. A stored snapshot is one that the heartbeat's schema has admitted. The counts a run
returns are left out.
-/

namespace ForexCopy

/-- The positions of a heartbeat, and when it was recorded. -/
structure Snapshot where
  positions : List SlavePositionInfo
  takenAt : DateTime
  deriving DecidableEq

structure ReconciliationFinding where
  masterId : Uuid
  slaveId : Uuid
  finding : Finding
  deriving DecidableEq

/-- The part of `config/env.ts` that a run uses. -/
structure ReconciliationEnv where
  stalenessSeconds : ℕ := 30
  volumeTolerance : ℚ := 1 / 100
  priceTolerance : ℚ := 1 / 10000
  deriving DecidableEq

/-- The world, the snapshot columns of its masters and slaves, and the findings; `computed` is a log
of what the runs have found. -/
structure Books where
  world : World := {}
  masterSnapshots : List (Uuid × Snapshot) := []
  slaveSnapshots : List (Uuid × Snapshot) := []
  findings : List ReconciliationFinding := []
  computed : List (Uuid × Uuid × List Finding) := []
  deriving DecidableEq

/-- The SL and TP of the trade event of the latest executed OPEN or MODIFY copy. -/
def getExpectedSlTp (slaveId : Uuid) (masterTicket : String) (w : World) : Option ExpectedSlTp :=
  let latest := w.copyOrders.reverse.find? fun order =>
    order.slaveId = slaveId ∧ order.masterTicket = masterTicket ∧ order.status = .executed ∧
      (order.type = .open ∨ order.type = .modify)
  let tradeEvent := latest.bind fun order =>
    Table.lookup TradeEvent.id order.tradeEventId w.tradeEvents
  tradeEvent.map fun row => { sl := row.sl.map Decimal.toNumber, tp := row.tp.map Decimal.toNumber }

/-- A slave as the first query of a run has it. -/
structure ScannedPair where
  masterId : Uuid
  slaveId : Uuid
  masterSnapshot : Option Snapshot
  slaveSnapshot : Option Snapshot
  deriving DecidableEq

def Books.scannedPairs (books : Books) (masterId slaveId : Option Uuid) : List ScannedPair :=
  let slaves := books.world.slaves.filter fun slave =>
    (∀ id ∈ slaveId, slave.id = id) ∧ ∀ id ∈ masterId, slave.masterId = id
  slaves.map fun slave =>
    { masterId := slave.masterId
      slaveId := slave.id
      masterSnapshot := (Table.lookup Prod.fst slave.masterId books.masterSnapshots).map Prod.snd
      slaveSnapshot := (Table.lookup Prod.fst slave.id books.slaveSnapshots).map Prod.snd }

def isFresh (env : ReconciliationEnv) (now : DateTime) (snapshot : Snapshot) : Prop :=
  now ≤ snapshot.takenAt + env.stalenessSeconds * 1000

instance (env : ReconciliationEnv) (now : DateTime) (snapshot : Snapshot) :
    Decidable (isFresh env now snapshot) :=
  inferInstanceAs (Decidable (_ ≤ _))

/-- A pair that is scanned: both snapshots, and they are fresh. -/
def ScannedPair.fresh (env : ReconciliationEnv) (now : DateTime) (pair : ScannedPair) :
    Option (List SlavePositionInfo × List SlavePositionInfo) :=
  match pair.masterSnapshot, pair.slaveSnapshot with
  | some master, some slave =>
    if isFresh env now master ∧ isFresh env now slave then some (master.positions, slave.positions)
    else none
  | _, _ => none

/-- What a run knows of the pair it is at. -/
structure PairScan where
  masterId : Uuid
  slaveId : Uuid
  masterPositions : List SlavePositionInfo
  slavePositions : List SlavePositionInfo
  deriving DecidableEq

def PairScan.input (scan : PairScan) (env : ReconciliationEnv) (positions : CopyOrderPositions)
    (expected : List (String × Option ExpectedSlTp)) : CompareStateInput where
  masterPositions := scan.masterPositions.map fun position =>
    { ticket := position.ticket, symbol := position.symbol, volume := position.volume }
  openCopies := positions.open.map fun info =>
    { copyId := toString info.id
      masterTicket := info.masterTicket
      slaveTicket := info.slaveTicket
      requestedVolume := info.requestedVolume }
  closedCopies := positions.closed.map fun info =>
    { masterTicket := info.masterTicket, slaveTicket := info.slaveTicket }
  slavePositions := scan.slavePositions
  expectedSlTpByMasterTicket := fun masterTicket =>
    (mapGet Prod.fst expected masterTicket).bind Prod.snd
  volumeTolerance := some env.volumeTolerance
  priceTolerance := some env.priceTolerance

inductive ReconcilePoint
  /-- Both queries of `getCopyOrderPositions` are under way. -/
  | readPositions
  | readCloses (opens : List CopyOrder)
  | readOpens (closes : List CopyOrder)
  /-- The stops of one open copy, with others to come. -/
  | readExpected (positions : CopyOrderPositions) (info : OpenCopyOrderInfo)
      (remaining : List OpenCopyOrderInfo) (expected : List (String × Option ExpectedSlTp))
  | deleteMany (findings : List Finding)
  | createMany (findings : List Finding)
  deriving DecidableEq

/-- A suspended run: at its first query, or at a pair with the rest of the slaves to come. -/
inductive Reconcile
  | findSlaves (masterId slaveId : Option Uuid)
  | pair (now : DateTime) (scan : PairScan) (point : ReconcilePoint) (rest : List ScannedPair)
  deriving DecidableEq

namespace Books

def compute (books : Books) (scan : PairScan) (findings : List Finding) : Books :=
  { books with computed := books.computed ++ [(scan.masterId, scan.slaveId, findings)] }

def deleteFindings (books : Books) (scan : PairScan) : Books :=
  { books with
    findings := books.findings.filter fun row =>
      ¬(row.masterId = scan.masterId ∧ row.slaveId = scan.slaveId) }

def createFindings (books : Books) (scan : PairScan) (findings : List Finding) : Books :=
  { books with
    findings := books.findings ++ findings.map fun finding => ⟨scan.masterId, scan.slaveId, finding⟩ }

/-- The findings of a pair, in the order of their rows. -/
def findingsOf (books : Books) (masterId slaveId : Uuid) : List Finding :=
  (books.findings.filter fun row => row.masterId = masterId ∧ row.slaveId = slaveId).map
    ReconciliationFinding.finding

end Books

namespace Reconcile

/-- Go on to the next pair that is not skipped. -/
def nextPair (env : ReconciliationEnv) (now : DateTime) : List ScannedPair → List Reconcile
  | [] => []
  | next :: rest =>
    match next.fresh env now with
    | none => nextPair env now rest
    | some (masterPositions, slavePositions) =>
      [.pair now ⟨next.masterId, next.slaveId, masterPositions, slavePositions⟩ .readPositions rest]

/-- Ask for the stops of the next open copy, or compare once they are all there. -/
def nextExpected (env : ReconciliationEnv) (books : Books) (now : DateTime) (scan : PairScan)
    (rest : List ScannedPair) (positions : CopyOrderPositions)
    (expected : List (String × Option ExpectedSlTp)) : List OpenCopyOrderInfo → Books × List Reconcile
  | info :: remaining =>
    (books, [.pair now scan (.readExpected positions info remaining expected) rest])
  | [] =>
    let findings := compareState (scan.input env positions expected)
    (books.compute scan findings, [.pair now scan (.deleteMany findings) rest])

def pairStep (env : ReconciliationEnv) (reply : Reply) (books : Books) (now : DateTime)
    (scan : PairScan) (rest : List ScannedPair) : ReconcilePoint → Books × List Reconcile
  | .readPositions =>
    match reply with
    | .ok => (books, [.pair now scan (.readCloses (books.world.findExecuted scan.slaveId .open)) rest])
    | .swapped =>
      (books, [.pair now scan (.readOpens (books.world.findExecuted scan.slaveId .close)) rest])
    | .rejected | .lost => (books, [])
  | .readCloses opens =>
    let positions :=
      copyOrderPositions opens (books.world.findExecuted scan.slaveId .close)
    match reply with
    | .ok | .swapped => nextExpected env books now scan rest positions [] positions.open
    | .rejected | .lost => (books, [])
  | .readOpens closes =>
    let positions :=
      copyOrderPositions (books.world.findExecuted scan.slaveId .open) closes
    match reply with
    | .ok | .swapped => nextExpected env books now scan rest positions [] positions.open
    | .rejected | .lost => (books, [])
  | .readExpected positions info remaining expected =>
    let found := getExpectedSlTp scan.slaveId info.masterTicket books.world
    match reply with
    | .ok | .swapped =>
      nextExpected env books now scan rest positions (expected ++ [(info.masterTicket, found)])
        remaining
    | .rejected | .lost => (books, [])
  | .deleteMany findings =>
    reply.settle books (books.deleteFindings scan)
      (if findings = [] then nextPair env now rest
      else [.pair now scan (.createMany findings) rest])
  | .createMany findings =>
    reply.settle books (books.createFindings scan findings) (nextPair env now rest)

/-- The clock is read when the slaves are there. -/
def step (env : ReconciliationEnv) (reply : Reply) (books : Books) :
    Reconcile → Books × List Reconcile
  | .findSlaves masterId slaveId =>
    reply.query books (nextPair env books.world.now (books.scannedPairs masterId slaveId))
  | .pair now scan point rest => pairStep env reply books now scan rest point

end Reconcile

/-! ### Runs beside each other -/

/-- The books and the suspended runs. -/
abbrev Reconciliation := Pool Books Reconcile

inductive ReconcileAction
  | resume (i : ℕ) (reply : Reply)
  /-- The timer, or `POST /api/reconciliation/run`. -/
  | start (masterId slaveId : Option Uuid)
  /-- Whatever the rest of the backend makes of its tables. -/
  | change (world : World) (masterSnapshots slaveSnapshots : List (Uuid × Snapshot))
  deriving DecidableEq

namespace Reconciliation

def step (env : ReconciliationEnv) (c : Reconciliation) : ReconcileAction → Option Reconciliation
  | .resume i reply => c.resume (Reconcile.step env) i reply
  | .start masterId slaveId => some (c.arrive c.shared [.findSlaves masterId slaveId])
  | .change world masterSnapshots slaveSnapshots =>
    some (c.arrive { c.shared with
      world := world, masterSnapshots := masterSnapshots, slaveSnapshots := slaveSnapshots } [])

end Reconciliation

end ForexCopy
