import ForexCopy.Library.Compaction
import ForexCopy.Library.Machine
import ForexCopy.Master.TradeEventCall

/-!
# The clients of the connectors

`HttpClient` of `Include/ForexCopy/Http.mqh`, which both master EAs have, and `SlaveHttpClient` of
`connectors/slave-ea-mt4/Include/ForexCopy/SlaveHttp.mqh`: a body is posted at once, and what is not
accepted waits in a bounded array for `OnTimer` to post it again. The two differ in the bound, the
statuses they accept and the bodies they carry. A status of -1 is a failure of the transport. The
heartbeats, which are never queued, the texts of the bodies and what is printed are left out.
-/

namespace ForexCopy

/-- What one client has and the other has differently. -/
structure HttpSettings where
  maxRetryQueue : ℕ
  accepts : ℤ → Bool
  hasRoom : 0 < maxRetryQueue

/-- `FCT_MAX_RETRY_QUEUE` and the statuses of `SendEvent`. -/
def httpSettings : HttpSettings where
  maxRetryQueue := 200
  accepts status := status = 200 ∨ status = 202
  hasRoom := by decide

/-- `FST_MAX_RETRY_QUEUE` and the status of `SendExecutionResult`. -/
def slaveHttpSettings : HttpSettings where
  maxRetryQueue := 100
  accepts status := status = 200
  hasRoom := by decide

/-- `FCT_MAX_ATTEMPTS` and `FST_MAX_ATTEMPTS`. -/
def maxAttempts : ℕ := 8

structure RetryItem (β : Type*) where
  /-- Which call handed the body over. The clients do not keep it. -/
  number : ℕ
  jsonBody : β
  attempts : ℕ
  nextAttemptAtMs : ℕ
  deriving DecidableEq, Repr

/-- A request and how it was answered. -/
structure HttpPost (β : Type*) where
  number : ℕ
  jsonBody : β
  status : ℤ
  deriving DecidableEq, Repr

/-- How the client is done with a body: the backend has accepted it, it has failed too often, it was
in front of a full array, or `Init` has emptied the array. -/
inductive HttpFate
  | accepted | givenUp | evicted | dropped
  deriving DecidableEq, Repr

/-- The array of a client and the clock, and in logs the bodies handed over, the requests made and the
numbers the client is done with. -/
structure RetryClient (β : Type*) where
  queue : List (RetryItem β) := []
  tickCount : ℕ := 0
  handed : List β := []
  posts : List (HttpPost β) := []
  settled : List (ℕ × HttpFate) := []
  deriving DecidableEq, Repr

inductive HttpCall (β : Type*)
  | init
  /-- `SendEvent` or `SendExecutionResult`, the status of its request and the clock after it. -/
  | send (jsonBody : β) (status : ℤ) (tickCount : ℕ)
  /-- The status of the request for each place of the array that is due. -/
  | processRetryQueue (status : ℕ → ℤ) (tickCount : ℕ)

namespace RetryClient

variable {β : Type*}

def init (client : RetryClient β) : RetryClient β :=
  { client with
    queue := []
    settled := client.settled ++ client.queue.map fun item => (item.number, .dropped) }

def post (client : RetryClient β) (number : ℕ) (jsonBody : β) (status : ℤ) : RetryClient β :=
  { client with posts := client.posts ++ [⟨number, jsonBody, status⟩] }

def settle (client : RetryClient β) (number : ℕ) (fate : HttpFate) : RetryClient β :=
  { client with settled := client.settled ++ [(number, fate)] }

def removeAt (client : RetryClient β) (i : ℕ) : RetryClient β :=
  { client with queue := Compaction.removeAt client.queue i }

/-- Make room in a full array: the entry in front goes. -/
def evict (settings : HttpSettings) (client : RetryClient β) : RetryClient β :=
  match client.queue with
  | [] => client
  | oldest :: _ =>
    if settings.maxRetryQueue ≤ client.queue.length then
      (client.removeAt 0).settle oldest.number .evicted
    else
      client

def enqueue (settings : HttpSettings) (client : RetryClient β) (number : ℕ) (jsonBody : β) :
    RetryClient β :=
  let client := client.evict settings
  { client with queue := client.queue ++ [⟨number, jsonBody, 1, client.tickCount + 2000⟩] }

def send (settings : HttpSettings) (client : RetryClient β) (jsonBody : β) (status : ℤ) :
    RetryClient β :=
  let number := client.handed.length
  let client := { client with handed := client.handed ++ [jsonBody] }.post number jsonBody status
  if settings.accepts status then client.settle number .accepted
  else client.enqueue settings number jsonBody

/-- One pass of the loop of `ProcessRetryQueue`, at the place `i`. -/
def retryAt (settings : HttpSettings) (status : ℕ → ℤ) (client : RetryClient β) (i : ℕ) :
    RetryClient β :=
  match client.queue[i]? with
  | none => client
  | some item =>
    if client.tickCount < item.nextAttemptAtMs then
      client
    else
      let client := client.post item.number item.jsonBody (status i)
      if settings.accepts (status i) then
        (client.removeAt i).settle item.number .accepted
      else
        let attempts := item.attempts + 1
        if maxAttempts < attempts then
          (client.removeAt i).settle item.number .givenUp
        else
          let nextAttemptAtMs := client.tickCount + min (attempts * 2) 60 * 1000
          { client with
            queue := client.queue.set i
              { item with attempts := attempts, nextAttemptAtMs := nextAttemptAtMs } }

/-- The loop goes from the last place to the first. -/
def processRetryQueue (settings : HttpSettings) (client : RetryClient β) (status : ℕ → ℤ) :
    RetryClient β :=
  (List.range client.queue.length).foldr (fun i client => client.retryAt settings status i) client

/-- A call of the EA; the clock does not go back. -/
def step (settings : HttpSettings) (client : RetryClient β) : HttpCall β → Option (RetryClient β)
  | .init => some client.init
  | .send jsonBody status tickCount =>
    if client.tickCount ≤ tickCount then
      some ({ client with tickCount := tickCount }.send settings jsonBody status)
    else
      none
  | .processRetryQueue status tickCount =>
    if client.tickCount ≤ tickCount then
      some ({ client with tickCount := tickCount }.processRetryQueue settings status)
    else
      none

end RetryClient

/-- The client of a master EA. -/
abbrev HttpClient := RetryClient TradeEventCall

def HttpClient.step : HttpClient → HttpCall TradeEventCall → Option HttpClient :=
  RetryClient.step httpSettings

/-- The client of the slave EA. -/
abbrev SlaveHttpClient := RetryClient ExecutionResult

def SlaveHttpClient.step : SlaveHttpClient → HttpCall ExecutionResult → Option SlaveHttpClient :=
  RetryClient.step slaveHttpSettings

end ForexCopy
