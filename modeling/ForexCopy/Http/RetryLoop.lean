import ForexCopy.Http.RetryQueue

/-!
# The loop of `ProcessRetryQueue`

The loop of both clients as the terminal runs it: the array and the variable `size`, entries with the
widths of their types, and every access checked. An access behind the end of the array stops the EA,
which is `none` here.
-/

namespace ForexCopy

/-- `ResultRetryItem` of `SlaveHttp.mqh` and `RetryItem` of `Http.mqh`. -/
structure ResultRetryItem (β : Type*) where
  jsonBody : β
  attempts : Int32
  nextAttemptAtMs : UInt64
  deriving DecidableEq, Repr

/-- Where the loop stands. The requests it has made are a log. -/
structure RetryLoop (β : Type*) where
  queue : List (ResultRetryItem β)
  size : ℕ
  posts : List (β × ℤ) := []
  deriving DecidableEq, Repr

/-- `(ulong)MathMin(attempts * 2, 60) * 1000`. -/
def backoffMs (attempts : Int32) : UInt64 := (min (attempts * 2) 60).toInt64.toUInt64 * 1000

namespace ResultRetryItem

variable {β : Type*}

/-- `attempts++`. -/
def countAttempt (item : ResultRetryItem β) : ResultRetryItem β :=
  { item with attempts := item.attempts + 1 }

def postpone (now : UInt64) (item : ResultRetryItem β) : ResultRetryItem β :=
  { item with nextAttemptAtMs := now + backoffMs item.attempts }

end ResultRetryItem

namespace RetryLoop

variable {β : Type*}

def post (loop : RetryLoop β) (jsonBody : β) (status : ℤ) : RetryLoop β :=
  { loop with posts := loop.posts ++ [(jsonBody, status)] }

def setItem (loop : RetryLoop β) (i : ℕ) (item : ResultRetryItem β) : Option (RetryLoop β) :=
  (Compaction.write loop.queue i item).map fun queue => { loop with queue := queue }

/-- The inner loop, `ArrayResize` and `size--`. -/
def removeAt (loop : RetryLoop β) (i : ℕ) : Option (RetryLoop β) :=
  (Compaction.removeAtChecked loop.queue loop.size i).map fun queue =>
    { loop with queue := queue, size := loop.size - 1 }

/-- One pass, at the place `i`. -/
def retryAt (settings : HttpSettings) (now : UInt64) (status : ℕ → ℤ) (i : ℕ) (loop : RetryLoop β) :
    Option (RetryLoop β) :=
  (loop.queue[i]?).bind fun item =>
    if now < item.nextAttemptAtMs then
      some loop
    else
      let loop := loop.post item.jsonBody (status i)
      if settings.accepts (status i) then
        loop.removeAt i
      else
        (loop.setItem i item.countAttempt).bind fun loop =>
          if Int32.ofNat maxAttempts < item.countAttempt.attempts then
            loop.removeAt i
          else
            loop.setItem i (item.countAttempt.postpone now)

/-- The passes at the places below the bound, from the last one down. -/
def run (settings : HttpSettings) (now : UInt64) (status : ℕ → ℤ) :
    ℕ → RetryLoop β → Option (RetryLoop β)
  | 0, loop => some loop
  | i + 1, loop => (loop.retryAt settings now status i).bind (run settings now status i)

/-- `ProcessRetryQueue` at the time `now`, with the status of the request for each place that is due. -/
def processRetryQueue (settings : HttpSettings) (now : UInt64) (status : ℕ → ℤ)
    (queue : List (ResultRetryItem β)) : Option (RetryLoop β) :=
  run settings now status queue.length { queue := queue, size := queue.length }

end RetryLoop

end ForexCopy
