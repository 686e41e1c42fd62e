import ForexCopy.Proof.Step

/-!
# Acknowledged and published

A request claims the event's idempotency key first and publishes the event then. If the publish fails
the key stays claimed, and the retry that the failure provokes is answered as a duplicate of an event
nobody has published. Apart from a publish of the event that fails under its claimed key, a claim of it
that fails although it took effect, and an event id that two masters use, an acknowledged event is a
published one once no request for it is under way.
-/

namespace ForexCopy

open Machine Pool

/-! ### What a request does -/

inductive IngestStep (reply : Reply) (w : World) (event : NormalizedTradeEvent) :
    IngestPoint → World → List Task → Prop
  | duplicate (hkey : event.eventId ∈ w.idempotencyKeys) :
      IngestStep reply w event .setKey
        (w.answer event.masterId event.eventId .duplicateIgnored) []
  | claim (hkey : event.eventId ∉ w.idempotencyKeys) :
      IngestStep reply w event .setKey (w.setKey event.eventId) [.ingest event .publish]
  | claimLost (hkey : event.eventId ∉ w.idempotencyKeys) (hlost : reply = .lost) :
      IngestStep reply w event .setKey
        ((w.setKey event.eventId).answer event.masterId event.eventId .internalError) []
  | accept :
      IngestStep reply w event .publish
        ((w.publishTradeEvent event).answer event.masterId event.eventId .accepted)
        [.persist event]
  | publishLost :
      IngestStep reply w event .publish
        ((w.publishTradeEvent event).answer event.masterId event.eventId .internalError) []
  | failed {point : IngestPoint} (hpublish : point = .publish → reply = .rejected) :
      IngestStep reply w event point (w.answer event.masterId event.eventId .internalError) []

theorem ingestStep_cases {reply : Reply} {w w' : World} {event : NormalizedTradeEvent}
    {point : IngestPoint} {next : List Task} (h : ingestStep reply w event point = (w', next)) :
    IngestStep reply w event point w' next := by
  cases point with
  | setKey =>
      simp only [ingestStep] at h
      split_ifs at h with hkey
      · cases reply <;> cases h
        · exact .duplicate hkey
        · exact .duplicate hkey
        · exact .failed (by simp)
        · exact .failed (by simp)
      · cases reply <;> cases h
        · exact .claim hkey
        · exact .claim hkey
        · exact .failed (by simp)
        · exact .claimLost hkey rfl
  | publish =>
      cases reply <;> cases h
      · exact .accept
      · exact .accept
      · exact .failed fun _ => rfl
      · exact .publishLost

/-- What concerns ingest only. -/
structure World.SameIngest (w w' : World) : Prop where
  keys : w'.idempotencyKeys = w.idempotencyKeys
  published : w'.published = w.published
  answers : w'.answers = w.answers

theorem Task.step_sameIngest {reply : Reply} {w w' : World} {task : Task} {next : List Task}
    (hother : ∀ event point, task ≠ .ingest event point) (h : task.step reply w = (w', next)) :
    w.SameIngest w' ∧ ∀ t ∈ next, ∀ event point, t ≠ .ingest event point := by
  cases task with
  | ingest event point => exact absurd rfl (hother event point)
  | persist event =>
      simp only [Task.step, persistTradeEventStep, World.createTradeEvent] at h
      split_ifs at h
      · cases h
        exact ⟨⟨rfl, rfl, rfl⟩, by simp⟩
      · cases reply <;> cases h <;> exact ⟨⟨rfl, rfl, rfl⟩, by simp⟩
  | heartbeat connectorId accountInfo time point =>
      cases point with
      | setKey => cases reply <;> cases h <;> exact ⟨⟨rfl, rfl, rfl⟩, by simp⟩
      | updateConnector =>
          simp only [Task.step, heartbeatStep] at h
          split at h
          · cases h
            exact ⟨⟨rfl, rfl, rfl⟩, by simp⟩
          · cases reply <;> cases h <;> exact ⟨⟨rfl, rfl, rfl⟩, by simp⟩
      | updateOwner connector =>
          have hsame : ∀ account, w.SameIngest (w.updateAccount connector account) := fun account => by
            unfold World.updateAccount
            split <;> exact ⟨rfl, rfl, rfl⟩
          simp only [Task.step, heartbeatStep] at h
          split at h
          · cases h
            exact ⟨⟨rfl, rfl, rfl⟩, by simp⟩
          · cases reply <;> cases h <;> first
              | exact ⟨hsame _, by simp⟩
              | exact ⟨⟨rfl, rfl, rfl⟩, by simp⟩
  | copy run point =>
      cases Task.step_sound h with
      | background htask => exact htask.elim
      | insert _ _ _ _ _ hnext => cases hnext <;> exact ⟨⟨rfl, rfl, rfl⟩, by simp⟩
      | _ => exact ⟨⟨rfl, rfl, rfl⟩, by simp⟩
  | masterEvent | message | poll =>
      cases Task.step_sound h with
      | background htask => exact htask.elim
      | _ => exact ⟨⟨rfl, rfl, rfl⟩, by simp⟩

/-! ### The ledger of a claimed key -/

def World.PublishedOn (w : World) (eventId : String) (masterId : Uuid) : Prop :=
  ∃ publication ∈ w.published, publication.event.eventId = eventId ∧
    publication.channel = masterEventsChannel masterId

/-- A request of the master for the event was answered 202 ACCEPTED or 200 DUPLICATE_IGNORED. -/
def World.Acknowledged (w : World) (eventId : String) (masterId : Uuid) : Prop :=
  ∃ answer ∈ w.answers, answer.eventId = eventId ∧ answer.masterId = masterId ∧
    (answer.status = .accepted ∨ answer.status = .duplicateIgnored)

instance (w : World) (eventId : String) (masterId : Uuid) : Decidable (w.Acknowledged eventId masterId) :=
  inferInstanceAs (Decidable (∃ _ ∈ _, _))

/-- A call that has claimed the key of the event and not yet published it. -/
def Task.publishes (eventId : String) : Task → Bool
  | .ingest event .publish => event.eventId = eventId
  | _ => false

/-- What is claimed or acknowledged is published, or about to be. -/
def publishLedger (eventId : String) (masterId : Uuid) : Ledger World Task ℕ where
  hold task := if task.publishes eventId then 1 else 0
  balance w held := eventId ∈ w.idempotencyKeys ∨ w.Acknowledged eventId masterId →
    0 < held ∨ w.PublishedOn eventId masterId

def Task.RequestedBy (eventId : String) (masterId : Uuid) : Task → Prop
  | .ingest event _ => event.eventId = eventId → event.masterId = masterId
  | _ => True

/-- No publish of the event fails under its claimed key, and no claim of it fails although it took
effect. -/
def PublishesWhatItClaims (eventId : String) (c : Config) : Action → Prop
  | .resume i reply =>
    match c.tasks[i]? with
    | some (.ingest event .setKey) =>
      event.eventId = eventId → eventId ∉ c.shared.idempotencyKeys → reply ≠ .lost
    | some (.ingest event .publish) => event.eventId = eventId → reply ≠ .rejected
    | _ => True
  | .arrive _ => True

/-- The event is one of the master: only its connectors request it. -/
def EventOf (eventId : String) (masterId : Uuid) : Action → Prop
  | .arrive (.ingest requesting payload) => payload.eventId = eventId → requesting = masterId
  | _ => True

instance (eventId : String) (c : Config) (a : Action) :
    Decidable (PublishesWhatItClaims eventId c a) := by
  unfold PublishesWhatItClaims
  repeat' split
  all_goals infer_instance

instance (eventId : String) (masterId : Uuid) (a : Action) :
    Decidable (EventOf eventId masterId a) := by
  unfold EventOf
  split <;> infer_instance

section

variable {w w' : World} {eventId : String} {masterId : Uuid} {held : ℕ}

theorem publishLedger_of_same (hsame : w.SameIngest w')
    (h : (publishLedger eventId masterId).balance w held) :
    (publishLedger eventId masterId).balance w' held := by
  intro hpremise
  unfold World.Acknowledged World.PublishedOn at *
  rw [hsame.keys, hsame.answers] at hpremise
  rw [hsame.published]
  exact h hpremise

theorem publishLedger_answer {answered : String} {by' : Uuid} {status : IngestStatus}
    (hstatus : answered = eventId → status = .accepted ∨ status = .duplicateIgnored →
      eventId ∈ w.idempotencyKeys)
    (h : (publishLedger eventId masterId).balance w held) :
    (publishLedger eventId masterId).balance (w.answer by' answered status) held := by
  rintro (hkey | ⟨answer, hanswer, hid, hok⟩)
  · exact h (.inl hkey)
  · rcases List.mem_append.mp hanswer with hold | hnew
    · exact h (.inr ⟨answer, hold, hid, hok⟩)
    · obtain rfl := List.mem_singleton.mp hnew
      exact h (.inl (hstatus hid hok.2))

theorem publishLedger_of_published (h : w.PublishedOn eventId masterId) :
    (publishLedger eventId masterId).balance w held :=
  fun _ => .inr h

theorem publishedOn_publish {event : NormalizedTradeEvent} (hevent : event.eventId = eventId)
    (hmaster : event.masterId = masterId) :
    (w.publishTradeEvent event).PublishedOn eventId masterId :=
  ⟨⟨masterEventsChannel event.masterId, event⟩, by simp [World.publishTradeEvent], hevent,
    congrArg masterEventsChannel hmaster⟩

theorem publishLedger_publish_other {event : NormalizedTradeEvent}
    (h : (publishLedger eventId masterId).balance w held) :
    (publishLedger eventId masterId).balance (w.publishTradeEvent event) held := by
  intro hpremise
  refine (h hpremise).imp_right ?_
  rintro ⟨publication, hpublication, hrest⟩
  exact ⟨publication, List.mem_append_left _ hpublication, hrest⟩

end

theorem publishLedger_setKey_other {w : World} {eventId claimed : String} {masterId : Uuid} {held : ℕ}
    (hother : claimed ≠ eventId) (h : (publishLedger eventId masterId).balance w held) :
    (publishLedger eventId masterId).balance (w.setKey claimed) held := by
  rintro (hclaimed | hanswered)
  · have hold : eventId ∈ w.idempotencyKeys :=
      (List.mem_append.mp hclaimed).resolve_right fun hnew => hother (List.mem_singleton.mp hnew).symm
    exact h (.inl hold)
  · exact h (.inr hanswered)

/-- Every step of a request keeps the ledger where the event's publish does not fail under its key. -/
theorem IngestStep.publishLedger {reply : Reply} {w w' : World} {event : NormalizedTradeEvent}
    {point : IngestPoint} {next : List Task} {eventId : String} {masterId : Uuid} {rest : ℕ}
    (hstep : IngestStep reply w event point w' next)
    (hmaster : event.eventId = eventId → event.masterId = masterId)
    (hclaim : point = .setKey → event.eventId = eventId → eventId ∉ w.idempotencyKeys → reply ≠ .lost)
    (hpublish : point = .publish → event.eventId = eventId → reply ≠ .rejected)
    (h : (ForexCopy.publishLedger eventId masterId).balance w
      ((ForexCopy.publishLedger eventId masterId).hold (.ingest event point) + rest)) :
    (ForexCopy.publishLedger eventId masterId).balance w'
      (total (ForexCopy.publishLedger eventId masterId).hold next + rest) := by
  cases hstep with
  | duplicate hkey =>
      simp only [ForexCopy.publishLedger, Task.publishes] at h
      exact publishLedger_answer (fun hid _ => hid ▸ hkey) (by simpa [ForexCopy.publishLedger] using h)
  | claim hkey =>
      by_cases hid : event.eventId = eventId
      · exact fun _ => .inl (by simp [ForexCopy.publishLedger, Task.publishes, hid])
      · exact publishLedger_setKey_other hid
          (by simpa [ForexCopy.publishLedger, Task.publishes, hid] using h)
  | claimLost hkey hlost =>
      by_cases hid : event.eventId = eventId
      · exact absurd hlost (hclaim rfl hid (hid ▸ hkey))
      · refine publishLedger_answer (fun hsame _ => absurd hsame hid) ?_
        exact publishLedger_setKey_other hid
          (by simpa [ForexCopy.publishLedger, Task.publishes] using h)
  | accept =>
      by_cases hid : event.eventId = eventId
      · exact publishLedger_of_published (publishedOn_publish hid (hmaster hid))
      · refine publishLedger_answer (fun hsame _ => absurd hsame hid) ?_
        exact publishLedger_publish_other
          (by simpa [ForexCopy.publishLedger, Task.publishes, hid] using h)
  | publishLost =>
      by_cases hid : event.eventId = eventId
      · exact publishLedger_of_published (publishedOn_publish hid (hmaster hid))
      · refine publishLedger_answer (fun hsame _ => absurd hsame hid) ?_
        exact publishLedger_publish_other
          (by simpa [ForexCopy.publishLedger, Task.publishes, hid] using h)
  | failed hrejected =>
      cases point with
      | publish =>
          have hid : event.eventId ≠ eventId := fun hid => hpublish rfl hid (hrejected rfl)
          exact publishLedger_answer (fun hsame _ => absurd hsame hid)
            (by simpa [ForexCopy.publishLedger, Task.publishes, hid] using h)
      | setKey =>
          exact publishLedger_answer (fun _ hok => by simp at hok)
            (by simpa [ForexCopy.publishLedger, Task.publishes] using h)

/-- Nothing from outside claims a key or acknowledges an event. -/
theorem Stimulus.publishLedger {w : World} (stimulus : Stimulus) {eventId : String}
    {masterId : Uuid} {held : ℕ} (h : (ForexCopy.publishLedger eventId masterId).balance w held) :
    (ForexCopy.publishLedger eventId masterId).balance (stimulus.apply w).1 held := by
  cases stimulus with
  | ingest requesting payload =>
      simp only [apply, ingestTradeEvent]
      split_ifs
      · exact h
      · exact publishLedger_answer (by simp) h
  | expireKey expired =>
      rintro (hkey | hanswered)
      · exact h (.inl (List.mem_of_mem_filter hkey))
      · exact h (.inr hanswered)
  | executionResult slaveId connectorId body => cases body <;> exact h
  | patchSlave id input =>
      simp only [apply, World.patchSlave]
      split_ifs <;> exact publishLedger_of_same ⟨rfl, rfl, rfl⟩ h
  | _ => exact publishLedger_of_same ⟨rfl, rfl, rfl⟩ h

theorem Stimulus.requestedBy {w : World} {stimulus : Stimulus} {eventId : String} {masterId : Uuid}
    (h : EventOf eventId masterId (.arrive stimulus)) :
    ∀ t ∈ (stimulus.apply w).2, t.RequestedBy eventId masterId ∧ t.publishes eventId = false := by
  cases stimulus with
  | ingest requesting payload =>
      simp only [apply, ingestTradeEvent]
      split_ifs
      · simpa [Task.RequestedBy, Task.publishes, EventOf] using h
      · simp
  | masterEvent event =>
      simp only [apply, handleMasterEvent]
      split_ifs <;> simp [Task.RequestedBy, Task.publishes]
  | slaveMessage slaveId connectorId message =>
      cases message <;> simp [apply, handleSlaveMessage, Task.RequestedBy, Task.publishes]
  | executionResult slaveId connectorId body =>
      cases body <;> simp [apply, handleSlaveMessage, Task.RequestedBy, Task.publishes]
  | _ => simp [apply, Task.RequestedBy, Task.publishes]

/-! ### Whose answers -/

/-- Only the master was answered for the event. -/
def World.AnsweredOnly (w : World) (eventId : String) (masterId : Uuid) : Prop :=
  ∀ answer ∈ w.answers, answer.eventId = eventId → answer.masterId = masterId

theorem World.AnsweredOnly.answer {w : World} {eventId answered : String} {masterId by' : Uuid}
    {status : IngestStatus} (h : w.AnsweredOnly eventId masterId)
    (hmaster : answered = eventId → by' = masterId) :
    (w.answer by' answered status).AnsweredOnly eventId masterId := by
  intro answer hanswer hid
  rcases List.mem_append.mp hanswer with hold | hnew
  · exact h answer hold hid
  · obtain rfl := List.mem_singleton.mp hnew
    exact hmaster hid

theorem IngestStep.answeredOnly {reply : Reply} {w w' : World} {event : NormalizedTradeEvent}
    {point : IngestPoint} {next : List Task} {eventId : String} {masterId : Uuid}
    (hstep : IngestStep reply w event point w' next)
    (hmaster : event.eventId = eventId → event.masterId = masterId)
    (h : w.AnsweredOnly eventId masterId) : w'.AnsweredOnly eventId masterId := by
  cases hstep with
  | claim => exact h
  | duplicate | claimLost | accept | publishLost | failed => exact World.AnsweredOnly.answer h hmaster

theorem Stimulus.answeredOnly {w : World} {stimulus : Stimulus} {eventId : String} {masterId : Uuid}
    (hevent : EventOf eventId masterId (.arrive stimulus)) (h : w.AnsweredOnly eventId masterId) :
    (stimulus.apply w).1.AnsweredOnly eventId masterId := by
  cases stimulus with
  | ingest requesting payload =>
      simp only [apply, ingestTradeEvent]
      split_ifs
      · exact h
      · exact h.answer hevent
  | executionResult slaveId connectorId body => cases body <;> exact h
  | patchSlave id input =>
      simp only [apply, World.patchSlave]
      split_ifs <;> exact h
  | _ => exact h

def requestOutline (eventId : String) (masterId : Uuid) : Outline World Task where
  shared w := w.AnsweredOnly eventId masterId
  task _ t := t.RequestedBy eventId masterId

/-- The requests that wait and the answers are the master's, and the ledger is in balance. -/
structure Config.Claims (eventId : String) (masterId : Uuid) (c : Config) : Prop where
  requested : (requestOutline eventId masterId).Holds c
  ledger : (publishLedger eventId masterId).Holds c

/-- Every request for the event is the master's, and the one that claims the key publishes. -/
def PublishesEventOf (eventId : String) (masterId : Uuid) (c : Config) (a : Action) : Prop :=
  PublishesWhatItClaims eventId c a ∧ EventOf eventId masterId a

instance (eventId : String) (masterId : Uuid) (c : Config) (a : Action) :
    Decidable (PublishesEventOf eventId masterId c a) :=
  inferInstanceAs (Decidable (_ ∧ _))

theorem claims_preserved (eventId : String) (masterId : Uuid) :
    Preserved (restrict Backend.step (PublishesEventOf eventId masterId))
      (Config.Claims eventId masterId) := by
  intro c a c' h hstep
  obtain ⟨⟨hreliable, hevent⟩, hstep⟩ := restrict_eq_some.mp hstep
  cases a with
  | arrive stimulus =>
      obtain rfl := Option.some.inj hstep
      have hstarted := stimulus.requestedBy (w := c.shared) hevent
      refine ⟨Outline.Holds.arrive (Stimulus.answeredOnly hevent h.requested.1) h.requested.2
        fun t ht => (hstarted t ht).1, ?_⟩
      refine Ledger.Holds.arrive (stimulus.publishLedger h.ledger) (total_eq_zero fun t ht => ?_)
      simp [publishLedger, (hstarted t ht).2]
  | resume i reply =>
      have hsteps : ∀ task w' next, c.tasks[i]? = some task → task.step reply c.shared = (w', next) →
          w'.AnsweredOnly eventId masterId ∧ (∀ t ∈ next, t.RequestedBy eventId masterId) ∧
          ∀ rest, (publishLedger eventId masterId).balance c.shared
              ((publishLedger eventId masterId).hold task + rest) →
            (publishLedger eventId masterId).balance w'
              (total (publishLedger eventId masterId).hold next + rest) := by
        intro task w' next hget hmove
        have hrequested := h.requested.2 task (List.mem_of_getElem? hget)
        by_cases hingest : ∃ event point, task = .ingest event point
        · obtain ⟨event, point, rfl⟩ := hingest
          have hcases := ingestStep_cases hmove
          refine ⟨hcases.answeredOnly hrequested h.requested.1, ?_,
            fun rest => hcases.publishLedger hrequested ?_ ?_⟩
          · cases hcases <;> simp [Task.RequestedBy]
            exact hrequested
          · rintro rfl hid hkey
            simp only [PublishesWhatItClaims, hget] at hreliable
            exact hreliable hid hkey
          · rintro rfl hid
            simp only [PublishesWhatItClaims, hget] at hreliable
            exact hreliable hid
        · push Not at hingest
          obtain ⟨hsame, hnext⟩ := Task.step_sameIngest hingest hmove
          have hnone : ∀ t : Task, (∀ event point, t ≠ .ingest event point) →
              t.RequestedBy eventId masterId ∧ (publishLedger eventId masterId).hold t = 0 := by
            intro t ht
            cases t with
            | ingest event point => exact absurd rfl (ht event point)
            | _ => exact ⟨trivial, rfl⟩
          have hanswered : w'.AnsweredOnly eventId masterId := by
            unfold World.AnsweredOnly
            rw [hsame.answers]
            exact h.requested.1
          refine ⟨hanswered, fun t ht => (hnone t (hnext t ht)).1,
            fun rest hbalance => ?_⟩
          rw [(hnone task hingest).2] at hbalance
          rw [total_eq_zero fun t ht => (hnone t (hnext t ht)).2]
          exact publishLedger_of_same hsame hbalance
      refine ⟨Outline.Holds.resume Task.step h.requested hstep ?_ ?_,
        Ledger.Holds.resume Task.step h.ledger hstep ?_⟩
      · exact fun task w' next hget hmove _ _ =>
          ⟨(hsteps task w' next hget hmove).1, (hsteps task w' next hget hmove).2.1⟩
      · exact fun _ _ _ _ _ _ _ _ hother => hother
      · exact fun task w' next hget hmove rest _ => (hsteps task w' next hget hmove).2.2 rest

/-! ### Acknowledged events -/

def Task.ingests (eventId : String) : Task → Bool
  | .ingest event _ => event.eventId = eventId
  | _ => false

/-- No request has been made, and no key is claimed. -/
structure Config.Unrequested (c : Config) : Prop where
  tasks : c.tasks = []
  keys : c.shared.idempotencyKeys = []
  answers : c.shared.answers = []

/-- An event acknowledged to a master is published on its channel once no request for it is in
progress. -/
def Config.PublishedIfAcknowledged (c : Config) (eventId : String) : Prop :=
  (∀ task ∈ c.tasks, ¬task.ingests eventId) →
    ∀ masterId, c.shared.Acknowledged eventId masterId → c.shared.PublishedOn eventId masterId

/-- The key of the event does not expire. -/
def WithinLifetime (eventId : String) (_ : Config) (a : Action) : Prop :=
  a ≠ .arrive (.expireKey eventId)

instance (eventId : String) (c : Config) (a : Action) : Decidable (WithinLifetime eventId c a) :=
  inferInstanceAs (Decidable (_ ≠ _))

/-- Whatever fails, within the lifetime of its key an acknowledged event is published. -/
def AcknowledgedMeansPublished : Prop :=
  ∀ (eventId : String) (start c : Config) (actions : List Action), start.Unrequested →
    Backend.run (WithinLifetime eventId) start actions = some c → c.PublishedIfAcknowledged eventId

/-- The publish fails under the claimed key, and the event is sent again. -/
def Sample.failedPublish : List Action :=
  [.arrive (.ingest 1 Sample.openEvent.toTradeEventPayload), .resume 0 .ok, .resume 0 .rejected,
    .arrive (.ingest 1 Sample.openEvent.toTradeEventPayload), .resume 0 .ok]

theorem failed_publish_acknowledged : ¬AcknowledgedMeansPublished := by
  intro h
  have hruns : ∃ c, Backend.run (WithinLifetime "OPEN-7-1001")
      (Sample.config Sample.mt5Slave []) Sample.failedPublish = some c ∧ c.tasks = [] ∧
      c.shared.published = [] ∧ c.shared.Acknowledged "OPEN-7-1001" 1 := by
    decide +kernel
  obtain ⟨c, hrun, htasks, hnone, hacknowledged⟩ := hruns
  obtain ⟨publication, hpublication, -⟩ :=
    h "OPEN-7-1001" _ c _ ⟨rfl, rfl, rfl⟩ hrun (by simp [htasks]) 1 hacknowledged
  rw [hnone] at hpublication
  cases hpublication

/-- As long as only one master's connectors use the event id, no publish of the event fails under its
claimed key, and no claim of it fails although it took effect, an acknowledged event is published on its
master's channel once no request for it is in progress. -/
theorem acknowledged_published (eventId : String) (masterId : Uuid) (start c : Config)
    (actions : List Action) (hstart : start.Unrequested)
    (hrun : Backend.run (PublishesEventOf eventId masterId) start actions = some c) :
    c.PublishedIfAcknowledged eventId := by
  have hclaims : start.Claims eventId masterId := by
    refine ⟨⟨fun answer hanswer => ?_, by simp [hstart.tasks]⟩, ?_⟩
    · simp [hstart.answers] at hanswer
    rintro (hkey | ⟨answer, hanswer, -⟩)
    · simp [hstart.keys] at hkey
    · simp [hstart.answers] at hanswer
  obtain ⟨hrequested, hledger⟩ := (claims_preserved eventId masterId).follow hclaims hrun
  rintro hidle answered ⟨answer, hanswer, hid, rfl, hok⟩
  obtain hmaster : answer.masterId = masterId := hrequested.1 answer hanswer hid
  rw [hmaster]
  have hnone : total (publishLedger eventId masterId).hold c.tasks = 0 := by
    refine total_eq_zero fun task htask => if_neg ?_
    have hother := hidle task htask
    unfold Task.publishes
    split
    · simpa [Task.ingests] using hother
    · simp
  refine (hledger (.inr ⟨answer, hanswer, hid, hmaster, hok⟩)).resolve_left ?_
  omega

/-- The claim fails before it took effect, and the event is sent again. -/
def Sample.retriedClaim : List Action :=
  [.arrive (.ingest 1 Sample.openEvent.toTradeEventPayload), .resume 0 .rejected,
    .arrive (.ingest 1 Sample.openEvent.toTradeEventPayload), .resume 0 .ok, .resume 0 .ok]

theorem retried_claim_published :
    ∃ c, Backend.run (PublishesEventOf "OPEN-7-1001" 1) (Sample.config Sample.mt5Slave [])
        Sample.retriedClaim = some c ∧ c.shared.Acknowledged "OPEN-7-1001" 1 ∧
        c.PublishedIfAcknowledged "OPEN-7-1001" := by
  have hruns : ∃ c, Backend.run (PublishesEventOf "OPEN-7-1001" 1)
      (Sample.config Sample.mt5Slave []) Sample.retriedClaim = some c ∧
      c.shared.Acknowledged "OPEN-7-1001" 1 := by
    decide +kernel
  obtain ⟨c, hrun, hacknowledged⟩ := hruns
  exact ⟨c, hrun, hacknowledged, acknowledged_published "OPEN-7-1001" 1 _ c _ ⟨rfl, rfl, rfl⟩ hrun⟩

end ForexCopy
