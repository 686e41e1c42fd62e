import ForexCopy.Proof.Portal.Backing

/-!
# What a step does to connectors and sockets

Few steps touch the rows of the connectors, the clock or the sockets: a heartbeat that is written, a
registration, the sweep, a tick, and a socket that comes or goes. They are listed once, with what each
of them makes of these parts.
-/

namespace ForexCopy

open Machine Pool Table

/-- The connectors, the clock, and the sockets as the copy engine and as the gateway know them. -/
structure Wiring where
  connectors : List Connector
  now : DateTime
  connected : List Uuid
  connections : List (Uuid × ℕ)
  sessions : List Session

def Portal.wiring (p : Portal) : Wiring where
  connectors := p.world.connectors
  now := p.world.now
  connected := p.world.connections
  connections := p.connections
  sessions := p.sessions

def Connector.beat (time : DateTime) (connector : Connector) : Connector :=
  { connector with lastHeartbeatAt := some time, status := .online }

/-- The time of a heartbeat that is about to be written. -/
def Task.beats : Task → Option DateTime
  | .heartbeat _ _ time .updateConnector => some time
  | _ => none

def Work.beats (work : Work) : Option DateTime := work.task.bind Task.beats

def PortalAction.beats (c : Pool Portal Call) : PortalAction → Option DateTime
  | .resume i _ => (c.tasks[i]?).bind fun call => call.work.beats
  | .arrive _ => none

/-- What a step may make of the wiring. -/
inductive PortalAction.Rewires (c : Pool Portal Call) (a : PortalAction) (p' : Portal) : Prop
  | same (h : p'.wiring = c.shared.wiring)
  | beat (connectorId : Uuid) (time : DateTime) (hbeats : a.beats c = some time)
      (h : p'.wiring = { c.shared.wiring with
        connectors := update Connector.id connectorId (Connector.beat time)
          c.shared.world.connectors })
  | connect (token : String) (connectorId slaveId : Uuid)
      (h : p'.wiring = (c.shared.connect token connectorId slaveId).wiring)
  | disconnect (session : Session) (hsession : session ∈ c.shared.sessions)
      (h : p'.wiring = (c.shared.disconnect session).wiring)
  | register (id : Uuid) (owner : ConnectorOwner)
      (h : p'.wiring = { c.shared.wiring with
        connectors := c.shared.world.connectors ++ [Portal.connectorRow id owner] })
  | sweep (staleBefore : DateTime)
      (ha : a = .arrive (.backend (.sweepOfflineConnectors staleBefore)))
      (h : p'.wiring = { c.shared.wiring with
        connectors := (c.shared.world.sweepOfflineConnectors staleBefore).connectors })
  | tick (milliseconds : ℕ)
      (h : p'.wiring = { c.shared.wiring with now := c.shared.world.now + milliseconds })

/-! ### Calls of the backend -/

/-- What nearly all calls leave as it is. -/
structure World.SameWiring (w w' : World) : Prop where
  connectors : w'.connectors = w.connectors
  now : w'.now = w.now
  connections : w'.connections = w.connections

section

variable {reply : Reply} {w w' : World}

theorem World.SameWiring.refl (w : World) : w.SameWiring w := ⟨rfl, rfl, rfl⟩

theorem settle_wiring (reply : Reply) (next : List Task) (h : w.SameWiring w') :
    w.SameWiring (reply.settle w w' next).1 := by
  cases reply with
  | ok | swapped | lost => exact h
  | rejected => exact .refl w

theorem updateAccount_wiring (w : World) (connector : Connector) (account : AccountSnapshot) :
    w.SameWiring (w.updateAccount connector account) := by
  unfold World.updateAccount
  split
  · exact ⟨rfl, rfl, rfl⟩
  · exact ⟨rfl, rfl, rfl⟩
  · exact ⟨rfl, rfl, rfl⟩

/-- A heartbeat is written once, after its key. -/
theorem heartbeatStep_wiring (reply : Reply) (w : World) (connectorId : Uuid)
    (accountInfo : Option AccountSnapshot) (time : DateTime) (point : HeartbeatPoint) :
    w.SameWiring (heartbeatStep reply w connectorId accountInfo time point).1 ∨
      point = .updateConnector ∧
        (heartbeatStep reply w connectorId accountInfo time point).1 =
          w.updateConnector connectorId (Connector.beat time) := by
  cases point with
  | setKey => exact .inl (settle_wiring reply _ (.refl w))
  | updateConnector =>
      simp only [heartbeatStep]
      split
      · exact .inl (.refl w)
      · cases reply with
        | ok | swapped | lost => exact .inr ⟨trivial, rfl⟩
        | rejected => exact .inl (.refl w)
  | updateOwner connector =>
      simp only [heartbeatStep]
      split
      · exact .inl (.refl w)
      · exact .inl (settle_wiring reply _ (updateAccount_wiring w connector _))

theorem persistTradeEventStep_wiring (reply : Reply) (w : World) (event : NormalizedTradeEvent) :
    w.SameWiring (persistTradeEventStep reply w event).1 := by
  simp only [persistTradeEventStep, World.createTradeEvent]
  split_ifs
  · exact .refl w
  · exact settle_wiring reply _ ⟨rfl, rfl, rfl⟩

theorem Task.Step.wiring {task : Task} {next : List Task} (hstep : Task.Step reply w task w' next)
    (htask : ¬task.Background) : w.SameWiring w' := by
  cases hstep with
  | background hbackground => exact absurd hbackground htask
  | _ => exact ⟨rfl, rfl, rfl⟩

theorem Task.step_wiring (reply : Reply) (w : World) (task : Task) :
    w.SameWiring (task.step reply w).1 ∨
      ∃ connectorId time, task.beats = some time ∧
        (task.step reply w).1 = w.updateConnector connectorId (Connector.beat time) := by
  have hstep : Task.Step reply w task (task.step reply w).1 (task.step reply w).2 :=
    Task.step_sound rfl
  cases task with
  | ingest event point =>
      have hcases : IngestStep reply w event point (ingestStep reply w event point).1
        (ingestStep reply w event point).2 := ingestStep_cases rfl
      refine .inl ?_
      simp only [Task.step]
      generalize ingestStep reply w event point = outcome at hcases ⊢
      obtain ⟨w', next⟩ := outcome
      cases hcases <;> exact ⟨rfl, rfl, rfl⟩
  | persist event => exact .inl (persistTradeEventStep_wiring reply w event)
  | heartbeat connectorId accountInfo time point =>
      refine (heartbeatStep_wiring reply w connectorId accountInfo time point).imp_right ?_
      rintro ⟨rfl, hbeat⟩
      exact ⟨connectorId, time, rfl, hbeat⟩
  | masterEvent | copy | message | poll => exact .inl (hstep.wiring id)

end

/-! ### Calls of the portal -/

section

variable {p p' : Portal}

theorem World.SameWiring.wiring (h : p.world.SameWiring p'.world)
    (hconnections : p'.connections = p.connections) (hsessions : p'.sessions = p.sessions) :
    p'.wiring = p.wiring := by
  unfold Portal.wiring
  rw [h.connectors, h.now, h.connections, hconnections, hsessions]

theorem updateOwner_connections (p : Portal) (connector : Connector) (account : ReportedAccount)
    (time : DateTime) : (p.updateOwner connector account time).connections = p.connections := by
  unfold Portal.updateOwner
  dsimp only
  split <;> rfl

/-- The gateway's map is no business of the backend's calls. -/
theorem Work.step_connections (hashToken : String → String) (reply : Reply) (p : Portal) {work : Work}
    {task : Task} (htask : work.task = some task) :
    (work.step hashToken reply p).1.connections = p.connections := by
  cases work with
  | authenticate => cases htask
  | heartbeat connectorId accountInfo time point =>
      cases point with
      | setKey => cases reply <;> rfl
      | updateConnector =>
          simp only [step, Portal.recordHeartbeatStep]
          split
          · rfl
          · cases reply <;> rfl
      | updateOwner connector =>
          cases accountInfo with
          | none => rfl
          | some account =>
              cases reply with
              | ok | swapped | lost => exact updateOwner_connections p connector account time
              | rejected => rfl
  | executionResult slaveId result point =>
      simp only [step, Portal.executionResultStep]
      split_ifs <;> rfl
  | backend task => rfl

theorem ingestTradeEvent_wiring (w : World) (masterId : Uuid) (payload : TradeEventPayload) :
    w.SameWiring (ingestTradeEvent w masterId payload).1 := by
  unfold ingestTradeEvent
  split_ifs <;> exact ⟨rfl, rfl, rfl⟩

/-- A handler connects a socket, or leaves the wiring as it is. -/
theorem handle_wiring (p : Portal) (token : String) (auth : AuthenticatedConnector)
    (request : Request) :
    (p.handle token auth request).1.wiring = p.wiring ∨
      ∃ slaveId, (p.handle token auth request).1 = p.connect token auth.connectorId slaveId := by
  cases request with
  | tradeEvent body =>
      simp only [Portal.handle]
      split
      · exact .inl ((ingestTradeEvent_wiring _ _ _).wiring rfl rfl)
      · exact .inl rfl
  | heartbeat body => exact .inl rfl
  | pendingInstruction =>
      simp only [Portal.handle]
      split <;> exact .inl rfl
  | executionResult body =>
      simp only [Portal.handle]
      split <;> exact .inl rfl
  | slaveSocket =>
      simp only [Portal.handle]
      split
      · exact .inl rfl
      · exact .inr ⟨_, rfl⟩

/-- What is cached is not part of the wiring. -/
theorem connect_cached (p : Portal) (tokenHash token : String) (auth : AuthenticatedConnector)
    (slaveId : Uuid) :
    ((p.cacheConnector tokenHash auth).connect token auth.connectorId slaveId).wiring =
      (p.connect token auth.connectorId slaveId).wiring := rfl

end

/-! ### Steps -/

section

variable {hashToken : String → String} {c c' : Pool Portal Call} {a : PortalAction}

theorem resume_rewires {i : ℕ} {reply : Reply}
    (hstep : c.resume (Call.step hashToken) i reply = some c') :
    (PortalAction.resume i reply).Rewires c c'.shared := by
  obtain ⟨before, call, after, p', next, hget, -, hmove, rfl⟩ :=
    resume_cases (Call.step hashToken) hstep
  obtain ⟨token, work⟩ := call
  obtain rfl : (work.step hashToken reply c.shared).1 = p' := congrArg Prod.fst hmove
  cases htask : work.task with
  | some task =>
      have hworld : (task.step reply c.shared.world).1 =
          (work.step hashToken reply c.shared).1.world :=
        congrArg Prod.fst (work.step_task hashToken reply c.shared htask)
      have hconnections := work.step_connections hashToken reply c.shared htask
      have hsessions := (work.step_tokens hashToken reply c.shared htask).sessions
      rcases task.step_wiring reply c.shared.world with hsame | ⟨connectorId, time, hbeats, hbeat⟩
      · exact .same ((hworld ▸ hsame).wiring hconnections hsessions)
      · refine .beat connectorId time ?_ ?_
        · simp [PortalAction.beats, hget, Work.beats, htask, hbeats]
        · simp only [Portal.wiring, hconnections, hsessions, ← hworld, hbeat]
          rfl
  | none =>
      cases work with
      | heartbeat | executionResult | backend => cases htask
      | authenticate sent request point =>
          have hmove := authenticateStep_cases hashToken reply c.shared sent request point
          simp only [Work.step]
          generalize c.shared.authenticateStep hashToken reply sent request point = outcome at hmove
          obtain ⟨p', next⟩ := outcome
          cases hmove with
          | ends | miss | found | stored => exact .same rfl
          | @hit auth =>
              rcases handle_wiring c.shared sent auth request with hsame | ⟨slaveId, hconnect⟩
              · exact .same hsame
              · exact .connect sent auth.connectorId slaveId (congrArg Portal.wiring hconnect)
          | admitted auth =>
              rcases handle_wiring (c.shared.cacheConnector (hashToken sent) auth) sent auth request
                with hsame | ⟨slaveId, hconnect⟩
              · exact .same hsame
              · exact .connect sent auth.connectorId slaveId
                  ((congrArg Portal.wiring hconnect).trans (connect_cached _ _ _ _ _))

theorem Portal.registerConnector_rewires (owner : ConnectorOwner) (token : String) :
    (PortalAction.arrive (.register owner token)).Rewires c
      (c.shared.registerConnector hashToken owner token) := by
  unfold registerConnector
  dsimp only
  split_ifs
  · exact .same rfl
  · exact .register _ owner rfl

/-- What the backend does by itself, or others than connectors ask it to. -/
theorem Stimulus.rewires {stimulus : Stimulus} (h : stimulus.internal = true) :
    (PortalAction.arrive (.backend stimulus)).Rewires c
      { c.shared with world := (stimulus.apply c.shared.world).1 } := by
  cases stimulus with
  | ingest | poll | slaveMessage | executionResult | heartbeat | connect | disconnect => cases h
  | sweepOfflineConnectors staleBefore => exact .sweep staleBefore rfl rfl
  | tick milliseconds => exact .tick milliseconds rfl
  | patchSlave id input =>
      refine .same ?_
      simp only [apply, World.patchSlave]
      split_ifs <;> rfl
  | masterEvent | expireKey | upsertSymbolMapping | deleteSymbolMapping | rearrange => exact .same rfl

/-- A step rewires the portal in one of these ways, if at all. -/
theorem Portal.step_rewires (hstep : Portal.step hashToken c a = some c') : a.Rewires c c'.shared := by
  cases a with
  | resume i reply => exact resume_rewires hstep
  | arrive arrival =>
      simp only [Portal.step, Option.ite_none_right_eq_some, Option.some.injEq] at hstep
      obtain ⟨hadmitted, rfl⟩ := hstep
      cases arrival with
      | register owner token => exact registerConnector_rewires owner token
      | request authHeader asked =>
          simp only [Arrival.apply]
          split <;> exact .same rfl
      | socketMessage socketId message =>
          simp only [Arrival.apply]
          split <;> exact .same rfl
      | closeSocket socketId =>
          simp only [Arrival.apply]
          split
          · exact .same rfl
          · rename_i session hfound
            exact .disconnect session (lookup_mem hfound) rfl
      | expireToken tokenHash => exact .same rfl
      | backend stimulus => exact Stimulus.rewires hadmitted

end

end ForexCopy
