import ForexCopy.Proof.Portal.Frames

/-!
# Every call acts for the owner of its token

A token reaches a handler only through its hash: the cache and the column lead from the hash to the
connector that was registered under it, and owners never change. So whatever a call with a token is
about to do belongs to a registration of that hash. Registrations only accumulate, which keeps this
true of a call however long it waits.
-/

namespace ForexCopy

open Machine Pool Table

/-! ### Registrations -/

/-- The rows of the connectors are the tokens handed out, each under its own hash. -/
structure Portal.Registered (hashToken : String → String) (p : Portal) : Prop where
  rows : p.world.connectors.map Connector.ownership = p.registered.map Registration.ownership
  column : p.tokenHashes = p.registered.map fun r => (r.connectorId, hashToken r.token)
  ids : (p.registered.map Registration.connectorId).Nodup
  hashes : (p.registered.map fun r => hashToken r.token).Nodup

theorem Registration.ownership_fst (r : Registration) : r.ownership.1 = r.connectorId := by
  obtain ⟨token, connectorId, owner⟩ := r
  cases owner <;> rfl

theorem Connector.authenticated_of_ownership {connector : Connector} {r : Registration}
    (h : connector.ownership = r.ownership) : connector.authenticated = r.authenticated := by
  obtain ⟨hid, hmaster, hslave⟩ : connector.id = (Portal.connectorRow r.connectorId r.owner).id ∧
      connector.masterId = (Portal.connectorRow r.connectorId r.owner).masterId ∧
      connector.slaveId = (Portal.connectorRow r.connectorId r.owner).slaveId := by
    simpa [Connector.ownership, Registration.ownership] using h
  unfold Registration.authenticated Connector.authenticated
  rw [hid, hmaster, hslave]

namespace Portal

variable {hashToken : String → String} {p p' : Portal}

theorem Registered.ownership_eq (h : p.Registered hashToken) {r : Registration}
    (hr : r ∈ p.registered) {connector : Connector} (hconnector : connector ∈ p.world.connectors)
    (hid : connector.id = r.connectorId) : connector.ownership = r.ownership := by
  have hmem : connector.ownership ∈ p.registered.map Registration.ownership :=
    h.rows ▸ List.mem_map_of_mem hconnector
  obtain ⟨other, hother, hown⟩ := List.mem_map.mp hmem
  have hsame : other.connectorId = r.connectorId :=
    calc other.connectorId = other.ownership.1 := other.ownership_fst.symm
      _ = connector.id := congrArg Prod.fst hown
      _ = r.connectorId := hid
  rw [← hown, eq_of_key_eq h.ids hother hr hsame]

theorem Registered.find (h : p.Registered hashToken) {tokenHash : String} {connector : Connector}
    (hfound : p.findByTokenHash tokenHash = some connector) :
    ∃ r ∈ p.registered, hashToken r.token = tokenHash ∧
      connector.authenticated = r.authenticated := by
  have hconnector := List.mem_of_find?_eq_some hfound
  have hcolumn : (connector.id, tokenHash) ∈ p.tokenHashes := by
    simpa using List.find?_some hfound
  rw [h.column] at hcolumn
  obtain ⟨r, hr, heq⟩ := List.mem_map.mp hcolumn
  obtain ⟨hid, hhash⟩ := Prod.mk.inj heq
  exact ⟨r, hr, hhash, Connector.authenticated_of_ownership
    (h.ownership_eq hr hconnector hid.symm)⟩

/-- Tokens, and whose connectors they are, stay. -/
structure SameRegistry (p p' : Portal) : Prop where
  registered : p'.registered = p.registered
  tokenHashes : p'.tokenHashes = p.tokenHashes
  connectors : p'.world.connectors.map Connector.ownership =
    p.world.connectors.map Connector.ownership

theorem Registered.of_same (h : p.Registered hashToken) (hsame : p.SameRegistry p') :
    p'.Registered hashToken where
  rows := by rw [hsame.connectors, hsame.registered, h.rows]
  column := by rw [hsame.tokenHashes, hsame.registered, h.column]
  ids := hsame.registered ▸ h.ids
  hashes := hsame.registered ▸ h.hashes

theorem Registered.fresh_notMem (h : p.Registered hashToken) :
    fresh (p.world.connectors.map Connector.id) ∉ p.registered.map Registration.connectorId := by
  have hids : p.registered.map Registration.connectorId = p.world.connectors.map Connector.id := by
    have hfst := congrArg (List.map Prod.fst) h.rows
    rw [List.map_map, List.map_map] at hfst
    exact (hfst.trans (List.map_congr_left fun r _ => r.ownership_fst)).symm
  rw [hids]
  exact Table.fresh_notMem _

theorem Registered.register (h : p.Registered hashToken) (owner : ConnectorOwner) (token : String) :
    (p.registerConnector hashToken owner token).Registered hashToken := by
  have hcolumn : p.tokenHashes.map Prod.snd = p.registered.map fun r => hashToken r.token := by
    rw [h.column, List.map_map]
    rfl
  simp only [registerConnector]
  split_ifs with hrefused
  · exact h
  · obtain ⟨-, hnew⟩ := not_or.mp hrefused
    exact
      { rows := by
          simp only [List.map_append, h.rows]
          rfl
        column := by simp [h.column]
        ids := nodup_append_of_notMem h.ids h.fresh_notMem
        hashes := nodup_append_of_notMem h.hashes (hcolumn ▸ hnew) }

/-! ### What waits for its turn -/

/-- The shared state: the cache and the sockets are backed by registrations. `inUse` holds the tokens
that have turned up so far. -/
structure Backed (hashToken : String → String) (inUse : List String) (p : Portal) : Prop where
  sound : p.world.Sound
  registry : p.Registered hashToken
  tokens : ∀ r ∈ p.registered, r.token ∈ inUse
  cache : ∀ entry ∈ p.tokenCache, ∃ r ∈ p.registered, hashToken r.token = entry.1 ∧
    entry.2 = r.authenticated
  sessions : ∀ session ∈ p.sessions, session.token ∈ inUse ∧ ∃ r ∈ p.registered,
    hashToken r.token = hashToken session.token ∧ session.connectorId = r.connectorId ∧
      r.owner = .slave session.slaveId

/-- A later portal: registrations and copy orders are still there. -/
structure Before (p p' : Portal) : Prop where
  registered : p.registered <+: p'.registered
  world : p.world.Before p'.world

end Portal

/-- The calls of the backend that no token has started. -/
def Task.Unprompted : Task → Prop
  | .masterEvent _ _ | .copy _ _ => True
  | .ingest _ _ | .persist _ | .heartbeat _ _ _ _ | .message _ _ _ | .poll _ _ => False

/-- What a suspended call relies on. -/
inductive Call.Backed (hashToken : String → String) (p : Portal) : Call → Prop
  | authenticating {token : String} {request : Request} {point : AuthPoint}
      (hauth : ∀ auth, point = .setCached auth → ∃ r ∈ p.registered,
        hashToken r.token = hashToken token ∧ auth = r.authenticated) :
      Backed hashToken p ⟨some token, .authenticate token request point⟩
  | owned {token : String} {work : Work} {r : Registration} (hr : r ∈ p.registered)
      (hhash : hashToken r.token = hashToken token) (howned : work.OwnedBy r)
      (hground : ∀ task ∈ work.task, task.Grounded p.world) :
      Backed hashToken p ⟨some token, work⟩
  | unprompted {task : Task} (htask : task.Unprompted) (hground : task.Grounded p.world) :
      Backed hashToken p ⟨none, .backend task⟩

theorem Call.Backed.unresolved {hashToken : String → String} {p : Portal} {token : String}
    {request : Request} {point : AuthPoint} (hpoint : ∀ auth, point ≠ .setCached auth) :
    (Call.mk (some token) (.authenticate token request point)).Backed hashToken p :=
  .authenticating fun auth h => absurd h (hpoint auth)

def backing (hashToken : String → String) (inUse : List String) : Outline Portal Call where
  shared p := p.Backed hashToken inUse
  task p call := call.Backed hashToken p ∧ ∀ token ∈ call.token, token ∈ inUse

theorem Call.Backed.mono {hashToken : String → String} {p p' : Portal} {call : Call}
    (h : call.Backed hashToken p) (hbefore : p.Before p') : call.Backed hashToken p' := by
  cases h with
  | authenticating hauth =>
      refine .authenticating fun auth hpoint => ?_
      obtain ⟨r, hr, hrest⟩ := hauth auth hpoint
      exact ⟨r, hbefore.registered.subset hr, hrest⟩
  | owned hr hhash howned hground =>
      exact .owned (hbefore.registered.subset hr) hhash howned fun task htask =>
        (hground task htask).mono hbefore.world
  | unprompted htask hground => exact .unprompted htask (hground.mono hbefore.world)

/-! ### The work of a registration -/

section

variable {hashToken : String → String} {inUse : List String} {reply : Reply} {p p' : Portal}
  {r : Registration} {token : String}

/-- Tokens, cache and sockets stay. -/
structure Portal.SameTokens (p p' : Portal) : Prop where
  registered : p'.registered = p.registered
  tokenHashes : p'.tokenHashes = p.tokenHashes
  tokenCache : p'.tokenCache = p.tokenCache
  sessions : p'.sessions = p.sessions

theorem Portal.world_updateOwner (p : Portal) (connector : Connector) (account : ReportedAccount)
    (time : DateTime) : (p.updateOwner connector account time).world =
      p.world.updateAccount connector account.toAccountSnapshot := by
  unfold updateOwner
  dsimp only
  split <;> rfl

/-- Work that is one of the backend's calls steps as that call does. -/
theorem Work.step_task (hashToken : String → String) (reply : Reply) (p : Portal) {work : Work}
    {task : Task} (htask : work.task = some task) :
    task.step reply p.world = ((work.step hashToken reply p).1.world,
      (work.step hashToken reply p).2.filterMap Work.task) := by
  cases work with
  | authenticate => cases htask
  | heartbeat connectorId accountInfo time point =>
      obtain rfl := Option.some.inj htask
      cases point with
      | setKey => cases reply <;> rfl
      | updateConnector =>
          simp only [step, Portal.recordHeartbeatStep, Task.step, heartbeatStep]
          cases lookup Connector.id connectorId p.world.connectors with
          | none => rfl
          | some connector => cases accountInfo <;> cases reply <;> rfl
      | updateOwner connector =>
          cases accountInfo with
          | none => rfl
          | some account =>
              have hworld := p.world_updateOwner connector account time
              cases reply with
              | ok | swapped | lost => exact Prod.ext hworld.symm rfl
              | rejected => rfl
  | executionResult slaveId result point =>
      obtain rfl := Option.some.inj htask
      simp only [step, Task.step]
      rcases Portal.slaveMessageStep_next reply p.world slaveId result point with hdone | ⟨order, hnext⟩
      · rw [Portal.executionResultStep_done (Prod.ext rfl hdone)]
        exact Prod.ext rfl hdone
      · rw [Portal.executionResultStep_next (Prod.ext rfl hnext)]
        exact Prod.ext rfl hnext
  | backend task =>
      obtain rfl := Option.some.inj htask
      have hsame : ∀ tasks : List Task, (tasks.map Work.backend).filterMap Work.task = tasks :=
        fun tasks => by simp [List.filterMap_map, Function.comp_def, Work.task]
      exact Prod.ext rfl (hsame _).symm

theorem Portal.updateOwner_tokens (p : Portal) (connector : Connector) (account : ReportedAccount)
    (time : DateTime) : p.SameTokens (p.updateOwner connector account time) := by
  unfold updateOwner
  dsimp only
  split <;> exact ⟨rfl, rfl, rfl, rfl⟩

/-- The tokens, the cache and the sockets are no business of such work. -/
theorem Work.step_tokens (hashToken : String → String) (reply : Reply) (p : Portal) {work : Work}
    {task : Task} (htask : work.task = some task) :
    p.SameTokens (work.step hashToken reply p).1 := by
  have hsame : p.SameTokens p := ⟨rfl, rfl, rfl, rfl⟩
  cases work with
  | authenticate => cases htask
  | heartbeat connectorId accountInfo time point =>
      cases point with
      | setKey => cases reply <;> exact ⟨rfl, rfl, rfl, rfl⟩
      | updateConnector =>
          simp only [step, Portal.recordHeartbeatStep]
          split
          · exact hsame
          · cases reply <;> exact ⟨rfl, rfl, rfl, rfl⟩
      | updateOwner connector =>
          cases accountInfo with
          | none => exact hsame
          | some account =>
              cases reply with
              | ok | swapped | lost => exact p.updateOwner_tokens connector account time
              | rejected => exact hsame
  | executionResult slaveId result point =>
      simp only [step, Portal.executionResultStep]
      split_ifs <;> exact ⟨rfl, rfl, rfl, rfl⟩
  | backend task => exact ⟨rfl, rfl, rfl, rfl⟩

theorem Registration.Within.connectors (h : r.Within p p') :
    p'.world.connectors.map Connector.ownership = p.world.connectors.map Connector.ownership := by
  unfold Within at h
  split at h
  · exact h.connectors.map_fixed
  · exact h.connectors.map_fixed

theorem Work.OwnedBy.task_isSome {work : Work} (h : work.OwnedBy r) : ∃ task, work.task = some task := by
  cases work with
  | authenticate => exact h.elim
  | heartbeat | executionResult | backend => exact ⟨_, rfl⟩

theorem Portal.Backed.of_same (h : p.Backed hashToken inUse) (hsame : p.SameTokens p')
    (hconnectors : p'.world.connectors.map Connector.ownership =
      p.world.connectors.map Connector.ownership)
    (hsound : p'.world.Sound) : p'.Backed hashToken inUse where
  sound := hsound
  registry := h.registry.of_same ⟨hsame.registered, hsame.tokenHashes, hconnectors⟩
  tokens := hsame.registered ▸ h.tokens
  cache := by
    rw [hsame.tokenCache, hsame.registered]
    exact h.cache
  sessions := by
    rw [hsame.sessions, hsame.registered]
    exact h.sessions

theorem Work.step_backed (hashToken : String → String) (reply : Reply) {work : Work}
    (hp : p.Backed hashToken inUse) (hr : r ∈ p.registered)
    (hhash : hashToken r.token = hashToken token) (howned : work.OwnedBy r)
    (hground : ∀ task ∈ work.task, task.Grounded p.world) :
    let p' := (work.step hashToken reply p).1
    p'.Backed hashToken inUse ∧ p.Before p' ∧
      ∀ next ∈ (work.step hashToken reply p).2, (Call.mk (some token) next).Backed hashToken p' := by
  intro p'
  obtain ⟨task, htask⟩ := howned.task_isSome
  obtain ⟨hwithin, hnext⟩ := Work.step_within hashToken reply howned
    (fun connector => hp.registry.ownership_eq hr) hp.sound hground
  have hsame := Work.step_tokens hashToken reply p htask
  have hmove := Task.step_sound (Work.step_task hashToken reply p htask)
  obtain ⟨hsound, hgrounded⟩ := hmove.grounded hp.sound (hground task htask)
  refine ⟨hp.of_same hsame hwithin.connectors hsound,
    ⟨by rw [hsame.registered], hmove.before⟩, fun next hmem => ?_⟩
  refine .owned (hsame.registered.symm ▸ hr) hhash (hnext next hmem) fun t ht => ?_
  exact hgrounded t (List.mem_filterMap.mpr ⟨next, hmem, ht⟩)

end

/-! ### Calls without a token -/

section

variable {reply : Reply} {w w' : World} {task : Task} {next : List Task}

theorem Task.Step.unprompted (hstep : Task.Step reply w task w' next) (htask : task.Unprompted) :
    w'.connectors = w.connectors ∧ ∀ t ∈ next, t.Unprompted := by
  cases hstep with
  | background hbackground =>
      cases task with
      | ingest | persist | heartbeat | message | poll => exact htask.elim
      | masterEvent | copy => exact hbackground.elim
  | persist | messageRead | record | pollRead | pollFailed | respond | respondLost =>
      exact htask.elim
  | insert _ _ _ _ _ hnext =>
      refine ⟨rfl, fun t ht => ?_⟩
      obtain ⟨rfl, -⟩ | rfl := hnext.mem ht <;> trivial
  | _ => exact ⟨rfl, by simp [Unprompted]⟩

theorem Stimulus.unprompted {stimulus : Stimulus} (h : stimulus.internal = true) (w : World) :
    (stimulus.apply w).1.connectors.map Connector.ownership =
        w.connectors.map Connector.ownership ∧
      ∀ task ∈ (stimulus.apply w).2, task.Unprompted := by
  cases stimulus with
  | ingest | poll | slaveMessage | executionResult | heartbeat | connect | disconnect => cases h
  | masterEvent event =>
      refine ⟨rfl, ?_⟩
      simp only [apply, handleMasterEvent]
      split_ifs
      · simp [Task.Unprompted]
      · simp
  | sweepOfflineConnectors staleBefore =>
      refine ⟨?_, by simp [apply]⟩
      simp only [apply, World.sweepOfflineConnectors, List.map_map]
      refine List.map_congr_left fun connector _ => ?_
      simp only [Function.comp]
      split_ifs <;> rfl
  | patchSlave id input =>
      simp only [apply, World.patchSlave]
      split_ifs
      · exact ⟨rfl, by simp⟩
      · exact ⟨rfl, by simp⟩
  | expireKey | upsertSymbolMapping | deleteSymbolMapping | tick | rearrange =>
      exact ⟨rfl, by simp [apply]⟩

end

/-! ### Authentication -/

namespace Portal

variable {hashToken : String → String} {inUse : List String} {p p' : Portal} {r : Registration}
  {token : String}

/-- What a handler does to the portal before its first await. -/
structure Handled (token : String) (auth : AuthenticatedConnector) (p p' : Portal) : Prop where
  registry : p.SameRegistry p'
  cache : p'.tokenCache = p.tokenCache
  orders : p'.world.copyOrders = p.world.copyOrders
  sent : p'.world.sent = p.world.sent
  sessions : ∀ session ∈ p'.sessions, session ∈ p.sessions ∨ session.token = token ∧
    session.connectorId = auth.connectorId ∧ auth.ownSlave = some session.slaveId

theorem Handled.refl (token : String) (auth : AuthenticatedConnector) (p : Portal) :
    p.Handled token auth p :=
  ⟨⟨rfl, rfl, rfl⟩, rfl, rfl, rfl, fun _ h => .inl h⟩

theorem Handled.of_world {auth : AuthenticatedConnector} {w : World}
    (hconnectors : w.connectors = p.world.connectors) (horders : w.copyOrders = p.world.copyOrders)
    (hsent : w.sent = p.world.sent) : p.Handled token auth { p with world := w } :=
  ⟨⟨rfl, rfl, congrArg (List.map Connector.ownership) hconnectors⟩, rfl, horders, hsent,
    fun _ h => .inl h⟩

theorem Handled.connect {auth : AuthenticatedConnector} {slaveId : Uuid}
    (hslave : auth.ownSlave = some slaveId) :
    p.Handled token auth (p.connect token auth.connectorId slaveId) where
  registry := ⟨rfl, rfl, rfl⟩
  cache := rfl
  orders := rfl
  sent := rfl
  sessions := fun session hsession => by
    obtain hold | hnew := List.mem_append.mp hsession
    · exact .inl hold
    · obtain rfl := List.mem_singleton.mp hnew
      exact .inr ⟨rfl, rfl, hslave⟩

theorem handle_handled (p : Portal) (token : String) (auth : AuthenticatedConnector)
    (request : Request) :
    p.Handled token auth (p.handle token auth request).1 ∧
      ∀ work ∈ (p.handle token auth request).2, ∀ task ∈ work.task, task.Starting := by
  cases request with
  | tradeEvent body =>
      simp only [handle]
      split
      · rename_i masterId payload _ _
        have hsame : p.world.PublishesOnly masterId (ingestTradeEvent p.world masterId payload).1 :=
          ingestTradeEvent_publishesOnly _ _
        refine ⟨.of_world hsame.accounts.2.2 hsame.orders.1 hsame.orders.2, ?_⟩
        unfold ingestTradeEvent
        split_ifs
        · simpa [Work.task] using .ingest _ _
        · simp
      · exact ⟨.refl _ _ p, by simp⟩
  | heartbeat body => exact ⟨.refl _ _ p, by simpa [handle, Work.task] using .heartbeat _ _ _ _⟩
  | pendingInstruction =>
      simp only [handle]
      split
      · exact ⟨.refl _ _ p, by simp⟩
      · exact ⟨.refl _ _ p, by simpa [Work.task] using ⟨.heartbeat _ _ _ _, .poll _⟩⟩
  | executionResult body =>
      simp only [handle]
      split
      · exact ⟨.refl _ _ p, by simpa [Work.task] using ⟨.heartbeat _ _ _ _, .message _ _⟩⟩
      · exact ⟨.refl _ _ p, by simp⟩
  | slaveSocket =>
      simp only [handle]
      split
      · exact ⟨.refl _ _ p, by simp⟩
      · rename_i slaveId hslave
        exact ⟨.connect hslave, by simpa [Work.task] using .heartbeat _ _ _ _⟩

theorem handle_backed (hp : p.Backed hashToken inUse) (hr : r ∈ p.registered)
    (hhash : hashToken r.token = hashToken token) (htoken : token ∈ inUse) (request : Request) :
    let p' := (p.handle token r.authenticated request).1
    p'.Backed hashToken inUse ∧ p.Before p' ∧
      ∀ next ∈ (p.handle token r.authenticated request).2,
        (Call.mk (some token) next).Backed hashToken p' := by
  intro p'
  obtain ⟨hhandled, hstarting⟩ := p.handle_handled token r.authenticated request
  obtain ⟨hwithin, howned⟩ := handle_within r p token request
  have hregistered := hhandled.registry.registered
  have hbefore : p.world.Before p'.world := .of_eq hhandled.orders hhandled.sent
  refine ⟨?_, ⟨by rw [hregistered], hbefore⟩, fun next hnext => ?_⟩
  · exact
      { sound := hp.sound.of_cores (congrArg (List.map CopyOrder.core) hhandled.orders)
          hhandled.sent
        registry := hp.registry.of_same hhandled.registry
        tokens := hregistered ▸ hp.tokens
        cache := by
          rw [hhandled.cache, hregistered]
          exact hp.cache
        sessions := fun session hsession => by
          rw [hregistered]
          obtain hold | ⟨rfl, hid, hslave⟩ := hhandled.sessions session hsession
          · exact hp.sessions session hold
          · exact ⟨htoken, r, hr, hhash, hid.trans r.authenticated_connectorId,
              Registration.ownSlave_eq_some hslave⟩ }
  · exact .owned (hregistered.symm ▸ hr) hhash (howned next hnext) fun task htask =>
      (hstarting next hnext task htask).grounded

theorem Backed.cacheConnector (hp : p.Backed hashToken inUse) (hr : r ∈ p.registered) :
    (p.cacheConnector (hashToken r.token) r.authenticated).Backed hashToken inUse where
  sound := hp.sound
  registry := hp.registry.of_same ⟨rfl, rfl, rfl⟩
  tokens := hp.tokens
  cache := fun entry hentry => by
    obtain hold | rfl := mem_put hentry
    · exact hp.cache entry hold
    · exact ⟨r, hr, rfl, rfl⟩
  sessions := hp.sessions

theorem Backed.cached (hp : p.Backed hashToken inUse) {tokenHash : String}
    {auth : AuthenticatedConnector} (hcached : p.cachedConnector tokenHash = some auth) :
    ∃ r ∈ p.registered, hashToken r.token = tokenHash ∧ auth = r.authenticated := by
  obtain ⟨entry, hfound, rfl⟩ := Option.map_eq_some_iff.mp hcached
  obtain ⟨r, hr, hhash, hauth⟩ := hp.cache entry (lookup_mem hfound)
  exact ⟨r, hr, hhash.trans (lookup_key hfound), hauth⟩

end Portal

/-- What an authentication does when its operation settles. -/
inductive AuthStep (hashToken : String → String) (p : Portal) (token : String) (request : Request) :
    AuthPoint → Portal → List Work → Prop
  | ends {point : AuthPoint} : AuthStep hashToken p token request point p []
  | miss : AuthStep hashToken p token request .getCached p [.authenticate token request .findConnector]
  | found {connector : Connector}
      (hfound : p.findByTokenHash (hashToken token) = some connector) :
      AuthStep hashToken p token request .findConnector p
        [.authenticate token request (.setCached connector.authenticated)]
  | hit {auth : AuthenticatedConnector}
      (hcached : p.cachedConnector (hashToken token) = some auth) :
      AuthStep hashToken p token request .getCached (p.handle token auth request).1
        (p.handle token auth request).2
  | admitted (auth : AuthenticatedConnector) :
      AuthStep hashToken p token request (.setCached auth)
        ((p.cacheConnector (hashToken token) auth).handle token auth request).1
        ((p.cacheConnector (hashToken token) auth).handle token auth request).2
  | stored (auth : AuthenticatedConnector) :
      AuthStep hashToken p token request (.setCached auth)
        (p.cacheConnector (hashToken token) auth) []

theorem authenticateStep_cases (hashToken : String → String) (reply : Reply) (p : Portal)
    (token : String) (request : Request) (point : AuthPoint) :
    AuthStep hashToken p token request point
      (p.authenticateStep hashToken reply token request point).1
      (p.authenticateStep hashToken reply token request point).2 := by
  cases point with
  | getCached =>
      simp only [Portal.authenticateStep]
      split
      · rename_i auth hcached
        split_ifs
        · exact .hit hcached
        · exact .ends
      · cases reply
        · exact .miss
        · exact .miss
        · exact .ends
        · exact .ends
  | findConnector =>
      simp only [Portal.authenticateStep]
      split
      · exact .ends
      · rename_i connector hfound
        cases reply
        · exact .found hfound
        · exact .found hfound
        · exact .ends
        · exact .ends
  | setCached auth =>
      cases reply
      · exact .admitted auth
      · exact .admitted auth
      · exact .ends
      · exact .stored auth

/-! ### Every step keeps the backing -/

section

variable {hashToken : String → String} {inUse : List String} {p : Portal} {reply : Reply}

theorem authenticateStep_backed (hp : p.Backed hashToken inUse) {token : String}
    (htoken : token ∈ inUse) {request : Request} {point : AuthPoint}
    (hauth : ∀ auth, point = .setCached auth → ∃ r ∈ p.registered,
      hashToken r.token = hashToken token ∧ auth = r.authenticated)
    {p' : Portal} {next : List Work} (h : AuthStep hashToken p token request point p' next) :
    p'.Backed hashToken inUse ∧ p.Before p' ∧
      ∀ work ∈ next, (Call.mk (some token) work).Backed hashToken p' := by
  have hrefl : p.Before p := ⟨List.prefix_rfl, .of_eq rfl rfl⟩
  cases h with
  | ends => exact ⟨hp, hrefl, by simp⟩
  | miss =>
      refine ⟨hp, hrefl, fun work hwork => ?_⟩
      obtain rfl := List.mem_singleton.mp hwork
      exact .unresolved (by simp)
  | found hfound =>
      refine ⟨hp, hrefl, fun work hwork => ?_⟩
      obtain rfl := List.mem_singleton.mp hwork
      exact .authenticating fun auth hpoint => AuthPoint.setCached.inj hpoint ▸ hp.registry.find hfound
  | hit hcached =>
      obtain ⟨r, hr, hhash, rfl⟩ := hp.cached hcached
      exact Portal.handle_backed hp hr hhash htoken request
  | admitted auth =>
      obtain ⟨r, hr, hhash, rfl⟩ := hauth auth rfl
      obtain ⟨hbacked, hbefore, hnext⟩ :=
        Portal.handle_backed (hp.cacheConnector hr) hr hhash htoken request
      rw [← hhash]
      exact ⟨hbacked, ⟨hbefore.registered, hbefore.world⟩, hnext⟩
  | stored auth =>
      obtain ⟨r, hr, hhash, rfl⟩ := hauth auth rfl
      rw [← hhash]
      exact ⟨hp.cacheConnector hr, ⟨List.prefix_rfl, .of_eq rfl rfl⟩, by simp⟩

theorem unprompted_backed (hp : p.Backed hashToken inUse) {w : World}
    (hconnectors : w.connectors.map Connector.ownership =
      p.world.connectors.map Connector.ownership)
    (hsound : w.Sound) (hbefore : p.world.Before w) :
    Portal.Backed hashToken inUse { p with world := w } ∧
      p.Before { p with world := w } :=
  ⟨hp.of_same ⟨rfl, rfl, rfl, rfl⟩ hconnectors hsound, List.prefix_rfl, hbefore⟩

theorem Call.step_backed (reply : Reply) (hp : p.Backed hashToken inUse) {call : Call}
    (hcall : call.Backed hashToken p) (htoken : ∀ token ∈ call.token, token ∈ inUse) :
    let p' := (call.step hashToken reply p).1
    p'.Backed hashToken inUse ∧ p.Before p' ∧ ∀ next ∈ (call.step hashToken reply p).2,
      next.Backed hashToken p' ∧ ∀ token ∈ next.token, token ∈ inUse := by
  intro p'
  have hrest : ∀ next ∈ (call.step hashToken reply p).2,
      (∃ work ∈ (call.work.step hashToken reply p).2, next = ⟨call.token, work⟩) := by
    intro next hnext
    obtain ⟨work, hwork, rfl⟩ := List.mem_map.mp hnext
    exact ⟨work, hwork, rfl⟩
  have hstep : p'.Backed hashToken inUse ∧ p.Before p' ∧
      ∀ work ∈ (call.work.step hashToken reply p).2,
        (Call.mk call.token work).Backed hashToken p' := by
    cases hcall with
    | authenticating hauth =>
        exact authenticateStep_backed hp (htoken _ rfl) hauth (authenticateStep_cases _ _ _ _ _ _)
    | owned hr hhash howned hground =>
        exact Work.step_backed hashToken reply hp hr hhash howned hground
    | @unprompted task htask hground =>
        have hmove : Task.Step reply p.world task (task.step reply p.world).1
          (task.step reply p.world).2 := Task.step_sound rfl
        obtain ⟨hsound, hgrounded⟩ := hmove.grounded hp.sound hground
        obtain ⟨hconnectors, hnext⟩ := hmove.unprompted htask
        obtain ⟨hbacked, hbefore⟩ := unprompted_backed hp (by rw [hconnectors]) hsound hmove.before
        refine ⟨hbacked, hbefore, fun work hwork => ?_⟩
        obtain ⟨t, ht, rfl⟩ := List.mem_map.mp hwork
        exact .unprompted (hnext t ht) (hgrounded t ht)
  refine ⟨hstep.1, hstep.2.1, fun next hnext => ?_⟩
  obtain ⟨work, hwork, rfl⟩ := hrest next hnext
  exact ⟨hstep.2.2 work hwork, htoken⟩

end

/-! ### Every arrival does -/

/-- The tokens that an arrival brings along. -/
def Arrival.tokens : Arrival → List String
  | .register _ token => [token]
  | .request authHeader _ => (bearerToken authHeader).toList
  | .socketMessage _ _ | .closeSocket _ | .expireToken _ | .backend _ => []

def PortalAction.tokens : PortalAction → List String
  | .resume _ _ => []
  | .arrive arrival => arrival.tokens

section

variable {hashToken : String → String} {inUse : List String} {p : Portal}

theorem Portal.Before.of_same {p' : Portal} (hregistered : p'.registered = p.registered)
    (horders : p'.world.copyOrders = p.world.copyOrders) (hsent : p'.world.sent = p.world.sent) :
    p.Before p' :=
  ⟨by rw [hregistered], .of_eq horders hsent⟩

theorem register_backed (hp : p.Backed hashToken inUse) (owner : ConnectorOwner) {token : String}
    (htoken : token ∈ inUse) :
    (p.registerConnector hashToken owner token).Backed hashToken inUse ∧
      p.Before (p.registerConnector hashToken owner token) := by
  have hregistry := hp.registry.register owner token
  simp only [Portal.registerConnector] at hregistry ⊢
  split_ifs at hregistry ⊢ with hrefused
  · exact ⟨hp, .of_same rfl rfl rfl⟩
  · refine ⟨?_, ⟨List.prefix_append _ _, .of_eq rfl rfl⟩⟩
    exact
      { sound := hp.sound.of_cores rfl rfl
        registry := hregistry
        tokens := fun r hr => by
          obtain hold | hnew := List.mem_append.mp hr
          · exact hp.tokens r hold
          · obtain rfl := List.mem_singleton.mp hnew
            exact htoken
        cache := fun entry hentry => by
          obtain ⟨r, hr, hrest⟩ := hp.cache entry hentry
          exact ⟨r, List.mem_append_left _ hr, hrest⟩
        sessions := fun session hsession => by
          obtain ⟨huse, r, hr, hrest⟩ := hp.sessions session hsession
          exact ⟨huse, r, List.mem_append_left _ hr, hrest⟩ }

theorem disconnect_backed (hp : p.Backed hashToken inUse) (session : Session) :
    (p.disconnect session).Backed hashToken inUse ∧ p.Before (p.disconnect session) := by
  unfold Portal.disconnect
  dsimp only
  split_ifs
  · exact ⟨⟨hp.sound.of_cores rfl rfl, hp.registry.of_same ⟨rfl, rfl, rfl⟩, hp.tokens, hp.cache,
      fun other hother => hp.sessions other (List.mem_of_mem_filter hother)⟩, .of_same rfl rfl rfl⟩
  · exact ⟨⟨hp.sound, hp.registry.of_same ⟨rfl, rfl, rfl⟩, hp.tokens, hp.cache,
      fun other hother => hp.sessions other (List.mem_of_mem_filter hother)⟩, .of_same rfl rfl rfl⟩

theorem receive_starting (p : Portal) (session : Session) (message : SocketMessage) :
    ∀ work ∈ p.receive session message, ∀ task ∈ work.task, task.Starting := by
  cases message with
  | malformed => simp [Portal.receive]
  | json heartbeat result =>
      simp only [Portal.receive]
      split
      · simpa [Work.task] using .heartbeat _ _ _ _
      · cases result.known with
        | none => simpa [handleSlaveMessage, Work.task] using .heartbeat _ _ _ _
        | some known =>
            simpa [handleSlaveMessage, Work.task] using ⟨.heartbeat _ _ _ _, .message _ _⟩

theorem Arrival.apply_backed (hp : p.Backed hashToken inUse) {arrival : Arrival}
    (hadmitted : arrival.admitted = true) (htokens : ∀ token ∈ arrival.tokens, token ∈ inUse) :
    let p' := (arrival.apply hashToken p).1
    p'.Backed hashToken inUse ∧ p.Before p' ∧ ∀ call ∈ (arrival.apply hashToken p).2,
      call.Backed hashToken p' ∧ ∀ token ∈ call.token, token ∈ inUse := by
  have hrefl : p.Before p := .of_same rfl rfl rfl
  cases arrival with
  | register owner token =>
      obtain ⟨hbacked, hbefore⟩ := register_backed hp owner (htokens token (by simp [tokens]))
      exact ⟨hbacked, hbefore, by simp [apply]⟩
  | request authHeader asked =>
      simp only [apply]
      split
      · exact ⟨hp, hrefl, by simp⟩
      · rename_i token htoken
        refine ⟨hp, hrefl, fun call hcall => ?_⟩
        obtain rfl := List.mem_singleton.mp hcall
        refine ⟨.unresolved (by simp), fun t ht => ?_⟩
        obtain rfl := Option.mem_some.mp ht
        exact htokens token (by simp [tokens, htoken])
  | socketMessage socketId message =>
      simp only [apply]
      split
      · exact ⟨hp, hrefl, by simp⟩
      · rename_i session hfound
        obtain ⟨huse, r, hr, hhash, hid, hslave⟩ := hp.sessions session (lookup_mem hfound)
        have howned : ∀ work ∈ p.receive session message, work.OwnedBy r :=
          Portal.receive_owned hid hslave message
        refine ⟨hp, hrefl, fun call hcall => ?_⟩
        obtain ⟨work, hwork, rfl⟩ := List.mem_map.mp hcall
        refine ⟨.owned hr hhash (howned work hwork) fun task htask => ?_, fun t ht => ?_⟩
        · exact (receive_starting p session message work hwork task htask).grounded
        · obtain rfl := Option.mem_some.mp ht
          exact huse
  | closeSocket socketId =>
      simp only [apply]
      split
      · exact ⟨hp, hrefl, by simp⟩
      · rename_i session hfound
        obtain ⟨hbacked, hbefore⟩ := disconnect_backed hp session
        exact ⟨hbacked, hbefore, by simp⟩
  | expireToken tokenHash =>
      refine ⟨⟨hp.sound, hp.registry.of_same ⟨rfl, rfl, rfl⟩, hp.tokens, fun entry hentry => ?_,
        hp.sessions⟩, Portal.Before.of_same rfl rfl rfl, by simp [apply]⟩
      exact hp.cache entry (List.mem_of_mem_filter hentry)
  | backend stimulus =>
      obtain ⟨hconnectors, hunprompted⟩ := Stimulus.unprompted hadmitted p.world
      obtain ⟨horders, hsent, hstarting⟩ := stimulus.apply_frame p.world
      obtain ⟨hbacked, hbefore⟩ := unprompted_backed hp hconnectors
        (hp.sound.of_cores (congrArg (List.map CopyOrder.core) horders) hsent) (stimulus.before _)
      refine ⟨hbacked, hbefore, fun call hcall => ?_⟩
      obtain ⟨task, htask, rfl⟩ := List.mem_map.mp hcall
      exact ⟨.unprompted (hunprompted task htask) (hstarting task htask).grounded, by simp⟩

/-- As long as no token comes up that is not among those in use, every step keeps the backing. -/
theorem backing_step {c c' : Pool Portal Call} {a : PortalAction}
    (hc : (backing hashToken inUse).Holds c) (htokens : ∀ token ∈ a.tokens, token ∈ inUse)
    (hstep : Portal.step hashToken c a = some c') : (backing hashToken inUse).Holds c' := by
  cases a with
  | resume i reply =>
      have hbefore : ∀ call, c.tasks[i]? = some call →
          c.shared.Before (call.step hashToken reply c.shared).1 := by
        intro call hget
        obtain ⟨hcall, htoken⟩ := hc.2 call (List.mem_of_getElem? hget)
        exact (Call.step_backed reply hc.1 hcall htoken).2.1
      refine Outline.Holds.resume (Call.step hashToken) hc hstep ?_ ?_
      · rintro call s' next hget hmove hp ⟨hcall, htoken⟩
        obtain ⟨hbacked, -, hnext⟩ := Call.step_backed reply hp hcall htoken
        rw [hmove] at hbacked hnext
        exact ⟨hbacked, hnext⟩
      · rintro call s' next hget hmove - other - ⟨hother, htoken⟩
        have hlater := hbefore call hget
        rw [hmove] at hlater
        exact ⟨hother.mono hlater, htoken⟩
  | arrive arrival =>
      simp only [Portal.step] at hstep
      split_ifs at hstep with hadmitted
      obtain rfl := Option.some.inj hstep
      obtain ⟨hbacked, hbefore, hstarted⟩ := Arrival.apply_backed hc.1 hadmitted htokens
      exact Outline.Holds.arrive hbacked
        (fun call hcall => ⟨(hc.2 call hcall).1.mono hbefore, (hc.2 call hcall).2⟩) hstarted

end

end ForexCopy
