import ForexCopy.Backend.Portal
import ForexCopy.Proof.Grounded
import ForexCopy.Proof.Ingest

/-!
# What work for one owner can touch

The frame of everything a connector's token can start: for a slave its own copy orders, account and
snapshot, for a master its own account, snapshot and channel, and for either the liveness of the one
connector. The frames are proved of work that belongs to a registration; that a call's work does is
the matter of its token, see `Proof.Portal.Backing`.
-/

namespace ForexCopy

open Pool Table

/-- Which connector a row is, and whose: the columns that are never written again. -/
def Connector.ownership (connector : Connector) : Uuid × Option Uuid × Option Uuid :=
  (connector.id, connector.masterId, connector.slaveId)

/-! ### Frames -/

namespace Portal

/-- All that has changed belongs to the slave, or is the liveness of its connector. -/
structure SlaveOnly (slaveId connectorId : Uuid) (p p' : Portal) : Prop where
  copyOrders : ChangesOnly (fun order => order.slaveId = slaveId) CopyOrder.core
    p.world.copyOrders p'.world.copyOrders
  slaves : ChangesOnly (fun slave => slave.id = slaveId) Slave.config p.world.slaves p'.world.slaves
  slaveSnapshots : ∀ id, id ≠ slaveId →
    lookup Prod.fst id p'.slaveSnapshots = lookup Prod.fst id p.slaveSnapshots
  masters : p'.world.masters = p.world.masters
  masterSnapshots : p'.masterSnapshots = p.masterSnapshots
  connectors : ChangesOnly (fun connector => connector.id = connectorId) Connector.ownership
    p.world.connectors p'.world.connectors
  heartbeatKeys : ∀ id, id ≠ connectorId →
    lookup Prod.fst id p'.heartbeatKeys = lookup Prod.fst id p.heartbeatKeys
  connections : ∀ id, id ≠ slaveId →
    lookup Prod.fst id p'.connections = lookup Prod.fst id p.connections
  sent : AppendsOnly (fun delivery => delivery.slaveId = slaveId) p.world.sent p'.world.sent
  published : p'.world.published = p.world.published
  tradeEvents : p'.world.tradeEvents = p.world.tradeEvents

/-- All that has changed belongs to the master, or is the liveness of its connector. -/
structure MasterOnly (masterId connectorId : Uuid) (p p' : Portal) : Prop where
  copyOrders : p'.world.copyOrders = p.world.copyOrders
  slaves : p'.world.slaves = p.world.slaves
  slaveSnapshots : p'.slaveSnapshots = p.slaveSnapshots
  masters : ChangesOnly (fun master => master.id = masterId) Master.id
    p.world.masters p'.world.masters
  masterSnapshots : ∀ id, id ≠ masterId →
    lookup Prod.fst id p'.masterSnapshots = lookup Prod.fst id p.masterSnapshots
  connectors : ChangesOnly (fun connector => connector.id = connectorId) Connector.ownership
    p.world.connectors p'.world.connectors
  heartbeatKeys : ∀ id, id ≠ connectorId →
    lookup Prod.fst id p'.heartbeatKeys = lookup Prod.fst id p.heartbeatKeys
  connections : p'.connections = p.connections
  sent : p'.world.sent = p.world.sent
  published : AppendsOnly (fun publication =>
    publication.channel = masterEventsChannel masterId ∧ publication.event.masterId = masterId)
    p.world.published p'.world.published
  tradeEvents : AppendsOnly (fun row => row.masterId = masterId)
    p.world.tradeEvents p'.world.tradeEvents

variable {slaveId masterId connectorId : Uuid}

theorem SlaveOnly.refl (p : Portal) : SlaveOnly slaveId connectorId p p :=
  ⟨.refl _, .refl _, fun _ _ => rfl, rfl, rfl, .refl _, fun _ _ => rfl, fun _ _ => rfl, .refl _,
    rfl, rfl⟩

theorem MasterOnly.refl (p : Portal) : MasterOnly masterId connectorId p p :=
  ⟨rfl, rfl, rfl, .refl _, fun _ _ => rfl, .refl _, fun _ _ => rfl, rfl, rfl, .refl _, .refl _⟩

end Portal

/-- The frame of a registration. -/
def Registration.Within (r : Registration) (p p' : Portal) : Prop :=
  match r.owner with
  | .slave slaveId => p.SlaveOnly slaveId r.connectorId p'
  | .master masterId => p.MasterOnly masterId r.connectorId p'

theorem Registration.Within.refl (r : Registration) (p : Portal) : r.Within p p := by
  unfold Within
  split
  · exact .refl p
  · exact .refl p

/-! ### Whose a call is -/

def Task.OwnedBy (owner : ConnectorOwner) : Task → Prop
  | .ingest event _ | .persist event => owner = .master event.masterId
  | .message slaveId _ _ | .poll slaveId _ => owner = .slave slaveId
  | .heartbeat _ _ _ _ | .masterEvent _ _ | .copy _ _ => False

def Registration.ownership (r : Registration) : Uuid × Option Uuid × Option Uuid :=
  (Portal.connectorRow r.connectorId r.owner).ownership

/-- The work a request leads to once its token is found to be that of the registration. -/
def Work.OwnedBy (r : Registration) : Work → Prop
  | .authenticate _ _ _ => False
  | .heartbeat connectorId _ _ point => connectorId = r.connectorId ∧
    ∀ connector, point = .updateOwner connector → connector.ownership = r.ownership
  | .executionResult slaveId _ _ => r.owner = .slave slaveId
  | .backend task => task.OwnedBy r.owner

/-- The backend's call that the work is, with what a heartbeat says of positions left out. -/
def Work.task : Work → Option Task
  | .authenticate _ _ _ => none
  | .heartbeat connectorId accountInfo time point =>
    some (.heartbeat connectorId (accountInfo.map ReportedAccount.toAccountSnapshot) time point)
  | .executionResult slaveId result point => some (.message slaveId result point)
  | .backend task => some task

/-! ### Backend calls -/

section

variable {reply : Reply} {w w' : World} {task : Task} {next : List Task} {slaveId masterId : Uuid}

/-- What the calls of a slave leave alone, and what they touch of the others' rows: nothing. -/
structure World.ServesOnly (slaveId : Uuid) (w w' : World) : Prop where
  copyOrders : ChangesOnly (fun order => order.slaveId = slaveId) CopyOrder.core
    w.copyOrders w'.copyOrders
  sent : AppendsOnly (fun delivery => delivery.slaveId = slaveId) w.sent w'.sent
  accounts : w'.masters = w.masters ∧ w'.slaves = w.slaves ∧ w'.connectors = w.connectors
  events : w'.published = w.published ∧ w'.tradeEvents = w.tradeEvents

theorem World.ServesOnly.refl (w : World) : w.ServesOnly slaveId w :=
  ⟨.refl _, .refl _, ⟨rfl, rfl, rfl⟩, rfl, rfl⟩

/-- A row that an existing core names is of the core's slave, as identifiers are unique. -/
theorem World.Sound.updateOrder_servesOnly (hw : w.Sound) {core : CopyOrder} (hcore : core ∈ w.cores)
    (hslave : core.slaveId = slaveId) {copyId : Uuid} (hid : core.id = copyId)
    {change : CopyOrder → CopyOrder} (hchange : KeepsCore change) :
    w.ServesOnly slaveId (w.updateOrder copyId change) where
  copyOrders := by
    refine ChangesOnly.update (fun row hrow hkey => ?_) hchange
    rw [← hslave, ← hw.core_eq hcore hrow (hkey.trans hid.symm), CopyOrder.core_slaveId]
  sent := .refl _
  accounts := ⟨rfl, rfl, rfl⟩
  events := ⟨rfl, rfl⟩

theorem Task.Step.servesOnly (hstep : Task.Step reply w task w' next)
    (howned : task.OwnedBy (.slave slaveId)) (hw : w.Sound) (hground : task.Grounded w) :
    w.ServesOnly slaveId w' := by
  cases hstep with
  | background htask =>
      cases task with
      | ingest | persist => cases howned
      | heartbeat => exact howned.elim
      | masterEvent | copy | message | poll => exact htask.elim
  | ends | eventRead | fanOut | copyRead | messageRead | pollRead => exact .refl _
  | persist => cases howned
  | refuse | insert | push | markOffline | markSent => exact howned.elim
  | record id result order =>
      obtain ⟨hcore, hslave, hid⟩ := hground
      obtain rfl := ConnectorOwner.slave.inj howned
      exact hw.updateOrder_servesOnly hcore hslave hid (keepsCore_record _ _ _)
  | pollFailed id order =>
      obtain ⟨hcore, hslave⟩ := hground
      obtain rfl := ConnectorOwner.slave.inj howned
      exact hw.updateOrder_servesOnly hcore hslave rfl (keepsCore_markFailed _)
  | respond id instruction =>
      obtain ⟨core, hcore, hid, hslave, -⟩ := hground
      obtain rfl := ConnectorOwner.slave.inj howned
      have hmarked := hw.updateOrder_servesOnly hcore hslave hid (keepsCore_markSent w.now)
      exact ⟨hmarked.copyOrders, .single rfl, hmarked.accounts, hmarked.events⟩
  | respondLost id instruction =>
      obtain ⟨core, hcore, hid, hslave, -⟩ := hground
      obtain rfl := ConnectorOwner.slave.inj howned
      exact hw.updateOrder_servesOnly hcore hslave hid (keepsCore_markSent w.now)

/-- What the calls of a master leave alone, and what they add. -/
structure World.PublishesOnly (masterId : Uuid) (w w' : World) : Prop where
  orders : w'.copyOrders = w.copyOrders ∧ w'.sent = w.sent
  accounts : w'.masters = w.masters ∧ w'.slaves = w.slaves ∧ w'.connectors = w.connectors
  published : AppendsOnly (fun publication =>
    publication.channel = masterEventsChannel masterId ∧ publication.event.masterId = masterId)
    w.published w'.published
  tradeEvents : AppendsOnly (fun row => row.masterId = masterId) w.tradeEvents w'.tradeEvents

theorem World.PublishesOnly.of_eq (horders : w'.copyOrders = w.copyOrders ∧ w'.sent = w.sent)
    (haccounts : w'.masters = w.masters ∧ w'.slaves = w.slaves ∧ w'.connectors = w.connectors)
    (hevents : w'.published = w.published ∧ w'.tradeEvents = w.tradeEvents) :
    w.PublishesOnly masterId w' where
  orders := horders
  accounts := haccounts
  published := hevents.1 ▸ .refl _
  tradeEvents := hevents.2 ▸ .refl _

theorem ingestTradeEvent_publishesOnly (w : World) (payload : TradeEventPayload) :
    w.PublishesOnly masterId (ingestTradeEvent w masterId payload).1 := by
  unfold ingestTradeEvent
  split_ifs
  · exact .of_eq ⟨rfl, rfl⟩ ⟨rfl, rfl, rfl⟩ ⟨rfl, rfl⟩
  · exact .of_eq ⟨rfl, rfl⟩ ⟨rfl, rfl, rfl⟩ ⟨rfl, rfl⟩

theorem ingestStep_publishesOnly {event : NormalizedTradeEvent} {point : IngestPoint}
    (h : IngestStep reply w event point w' next) : w.PublishesOnly event.masterId w' := by
  cases h with
  | duplicate | claim | claimLost | failed =>
      exact .of_eq ⟨rfl, rfl⟩ ⟨rfl, rfl, rfl⟩ ⟨rfl, rfl⟩
  | accept | publishLost =>
      exact ⟨⟨rfl, rfl⟩, ⟨rfl, rfl, rfl⟩, .single ⟨rfl, rfl⟩, .refl _⟩

theorem persistTradeEventStep_publishesOnly (reply : Reply) (w : World)
    (event : NormalizedTradeEvent) :
    w.PublishesOnly event.masterId (persistTradeEventStep reply w event).1 := by
  have hsame : w.PublishesOnly event.masterId w := .of_eq ⟨rfl, rfl⟩ ⟨rfl, rfl, rfl⟩ ⟨rfl, rfl⟩
  have hinserted : w.PublishesOnly event.masterId
      (w.insertTradeEvent (event.row w.nextTradeEventId)) :=
    ⟨⟨rfl, rfl⟩, ⟨rfl, rfl, rfl⟩, .refl _, .single rfl⟩
  simp only [persistTradeEventStep, World.createTradeEvent]
  split_ifs
  · exact hsame
  · cases reply with
    | ok | swapped | lost => exact hinserted
    | rejected => exact hsame

theorem Task.publishesOnly (howned : task.OwnedBy (.master masterId))
    (h : task.step reply w = (w', next)) : w.PublishesOnly masterId w' := by
  cases task with
  | ingest event point =>
      obtain rfl := ConnectorOwner.master.inj howned
      exact ingestStep_publishesOnly (ingestStep_cases h)
  | persist event =>
      obtain rfl := ConnectorOwner.master.inj howned
      obtain rfl : (persistTradeEventStep reply w event).1 = w' := congrArg Prod.fst h
      exact persistTradeEventStep_publishesOnly reply w event
  | heartbeat | masterEvent | copy => exact howned.elim
  | message | poll => cases howned

end

/-! ### Work of a registration -/

def Registration.authenticated (r : Registration) : AuthenticatedConnector :=
  (Portal.connectorRow r.connectorId r.owner).authenticated

namespace Registration

variable {r : Registration} {slaveId masterId : Uuid} {p p' : Portal}

theorem authenticated_connectorId (r : Registration) :
    r.authenticated.connectorId = r.connectorId := by
  obtain ⟨token, connectorId, owner⟩ := r
  cases owner <;> rfl

theorem ownSlave_eq_some (h : r.authenticated.ownSlave = some slaveId) : r.owner = .slave slaveId := by
  obtain ⟨token, connectorId, owner⟩ := r
  cases owner with
  | master => simp [authenticated, Portal.connectorRow, Connector.authenticated,
      AuthenticatedConnector.ownSlave] at h
  | slave id => exact congrArg ConnectorOwner.slave (Option.some.inj h)

theorem ownMaster_eq_some (h : r.authenticated.ownMaster = some masterId) :
    r.owner = .master masterId := by
  obtain ⟨token, connectorId, owner⟩ := r
  cases owner with
  | master id => exact congrArg ConnectorOwner.master (Option.some.inj h)
  | slave => simp [authenticated, Portal.connectorRow, Connector.authenticated,
      AuthenticatedConnector.ownMaster] at h

theorem Within.of_slave (hr : r.owner = .slave slaveId)
    (h : p.SlaveOnly slaveId r.connectorId p') : r.Within p p' := by
  unfold Within
  rw [hr]
  exact h

theorem Within.of_master (hr : r.owner = .master masterId)
    (h : p.MasterOnly masterId r.connectorId p') : r.Within p p' := by
  unfold Within
  rw [hr]
  exact h

theorem Within.slaveOnly (h : r.Within p p') (hr : r.owner = .slave slaveId) :
    p.SlaveOnly slaveId r.connectorId p' := by
  unfold Within at h
  rwa [hr] at h

theorem Within.masterOnly (h : r.Within p p') (hr : r.owner = .master masterId) :
    p.MasterOnly masterId r.connectorId p' := by
  unfold Within at h
  rwa [hr] at h

/-- Liveness is within either frame. -/
theorem Within.of_liveness {connectors : List Connector} {keys : List (Uuid × DateTime)}
    (hconnectors : ChangesOnly (fun connector => connector.id = r.connectorId) Connector.ownership
      p.world.connectors connectors)
    (hkeys : ∀ id, id ≠ r.connectorId →
      lookup Prod.fst id keys = lookup Prod.fst id p.heartbeatKeys) :
    r.Within p
      { p with world := { p.world with connectors := connectors }, heartbeatKeys := keys } := by
  unfold Within
  split
  · rename_i slaveId _
    have hsame : p.SlaveOnly slaveId r.connectorId p := .refl p
    exact { hsame with connectors := hconnectors, heartbeatKeys := hkeys }
  · rename_i masterId _
    have hsame : p.MasterOnly masterId r.connectorId p := .refl p
    exact { hsame with connectors := hconnectors, heartbeatKeys := hkeys }

/-- So is a call of the slave, whatever is logged beside it. -/
theorem Within.of_servesOnly (hr : r.owner = .slave slaveId) {w : World}
    (h : p.world.ServesOnly slaveId w) (acknowledged : List (Uuid × ExecutionResult)) :
    r.Within p { p with world := w, acknowledged := acknowledged } :=
  .of_slave hr
    { Portal.SlaveOnly.refl p with
      copyOrders := h.copyOrders
      slaves := h.accounts.2.1 ▸ .refl _
      masters := h.accounts.1
      connectors := h.accounts.2.2 ▸ .refl _
      sent := h.sent
      published := h.events.1
      tradeEvents := h.events.2 }

theorem Within.of_publishesOnly (hr : r.owner = .master masterId) {w : World}
    (h : p.world.PublishesOnly masterId w) : r.Within p { p with world := w } :=
  .of_master hr
    { Portal.MasterOnly.refl p with
      copyOrders := h.orders.1
      slaves := h.accounts.2.1
      masters := h.accounts.1 ▸ .refl _
      connectors := h.accounts.2.2 ▸ .refl _
      sent := h.orders.2
      published := h.published
      tradeEvents := h.tradeEvents }

theorem Within.updateOwner {connector : Connector} (hconnector : connector.ownership = r.ownership)
    (account : ReportedAccount) (time : DateTime) :
    r.Within p (p.updateOwner connector account time) := by
  obtain ⟨token, connectorId, owner⟩ := r
  cases owner with
  | master masterId =>
      obtain ⟨-, hmaster, hslave⟩ : connector.id = connectorId ∧
          connector.masterId = some masterId ∧ connector.slaveId = none := by
        simpa [Connector.ownership, ownership, Portal.connectorRow] using hconnector
      have hmasters : ChangesOnly (fun master => master.id = masterId) Master.id p.world.masters
          (p.world.updateAccount connector account.toAccountSnapshot).masters := by
        simp only [World.updateAccount, hmaster]
        exact .update (fun _ _ hid => hid) fun _ => rfl
      refine .of_master rfl ?_
      simp only [Portal.updateOwner, World.updateAccount, hmaster] at hmasters ⊢
      cases account.positions with
      | none => exact { Portal.MasterOnly.refl p with masters := hmasters }
      | some positions =>
          exact { Portal.MasterOnly.refl p with
            masters := hmasters, masterSnapshots := fun _ hne => lookup_put_of_ne hne _ _ }
  | slave slaveId =>
      obtain ⟨-, hmaster, hslave⟩ : connector.id = connectorId ∧ connector.masterId = none ∧
          connector.slaveId = some slaveId := by
        simpa [Connector.ownership, ownership, Portal.connectorRow] using hconnector
      have hslaves : ChangesOnly (fun slave => slave.id = slaveId) Slave.config p.world.slaves
          (p.world.updateAccount connector account.toAccountSnapshot).slaves := by
        simp only [World.updateAccount, hmaster, hslave]
        exact .update (fun _ _ hid => hid) fun _ => rfl
      refine .of_slave rfl ?_
      simp only [Portal.updateOwner, World.updateAccount, hmaster, hslave] at hslaves ⊢
      cases account.positions with
      | none => exact { Portal.SlaveOnly.refl p with slaves := hslaves }
      | some positions =>
          exact { Portal.SlaveOnly.refl p with
            slaves := hslaves, slaveSnapshots := fun _ hne => lookup_put_of_ne hne _ _ }

end Registration

/-! ### The handlers -/

namespace Portal

variable {r : Registration} {p p' : Portal} {slaveId : Uuid}

theorem connect_slaveOnly (token : String) (connectorId : Uuid) :
    p.SlaveOnly slaveId r.connectorId (p.connect token connectorId slaveId) :=
  { SlaveOnly.refl p with connections := fun _ hne => lookup_put_of_ne hne _ _ }

theorem disconnect_slaveOnly (session : Session) :
    p.SlaveOnly session.slaveId r.connectorId (p.disconnect session) := by
  unfold disconnect
  dsimp only
  split_ifs
  · exact { SlaveOnly.refl p with connections := fun _ hne => lookup_filter_of_ne hne _ }
  · exact { SlaveOnly.refl p with }

theorem heartbeat_owned (r : Registration) (accountInfo : Option ReportedAccount)
    (time : DateTime) : (Work.heartbeat r.connectorId accountInfo time .setKey).OwnedBy r :=
  ⟨rfl, by simp⟩

/-- The handlers keep within the frame of the registration whose token they were given. -/
theorem handle_within (r : Registration) (p : Portal) (token : String) (request : Request) :
    r.Within p (p.handle token r.authenticated request).1 ∧
      ∀ work ∈ (p.handle token r.authenticated request).2, work.OwnedBy r := by
  have hheartbeat := heartbeat_owned r
  have hid := r.authenticated_connectorId
  cases request with
  | tradeEvent body =>
      simp only [handle]
      split
      · rename_i masterId payload hmaster hknown
        have hr := Registration.ownMaster_eq_some hmaster
        refine ⟨.of_publishesOnly hr (ingestTradeEvent_publishesOnly _ _), fun work hwork => ?_⟩
        obtain ⟨task, htask, rfl⟩ := List.mem_map.mp hwork
        unfold ingestTradeEvent at htask
        split_ifs at htask
        · obtain rfl := List.mem_singleton.mp htask
          exact hr
        · simp at htask
      · exact ⟨.refl r p, by simp⟩
  | heartbeat body => exact ⟨.refl r p, by simpa [handle, hid] using hheartbeat _ _⟩
  | pendingInstruction =>
      simp only [handle]
      split
      · exact ⟨.refl r p, by simp⟩
      · rename_i slaveId hslave
        have hr := Registration.ownSlave_eq_some hslave
        exact ⟨.refl r p, by simpa [hid] using ⟨hheartbeat _ _, hr⟩⟩
  | executionResult body =>
      simp only [handle]
      split
      · rename_i slaveId result hslave hknown
        have hr := Registration.ownSlave_eq_some hslave
        exact ⟨.refl r p, by simpa [hid] using ⟨hheartbeat _ _, hr⟩⟩
      · exact ⟨.refl r p, by simp⟩
  | slaveSocket =>
      simp only [handle]
      split
      · exact ⟨.refl r p, by simp⟩
      · rename_i slaveId hslave
        have hr := Registration.ownSlave_eq_some hslave
        exact ⟨.of_slave hr (connect_slaveOnly _ _), by simpa [hid] using hheartbeat _ _⟩

theorem receive_owned {session : Session} (hconnector : session.connectorId = r.connectorId)
    (hr : r.owner = .slave session.slaveId) (message : SocketMessage) :
    ∀ work ∈ p.receive session message, work.OwnedBy r := by
  have hheartbeat := heartbeat_owned r
  cases message with
  | malformed => simp [receive]
  | json heartbeat result =>
      simp only [receive, hconnector]
      split
      · simpa using hheartbeat _ _
      · intro work hwork
        obtain rfl | hmessage := List.mem_cons.mp hwork
        · exact hheartbeat _ _
        · obtain ⟨task, htask, rfl⟩ := List.mem_map.mp hmessage
          unfold handleSlaveMessage at htask
          split at htask
          · simp at htask
          · obtain rfl := List.mem_singleton.mp htask
            exact hr

/-! ### The steps of the work -/

theorem executionResultStep_done {reply : Reply} {result : ExecutionResult} {point : MessagePoint}
    {w : World} (h : slaveMessageStep reply p.world slaveId result point = (w, [])) :
    p.executionResultStep reply slaveId result point =
      ({ p with world := w, acknowledged := p.acknowledged ++ [(slaveId, result)] }, []) := by
  simp [executionResultStep, h]

theorem executionResultStep_next {reply : Reply} {result : ExecutionResult}
    {point point' : MessagePoint} {w : World}
    (h : slaveMessageStep reply p.world slaveId result point =
      (w, [.message slaveId result point'])) :
    p.executionResultStep reply slaveId result point =
      ({ p with world := w }, [.executionResult slaveId result point']) := by
  simp [executionResultStep, h, Task.messagePoint]

/-- The call is over, or has found the row it will write. -/
theorem slaveMessageStep_next (reply : Reply) (w : World) (slaveId : Uuid)
    (result : ExecutionResult) (point : MessagePoint) :
    (slaveMessageStep reply w slaveId result point).2 = [] ∨
      ∃ order, (slaveMessageStep reply w slaveId result point).2 =
        [.message slaveId result (.record order)] := by
  cases point with
  | findOrder =>
      simp only [slaveMessageStep]
      split
      · cases reply <;> exact .inl rfl
      · rename_i order hfound
        split_ifs
        · cases reply
          · exact .inr ⟨order, rfl⟩
          · exact .inr ⟨order, rfl⟩
          · exact .inl rfl
          · exact .inl rfl
        · cases reply <;> exact .inl rfl
  | record order => cases reply <;> exact .inl rfl

theorem recordHeartbeatStep_within {reply : Reply} {id : Uuid}
    {accountInfo : Option ReportedAccount} {time : DateTime} {point : HeartbeatPoint}
    (howned : (Work.heartbeat id accountInfo time point).OwnedBy r)
    (hrow : ∀ connector ∈ p.world.connectors, connector.id = r.connectorId →
      connector.ownership = r.ownership) :
    r.Within p (p.recordHeartbeatStep reply id accountInfo time point).1 ∧
      ∀ work ∈ (p.recordHeartbeatStep reply id accountInfo time point).2, work.OwnedBy r := by
  obtain ⟨rfl, hpoint⟩ := howned
  cases point with
  | setKey =>
      have hset : r.Within p
          { p with heartbeatKeys := put r.connectorId time p.heartbeatKeys } :=
        .of_liveness (.refl _) fun id hne => lookup_put_of_ne hne time p.heartbeatKeys
      cases reply with
      | ok | swapped => exact ⟨hset, by simp [recordHeartbeatStep, Reply.settle, Work.OwnedBy]⟩
      | rejected => exact ⟨.refl r p, by simp [recordHeartbeatStep, Reply.settle]⟩
      | lost => exact ⟨hset, by simp [recordHeartbeatStep, Reply.settle]⟩
  | updateConnector =>
      simp only [recordHeartbeatStep]
      split
      · exact ⟨.refl r p, by simp⟩
      · rename_i connector hfound
        have hown := hrow connector (lookup_mem hfound) (lookup_key hfound)
        have hset : r.Within p
            { p with
              world := p.world.updateConnector r.connectorId fun connector =>
                { connector with lastHeartbeatAt := some time, status := .online } } :=
          .of_liveness (.update (fun _ _ hid => hid) fun _ => rfl) fun _ _ => rfl
        cases reply with
        | ok | swapped =>
            refine ⟨hset, ?_⟩
            simp only [Reply.settle]
            split_ifs
            · simpa [Work.OwnedBy] using hown
            · simp
        | rejected => exact ⟨.refl r p, by simp [Reply.settle]⟩
        | lost => exact ⟨hset, by simp [Reply.settle]⟩
  | updateOwner connector =>
      have hown := hpoint connector rfl
      simp only [recordHeartbeatStep]
      split
      · exact ⟨.refl r p, by simp⟩
      · rename_i account
        have hset : r.Within p (p.updateOwner connector account time) := .updateOwner hown _ _
        cases reply with
        | ok | swapped | lost => exact ⟨hset, by simp [Reply.settle]⟩
        | rejected => exact ⟨.refl r p, by simp [Reply.settle]⟩

end Portal

theorem Task.step_owned {reply : Reply} {w w' : World} {task : Task} {next : List Task}
    {owner : ConnectorOwner} (howned : task.OwnedBy owner) (h : task.step reply w = (w', next)) :
    ∀ t ∈ next, t.OwnedBy owner := by
  cases task with
  | ingest event point =>
      cases ingestStep_cases h with
      | claim | accept => simpa [OwnedBy] using howned
      | _ => simp
  | persist event =>
      simp only [Task.step, persistTradeEventStep, World.createTradeEvent] at h
      split_ifs at h
      · cases h
        simp
      · cases reply <;> cases h <;> simp
  | message slaveId result point =>
      cases Task.step_sound h with
      | background htask => exact htask.elim
      | messageRead => simpa [OwnedBy] using howned
      | _ => simp
  | poll slaveId point =>
      cases Task.step_sound h with
      | background htask => exact htask.elim
      | pollRead => simpa [OwnedBy] using howned
      | _ => simp
  | heartbeat | masterEvent | copy => exact howned.elim

/-- Every step of the work of a registration keeps within its frame, and leaves work of it. -/
theorem Work.step_within (hashToken : String → String) (reply : Reply) {p : Portal} {work : Work}
    {r : Registration} (howned : work.OwnedBy r)
    (hrow : ∀ connector ∈ p.world.connectors, connector.id = r.connectorId →
      connector.ownership = r.ownership)
    (hw : p.world.Sound) (hground : ∀ task ∈ work.task, task.Grounded p.world) :
    r.Within p (work.step hashToken reply p).1 ∧
      ∀ next ∈ (work.step hashToken reply p).2, next.OwnedBy r := by
  cases work with
  | authenticate => exact howned.elim
  | heartbeat => exact Portal.recordHeartbeatStep_within howned hrow
  | executionResult slaveId result point =>
      have hserves : p.world.ServesOnly slaveId (slaveMessageStep reply p.world slaveId result point).1 :=
        (Task.slaveMessageStep_sound slaveId result point).servesOnly rfl hw (hground _ rfl)
      simp only [step, Portal.executionResultStep]
      split_ifs
      · exact ⟨.of_servesOnly howned hserves _, by simp⟩
      · refine ⟨.of_servesOnly howned hserves p.acknowledged, fun next hnext => ?_⟩
        obtain ⟨point', -, rfl⟩ := List.mem_map.mp hnext
        exact howned
  | backend task =>
      have howner : task.OwnedBy r.owner := howned
      have hsound : Task.Step reply p.world task (task.step reply p.world).1
        (task.step reply p.world).2 := Task.step_sound rfl
      refine ⟨?_, fun next hmem => ?_⟩
      · cases hr : r.owner with
        | slave slaveId =>
            rw [hr] at howner
            exact .of_servesOnly hr (hsound.servesOnly howner hw (hground _ rfl)) p.acknowledged
        | master masterId =>
            rw [hr] at howner
            exact .of_publishesOnly hr (Task.publishesOnly howner rfl)
      · obtain ⟨t, ht, rfl⟩ := List.mem_map.mp hmem
        exact Task.step_owned howner rfl t ht

end ForexCopy
