import ForexCopy.Backend.Administration
import ForexCopy.Proof.Portal.Frames
import ForexCopy.Proof.Slaves

/-!
# What a handler of the administration does

Each step of a handler is a refusal, a read, a write with the audit record that is due for it, or that
record itself. The steps of the rest of the backend leave the administration alone.
-/

namespace ForexCopy

/-- A read of a handler that finds what it looks for. -/
inductive AdminRead (r : Registry) : AdminPoint → AdminPoint → Prop
  | master {input : CreateSlaveInput} (hmaster : input.masterId ∈ r.world.masters.map Master.id) :
      AdminRead r (.findMaster input) (.createSlave input)
  | slave {id : Uuid} {input : UpdateSlaveInput} {existing : Slave}
      (hfound : Table.lookup Slave.id id r.world.slaves = some existing) :
      AdminRead r (.findSlave id input) (.updateSlave existing input)
  | owner {owner : ConnectorOwner} {token : String} (howner : Portal.ownerExists r.world owner) :
      AdminRead r (.findOwner owner token) (.createConnector owner token)
  | mappedSlave {slaveId : Uuid} {body : Option CreateSymbolMappingInput} {input : CreateSymbolMappingInput}
      (hslave : slaveId ∈ r.world.slaves.map Slave.id) (hbody : body = some input) (hvalid : input.Valid) :
      AdminRead r (.findMappedSlave slaveId body) (.upsertMapping slaveId input)

/-- A write of a handler, and the audit record that is due after it. -/
inductive AdminWrite (hashToken : String → String) (r : Registry) (ip : Option String) :
    AdminPoint → Registry → AuditRecord → Prop
  | master {input : CreateMasterInput} {r' : Registry} {master : Master}
      (hcreated : r.createMaster input = some (r', master)) :
      AdminWrite hashToken r ip (.createMaster input) r'
        { action := .masterCreated, entity := .master master.id, ip := ip
          newValue := some (.master master input) }
  | slave {input : CreateSlaveInput} {r' : Registry} {slave : Slave}
      (hcreated : r.createSlave input = some (r', slave)) :
      AdminWrite hashToken r ip (.createSlave input) r'
        { action := .slaveCreated, entity := .slave slave.id, ip := ip
          newValue := some (.slave slave input.account) }
  | update {existing row : Slave} {input : UpdateSlaveInput}
      (hrow : Table.lookup Slave.id existing.id r.world.slaves = some row) :
      AdminWrite hashToken r ip (.updateSlave existing input)
        { r with world := r.world.updateSlave existing.id (Slave.patch input) }
        { action := .slaveUpdated, entity := .slave existing.id, ip := ip
          oldValue := some (.columns (input.pick existing))
          newValue := some (.columns (input.pick (row.patch input))) }
  | connector {owner : ConnectorOwner} {token : String} {r' : Registry} {connector : Connector}
      (hcreated : r.createConnector hashToken owner token = some (r', connector)) :
      AdminWrite hashToken r ip (.createConnector owner token) r'
        { action := .connectorRegistered, entity := .connector connector.id, ip := ip
          newValue := some (.owner owner) }
  | mapping {slaveId : Uuid} {input : CreateSymbolMappingInput} :
      AdminWrite hashToken r ip (.upsertMapping slaveId input)
        (r.upsertSymbolMapping slaveId input.masterSymbol input.slaveSymbol)
        { action := .symbolMappingSet, entity := .slave slaveId, ip := ip
          newValue := some (.mapping input.masterSymbol input.slaveSymbol) }
  | unmapping {slaveId mappingId : Uuid} {r' : Registry}
      (hdeleted : r.deleteSymbolMapping slaveId mappingId = (r', true)) :
      AdminWrite hashToken r ip (.deleteMapping slaveId mappingId) r'
        { action := .symbolMappingDeleted, entity := .slave slaveId, ip := ip
          oldValue := some (.mappingId mappingId) }

/-- What a suspended handler can do when its operation settles. -/
inductive AdminCall.Step (hashToken : String → String) (reply : Reply) (r : Registry) (call : AdminCall) :
    Registry → List AdminCall → Prop
  | refused {code : ℕ} (hcode : code ∈ [400, 404, 500])
      (haudit : ∀ record, call.point = .audit record → reply = .rejected) :
      Step hashToken reply r call (r.answer call.request code) []
  | read {point : AdminPoint} (hread : AdminRead r call.point point) :
      Step hashToken reply r call r [{ call with point := point }]
  | wrote {r' : Registry} {record : AuditRecord}
      (hwrite : AdminWrite hashToken r call.ip call.point r' record) :
      Step hashToken reply r call r' [{ call with point := .audit record }]
  | lost {r' : Registry} {record : AuditRecord}
      (hwrite : AdminWrite hashToken r call.ip call.point r' record) (hreply : reply = .lost) :
      Step hashToken reply r call (r'.answer call.request 500) []
  | audited {record : AuditRecord} (hpoint : call.point = .audit record) (hreply : reply.Resolves) :
      Step hashToken reply r call
        ((r.writeAudit record).answer call.request call.request.successCode) []
  | auditLost {record : AuditRecord} (hpoint : call.point = .audit record) :
      Step hashToken reply r call ((r.writeAudit record).answer call.request 500) []

/-- What a write leaves to the end of its handler, or to a login. -/
structure Registry.SameLogs (r r' : Registry) : Prop where
  auditLog : r'.auditLog = r.auditLog
  answered : r'.answered = r.answered
  issued : r'.issued = r.issued
  admins : r'.admins = r.admins

theorem AdminWrite.sameLogs {hashToken : String → String} {r r' : Registry} {ip : Option String}
    {point : AdminPoint} {record : AuditRecord} (h : AdminWrite hashToken r ip point r' record) :
    r.SameLogs r' := by
  cases h with
  | master hcreated =>
      unfold Registry.createMaster at hcreated
      split_ifs at hcreated
      obtain ⟨rfl, -⟩ := Prod.mk.inj (Option.some.inj hcreated)
      exact ⟨rfl, rfl, rfl, rfl⟩
  | slave hcreated =>
      unfold Registry.createSlave at hcreated
      split_ifs at hcreated
      obtain ⟨rfl, -⟩ := Prod.mk.inj (Option.some.inj hcreated)
      exact ⟨rfl, rfl, rfl, rfl⟩
  | connector hcreated =>
      unfold Registry.createConnector at hcreated
      split_ifs at hcreated
      obtain ⟨rfl, -⟩ := Prod.mk.inj (Option.some.inj hcreated)
      exact ⟨rfl, rfl, rfl, rfl⟩
  | unmapping hdeleted =>
      unfold Registry.deleteSymbolMapping at hdeleted
      split at hdeleted
      · cases hdeleted
      · obtain ⟨rfl, -⟩ := Prod.mk.inj hdeleted
        exact ⟨rfl, rfl, rfl, rfl⟩
  | update | mapping => exact ⟨rfl, rfl, rfl, rfl⟩

namespace AdminCall

variable {hashToken : String → String} {reply : Reply} {r r' : Registry} {call : AdminCall}

theorem finish_sound {code : ℕ} (hcode : code ∈ [400, 404, 500])
    (haudit : ∀ record, call.point ≠ .audit record) :
    Step hashToken reply r call (call.finish reply r code).1 (call.finish reply r code).2 := by
  have hpoint : ∀ record, call.point = .audit record → reply = .rejected := fun record h =>
    absurd h (haudit record)
  unfold finish
  split_ifs
  · exact .refused hcode hpoint
  · exact .refused (by simp) hpoint

theorem goOn_sound {point : AdminPoint} (hread : AdminRead r call.point point) :
    Step hashToken reply r call (call.goOn reply r point).1 (call.goOn reply r point).2 := by
  unfold goOn
  split_ifs
  · exact .read hread
  · refine .refused (by simp) fun record h => ?_
    rw [h] at hread
    cases hread

theorem commit_sound {record : AuditRecord}
    (hwrite : AdminWrite hashToken r call.ip call.point r' record) :
    Step hashToken reply r call (call.commit reply r r' record).1 (call.commit reply r r' record).2 := by
  cases reply with
  | ok => exact .wrote hwrite
  | swapped => exact .wrote hwrite
  | rejected => exact .refused (by simp) fun _ _ => rfl
  | lost => exact .lost hwrite rfl

theorem step_sound (hashToken : String → String) (reply : Reply) (r : Registry) (call : AdminCall) :
    Step hashToken reply r call (call.step hashToken reply r).1 (call.step hashToken reply r).2 := by
  obtain ⟨admin, ip, request, point⟩ := call
  have hfail (hpoint : ∀ record, point ≠ .audit record) :
      Step hashToken reply r ⟨admin, ip, request, point⟩ (r.answer request 500) [] :=
    .refused (by simp) fun record h => absurd h (hpoint record)
  cases point with
  | createMaster input =>
      cases hcreated : r.createMaster input with
      | none => simpa [step, hcreated, fail] using hfail (by simp)
      | some created => simpa [step, hcreated] using commit_sound (.master hcreated)
  | findMaster input =>
      simp only [step]
      split_ifs with hmaster
      · exact goOn_sound (.master (by simpa using hmaster))
      · exact finish_sound (by simp) (by simp)
  | createSlave input =>
      cases hcreated : r.createSlave input with
      | none => simpa [step, hcreated, fail] using hfail (by simp)
      | some created => simpa [step, hcreated] using commit_sound (.slave hcreated)
  | findSlave id input =>
      cases hfound : Table.lookup Slave.id id r.world.slaves with
      | none => simpa [step, hfound] using finish_sound (by simp) (by simp)
      | some existing => simpa [step, hfound] using goOn_sound (.slave hfound)
  | updateSlave existing input =>
      cases hrow : Table.lookup Slave.id existing.id r.world.slaves with
      | none => simpa [step, hrow, fail] using hfail (by simp)
      | some row => simpa [step, hrow] using commit_sound (.update hrow)
  | findOwner owner token =>
      simp only [step]
      split_ifs with howner
      · exact goOn_sound (.owner howner)
      · exact finish_sound (by simp) (by simp)
  | createConnector owner token =>
      cases hcreated : r.createConnector hashToken owner token with
      | none => simpa [step, hcreated, fail] using hfail (by simp)
      | some created => simpa [step, hcreated] using commit_sound (.connector hcreated)
  | findMappedSlave slaveId body =>
      simp only [step]
      split_ifs with hslave
      · split
        · exact finish_sound (by simp) (by simp)
        · rename_i input hbody
          obtain ⟨hsome, hvalid⟩ := Option.filter_eq_some_iff.mp hbody
          exact goOn_sound (.mappedSlave (by simpa using hslave) hsome (by simpa using hvalid))
      · exact finish_sound (by simp) (by simp)
  | upsertMapping slaveId input => exact commit_sound .mapping
  | deleteMapping slaveId mappingId =>
      rcases hdeleted : r.deleteSymbolMapping slaveId mappingId with ⟨written, deleted⟩
      cases deleted with
      | false => simpa [step, hdeleted] using finish_sound (by simp) (by simp)
      | true => simpa [step, hdeleted] using commit_sound (.unmapping hdeleted)
  | audit record =>
      cases reply with
      | ok => exact .audited rfl (.inl rfl)
      | swapped => exact .audited rfl (.inr rfl)
      | rejected => exact .refused (by simp) fun _ _ => rfl
      | lost => exact .auditLost rfl

end AdminCall

/-! ### The rest of the backend -/

/-- What only the administration changes. -/
structure World.SameAccounts (w w' : World) : Prop where
  masters : w'.masters.map Master.id = w.masters.map Master.id
  slaves : w'.slaves.map Slave.config = w.slaves.map Slave.config
  connectors : w'.connectors.map Connector.ownership = w.connectors.map Connector.ownership
  mappings : w'.symbolMappings = w.symbolMappings

section

variable {reply : Reply} {w w' : World}

theorem World.SameAccounts.refl (w : World) : w.SameAccounts w := ⟨rfl, rfl, rfl, rfl⟩

theorem settle_accounts (reply : Reply) (next : List Task) (h : w.SameAccounts w') :
    w.SameAccounts (reply.settle w w' next).1 := by
  cases reply with
  | ok | swapped | lost => exact h
  | rejected => exact .refl w

theorem updateAccount_accounts (w : World) (connector : Connector) (account : AccountSnapshot) :
    w.SameAccounts (w.updateAccount connector account) := by
  unfold World.updateAccount
  split
  · exact ⟨Table.map_update w.masters fun _ => rfl, rfl, rfl, rfl⟩
  · exact ⟨rfl, Table.map_update w.slaves fun _ => rfl, rfl, rfl⟩
  · exact .refl w

theorem heartbeatStep_accounts (reply : Reply) (w : World) (connectorId : Uuid)
    (accountInfo : Option AccountSnapshot) (time : DateTime) (point : HeartbeatPoint) :
    w.SameAccounts (heartbeatStep reply w connectorId accountInfo time point).1 := by
  cases point with
  | setKey => exact settle_accounts reply _ (.refl w)
  | updateConnector =>
      simp only [heartbeatStep]
      split
      · exact .refl w
      · exact settle_accounts reply _ ⟨rfl, rfl, Table.map_update w.connectors fun _ => rfl, rfl⟩
  | updateOwner connector =>
      simp only [heartbeatStep]
      split
      · exact .refl w
      · exact settle_accounts reply _ (updateAccount_accounts w connector _)

theorem Task.Step.accounts {task : Task} {next : List Task} (hstep : Task.Step reply w task w' next)
    (htask : ¬task.Background) : w.SameAccounts w' := by
  cases hstep with
  | background hbackground => exact absurd hbackground htask
  | _ => exact ⟨rfl, rfl, rfl, rfl⟩

theorem Task.step_accounts (reply : Reply) (w : World) (task : Task) :
    w.SameAccounts (task.step reply w).1 := by
  have hstep : Task.Step reply w task (task.step reply w).1 (task.step reply w).2 :=
    Task.step_sound rfl
  cases task with
  | ingest event point =>
      have hcases : IngestStep reply w event point (ingestStep reply w event point).1
        (ingestStep reply w event point).2 := ingestStep_cases rfl
      simp only [Task.step]
      generalize ingestStep reply w event point = outcome at hcases ⊢
      obtain ⟨w', next⟩ := outcome
      cases hcases <;> exact ⟨rfl, rfl, rfl, rfl⟩
  | persist event =>
      simp only [step, persistTradeEventStep, World.createTradeEvent]
      split_ifs
      · exact .refl w
      · exact settle_accounts reply _ ⟨rfl, rfl, rfl, rfl⟩
  | heartbeat connectorId accountInfo time point =>
      exact heartbeatStep_accounts reply w connectorId accountInfo time point
  | masterEvent | copy | message | poll => exact hstep.accounts id

/-- What the rest of the backend is asked for leaves the administration alone. -/
theorem Stimulus.apply_accounts {stimulus : Stimulus} (h : stimulus.administrative = false) (w : World) :
    w.SameAccounts (stimulus.apply w).1 := by
  cases stimulus with
  | patchSlave | upsertSymbolMapping | deleteSymbolMapping => cases h
  | ingest masterId payload =>
      simp only [apply, ingestTradeEvent]
      split_ifs <;> exact ⟨rfl, rfl, rfl, rfl⟩
  | sweepOfflineConnectors staleBefore =>
      refine ⟨rfl, rfl, ?_, rfl⟩
      simp only [apply, World.sweepOfflineConnectors, List.map_map]
      refine List.map_congr_left fun connector _ => ?_
      simp only [Function.comp]
      split_ifs <;> rfl
  | executionResult slaveId connectorId body => cases body <;> exact .refl w
  | _ => exact ⟨rfl, rfl, rfl, rfl⟩

end

/-! ### The machine -/

/-- The record that the call is about to write. -/
def RegistryCall.due : RegistryCall → Option AuditRecord
  | .admin ⟨_, _, _, .audit record⟩ => some record
  | _ => none

def dueRecords (calls : List RegistryCall) : List AuditRecord := calls.filterMap RegistryCall.due

inductive RegistryCall.Step (hashToken : String → String) (reply : Reply) (r : Registry) :
    RegistryCall → Registry → List RegistryCall → Prop
  | admin {call : AdminCall} {r' : Registry} {next : List AdminCall}
      (hstep : call.Step hashToken reply r r' next) :
      Step hashToken reply r (.admin call) r' (next.map .admin)
  | backend {task : Task} {w' : World} {next : List Task} (hsame : r.world.SameAccounts w') :
      Step hashToken reply r (.backend task) { r with world := w' } (next.map .backend)

theorem RegistryCall.step_sound {hashToken : String → String} {reply : Reply} {r r' : Registry}
    {call : RegistryCall} {next : List RegistryCall}
    (h : call.step hashToken reply r = (r', next)) : Step hashToken reply r call r' next := by
  obtain rfl : (call.step hashToken reply r).1 = r' := congrArg Prod.fst h
  obtain rfl : (call.step hashToken reply r).2 = next := congrArg Prod.snd h
  cases call with
  | admin call => exact .admin (call.step_sound hashToken reply r)
  | backend task => exact .backend (task.step_accounts reply r.world)

/-- What an arrival does to the registry, and the calls it starts. -/
inductive RegistryArrival.Start (crypto : AdminCrypto) (r : Registry) :
    RegistryArrival → Registry → List RegistryCall → Prop
  | refused {authHeader queryToken ip : Option String} {asked : AdminRequest} {code : ℕ}
      (hcode : code ∈ [400, 401]) :
      Start crypto r (.request authHeader queryToken ip asked) (r.answer asked code) []
  | begun {authHeader queryToken ip : Option String} {asked : AdminRequest}
      {admin : AdminTokenPayload} {point : AdminPoint}
      (hauth : crypto.requireAdminAuth r.world.now authHeader queryToken = some admin)
      (hstart : asked.start = .ok point) :
      Start crypto r (.request authHeader queryToken ip asked) r [.admin ⟨admin, ip, asked, point⟩]
  | login {username password : String} {handedOut : List (String × AdminTokenPayload)}
      (hlogin : ∀ entry ∈ handedOut, r.login crypto username password = some entry) :
      Start crypto r (.login username password) { r with issued := r.issued ++ handedOut } []
  | backend {stimulus : Stimulus} {w' : World} {tasks : List Task} (hsame : r.world.SameAccounts w') :
      Start crypto r (.backend stimulus) { r with world := w' } (tasks.map .backend)

theorem AdminRequest.start_refused {asked : AdminRequest} {code : ℕ} (h : asked.start = .error code) :
    code = 400 := by
  cases asked with
  | createMaster | createSlave | updateSlave =>
      simp only [start] at h
      split at h <;> simp_all
  | registerConnector | setSymbolMapping | deleteSymbolMapping => cases h

theorem RegistryArrival.apply_sound {crypto : AdminCrypto} {r r' : Registry} {arrival : RegistryArrival}
    {calls : List RegistryCall} (h : arrival.apply crypto r = some (r', calls)) :
    Start crypto r arrival r' calls := by
  cases arrival with
  | request authHeader queryToken ip asked =>
      cases hauth : crypto.requireAdminAuth r.world.now authHeader queryToken with
      | none =>
          simp only [apply, hauth] at h
          cases h
          exact .refused (by simp)
      | some admin =>
          cases hstart : asked.start with
          | error code =>
              simp only [apply, hauth, hstart] at h
              cases h
              exact .refused (by simp [AdminRequest.start_refused hstart])
          | ok point =>
              simp only [apply, hauth, hstart] at h
              cases h
              exact .begun hauth hstart
  | login username password =>
      simp only [apply] at h
      split_ifs at h
      · cases h
        have hnone : Start crypto r (.login username password) { r with issued := r.issued ++ [] } [] :=
          .login (by simp)
        simpa using hnone
      · cases h
        exact .login (by simp)
  | backend stimulus =>
      simp only [apply] at h
      split_ifs at h with hadministrative
      cases h
      exact .backend (stimulus.apply_accounts (by simpa using hadministrative) r.world)

end ForexCopy
