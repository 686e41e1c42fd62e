import ForexCopy.Proof.Administration.Integrity
import Mathlib.Algebra.Order.Group.Multiset

/-!
# What the audit log counts

Every master, slave and connector that is created is recorded once. A handler that has created one holds
its record until it is written: the books are kept over the tables, the log and the waiting handlers.
-/

namespace ForexCopy

open Pool Machine

def named (kind : Uuid → AuditEntity) (ids : List Uuid) : Multiset AuditEntity := ↑(ids.map kind)

/-- The masters, slaves and connectors there are. -/
def Registry.entities (r : Registry) : Multiset AuditEntity :=
  named .master (r.world.masters.map Master.id) + named .slave (r.world.slaves.map Slave.id) +
    named .connector ((r.world.connectors.map Connector.ownership).map Prod.fst)

/-- What the record says was created. -/
def AuditRecord.created (record : AuditRecord) : Multiset AuditEntity :=
  match record.action with
  | .masterCreated | .slaveCreated | .connectorRegistered => {record.entity}
  | .slaveUpdated | .symbolMappingSet | .symbolMappingDeleted => 0

def RegistryCall.holds (call : RegistryCall) : Multiset AuditEntity :=
  (call.due.map AuditRecord.created).getD 0

/-- A reply after which something has been created and no record of it will be written. -/
def RegistryCall.losesCreation (reply : Reply) : RegistryCall → Bool
  | .admin ⟨_, _, _, .createMaster _⟩ => reply = .lost
  | .admin ⟨_, _, _, .createSlave _⟩ => reply = .lost
  | .admin ⟨_, _, _, .createConnector _ _⟩ => reply = .lost
  | .admin ⟨_, _, _, .audit _⟩ => reply = .rejected
  | _ => false

def RegistryAction.Booked (c : Pool Registry RegistryCall) : RegistryAction → Prop
  | .resume i reply => ∀ call ∈ c.tasks[i]?, call.losesCreation reply = false
  | .arrive _ => True

instance (c : Pool Registry RegistryCall) (action : RegistryAction) : Decidable (action.Booked c) :=
  match action with
  | .resume i reply => inferInstanceAs (Decidable (∀ call ∈ c.tasks[i]?, call.losesCreation reply = false))
  | .arrive _ => .isTrue trivial

/-- What there is was there before, or is in the log, or is held. -/
def Registry.books (start : Registry) : Ledger Registry RegistryCall (Multiset AuditEntity) where
  hold := RegistryCall.holds
  balance r held := ∃ written, r.auditLog = start.auditLog ++ written ∧
    r.entities = start.entities + (written.map AuditRecord.created).sum + held

section

variable {crypto : AdminCrypto} {hashToken : String → String} {reply : Reply} {r r' start : Registry}
  {c c' : Pool Registry RegistryCall}

theorem named_concat (kind : Uuid → AuditEntity) (ids : List Uuid) (id : Uuid) :
    named kind (ids ++ [id]) = named kind ids + {kind id} := by
  unfold named
  rw [List.map_append, ← Multiset.coe_add]
  rfl

theorem Registry.entities_of_accounts {w' : World} (h : r.world.SameAccounts w') :
    Registry.entities { r with world := w' } = r.entities := by
  unfold entities
  rw [h.masters, h.slaveIds, h.connectors]

/-- A write creates what its record says. -/
theorem AdminWrite.entities {ip : Option String} {point : AdminPoint} {record : AuditRecord}
    (h : AdminWrite hashToken r ip point r' record) : r'.entities = r.entities + record.created := by
  cases h with
  | master hcreated =>
      unfold Registry.createMaster at hcreated
      split_ifs at hcreated
      obtain ⟨rfl, rfl⟩ := Prod.mk.inj (Option.some.inj hcreated)
      simp only [Registry.entities, AuditRecord.created, List.map_append, List.map_singleton, named_concat]
      abel
  | slave hcreated =>
      unfold Registry.createSlave at hcreated
      split_ifs at hcreated
      obtain ⟨rfl, rfl⟩ := Prod.mk.inj (Option.some.inj hcreated)
      simp only [Registry.entities, AuditRecord.created, List.map_append, List.map_singleton, named_concat]
      abel
  | update =>
      unfold Registry.entities
      rw [r.world.updateSlave_ids]
      exact (add_zero _).symm
  | @connector owner _ _ _ hcreated =>
      unfold Registry.createConnector at hcreated
      split_ifs at hcreated
      obtain ⟨rfl, rfl⟩ := Prod.mk.inj (Option.some.inj hcreated)
      simp only [Registry.entities, AuditRecord.created, List.map_append, List.map_singleton, named_concat]
      cases owner <;> exact (add_assoc _ _ _).symm
  | mapping => exact (add_zero _).symm
  | unmapping hdeleted =>
      unfold Registry.deleteSymbolMapping at hdeleted
      split at hdeleted
      · cases hdeleted
      · obtain ⟨rfl, -⟩ := Prod.mk.inj hdeleted
        exact (add_zero _).symm

/-- Where the reply to a write is lost, nothing has been created. -/
theorem AdminWrite.created_of_kept {call : AdminCall} {record : AuditRecord}
    (h : AdminWrite hashToken r call.ip call.point r' record)
    (hkept : (RegistryCall.admin call).losesCreation .lost = false) : record.created = 0 := by
  obtain ⟨admin, ip, request, point⟩ := call
  cases h with
  | master | slave | connector => simp [RegistryCall.losesCreation] at hkept
  | update | mapping | unmapping => rfl

theorem RegistryCall.holds_audit (admin : AdminTokenPayload) (ip : Option String) (request : AdminRequest)
    (record : AuditRecord) :
    (RegistryCall.admin ⟨admin, ip, request, .audit record⟩).holds = record.created := rfl

theorem RegistryCall.holds_of_write {call : AdminCall} {record : AuditRecord}
    (h : AdminWrite hashToken r call.ip call.point r' record) : (RegistryCall.admin call).holds = 0 := by
  obtain ⟨admin, ip, request, point⟩ := call
  cases h <;> rfl

theorem RegistryCall.holds_of_read {call : AdminCall} {point : AdminPoint}
    (h : AdminRead r call.point point) :
    (RegistryCall.admin call).holds = 0 ∧ (RegistryCall.admin { call with point := point }).holds = 0 := by
  obtain ⟨admin, ip, request, current⟩ := call
  cases h <;> exact ⟨rfl, rfl⟩

/-- A step of a handler keeps the books, whatever the other handlers hold. -/
theorem AdminCall.Step.books {call : AdminCall} {next : List AdminCall}
    (hstep : call.Step hashToken reply r r' next)
    (hkept : (RegistryCall.admin call).losesCreation reply = false) {rest : Multiset AuditEntity}
    (h : start.books.balance r ((RegistryCall.admin call).holds + rest)) :
    start.books.balance r' (total RegistryCall.holds (next.map .admin) + rest) := by
  obtain ⟨written, hlog, hentities⟩ := h
  cases hstep with
  | refused _ haudit =>
      have hnone : (RegistryCall.admin call).holds = 0 := by
        obtain ⟨admin, ip, request, point⟩ := call
        cases point with
        | audit record => simp [RegistryCall.losesCreation, haudit record rfl] at hkept
        | _ => rfl
      rw [hnone] at hentities
      exact ⟨written, hlog, hentities⟩
  | read hread =>
      obtain ⟨hbefore, hafter⟩ := RegistryCall.holds_of_read hread
      rw [hbefore] at hentities
      refine ⟨written, hlog, ?_⟩
      rw [hentities, List.map_singleton, total_cons, total_nil, hafter, add_zero]
  | @wrote _ record hwrite =>
      rw [RegistryCall.holds_of_write hwrite, zero_add] at hentities
      refine ⟨written, hwrite.sameLogs.auditLog.trans hlog, ?_⟩
      rw [hwrite.entities, hentities, List.map_singleton, total_cons, total_nil, RegistryCall.holds_audit]
      abel
  | lost hwrite hreply =>
      subst hreply
      rw [RegistryCall.holds_of_write hwrite] at hentities
      refine ⟨written, hwrite.sameLogs.auditLog.trans hlog, ?_⟩
      have hsame := hwrite.entities
      rw [hwrite.created_of_kept hkept, add_zero, hentities] at hsame
      exact hsame
  | @audited record hpoint _ | @auditLost record hpoint =>
      obtain ⟨admin, ip, request, point⟩ := call
      obtain rfl : point = .audit record := hpoint
      refine ⟨written ++ [record], ?_, ?_⟩
      · rw [← List.append_assoc, ← hlog]
        rfl
      · have hafter : r.entities = start.entities + ((written ++ [record]).map AuditRecord.created).sum +
            (total RegistryCall.holds [] + rest) := by
          rw [hentities, List.map_append, List.sum_append, total_nil, List.map_singleton,
            List.sum_singleton, RegistryCall.holds_audit]
          abel
        exact hafter

theorem RegistryCall.Step.books {call : RegistryCall} {next : List RegistryCall}
    (hstep : call.Step hashToken reply r r' next) (hkept : call.losesCreation reply = false)
    {rest : Multiset AuditEntity} (h : start.books.balance r (call.holds + rest)) :
    start.books.balance r' (total RegistryCall.holds next + rest) := by
  cases hstep with
  | admin hstep => exact hstep.books hkept h
  | @backend task w' next hsame =>
      obtain ⟨written, hlog, hentities⟩ := h
      have hnone : total RegistryCall.holds (next.map .backend) = 0 :=
        total_eq_zero (List.forall_mem_map.mpr fun _ _ => rfl)
      refine ⟨written, hlog, ?_⟩
      rw [Registry.entities_of_accounts hsame, hnone]
      exact hentities

theorem AdminRequest.start_holds {asked : AdminRequest} {point : AdminPoint}
    (h : asked.start = .ok point) (admin : AdminTokenPayload) (ip : Option String) :
    (RegistryCall.admin ⟨admin, ip, asked, point⟩).holds = 0 := by
  cases asked with
  | createMaster | createSlave | updateSlave =>
      simp only [start] at h
      split at h
      · cases h
      · cases h
        rfl
  | registerConnector | setSymbolMapping | deleteSymbolMapping =>
      cases h
      rfl

theorem RegistryArrival.Start.books {arrival : RegistryArrival} {calls : List RegistryCall}
    (hstart : arrival.Start crypto r r' calls) {held : Multiset AuditEntity}
    (h : start.books.balance r held) :
    start.books.balance r' held ∧ total RegistryCall.holds calls = 0 := by
  cases hstart with
  | refused | login => exact ⟨h, rfl⟩
  | begun _ hpoint =>
      exact ⟨h, total_eq_zero (List.forall_mem_singleton.mpr (AdminRequest.start_holds hpoint _ _))⟩
  | backend hsame =>
      obtain ⟨written, hlog, hentities⟩ := h
      exact ⟨⟨written, hlog, (Registry.entities_of_accounts hsame).trans hentities⟩,
        total_eq_zero (List.forall_mem_map.mpr fun _ _ => rfl)⟩

theorem Registry.books_preserved :
    Preserved (restrict (Registry.step crypto hashToken) fun c action => action.Booked c)
      start.books.Holds := by
  intro c action c' h hstep
  obtain ⟨hok, hstep⟩ := restrict_eq_some.mp hstep
  cases action with
  | resume i reply =>
      refine h.resume (RegistryCall.step hashToken) hstep fun task s' next hget hmove rest _ hbalance => ?_
      exact (RegistryCall.step_sound hmove).books (hok task hget) hbalance
  | arrive arrival =>
      obtain ⟨⟨r', calls⟩, happly, rfl⟩ := Option.map_eq_some_iff.mp hstep
      obtain ⟨hbalance, hcalls⟩ := (RegistryArrival.apply_sound happly).books h
      exact .arrive hbalance hcalls

end

theorem total_holds (calls : List RegistryCall) :
    total RegistryCall.holds calls = ((dueRecords calls).map AuditRecord.created).sum := by
  unfold dueRecords
  induction calls with
  | nil => rfl
  | cons call rest ih =>
      rw [total_cons, ih, List.filterMap_cons, RegistryCall.holds]
      cases call.due with
      | none => exact zero_add _
      | some record => simp

theorem Registry.Sound.entities_nodup {r : Registry} (hr : r.Sound) : r.entities.Nodup := by
  have hmasters : (named .master (r.world.masters.map Master.id)).Nodup :=
    Multiset.coe_nodup.mpr (hr.masterIds.map fun _ _ h => AuditEntity.master.inj h)
  have hslaves : (named .slave (r.world.slaves.map Slave.id)).Nodup :=
    Multiset.coe_nodup.mpr (hr.slaveIds.map fun _ _ h => AuditEntity.slave.inj h)
  have hconnectors : (named .connector ((r.world.connectors.map Connector.ownership).map Prod.fst)).Nodup :=
    Multiset.coe_nodup.mpr (hr.connectorIds.map fun _ _ h => AuditEntity.connector.inj h)
  unfold Registry.entities
  refine (Multiset.Nodup.add_iff ((hmasters.add_iff hslaves).mpr ?_) hconnectors).mpr ?_
  · refine Multiset.disjoint_left.mpr fun hmaster hslave => ?_
    obtain ⟨_, -, rfl⟩ := List.mem_map.mp hmaster
    simp [named] at hslave
  · refine Multiset.disjoint_left.mpr fun hother hconnector => ?_
    obtain ⟨_, -, rfl⟩ := List.mem_map.mp hconnector
    simp [named] at hother

/-- The log and the records that are due name each master, slave and connector that has come since the
start once, and nothing else. -/
theorem Registry.creations_recorded {crypto : AdminCrypto} {hashToken : String → String}
    {start c : Pool Registry RegistryCall} {actions : List RegistryAction}
    (hidle : start.tasks = []) (hsound : start.shared.Sound)
    (hrun : follow (restrict (Registry.step crypto hashToken) fun c action => action.Booked c) start
      actions = some c) :
    ∃ written, c.shared.auditLog = start.shared.auditLog ++ written ∧
      ∀ entity, ((written ++ dueRecords c.tasks).map AuditRecord.created).sum.count entity =
        if entity ∈ c.shared.entities ∧ entity ∉ start.shared.entities then 1 else 0 := by
  have hbooks : start.shared.books.Holds start := by
    unfold Ledger.Holds
    rw [hidle]
    exact ⟨[], (List.append_nil _).symm, by simp⟩
  obtain ⟨written, hlog, hentities⟩ := Registry.books_preserved.follow hbooks hrun
  have hfits := (Registry.integrity_preserved.restrict.follow ⟨hsound, by simp [hidle]⟩ hrun).1
  refine ⟨written, hlog, fun entity => ?_⟩
  have hcount := congrArg (Multiset.count entity) hentities
  rw [show start.shared.books.hold = RegistryCall.holds from rfl, total_holds, add_assoc,
    ← List.sum_append, ← List.map_append, Multiset.count_add] at hcount
  have hone := Multiset.nodup_iff_count_le_one.mp hfits.entities_nodup entity
  split_ifs with hnew
  · have hthere := Multiset.count_pos.mpr hnew.1
    have hbefore := Multiset.count_eq_zero.mpr hnew.2
    omega
  · by_cases hbefore : entity ∈ start.shared.entities
    · have hwas := Multiset.count_pos.mpr hbefore
      omega
    · have hthere := Multiset.count_eq_zero.mpr fun hthere => hnew ⟨hthere, hbefore⟩
      omega

theorem administered_creations_recorded :
    ∃ c, follow (restrict (Registry.step Sample.adminCrypto id) fun c action => action.Booked c)
        Sample.registry Sample.administered = some c ∧
      ∃ written, c.shared.auditLog = [] ++ written ∧
        ∀ entity, ((written ++ dueRecords c.tasks).map AuditRecord.created).sum.count entity =
          if entity ∈ c.shared.entities ∧ entity ∉ Sample.registry.shared.entities then 1 else 0 := by
  have hruns : (follow (restrict (Registry.step Sample.adminCrypto id) fun c action => action.Booked c)
      Sample.registry Sample.administered).isSome := by
    decide +kernel
  obtain ⟨c, hrun⟩ := Option.isSome_iff_exists.mp hruns
  exact ⟨c, hrun, Registry.creations_recorded rfl Sample.registry_sound hrun⟩

end ForexCopy
