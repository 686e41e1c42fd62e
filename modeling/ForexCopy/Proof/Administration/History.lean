import ForexCopy.Proof.Administration.Steps

/-!
# The audit trail of a slave

A change of a slave's settings is recorded with the columns it names, before it and after it. As long as
no two changes of one slave overlap and its records get through, they form a trail that leads from the
row the slave began with to the one it has, and the old values lead back along it.
-/

namespace ForexCopy

open Pool Machine

/-! ### What the log tells of a slave -/

/-- The change of the slave that the record tells of. -/
def AuditRecord.change (slaveId : Uuid) (record : AuditRecord) :
    Option (Trail.Change SlaveColumn ColumnValue) :=
  match record.action, record.oldValue, record.newValue with
  | .slaveUpdated, some (.columns old), some (.columns new) =>
    if record.entity = .slave slaveId then some ⟨old, new⟩ else none
  | _, _, _ => none

/-- The row that the record says the slave was created with. -/
def AuditRecord.createdRow (slaveId : Uuid) (record : AuditRecord) : Option Slave :=
  match record.action, record.newValue with
  | .slaveCreated, some (.slave slave _) => if record.entity = .slave slaveId then some slave else none
  | _, _ => none

def changes (slaveId : Uuid) (records : List AuditRecord) : List (Trail.Change SlaveColumn ColumnValue) :=
  records.filterMap (AuditRecord.change slaveId)

/-- The calls that are to change the slave, or to record that they did. -/
def RegistryCall.patches (slaveId : Uuid) : RegistryCall → Bool
  | .admin ⟨_, _, _, .findSlave id _⟩ => id = slaveId
  | .admin ⟨_, _, _, .updateSlave existing _⟩ => existing.id = slaveId
  | .admin ⟨_, _, _, .audit record⟩ => (record.change slaveId).isSome
  | _ => false

/-- The row that the call has read and will name the old values from. -/
def RegistryCall.existing : RegistryCall → Option Slave
  | .admin ⟨_, _, _, .updateSlave existing _⟩ => some existing
  | _ => none

/-- A reply after which the slave's row has been written and no record of it will be. -/
def RegistryCall.losesRecord (slaveId : Uuid) (r : Registry) (reply : Reply) : RegistryCall → Bool
  | .admin ⟨_, _, _, .createSlave _⟩ =>
    Table.fresh (r.world.slaves.map Slave.id) = slaveId ∧ reply = .lost
  | .admin ⟨_, _, _, .updateSlave existing _⟩ => existing.id = slaveId ∧ reply = .lost
  | .admin ⟨_, _, _, .audit record⟩ => record.entity = .slave slaveId ∧ reply = .rejected
  | _ => false

/-- The slave's records get through, and no two changes of it overlap. -/
def RegistryAction.Recorded (slaveId : Uuid) (c : Pool Registry RegistryCall) : RegistryAction → Prop
  | .resume i reply => ∀ call ∈ c.tasks[i]?, call.losesRecord slaveId c.shared reply = false
  | .arrive (.request _ _ _ (.updateSlave id _)) =>
    id = slaveId → ∀ call ∈ c.tasks, call.patches slaveId = false
  | .arrive _ => True

instance (slaveId : Uuid) (c : Pool Registry RegistryCall) (action : RegistryAction) :
    Decidable (action.Recorded slaveId c) :=
  match action with
  | .resume i reply =>
    inferInstanceAs (Decidable (∀ call ∈ c.tasks[i]?, call.losesRecord slaveId c.shared reply = false))
  | .arrive (.request _ _ _ (.updateSlave id _)) =>
    inferInstanceAs (Decidable (id = slaveId → ∀ call ∈ c.tasks, call.patches slaveId = false))
  | .arrive (.request _ _ _ (.createMaster _)) => .isTrue trivial
  | .arrive (.request _ _ _ (.createSlave _)) => .isTrue trivial
  | .arrive (.request _ _ _ (.registerConnector _ _)) => .isTrue trivial
  | .arrive (.request _ _ _ (.setSymbolMapping _ _)) => .isTrue trivial
  | .arrive (.request _ _ _ (.deleteSymbolMapping _ _)) => .isTrue trivial
  | .arrive (.login _ _) => .isTrue trivial
  | .arrive (.backend _) => .isTrue trivial

@[simp] theorem changes_append (slaveId : Uuid) (records later : List AuditRecord) :
    changes slaveId (records ++ later) = changes slaveId records ++ changes slaveId later :=
  List.filterMap_append

theorem RegistryCall.change_due {slaveId : Uuid} {call : RegistryCall}
    (h : call.patches slaveId = false) : call.due.bind (AuditRecord.change slaveId) = none := by
  cases call with
  | backend task => rfl
  | admin call =>
      obtain ⟨admin, ip, request, point⟩ := call
      cases point with
      | audit record => simpa [patches, due] using h
      | _ => rfl

/-- Only the calls that change the slave have changes of it due. -/
theorem changes_due_filter (slaveId : Uuid) (calls : List RegistryCall) :
    changes slaveId (dueRecords (calls.filter (RegistryCall.patches slaveId))) =
      changes slaveId (dueRecords calls) := by
  unfold changes dueRecords
  rw [List.filterMap_filterMap, List.filterMap_filterMap, List.filterMap_filter]
  refine congrArg (fun f => calls.filterMap f) (funext fun call => ?_)
  split_ifs with hpatches
  · rfl
  · exact (call.change_due (by simpa using hpatches)).symm

/-! ### The columns of a slave -/

theorem Slave.column_config (slave : Slave) : slave.config.column = slave.column := by
  funext column
  cases column <;> rfl

/-- A change leaves alone what it does not name. -/
theorem Slave.patch_column {input : UpdateSlaveInput} {column : SlaveColumn} (slave : Slave)
    (h : column ∉ input.changedKeys) : (slave.patch input).column column = slave.column column := by
  cases column <;> simp_all [UpdateSlaveInput.changedKeys, patch, Slave.column]

theorem UpdateSlaveInput.pick_leads (input : UpdateSlaveInput) {existing row : Slave}
    (h : existing.column = row.column) :
    Trail.Change.Leads ⟨input.pick existing, input.pick (row.patch input)⟩ row.column
      (row.patch input).column where
  old := by rw [pick, Trail.map_fst_pick, h]
  new := by rw [pick, pick, Trail.map_fst_pick]
  kept column hcolumn := by
    rw [pick, Trail.map_fst_pick] at hcolumn
    exact row.patch_column hcolumn

namespace Registry

/-- What the table says of the slave. -/
def columns (slaveId : Uuid) (r : Registry) : Option (SlaveColumn → ColumnValue) :=
  (Table.lookup Slave.id slaveId r.world.slaves).map Slave.column

variable {slaveId : Uuid} {r r' : Registry}

theorem columns_of_slaves (h : r'.world.slaves.map Slave.config = r.world.slaves.map Slave.config) :
    r'.columns slaveId = r.columns slaveId := by
  have hlookup (slaves : List Slave) : (Table.lookup Slave.id slaveId slaves).map Slave.column =
      ((slaves.map Slave.config).find? fun slave => slave.id = slaveId).map Slave.column := by
    rw [List.find?_map, Option.map_map]
    exact congrArg (fun f => (Table.lookup Slave.id slaveId slaves).map f)
      (funext fun slave => (slave.column_config).symm)
  unfold columns
  rw [hlookup, hlookup, h]

theorem columns_update_of_ne {id : Uuid} (h : slaveId ≠ id) (input : UpdateSlaveInput) :
    columns slaveId { r with world := r.world.updateSlave id (Slave.patch input) } = r.columns slaveId := by
  have hkey : ∀ slave : Slave, (slave.patch input).id = slave.id := fun _ => rfl
  exact congrArg (Option.map Slave.column) (Table.lookup_update_of_ne h r.world.slaves hkey)

theorem columns_update_self {row : Slave} (hrow : Table.lookup Slave.id slaveId r.world.slaves = some row)
    (input : UpdateSlaveInput) :
    columns slaveId { r with world := r.world.updateSlave slaveId (Slave.patch input) } =
      some (row.patch input).column := by
  have hkey : ∀ slave : Slave, (slave.patch input).id = slave.id := fun _ => rfl
  have hupdate : _ = (Table.lookup Slave.id slaveId r.world.slaves).map _ :=
    Table.lookup_update_self r.world.slaves hkey
  rw [hrow] at hupdate
  exact congrArg (Option.map Slave.column) hupdate

/-- A slave that is created is not one that was there. -/
theorem columns_createSlave {input : CreateSlaveInput} {slave : Slave}
    (h : r.createSlave input = some (r', slave)) :
    r'.columns slaveId = r.columns slaveId ∨
      r.columns slaveId = none ∧ Table.fresh (r.world.slaves.map Slave.id) = slaveId ∧
        slave.id = slaveId ∧ r'.columns slaveId = some slave.column := by
  unfold createSlave at h
  split_ifs at h
  obtain ⟨rfl, rfl⟩ := Prod.mk.inj (Option.some.inj h)
  unfold columns Table.lookup
  rw [List.find?_append]
  cases hfound : r.world.slaves.find? fun slave => slave.id = slaveId with
  | some row => exact .inl rfl
  | none =>
      rw [Option.none_or, List.find?_singleton]
      split_ifs with hid
      · have hfresh : Table.fresh (r.world.slaves.map Slave.id) = slaveId := of_decide_eq_true hid
        exact .inr ⟨rfl, hfresh, hfresh, rfl⟩
      · exact .inl rfl

end Registry

/-! ### Steps of other calls -/

/-- A write of a call that is not to change the slave. -/
theorem AdminWrite.aside {hashToken : String → String} {r r' : Registry} {call : AdminCall}
    {record : AuditRecord} {slaveId : Uuid} (h : AdminWrite hashToken r call.ip call.point r' record)
    (hother : (RegistryCall.admin call).patches slaveId = false) :
    record.change slaveId = none ∧ (r'.columns slaveId = r.columns slaveId ∨
      r.columns slaveId = none ∧
        ((∃ input, call.point = .createSlave input) ∧
          Table.fresh (r.world.slaves.map Slave.id) = slaveId) ∧
        ∃ slave, record.createdRow slaveId = some slave ∧ r'.columns slaveId = some slave.column) := by
  obtain ⟨admin, ip, request, point⟩ := call
  cases h with
  | master hcreated =>
      unfold Registry.createMaster at hcreated
      split_ifs at hcreated
      obtain ⟨rfl, rfl⟩ := Prod.mk.inj (Option.some.inj hcreated)
      exact ⟨rfl, .inl rfl⟩
  | slave hcreated =>
      refine ⟨rfl, (Registry.columns_createSlave hcreated).imp_right ?_⟩
      rintro ⟨hnone, hfresh, hid, hcolumns⟩
      exact ⟨hnone, ⟨⟨_, rfl⟩, hfresh⟩, _, by simp [AuditRecord.createdRow, hid], hcolumns⟩
  | @update existing row input hrow =>
      have hne : existing.id ≠ slaveId := by simpa [RegistryCall.patches] using hother
      refine ⟨?_, .inl (Registry.columns_update_of_ne hne.symm input)⟩
      simp [AuditRecord.change, hne]
  | connector hcreated =>
      unfold Registry.createConnector at hcreated
      split_ifs at hcreated
      obtain ⟨rfl, rfl⟩ := Prod.mk.inj (Option.some.inj hcreated)
      exact ⟨rfl, .inl rfl⟩
  | mapping => exact ⟨rfl, .inl rfl⟩
  | unmapping hdeleted =>
      unfold Registry.deleteSymbolMapping at hdeleted
      split at hdeleted
      · cases hdeleted
      · obtain ⟨rfl, -⟩ := Prod.mk.inj hdeleted
        exact ⟨rfl, .inl rfl⟩

/-- What a call that is not to change the slave does to its row and its trail. -/
structure Registry.Aside (slaveId : Uuid) (r r' : Registry) (next : List RegistryCall) : Prop where
  log : ∃ written, r'.auditLog = r.auditLog ++ written ∧ changes slaveId written = []
  others : ∀ call ∈ next, call.patches slaveId = false
  columns : r'.columns slaveId = r.columns slaveId ∨ r.columns slaveId = none ∧
    ∃ record ∈ dueRecords next, ∃ slave, record.createdRow slaveId = some slave ∧
      r'.columns slaveId = some slave.column

section

variable {hashToken : String → String} {reply : Reply} {r r' : Registry} {slaveId : Uuid}

theorem AdminCall.Step.aside {call : AdminCall} {next : List AdminCall}
    (hstep : call.Step hashToken reply r r' next)
    (hother : (RegistryCall.admin call).patches slaveId = false)
    (hkept : (RegistryCall.admin call).losesRecord slaveId r reply = false) :
    r.Aside slaveId r' (next.map .admin) := by
  have hsame (code : ℕ) : (r.answer call.request code).auditLog = r.auditLog ++ [] ∧ changes slaveId [] = [] :=
    ⟨(List.append_nil _).symm, rfl⟩
  cases hstep with
  | refused => exact ⟨⟨[], hsame _⟩, by simp, .inl rfl⟩
  | read hread =>
      refine ⟨⟨[], hsame 0⟩, ?_, .inl rfl⟩
      obtain ⟨admin, ip, request, point⟩ := call
      cases hread with
      | slave hfound =>
          simpa [RegistryCall.patches, Table.lookup_key hfound] using hother
      | master | owner | mappedSlave => simp [RegistryCall.patches]
  | wrote hwrite =>
      obtain ⟨hchange, hcolumns⟩ := hwrite.aside hother
      refine ⟨⟨[], by rw [hwrite.sameLogs.auditLog, List.append_nil], rfl⟩, ?_, hcolumns.imp_right ?_⟩
      · simp [RegistryCall.patches, hchange]
      · rintro ⟨hnone, -, slave, hcreated, hslave⟩
        exact ⟨hnone, _, by simp [dueRecords, RegistryCall.due], slave, hcreated, hslave⟩
  | lost hwrite hreply =>
      obtain ⟨-, hsame | ⟨-, ⟨⟨input, hpoint⟩, hfresh⟩, -⟩⟩ := hwrite.aside hother
      · exact ⟨⟨[], by simp [Registry.answer, hwrite.sameLogs.auditLog], rfl⟩, by simp, .inl hsame⟩
      · obtain ⟨admin, ip, request, point⟩ := call
        obtain rfl : point = .createSlave input := hpoint
        simp [RegistryCall.losesRecord, hreply, hfresh] at hkept
  | @audited record hpoint _ | @auditLost record hpoint =>
      obtain ⟨admin, ip, request, point⟩ := call
      obtain rfl : point = .audit record := hpoint
      have hchange : record.change slaveId = none := by simpa [RegistryCall.patches] using hother
      exact ⟨⟨[record], rfl, by simp [changes, hchange]⟩, by simp, .inl rfl⟩

theorem RegistryCall.Step.aside {call : RegistryCall} {next : List RegistryCall}
    (hstep : call.Step hashToken reply r r' next) (hother : call.patches slaveId = false)
    (hkept : call.losesRecord slaveId r reply = false) : r.Aside slaveId r' next := by
  cases hstep with
  | admin hstep => exact hstep.aside hother hkept
  | backend hsame =>
      refine ⟨⟨[], (List.append_nil _).symm, rfl⟩, ?_, .inl (Registry.columns_of_slaves hsame.slaves)⟩
      simp [RegistryCall.patches]

end

/-! ### The trail -/

/-- The changes in the log and the one that is due lead from the first columns to those of the table,
and the call that is about to change them has read those. -/
structure Followed (slaveId : Uuid) (first row : SlaveColumn → ColumnValue) (written : List AuditRecord)
    (patching : List RegistryCall) : Prop where
  chained : Trail.Chained first (changes slaveId (written ++ dueRecords patching))
  current : Trail.replay first (changes slaveId (written ++ dueRecords patching)) = row
  read : ∀ call ∈ patching, ∀ existing ∈ call.existing, existing.column = row

/-- The registry has written to its log since `log`, and follows the slave from its first columns. -/
def Registry.Follows (log : List AuditRecord) (slaveId : Uuid) (first : SlaveColumn → ColumnValue)
    (r : Registry) (patching : List RegistryCall) : Prop :=
  ∃ written row, r.auditLog = log ++ written ∧ r.columns slaveId = some row ∧
    Followed slaveId first row written patching

/-- There is no such slave yet, and nothing has been written of one. -/
def Registry.Unborn (log : List AuditRecord) (slaveId : Uuid) (r : Registry)
    (patching : List RegistryCall) : Prop :=
  ∃ written, r.auditLog = log ++ written ∧ r.columns slaveId = none ∧ changes slaveId written = [] ∧
    ∀ call ∈ patching, call.due = none ∧ call.existing = none

section

variable {hashToken : String → String} {reply : Reply} {r r' : Registry} {slaveId : Uuid}
  {log : List AuditRecord} {first : SlaveColumn → ColumnValue} {call : RegistryCall}
  {next patching : List RegistryCall}

theorem Registry.Aside.follows (haside : r.Aside slaveId r' next) (h : r.Follows log slaveId first patching) :
    r'.Follows log slaveId first patching := by
  obtain ⟨written, row, hlog, hrow, hfollowed⟩ := h
  obtain ⟨more, hmore, hnone⟩ := haside.log
  have hcolumns : r'.columns slaveId = some row := by
    rcases haside.columns with hsame | ⟨habsent, -⟩
    · rw [hsame, hrow]
    · rw [hrow] at habsent
      cases habsent
  have hchanges : changes slaveId ((written ++ more) ++ dueRecords patching) =
      changes slaveId (written ++ dueRecords patching) := by
    simp [hnone]
  refine ⟨written ++ more, row, by rw [hmore, hlog, List.append_assoc], hcolumns, ?_, ?_, hfollowed.read⟩
  · rw [hchanges]
    exact hfollowed.chained
  · rw [hchanges]
    exact hfollowed.current

/-! The only call that is to change the slave goes on, from each of its awaits. -/

variable {admin : AdminTokenPayload} {ip : Option String} {request : AdminRequest} {nextCalls : List AdminCall}

theorem follows_findSlave {input : UpdateSlaveInput}
    (hstep : AdminCall.Step hashToken reply r ⟨admin, ip, request, .findSlave slaveId input⟩ r' nextCalls)
    (h : r.Follows log slaveId first [.admin ⟨admin, ip, request, .findSlave slaveId input⟩]) :
    r'.Follows log slaveId first (nextCalls.map .admin) := by
  obtain ⟨written, row, hlog, hrow, hfollowed⟩ := h
  cases hstep with
  | refused => exact ⟨written, row, hlog, hrow, hfollowed.chained, hfollowed.current, by simp⟩
  | read hread =>
      cases hread with
      | @slave _ _ existing hfound =>
          refine ⟨written, row, hlog, hrow, hfollowed.chained, hfollowed.current, ?_⟩
          have hsame : some existing.column = some row := by
            rw [← hrow, Registry.columns, hfound]
            rfl
          simpa [RegistryCall.existing] using Option.some.inj hsame
  | wrote hwrite | lost hwrite => cases hwrite
  | audited hpoint | auditLost hpoint => cases hpoint

/-- The old values are those of the table, because nobody else has changed them since they were read. -/
theorem follows_updateSlave {existing : Slave} {input : UpdateSlaveInput} (hid : existing.id = slaveId)
    (hstep : AdminCall.Step hashToken reply r ⟨admin, ip, request, .updateSlave existing input⟩ r' nextCalls)
    (hkept : reply ≠ .lost)
    (h : r.Follows log slaveId first [.admin ⟨admin, ip, request, .updateSlave existing input⟩]) :
    r'.Follows log slaveId first (nextCalls.map .admin) := by
  obtain ⟨written, row, hlog, hrow, hfollowed⟩ := h
  have hread : existing.column = row := hfollowed.read _ List.mem_cons_self existing rfl
  have hchanges : changes slaveId
      (written ++ dueRecords [.admin ⟨admin, ip, request, .updateSlave existing input⟩]) =
      changes slaveId written := by
    simp [dueRecords, RegistryCall.due, changes]
  obtain ⟨hchained, hcurrent, -⟩ := hfollowed
  rw [hchanges] at hchained hcurrent
  cases hstep with
  | refused =>
      refine ⟨written, row, hlog, hrow, ?_, ?_, by simp⟩
      · simpa [dueRecords] using hchained
      · simpa [dueRecords] using hcurrent
  | read hread => cases hread
  | wrote hwrite =>
      cases hwrite with
      | @update _ old _ hold =>
          rw [hid] at hold ⊢
          have hcolumns : old.column = row := by
            rw [Registry.columns, hold] at hrow
            exact Option.some.inj hrow
          have hleads := input.pick_leads (hread.trans hcolumns.symm)
          rw [hcolumns, ← hcurrent] at hleads
          obtain ⟨htrail, hlast⟩ := hchained.concat hleads
          refine ⟨written, _, hlog, Registry.columns_update_self hold input, ?_, ?_, ?_⟩
          · simpa [dueRecords, RegistryCall.due, changes, AuditRecord.change] using htrail
          · simpa [dueRecords, RegistryCall.due, changes, AuditRecord.change] using hlast
          · simp [RegistryCall.existing]
  | lost _ hreply => exact absurd hreply hkept
  | audited hpoint | auditLost hpoint => cases hpoint

theorem follows_audit {record : AuditRecord}
    (hstep : AdminCall.Step hashToken reply r ⟨admin, ip, request, .audit record⟩ r' nextCalls)
    (hkept : reply ≠ .rejected)
    (h : r.Follows log slaveId first [.admin ⟨admin, ip, request, .audit record⟩]) :
    r'.Follows log slaveId first (nextCalls.map .admin) := by
  obtain ⟨written, row, hlog, hrow, hchained, hcurrent, -⟩ := h
  have hrecorded : changes slaveId (written ++ dueRecords [.admin ⟨admin, ip, request, .audit record⟩]) =
      changes slaveId ((written ++ [record]) ++ dueRecords []) := by
    simp [dueRecords, RegistryCall.due]
  rw [hrecorded] at hchained hcurrent
  cases hstep with
  | refused _ haudit => exact absurd (haudit record rfl) hkept
  | read hread => cases hread
  | wrote hwrite | lost hwrite => cases hwrite
  | audited hpoint | auditLost hpoint =>
      obtain rfl := AdminPoint.audit.inj hpoint
      refine ⟨written ++ [record], row, ?_, hrow, hchained, hcurrent, by simp⟩
      simp [Registry.answer, Registry.writeAudit, hlog]

theorem AuditRecord.entity_of_change {record : AuditRecord} (h : (record.change slaveId).isSome = true) :
    record.entity = .slave slaveId := by
  unfold change at h
  split at h
  · split_ifs at h with hentity
    · exact hentity
    · simp at h
  · simp at h

theorem RegistryCall.Step.follows (hstep : call.Step hashToken reply r r' next)
    (hcall : call.patches slaveId = true) (hkept : call.losesRecord slaveId r reply = false)
    (h : r.Follows log slaveId first [call]) : r'.Follows log slaveId first next := by
  cases hstep with
  | backend => simp [patches] at hcall
  | @admin call _ _ hstep =>
      obtain ⟨admin, ip, request, point⟩ := call
      cases point with
      | findSlave id input =>
          obtain rfl : id = slaveId := by simpa [patches] using hcall
          exact follows_findSlave hstep h
      | updateSlave existing input =>
          have hid : existing.id = slaveId := by simpa [patches] using hcall
          exact follows_updateSlave hid hstep (by simpa [losesRecord, hid] using hkept) h
      | audit record =>
          have hentity : record.entity = .slave slaveId := AuditRecord.entity_of_change hcall
          exact follows_audit hstep (by simpa [losesRecord, hentity] using hkept) h
      | createMaster | findMaster | createSlave | findOwner | createConnector | findMappedSlave
      | upsertMapping | deleteMapping => simp [patches] at hcall

/-- There is no row to change yet. -/
theorem RegistryCall.Step.unborn (hstep : call.Step hashToken reply r r' next)
    (hcall : call.patches slaveId = true) (h : r.Unborn log slaveId [call]) :
    r'.Unborn log slaveId next := by
  obtain ⟨written, hlog, hrow, hchanges, hwaiting⟩ := h
  obtain ⟨hdue, hexisting⟩ := hwaiting _ List.mem_cons_self
  cases hstep with
  | backend => simp [patches] at hcall
  | @admin call _ _ hstep =>
      obtain ⟨admin, ip, request, point⟩ := call
      cases point with
      | findSlave id input =>
          obtain rfl : id = slaveId := by simpa [patches] using hcall
          cases hstep with
          | refused => exact ⟨written, hlog, hrow, hchanges, by simp⟩
          | read hread =>
              cases hread with
              | slave hfound => simp [Registry.columns, hfound] at hrow
          | wrote hwrite | lost hwrite => cases hwrite
          | audited hpoint | auditLost hpoint => cases hpoint
      | updateSlave existing input => simp [RegistryCall.existing] at hexisting
      | audit record => simp [due] at hdue
      | createMaster | findMaster | createSlave | findOwner | createConnector | findMappedSlave
      | upsertMapping | deleteMapping => simp [patches] at hcall

theorem RegistryCall.Step.logged (hstep : call.Step hashToken reply r r' next) :
    ∃ more, r'.auditLog = r.auditLog ++ more ∧
      ∀ record, call.due = some record → call.losesRecord slaveId r reply = false →
        record.entity = .slave slaveId → record ∈ more := by
  cases hstep with
  | backend => exact ⟨[], by simp, by simp [due]⟩
  | @admin call _ _ hstep =>
      obtain ⟨admin, ip, request, point⟩ := call
      cases hstep with
      | refused _ haudit =>
          refine ⟨[], by simp [Registry.answer], fun record hdue hkept hentity => ?_⟩
          have hpoint : point = .audit record := by cases point <;> simp_all [due]
          subst hpoint
          simp [losesRecord, hentity, haudit record rfl] at hkept
      | read hread => exact ⟨[], by simp, fun record hdue => by cases hread <;> simp [due] at hdue⟩
      | wrote hwrite =>
          exact ⟨[], by simp [hwrite.sameLogs.auditLog], fun record hdue => by
            cases hwrite <;> simp [due] at hdue⟩
      | lost hwrite _ =>
          refine ⟨[], by simp [Registry.answer, hwrite.sameLogs.auditLog], fun record hdue => ?_⟩
          cases hwrite <;> simp [due] at hdue
      | @audited written hpoint _ | @auditLost written hpoint =>
          obtain rfl : point = .audit written := hpoint
          exact ⟨[written], rfl, by simp [due]⟩

end

/-! ### Runs -/

/-- The row that the slave began with: it was there at the start, or is the one of its creation record. -/
def Origin (start : Registry) (slaveId : Uuid) (c : Pool Registry RegistryCall) (first : Slave) : Prop :=
  Table.lookup Slave.id slaveId start.world.slaves = some first ∨
    ∃ written, c.shared.auditLog = start.auditLog ++ written ∧
      ∃ record ∈ written ++ dueRecords c.tasks, record.createdRow slaveId = some first

def Registry.Tracked (start : Registry) (slaveId : Uuid) (c : Pool Registry RegistryCall) (r : Registry)
    (patching : List RegistryCall) : Prop :=
  patching.length ≤ 1 ∧ (r.Unborn start.auditLog slaveId patching ∨
    ∃ first, Origin start slaveId c first ∧ r.Follows start.auditLog slaveId first.column patching)

theorem AuditRecord.entity_of_createdRow {record : AuditRecord} {slaveId : Uuid} {first : Slave}
    (h : record.createdRow slaveId = some first) : record.entity = .slave slaveId := by
  unfold createdRow at h
  split at h
  · split_ifs at h with hentity
    exact hentity
  · cases h

section

variable {crypto : AdminCrypto} {hashToken : String → String} {start : Registry} {slaveId : Uuid}
  {c c' : Pool Registry RegistryCall} {r r' : Registry} {log : List AuditRecord}
  {first : SlaveColumn → ColumnValue} {next patching : List RegistryCall}

theorem Registry.Follows.filter (h : r.Follows log slaveId first patching) :
    r.Follows log slaveId first (patching.filter (RegistryCall.patches slaveId)) := by
  obtain ⟨written, row, hlog, hrow, hfollowed⟩ := h
  have hchanges : changes slaveId (written ++ dueRecords (patching.filter (RegistryCall.patches slaveId))) =
      changes slaveId (written ++ dueRecords patching) := by
    rw [changes_append, changes_append, changes_due_filter]
  refine ⟨written, row, hlog, hrow, ?_, ?_, fun call hcall =>
    hfollowed.read call (List.mem_of_mem_filter hcall)⟩
  · rw [hchanges]
    exact hfollowed.chained
  · rw [hchanges]
    exact hfollowed.current

theorem Registry.Unborn.filter (h : r.Unborn log slaveId patching) :
    r.Unborn log slaveId (patching.filter (RegistryCall.patches slaveId)) := by
  obtain ⟨written, hlog, hrow, hchanges, hwaiting⟩ := h
  exact ⟨written, hlog, hrow, hchanges, fun call hcall => hwaiting call (List.mem_of_mem_filter hcall)⟩

/-- The slave is still not there, or it is with the row of the record that is due. -/
theorem Registry.Aside.unborn (haside : r.Aside slaveId r' next) (h : r.Unborn log slaveId patching) :
    r'.Unborn log slaveId patching ∨
      ∃ record ∈ dueRecords next, ∃ slave, record.createdRow slaveId = some slave ∧
        r'.Follows log slaveId slave.column patching := by
  obtain ⟨written, hlog, hrow, hchanges, hwaiting⟩ := h
  obtain ⟨more, hmore, hnone⟩ := haside.log
  have hlog' : r'.auditLog = log ++ (written ++ more) := by rw [hmore, hlog, List.append_assoc]
  have hwritten : changes slaveId (written ++ more) = [] := by rw [changes_append, hchanges, hnone]; rfl
  rcases haside.columns with hsame | ⟨-, record, hrecord, slave, hcreated, hcolumns⟩
  · exact .inl ⟨written ++ more, hlog', by rw [hsame, hrow], hwritten, hwaiting⟩
  · have hdue : dueRecords patching = [] :=
      List.filterMap_eq_nil_iff.mpr fun call hcall => (hwaiting call hcall).1
    have hempty : changes slaveId ((written ++ more) ++ dueRecords patching) = [] := by
      rw [hdue, List.append_nil, hwritten]
    refine .inr ⟨record, hrecord, slave, hcreated, written ++ more, _, hlog', hcolumns, ?_, ?_, ?_⟩
    · rw [hempty]
      exact Trail.chained_nil _
    · rw [hempty]
      rfl
    · intro call hcall existing hexisting
      rw [(hwaiting call hcall).2] at hexisting
      cases hexisting

theorem Origin.resume {i : ℕ} {reply : Reply} {first : Slave} (h : Origin start slaveId c first)
    (hstep : c.resume (RegistryCall.step hashToken) i reply = some c')
    (hkept : ∀ call ∈ c.tasks[i]?, call.losesRecord slaveId c.shared reply = false) :
    Origin start slaveId c' first := by
  refine h.imp_right ?_
  rintro ⟨written, hlog, record, hrecord, hcreated⟩
  obtain ⟨before, task, after, s', next, hget, htasks, hmove, rfl⟩ := resume_cases _ hstep
  obtain ⟨more, hmore, hdone⟩ : ∃ more, s'.auditLog = c.shared.auditLog ++ more ∧
      ∀ record, task.due = some record → task.losesRecord slaveId c.shared reply = false →
        record.entity = .slave slaveId → record ∈ more :=
    (RegistryCall.step_sound hmove).logged
  refine ⟨written ++ more, by rw [hmore, hlog, List.append_assoc], record, ?_, hcreated⟩
  simp only [dueRecords, htasks, List.filterMap_append, List.mem_append, List.mem_filterMap,
    List.mem_cons] at hrecord ⊢
  rcases hrecord with hwritten | hbefore | ⟨call, rfl | hafter, hdue⟩
  · exact .inl (.inl hwritten)
  · exact .inr (.inl hbefore)
  · exact .inl (.inr (hdone record hdue (hkept call hget) (AuditRecord.entity_of_createdRow hcreated)))
  · exact .inr (.inr (.inr ⟨call, hafter, hdue⟩))

/-- The row of a creation record that the step has left due. -/
theorem Origin.of_due {i : ℕ} {reply : Reply} {call : RegistryCall} {s' : Registry}
    (hstep : c.resume (RegistryCall.step hashToken) i reply = some c')
    (hget : c.tasks[i]? = some call) (hmove : call.step hashToken reply c.shared = (s', next))
    {written : List AuditRecord} (hlog : s'.auditLog = start.auditLog ++ written) {record : AuditRecord}
    (hrecord : record ∈ dueRecords next) {slave : Slave} (hcreated : record.createdRow slaveId = some slave) :
    Origin start slaveId c' slave := by
  rw [resume_eq _ hstep hget hmove]
  refine .inr ⟨written, hlog, record, List.mem_append_right _ ?_, hcreated⟩
  simp only [dueRecords, List.filterMap_append, List.mem_append] at hrecord ⊢
  exact .inr (.inl hrecord)

theorem RegistryCall.Step.length_le {reply : Reply} {call : RegistryCall}
    (hstep : call.Step hashToken reply r r' next) (hcall : call.patches slaveId = true) : next.length ≤ 1 := by
  cases hstep with
  | backend => simp [patches] at hcall
  | admin hstep => cases hstep <;> simp

theorem Registry.Tracked.resume {i : ℕ} {reply : Reply}
    (h : start.Tracked slaveId c c.shared (c.tasks.filter (RegistryCall.patches slaveId)))
    (hstep : c.resume (RegistryCall.step hashToken) i reply = some c')
    (hkept : ∀ call ∈ c.tasks[i]?, call.losesRecord slaveId c.shared reply = false) :
    start.Tracked slaveId c' c'.shared (c'.tasks.filter (RegistryCall.patches slaveId)) := by
  have horigin (first : Slave) (hfirst : Origin start slaveId c first) : Origin start slaveId c' first :=
    hfirst.resume hstep hkept
  obtain ⟨hone, htracked⟩ := h
  refine resume_watched (RegistryCall.step hashToken) hone hstep ?_ ?_
  · intro task s' next hget hwatch hwaiting hmove
    have hsound := RegistryCall.step_sound hmove
    rw [hwaiting] at htracked
    refine ⟨(List.length_filter_le _ _).trans (hsound.length_le hwatch), htracked.imp ?_ ?_⟩
    · exact fun hunborn => (hsound.unborn hwatch hunborn).filter
    · rintro ⟨first, hfirst, hfollows⟩
      exact ⟨first, horigin first hfirst, (hsound.follows hwatch (hkept task hget) hfollows).filter⟩
  · intro task s' next hget hother hmove
    have haside := (RegistryCall.step_sound hmove).aside (by simpa using hother) (hkept task hget)
    refine ⟨List.filter_eq_nil_iff.mpr fun call hcall => by simp [haside.others call hcall], hone, ?_⟩
    rcases htracked with hunborn | ⟨first, hfirst, hfollows⟩
    · refine (haside.unborn hunborn).imp_right ?_
      rintro ⟨record, hrecord, slave, hcreated, hfollows⟩
      obtain ⟨written, -, hlog, -⟩ := id hfollows
      exact ⟨slave, Origin.of_due hstep hget hmove hlog hrecord hcreated, hfollows⟩
    · exact .inr ⟨first, horigin first hfirst, haside.follows hfollows⟩

/-- An arrival that is not to change the slave. -/
theorem RegistryArrival.Start.aside {arrival : RegistryArrival} {calls : List RegistryCall}
    (hstart : arrival.Start crypto r r' calls)
    (hother : ∀ authHeader queryToken ip input,
      arrival ≠ .request authHeader queryToken ip (.updateSlave slaveId input)) :
    r.Aside slaveId r' calls := by
  have hsame : r.auditLog = r.auditLog ++ [] ∧ changes slaveId [] = [] := ⟨(List.append_nil _).symm, rfl⟩
  cases hstart with
  | refused | login => exact ⟨⟨[], hsame⟩, by simp, .inl rfl⟩
  | backend hsame' =>
      exact ⟨⟨[], hsame⟩, by simp [RegistryCall.patches], .inl (Registry.columns_of_slaves hsame'.slaves)⟩
  | @begun authHeader queryToken ip asked admin point hauth hstart =>
      refine ⟨⟨[], hsame⟩, ?_, .inl rfl⟩
      suffices hpoint : (RegistryCall.admin ⟨admin, ip, asked, point⟩).patches slaveId = false by
        simpa using hpoint
      cases asked with
      | createMaster body | createSlave body =>
          simp only [AdminRequest.start] at hstart
          split at hstart
          · cases hstart
          · cases hstart
            rfl
      | updateSlave id body =>
          have hid : id ≠ slaveId := fun h => hother authHeader queryToken ip body (by rw [h])
          simp only [AdminRequest.start] at hstart
          split at hstart
          · cases hstart
          · cases hstart
            simpa [RegistryCall.patches] using hid
      | registerConnector | setSymbolMapping | deleteSymbolMapping =>
          cases hstart
          rfl

theorem AdminRequest.start_updateSlave {body : Option UpdateSlaveInput} {point : AdminPoint}
    (h : (AdminRequest.updateSlave slaveId body).start = .ok point) :
    ∃ input, point = .findSlave slaveId input := by
  simp only [start] at h
  split at h
  · cases h
  · cases h
    exact ⟨_, rfl⟩

theorem RegistryArrival.Start.auditLog {arrival : RegistryArrival} {calls : List RegistryCall}
    (hstart : arrival.Start crypto r r' calls) : r'.auditLog = r.auditLog := by
  cases hstart <;> rfl

theorem Registry.Tracked.arrive {arrival : RegistryArrival} {calls : List RegistryCall}
    (h : start.Tracked slaveId c c.shared (c.tasks.filter (RegistryCall.patches slaveId)))
    (happly : arrival.apply crypto c.shared = some (r', calls))
    (hok : (RegistryAction.arrive arrival).Recorded slaveId c) :
    start.Tracked slaveId (c.arrive r' calls) r'
      ((c.tasks ++ calls).filter (RegistryCall.patches slaveId)) := by
  have hstart := RegistryArrival.apply_sound happly
  have horigin (first : Slave) (hfirst : Origin start slaveId c first) :
      Origin start slaveId (c.arrive r' calls) first := by
    refine hfirst.imp_right ?_
    rintro ⟨written, hlog, record, hrecord, hcreated⟩
    refine ⟨written, hstart.auditLog.trans hlog, record, ?_, hcreated⟩
    simp only [Pool.arrive, dueRecords, List.filterMap_append, List.mem_append] at hrecord ⊢
    exact hrecord.imp_right .inl
  have hquiet (haside : c.shared.Aside slaveId r' calls) (hnone : dueRecords calls = []) :
      start.Tracked slaveId (c.arrive r' calls) r'
        ((c.tasks ++ calls).filter (RegistryCall.patches slaveId)) := by
    have hcalls : calls.filter (RegistryCall.patches slaveId) = [] :=
      List.filter_eq_nil_iff.mpr fun call hcall => by simp [haside.others call hcall]
    rw [List.filter_append, hcalls, List.append_nil]
    refine ⟨h.1, ?_⟩
    rcases h.2 with hunborn | ⟨first, hfirst, hfollows⟩
    · refine (haside.unborn hunborn).imp_right ?_
      rintro ⟨record, hrecord, -⟩
      simp [hnone] at hrecord
    · exact .inr ⟨first, horigin first hfirst, haside.follows hfollows⟩
  have hdue : dueRecords calls = [] := by
    cases hstart with
    | refused | login => rfl
    | backend => simp [dueRecords, RegistryCall.due]
    | @begun _ _ _ asked _ _ _ hpoint =>
        cases asked with
        | createMaster | createSlave | updateSlave =>
            simp only [AdminRequest.start] at hpoint
            split at hpoint <;> cases hpoint
            rfl
        | registerConnector | setSymbolMapping | deleteSymbolMapping =>
            cases hpoint
            rfl
  by_cases hpatch : ∃ authHeader queryToken ip body,
      arrival = .request authHeader queryToken ip (.updateSlave slaveId body)
  · obtain ⟨authHeader, queryToken, ip, body, rfl⟩ := hpatch
    have halone : c.tasks.filter (RegistryCall.patches slaveId) = [] :=
      List.filter_eq_nil_iff.mpr fun call hcall => by simp [hok rfl call hcall]
    cases hstart with
    | refused => exact hquiet ⟨⟨[], (List.append_nil _).symm, rfl⟩, by simp, .inl rfl⟩ hdue
    | @begun _ _ _ _ admin point _ hpoint =>
        obtain ⟨input, rfl⟩ := AdminRequest.start_updateSlave hpoint
        rw [List.filter_append, halone, List.nil_append]
        rw [halone] at h
        refine ⟨List.length_filter_le _ _, h.2.imp ?_ ?_⟩
        · rintro ⟨written, hlog, hrow, hchanges, -⟩
          exact ⟨written, hlog, hrow, hchanges, by simp [RegistryCall.due, RegistryCall.existing]⟩
        · rintro ⟨first, hfirst, written, row, hlog, hrow, hfollowed⟩
          have hfollows : Followed slaveId first.column row written
              [.admin ⟨admin, ip, .updateSlave slaveId body, .findSlave slaveId input⟩] :=
            ⟨hfollowed.chained, hfollowed.current, by simp [RegistryCall.existing]⟩
          exact ⟨first, horigin first hfirst, Registry.Follows.filter ⟨written, row, hlog, hrow, hfollows⟩⟩
  · refine hquiet (hstart.aside fun authHeader queryToken ip input h => hpatch ?_) hdue
    exact ⟨authHeader, queryToken, ip, input, h⟩

theorem Registry.tracked_preserved :
    Preserved (restrict (Registry.step crypto hashToken) fun c action => action.Recorded slaveId c)
      fun c => start.Tracked slaveId c c.shared (c.tasks.filter (RegistryCall.patches slaveId)) := by
  intro c action c' h hstep
  obtain ⟨hok, hstep⟩ := restrict_eq_some.mp hstep
  cases action with
  | resume i reply => exact h.resume hstep hok
  | arrive arrival =>
      obtain ⟨⟨r', calls⟩, happly, rfl⟩ := Option.map_eq_some_iff.mp hstep
      exact h.arrive happly hok

theorem Registry.tracked_start {start : Pool Registry RegistryCall} (hidle : start.tasks = []) :
    start.shared.Tracked slaveId start start.shared
      (start.tasks.filter (RegistryCall.patches slaveId)) := by
  rw [hidle]
  refine ⟨Nat.zero_le _, ?_⟩
  cases hfirst : Table.lookup Slave.id slaveId start.shared.world.slaves with
  | none =>
      exact .inl ⟨[], (List.append_nil _).symm, by simp [Registry.columns, hfirst], rfl, by simp⟩
  | some first =>
      refine .inr ⟨first, .inl hfirst, [], first.column, (List.append_nil _).symm, ?_, ?_, rfl, by simp⟩
      · simp [Registry.columns, hfirst]
      · exact Trail.chained_nil _

/-- From the row that a slave began with the recorded changes lead to the one it has, each of them from
where the ones before it had led; and back again, to any moment in between. -/
theorem Registry.audit_trail {start c : Pool Registry RegistryCall} {actions : List RegistryAction}
    (hidle : start.tasks = [])
    (hrun : follow (restrict (Registry.step crypto hashToken) fun c action => action.Recorded slaveId c)
      start actions = some c)
    {slave : Slave} (hslave : Table.lookup Slave.id slaveId c.shared.world.slaves = some slave) :
    ∃ written first, c.shared.auditLog = start.shared.auditLog ++ written ∧
      Origin start.shared slaveId c first ∧
      Trail.Chained first.column (changes slaveId (written ++ dueRecords c.tasks)) ∧
      Trail.replay first.column (changes slaveId (written ++ dueRecords c.tasks)) = slave.column ∧
      ∀ before after, changes slaveId (written ++ dueRecords c.tasks) = before ++ after →
        Trail.rewind slave.column after = Trail.replay first.column before := by
  obtain ⟨-, htracked⟩ := Registry.tracked_preserved.follow (Registry.tracked_start hidle) hrun
  have hcolumns : c.shared.columns slaveId = some slave.column := by simp [Registry.columns, hslave]
  rcases htracked with ⟨written, -, hnone, -⟩ | ⟨first, horigin, written, row, hlog, hrow, hfollowed⟩
  · rw [hcolumns] at hnone
    cases hnone
  · obtain rfl := Option.some.inj (hcolumns.symm.trans hrow)
    have hchanges : changes slaveId
        (written ++ dueRecords (c.tasks.filter (RegistryCall.patches slaveId))) =
        changes slaveId (written ++ dueRecords c.tasks) := by
      rw [changes_append, changes_append, changes_due_filter]
    obtain ⟨hchained, hcurrent, -⟩ := hfollowed
    rw [hchanges] at hchained hcurrent
    refine ⟨written, first, hlog, horigin, hchained, hcurrent, fun before after hsplit => ?_⟩
    rw [hsplit] at hchained hcurrent
    rw [← hcurrent]
    exact hchained.rewind_later

end

open Sample in
theorem administered_audit_trail :
    ∃ c slave, follow (restrict (Registry.step adminCrypto id) fun c action => action.Recorded 1 c)
        registry administered = some c ∧
      Table.lookup Slave.id 1 c.shared.world.slaves = some slave ∧ slave.emergencyStop = true ∧
      ∃ written first, c.shared.auditLog = [] ++ written ∧ Origin registry.shared 1 c first ∧
        Trail.replay first.column (changes 1 (written ++ dueRecords c.tasks)) = slave.column ∧
        Trail.rewind slave.column (changes 1 (written ++ dueRecords c.tasks)) = first.column := by
  have hruns : ∃ c, follow (restrict (Registry.step adminCrypto id) fun c action => action.Recorded 1 c)
      registry administered = some c ∧ ∃ slave ∈ Table.lookup Slave.id 1 c.shared.world.slaves,
        slave.emergencyStop = true := by
    decide +kernel
  obtain ⟨c, hrun, slave, hslave, hstopped⟩ := hruns
  obtain ⟨written, first, hlog, horigin, -, hreplay, hrewind⟩ := Registry.audit_trail rfl hrun hslave
  exact ⟨c, slave, hrun, hslave, hstopped, written, first, hlog, horigin, hreplay, hrewind [] _ rfl⟩

end ForexCopy
