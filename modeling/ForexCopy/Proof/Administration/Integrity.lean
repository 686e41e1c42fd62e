import ForexCopy.Proof.Administration.Steps

/-!
# The tables fit together

A handler looks up what a new row refers to and creates the row an await later. Nothing that is referred
to is ever deleted, so what has been looked up is still there: no row ever refers to nothing, whatever
runs in between, and no two rows share what must be unique.
-/

namespace ForexCopy

open Pool Machine

/-- A connector belongs to one master or to one slave. -/
def World.Owns (w : World) (owners : Option Uuid × Option Uuid) : Prop :=
  (∃ masterId ∈ w.masters.map Master.id, owners = (some masterId, none)) ∨
    ∃ slaveId ∈ w.slaves.map Slave.id, owners = (none, some slaveId)

def SymbolMapping.key (mapping : SymbolMapping) : Uuid × String := (mapping.slaveId, mapping.masterSymbol)

structure Registry.Sound (r : Registry) : Prop where
  masterIds : (r.world.masters.map Master.id).Nodup
  slaveIds : (r.world.slaves.map Slave.id).Nodup
  connectorIds : ((r.world.connectors.map Connector.ownership).map Prod.fst).Nodup
  masterRows : r.masterInputs.map Prod.fst = r.world.masters.map Master.id
  slaveRows : r.slaveAccounts.map Prod.fst = r.world.slaves.map Slave.id
  connectorRows : r.tokenHashes.map Prod.fst = (r.world.connectors.map Connector.ownership).map Prod.fst
  masterAccounts : (r.masterInputs.map fun entry => entry.2.account.accountNumber).Nodup
  slaveAccounts : (r.slaveAccounts.map fun entry => entry.2.accountNumber).Nodup
  tokenHashes : (r.tokenHashes.map Prod.snd).Nodup
  slaveMasters : ∀ masterId ∈ r.world.slaves.map Slave.masterId, masterId ∈ r.world.masters.map Master.id
  connectorOwners : ∀ row ∈ r.world.connectors.map Connector.ownership, r.world.Owns row.2
  mappingIds : (r.mappingIds.map Prod.fst).Nodup
  mappingKeys : (r.mappingIds.map Prod.snd).Nodup
  deletedMappings : ∀ mappingId ∈ r.deletedMappings, mappingId ∉ r.mappingIds.map Prod.fst
  mappingRows : (r.mappingIds.map Prod.snd).Perm (r.world.symbolMappings.map SymbolMapping.key)
  mappingSlaves : ∀ entry ∈ r.mappingIds, entry.2.1 ∈ r.world.slaves.map Slave.id
  validMasters : ∀ entry ∈ r.masterInputs, entry.2.Valid
  validSlaves : ∀ entry ∈ r.slaveAccounts, entry.2.Valid
  validMappings : ∀ mapping ∈ r.world.symbolMappings, mapping.masterSymbol ≠ "" ∧ mapping.slaveSymbol ≠ ""

/-- What a handler has checked of its request so far. -/
def Registry.Checked (r : Registry) : RegistryCall → Prop
  | .admin ⟨_, _, _, .createMaster input⟩ => input.Valid
  | .admin ⟨_, _, _, .findMaster input⟩ => input.Valid
  | .admin ⟨_, _, _, .createSlave input⟩ =>
    input.Valid ∧ input.masterId ∈ r.world.masters.map Master.id
  | .admin ⟨_, _, _, .createConnector owner _⟩ => Portal.ownerExists r.world owner = true
  | .admin ⟨_, _, _, .upsertMapping slaveId input⟩ =>
    slaveId ∈ r.world.slaves.map Slave.id ∧ input.Valid
  | _ => True

/-- Masters and slaves are only added. -/
structure Registry.Grows (r r' : Registry) : Prop where
  masters : r.world.masters.map Master.id ⊆ r'.world.masters.map Master.id
  slaves : r.world.slaves.map Slave.id ⊆ r'.world.slaves.map Slave.id

theorem ownerExists_iff {w : World} {owner : ConnectorOwner} :
    Portal.ownerExists w owner = true ↔ w.Owns (Portal.connectorRow 0 owner).ownership.2 := by
  cases owner <;> simp [Portal.ownerExists, World.Owns, Portal.connectorRow, Connector.ownership]

section

variable {r r' : Registry} {w' : World}

theorem Registry.Grows.of_same (h : r'.world = r.world) : r.Grows r' :=
  ⟨h ▸ fun _ h => h, h ▸ fun _ h => h⟩

theorem Registry.Grows.owns (h : r.Grows r') {owners : Option Uuid × Option Uuid}
    (howns : r.world.Owns owners) : r'.world.Owns owners := by
  rcases howns with ⟨masterId, hmaster, rfl⟩ | ⟨slaveId, hslave, rfl⟩
  · exact .inl ⟨masterId, h.masters hmaster, rfl⟩
  · exact .inr ⟨slaveId, h.slaves hslave, rfl⟩

theorem Registry.Grows.checked (h : r.Grows r') {call : RegistryCall} (hcall : r.Checked call) :
    r'.Checked call := by
  cases call with
  | backend task => trivial
  | admin call =>
      obtain ⟨admin, ip, request, point⟩ := call
      cases point with
      | createMaster | findMaster => exact hcall
      | createSlave input => exact ⟨hcall.1, h.masters hcall.2⟩
      | createConnector owner token => exact ownerExists_iff.mpr (h.owns (ownerExists_iff.mp hcall))
      | upsertMapping slaveId input => exact ⟨h.slaves hcall.1, hcall.2⟩
      | findSlave | updateSlave | findOwner | findMappedSlave | deleteMapping | audit => trivial

/-! ### The rest of the backend -/

theorem World.SameAccounts.slaveIds {w : World} (h : w.SameAccounts w') :
    w'.slaves.map Slave.id = w.slaves.map Slave.id := by
  have hids := congrArg (List.map Slave.id) h.slaves
  simpa [List.map_map, Function.comp_def, Slave.config] using hids

theorem World.SameAccounts.slaveMasters {w : World} (h : w.SameAccounts w') :
    w'.slaves.map Slave.masterId = w.slaves.map Slave.masterId := by
  have hmasters := congrArg (List.map Slave.masterId) h.slaves
  simpa [List.map_map, Function.comp_def, Slave.config] using hmasters

theorem Registry.Grows.of_accounts (h : r.world.SameAccounts w') : r.Grows { r with world := w' } where
  masters := h.masters.symm ▸ fun _ h => h
  slaves := h.slaveIds.symm ▸ fun _ h => h

theorem Registry.Sound.of_accounts (hr : r.Sound) (h : r.world.SameAccounts w') :
    Registry.Sound { r with world := w' } where
  masterIds := h.masters.symm ▸ hr.masterIds
  slaveIds := h.slaveIds.symm ▸ hr.slaveIds
  connectorIds := h.connectors.symm ▸ hr.connectorIds
  masterRows := hr.masterRows.trans h.masters.symm
  slaveRows := hr.slaveRows.trans h.slaveIds.symm
  connectorRows := h.connectors.symm ▸ hr.connectorRows
  masterAccounts := hr.masterAccounts
  slaveAccounts := hr.slaveAccounts
  tokenHashes := hr.tokenHashes
  slaveMasters := by
    rw [h.slaveMasters, h.masters]
    exact hr.slaveMasters
  connectorOwners row hrow :=
    (Registry.Grows.of_accounts h).owns (hr.connectorOwners row (h.connectors ▸ hrow))
  mappingIds := hr.mappingIds
  mappingKeys := hr.mappingKeys
  deletedMappings := hr.deletedMappings
  mappingRows := h.mappings.symm ▸ hr.mappingRows
  mappingSlaves := by
    rw [h.slaveIds]
    exact hr.mappingSlaves
  validMasters := hr.validMasters
  validSlaves := hr.validSlaves
  validMappings := h.mappings.symm ▸ hr.validMappings

/-! ### Writes -/

theorem World.updateSlave_ids (w : World) (id : Uuid) (input : UpdateSlaveInput) :
    (w.updateSlave id (Slave.patch input)).slaves.map Slave.id = w.slaves.map Slave.id :=
  Table.map_update w.slaves fun _ => rfl

theorem World.updateSlave_masterIds (w : World) (id : Uuid) (input : UpdateSlaveInput) :
    (w.updateSlave id (Slave.patch input)).slaves.map Slave.masterId = w.slaves.map Slave.masterId :=
  Table.map_update w.slaves fun _ => rfl

@[simp] theorem Registry.slaveRow_masterId (id : Uuid) (input : CreateSlaveInput) :
    (Registry.slaveRow id input).masterId = input.masterId := rfl

theorem AdminWrite.grows {hashToken : String → String} {ip : Option String} {point : AdminPoint}
    {record : AuditRecord} (h : AdminWrite hashToken r ip point r' record) : r.Grows r' := by
  cases h with
  | master hcreated =>
      unfold Registry.createMaster at hcreated
      split_ifs at hcreated
      obtain ⟨rfl, -⟩ := Prod.mk.inj (Option.some.inj hcreated)
      exact ⟨by simp, fun _ h => h⟩
  | slave hcreated =>
      unfold Registry.createSlave at hcreated
      split_ifs at hcreated
      obtain ⟨rfl, -⟩ := Prod.mk.inj (Option.some.inj hcreated)
      exact ⟨fun _ h => h, by simp⟩
  | update => exact ⟨fun _ h => h, (r.world.updateSlave_ids _ _).symm ▸ fun _ h => h⟩
  | connector hcreated =>
      unfold Registry.createConnector at hcreated
      split_ifs at hcreated
      obtain ⟨rfl, -⟩ := Prod.mk.inj (Option.some.inj hcreated)
      exact ⟨fun _ h => h, fun _ h => h⟩
  | mapping => exact ⟨fun _ h => h, fun _ h => h⟩
  | unmapping hdeleted =>
      unfold Registry.deleteSymbolMapping at hdeleted
      split at hdeleted
      · cases hdeleted
      · obtain ⟨rfl, -⟩ := Prod.mk.inj hdeleted
        exact ⟨fun _ h => h, fun _ h => h⟩

/-! ### Symbol mappings -/

theorem upsert_keys (w : World) (slaveId : Uuid) (masterSymbol slaveSymbol : String) :
    (w.upsertSymbolMapping slaveId masterSymbol slaveSymbol).symbolMappings.map SymbolMapping.key =
      (w.symbolMappings.map SymbolMapping.key).filter (fun key => key ≠ (slaveId, masterSymbol)) ++
        [(slaveId, masterSymbol)] := by
  unfold World.upsertSymbolMapping
  rw [List.map_append, List.filter_map]
  refine congrArg (fun rows => rows.map SymbolMapping.key ++ _) (List.filter_congr fun mapping _ => ?_)
  exact decide_eq_decide.mpr (by simp [SymbolMapping.key])

theorem delete_keys (w : World) (slaveId : Uuid) (masterSymbol : String) :
    (w.deleteSymbolMapping slaveId masterSymbol).symbolMappings.map SymbolMapping.key =
      (w.symbolMappings.map SymbolMapping.key).filter (fun key => key ≠ (slaveId, masterSymbol)) := by
  unfold World.deleteSymbolMapping
  rw [List.filter_map]
  refine congrArg (List.map SymbolMapping.key) (List.filter_congr fun mapping _ => ?_)
  exact decide_eq_decide.mpr (by simp [SymbolMapping.key])

/-- A key that is there already moves to the end. -/
theorem perm_filter_concat {κ : Type*} [DecidableEq κ] {keys rows : List κ} {key : κ} (hunique : keys.Nodup)
    (hkey : key ∈ keys) (h : keys.Perm rows) : keys.Perm (rows.filter (fun other => other ≠ key) ++ [key]) := by
  have herase : keys.erase key = keys.filter fun other => other ≠ key := by
    rw [hunique.erase_eq_filter]
    exact List.filter_congr fun other _ => by simp [bne, beq_eq_decide]
  calc keys.Perm (key :: keys.erase key) := List.perm_cons_erase hkey
    _ = key :: keys.filter (fun other => other ≠ key) := by rw [herase]
    List.Perm _ (key :: rows.filter fun other => other ≠ key) := (h.filter _).cons key
    List.Perm _ (rows.filter (fun other => other ≠ key) ++ [key]) := (List.perm_append_singleton _ _).symm

namespace Registry.Sound

theorem createMaster {input : CreateMasterInput} {master : Master} (hr : r.Sound) (hvalid : input.Valid)
    (hgrows : r.Grows r') (h : r.createMaster input = some (r', master)) : r'.Sound := by
  unfold Registry.createMaster at h
  split_ifs at h with htaken
  obtain ⟨rfl, rfl⟩ := Prod.mk.inj (Option.some.inj h)
  exact { hr with
    masterIds := Table.nodup_append_of_notMem hr.masterIds (Table.fresh_notMem _)
    masterRows := by simp [hr.masterRows]
    masterAccounts := Table.nodup_append_of_notMem hr.masterAccounts htaken
    slaveMasters := fun masterId hslave => hgrows.masters (hr.slaveMasters masterId hslave)
    connectorOwners := fun row hrow => hgrows.owns (hr.connectorOwners row hrow)
    validMasters := List.forall_mem_append.mpr ⟨hr.validMasters, by simpa using hvalid⟩ }

theorem createSlave {input : CreateSlaveInput} {slave : Slave} (hr : r.Sound) (hvalid : input.Valid)
    (hmaster : input.masterId ∈ r.world.masters.map Master.id)
    (hgrows : r.Grows r') (h : r.createSlave input = some (r', slave)) : r'.Sound := by
  unfold Registry.createSlave at h
  split_ifs at h with htaken
  obtain ⟨rfl, rfl⟩ := Prod.mk.inj (Option.some.inj h)
  exact { hr with
    slaveIds := Table.nodup_append_of_notMem hr.slaveIds (Table.fresh_notMem _)
    slaveRows := by simp [hr.slaveRows]
    slaveAccounts := Table.nodup_append_of_notMem hr.slaveAccounts htaken
    slaveMasters := by
      rw [List.map_append]
      exact List.forall_mem_append.mpr ⟨hr.slaveMasters, by simpa using hmaster⟩
    connectorOwners := fun row hrow => hgrows.owns (hr.connectorOwners row hrow)
    mappingSlaves := fun entry hentry => hgrows.slaves (hr.mappingSlaves entry hentry)
    validSlaves := List.forall_mem_append.mpr ⟨hr.validSlaves, by simpa using hvalid.1⟩ }

theorem updateSlave {id : Uuid} {input : UpdateSlaveInput} (hr : r.Sound)
    (hgrows : r.Grows { r with world := r.world.updateSlave id (Slave.patch input) }) :
    Registry.Sound { r with world := r.world.updateSlave id (Slave.patch input) } :=
  { hr with
    slaveIds := (r.world.updateSlave_ids id input).symm ▸ hr.slaveIds
    slaveRows := hr.slaveRows.trans (r.world.updateSlave_ids id input).symm
    slaveMasters := (r.world.updateSlave_masterIds id input).symm ▸ hr.slaveMasters
    connectorOwners := fun row hrow => hgrows.owns (hr.connectorOwners row hrow)
    mappingSlaves := fun entry hentry => hgrows.slaves (hr.mappingSlaves entry hentry) }

theorem createConnector {hashToken : String → String} {owner : ConnectorOwner} {token : String}
    {connector : Connector} (hr : r.Sound) (howner : Portal.ownerExists r.world owner = true)
    (hgrows : r.Grows r') (h : r.createConnector hashToken owner token = some (r', connector)) :
    r'.Sound := by
  unfold Registry.createConnector at h
  split_ifs at h with htaken
  obtain ⟨rfl, rfl⟩ := Prod.mk.inj (Option.some.inj h)
  have hfresh : Table.fresh (r.world.connectors.map Connector.id) ∉
      (r.world.connectors.map Connector.ownership).map Prod.fst := by
    rw [List.map_map]
    exact Table.fresh_notMem _
  have howns := hgrows.owns (ownerExists_iff.mp howner)
  have hrow (id : Uuid) : (r.world.connectors ++ [Portal.connectorRow id owner]).map Connector.ownership =
      r.world.connectors.map Connector.ownership ++ [(id, (Portal.connectorRow 0 owner).ownership.2)] := by
    rw [List.map_append]
    cases owner <;> rfl
  have hid (id : Uuid) : (Portal.connectorRow id owner).id = id := by cases owner <;> rfl
  exact { hr with
    connectorIds := by
      rw [hrow]
      exact Table.nodup_append_of_notMem hr.connectorIds hfresh
    connectorRows := by
      rw [hrow, hid, List.map_append, List.map_append, hr.connectorRows]
      rfl
    tokenHashes := Table.nodup_append_of_notMem hr.tokenHashes htaken
    connectorOwners := by
      rw [hrow]
      exact List.forall_mem_append.mpr
        ⟨fun row hrow => hgrows.owns (hr.connectorOwners row hrow), by simpa using howns⟩ }

theorem upsertMapping {slaveId : Uuid} {input : CreateSymbolMappingInput} (hr : r.Sound)
    (hslave : slaveId ∈ r.world.slaves.map Slave.id) (hvalid : input.Valid) :
    (r.upsertSymbolMapping slaveId input.masterSymbol input.slaveSymbol).Sound := by
  have hrows := upsert_keys r.world slaveId input.masterSymbol input.slaveSymbol
  have hsymbols : ∀ mapping ∈
      (r.world.upsertSymbolMapping slaveId input.masterSymbol input.slaveSymbol).symbolMappings,
      mapping.masterSymbol ≠ "" ∧ mapping.slaveSymbol ≠ "" :=
    List.forall_mem_append.mpr
      ⟨fun mapping hmapping => hr.validMappings mapping (List.mem_of_mem_filter hmapping),
        List.forall_mem_singleton.mpr hvalid⟩
  unfold Registry.upsertSymbolMapping
  by_cases hold : (slaveId, input.masterSymbol) ∈ r.mappingIds.map Prod.snd
  · simp only [List.contains_iff_mem, if_pos hold]
    exact { hr with
      mappingRows := by
        rw [hrows]
        exact perm_filter_concat hr.mappingKeys hold hr.mappingRows
      validMappings := hsymbols }
  · simp only [List.contains_iff_mem, if_neg hold]
    have hfresh := Table.fresh_notMem (r.mappingIds.map Prod.fst ++ r.deletedMappings)
    rw [List.mem_append, not_or] at hfresh
    exact { hr with
      mappingIds := Table.nodup_append_of_notMem hr.mappingIds hfresh.1
      deletedMappings := fun mappingId hdeleted => by
        rw [List.map_append, List.mem_append, not_or]
        refine ⟨hr.deletedMappings mappingId hdeleted, fun hnew => hfresh.2 ?_⟩
        obtain rfl := List.mem_singleton.mp hnew
        exact hdeleted
      mappingKeys := Table.nodup_append_of_notMem hr.mappingKeys hold
      mappingRows := by
        have hkept : (r.mappingIds.map Prod.snd).filter (fun key => key ≠ (slaveId, input.masterSymbol)) =
            r.mappingIds.map Prod.snd :=
          List.filter_eq_self.mpr fun key hkey => decide_eq_true fun h => hold (h ▸ hkey)
        rw [hrows, List.map_append, ← hkept]
        exact (hr.mappingRows.filter _).append_right _
      mappingSlaves := List.forall_mem_append.mpr
        ⟨hr.mappingSlaves, List.forall_mem_singleton.mpr hslave⟩
      validMappings := hsymbols }

theorem deleteMapping {slaveId mappingId : Uuid} (hr : r.Sound)
    (h : r.deleteSymbolMapping slaveId mappingId = (r', true)) : r'.Sound := by
  unfold Registry.deleteSymbolMapping at h
  split at h
  · cases h
  · rename_i key hkey
    obtain ⟨rfl, -⟩ := Prod.mk.inj h
    obtain ⟨hfound, hslave⟩ := Option.filter_eq_some_iff.mp hkey
    obtain ⟨entry, hentry, rfl⟩ := Option.map_eq_some_iff.mp hfound
    have hmem := Table.lookup_mem hentry
    obtain rfl : entry.1 = mappingId := Table.lookup_key hentry
    have hkeys : (r.mappingIds.filter fun other => other.1 ≠ entry.1).map Prod.snd =
        (r.mappingIds.map Prod.snd).filter fun other => other ≠ entry.2 := by
      rw [List.filter_map]
      refine congrArg (List.map Prod.snd) (List.filter_congr fun other hother => ?_)
      refine decide_eq_decide.mpr (not_congr ⟨fun hid => ?_, fun hsame => ?_⟩)
      · rw [Table.eq_of_key_eq hr.mappingIds hother hmem hid]
      · rw [Table.eq_of_key_eq hr.mappingKeys hother hmem hsame]
    have hrows := delete_keys r.world slaveId entry.2.2
    have hsame : (slaveId, entry.2.2) = entry.2 := by
      have hslave' : entry.2.1 = slaveId := by simpa using hslave
      rw [← hslave']
    rw [hsame] at hrows
    exact { hr with
      mappingIds := hr.mappingIds.sublist (List.filter_sublist.map Prod.fst)
      mappingKeys := hr.mappingKeys.sublist (List.filter_sublist.map Prod.snd)
      deletedMappings := List.forall_mem_append.mpr
        ⟨fun mappingId hdeleted hthere => hr.deletedMappings mappingId hdeleted
          ((List.filter_sublist.map Prod.fst).subset hthere), List.forall_mem_singleton.mpr (by simp)⟩
      mappingRows := by
        rw [hkeys, hrows]
        exact hr.mappingRows.filter _
      mappingSlaves := fun other hother => hr.mappingSlaves other (List.mem_of_mem_filter hother)
      validMappings := fun mapping hmapping =>
        hr.validMappings mapping (List.mem_of_mem_filter hmapping) }

end Registry.Sound

/-! ### Steps -/

theorem Registry.Sound.answer (hr : r.Sound) (request : AdminRequest) (code : ℕ) :
    (r.answer request code).Sound :=
  { hr with }

theorem Registry.Sound.writeAudit (hr : r.Sound) (record : AuditRecord) : (r.writeAudit record).Sound :=
  { hr with }

section

variable {crypto : AdminCrypto} {hashToken : String → String} {reply : Reply}

theorem AdminWrite.sound {call : AdminCall} {record : AuditRecord}
    (h : AdminWrite hashToken r call.ip call.point r' record) (hr : r.Sound)
    (hchecked : r.Checked (.admin call)) : r'.Sound := by
  have hgrows := h.grows
  obtain ⟨admin, ip, request, point⟩ := call
  cases h with
  | master hcreated => exact hr.createMaster hchecked hgrows hcreated
  | slave hcreated => exact hr.createSlave hchecked.1 hchecked.2 hgrows hcreated
  | update => exact hr.updateSlave hgrows
  | connector hcreated => exact hr.createConnector hchecked hgrows hcreated
  | mapping => exact hr.upsertMapping hchecked.1 hchecked.2
  | unmapping hdeleted => exact hr.deleteMapping hdeleted

/-- What a handler has read is checked. -/
theorem AdminRead.checked {call : AdminCall} {point : AdminPoint} (h : AdminRead r call.point point)
    (hchecked : r.Checked (.admin call)) : r.Checked (.admin { call with point := point }) := by
  obtain ⟨admin, ip, request, current⟩ := call
  cases h with
  | master hmaster => exact ⟨hchecked, hmaster⟩
  | slave => trivial
  | owner howner => exact howner
  | mappedSlave hslave _ hvalid => exact ⟨hslave, hvalid⟩

theorem AdminCall.Step.sound {call : AdminCall} {next : List AdminCall}
    (hstep : call.Step hashToken reply r r' next) (hr : r.Sound) (hchecked : r.Checked (.admin call)) :
    r.Grows r' ∧ r'.Sound ∧ ∀ other ∈ next, r'.Checked (.admin other) := by
  cases hstep with
  | refused => exact ⟨.of_same rfl, hr.answer _ _, by simp⟩
  | read hread =>
      exact ⟨.of_same rfl, hr, List.forall_mem_singleton.mpr (hread.checked hchecked)⟩
  | wrote hwrite =>
      exact ⟨hwrite.grows, hwrite.sound hr hchecked, List.forall_mem_singleton.mpr trivial⟩
  | lost hwrite => exact ⟨⟨hwrite.grows.1, hwrite.grows.2⟩, (hwrite.sound hr hchecked).answer _ _, by simp⟩
  | audited | auditLost => exact ⟨.of_same rfl, (hr.writeAudit _).answer _ _, by simp⟩

theorem RegistryCall.Step.sound {call : RegistryCall} {next : List RegistryCall}
    (hstep : call.Step hashToken reply r r' next) (hr : r.Sound) (hchecked : r.Checked call) :
    r.Grows r' ∧ r'.Sound ∧ ∀ other ∈ next, r'.Checked other := by
  cases hstep with
  | admin hstep =>
      obtain ⟨hgrows, hsound, hnext⟩ := hstep.sound hr hchecked
      exact ⟨hgrows, hsound, List.forall_mem_map.mpr hnext⟩
  | backend hsame =>
      exact ⟨.of_accounts hsame, hr.of_accounts hsame, List.forall_mem_map.mpr fun _ _ => trivial⟩

theorem AdminRequest.start_checked {asked : AdminRequest} {point : AdminPoint}
    (h : asked.start = .ok point) (admin : AdminTokenPayload) (ip : Option String) (r : Registry) :
    r.Checked (.admin ⟨admin, ip, asked, point⟩) := by
  cases asked with
  | createMaster body | createSlave body =>
      simp only [start] at h
      split at h
      · cases h
      · rename_i hbody
        obtain ⟨-, hvalid⟩ := Option.filter_eq_some_iff.mp hbody
        cases h
        simpa [Registry.Checked] using hvalid
  | updateSlave id body =>
      simp only [start] at h
      split at h
      · cases h
      · cases h
        trivial
  | registerConnector | setSymbolMapping | deleteSymbolMapping =>
      cases h
      trivial

theorem RegistryArrival.Start.sound {arrival : RegistryArrival} {calls : List RegistryCall}
    (hstart : arrival.Start crypto r r' calls) (hr : r.Sound) :
    r.Grows r' ∧ r'.Sound ∧ ∀ call ∈ calls, r'.Checked call := by
  cases hstart with
  | refused => exact ⟨.of_same rfl, hr.answer _ _, by simp⟩
  | begun _ hpoint =>
      exact ⟨.of_same rfl, hr, List.forall_mem_singleton.mpr (AdminRequest.start_checked hpoint _ _ r)⟩
  | login => exact ⟨.of_same rfl, { hr with }, by simp⟩
  | backend hsame =>
      exact ⟨.of_accounts hsame, hr.of_accounts hsame, List.forall_mem_map.mpr fun _ _ => trivial⟩

end

/-! ### Runs -/

def Registry.integrity : Outline Registry RegistryCall where
  shared r := r.Sound
  task r call := r.Checked call

theorem Registry.integrity_preserved {crypto : AdminCrypto} {hashToken : String → String} :
    Preserved (Registry.step crypto hashToken) Registry.integrity.Holds := by
  intro c action c' h hstep
  cases action with
  | resume i reply =>
      refine h.resume (RegistryCall.step hashToken) hstep ?_ ?_
      · intro task s' next _ hmove hsound hchecked
        exact ((RegistryCall.step_sound hmove).sound hsound hchecked).2
      · intro task s' next hget hmove hsound other _ hother
        have hchecked := h.2 task (List.mem_of_getElem? hget)
        exact ((RegistryCall.step_sound hmove).sound hsound hchecked).1.checked hother
  | arrive arrival =>
      obtain ⟨⟨r', calls⟩, happly, rfl⟩ := Option.map_eq_some_iff.mp hstep
      obtain ⟨hgrows, hsound, hcalls⟩ := (RegistryArrival.apply_sound happly).sound h.1
      exact .arrive hsound (fun task htask => hgrows.checked (h.2 task htask)) hcalls

/-- Whatever requests overlap, and wherever they fail, the tables go on fitting together. -/
theorem Registry.tables_fit {crypto : AdminCrypto} {hashToken : String → String}
    {start c : Pool Registry RegistryCall} {actions : List RegistryAction}
    (hidle : start.tasks = []) (hsound : start.shared.Sound)
    (hrun : follow (Registry.step crypto hashToken) start actions = some c) : c.shared.Sound :=
  (Registry.integrity_preserved.follow ⟨hsound, by simp [hidle]⟩ hrun).1

end

theorem Sample.registry_sound : Sample.registry.shared.Sound := by
  constructor <;> first | decide | simp [Sample.registry]

theorem administered_tables_fit :
    ∃ c, follow (Registry.step Sample.adminCrypto id) Sample.registry Sample.administered = some c ∧
      c.shared.world.slaves.map Slave.masterId = [1] ∧ c.shared.Sound := by
  have hruns : ∃ c, follow (Registry.step Sample.adminCrypto id) Sample.registry Sample.administered =
      some c ∧ c.shared.world.slaves.map Slave.masterId = [1] := by
    decide +kernel
  obtain ⟨c, hrun, hmasters⟩ := hruns
  exact ⟨c, hrun, hmasters, Registry.tables_fit rfl Sample.registry_sound hrun⟩

end ForexCopy
