import ForexCopy.Proof.Administration.Steps
import Mathlib.Data.List.Forall2

/-!
# Answers of success

A handler answers with success only after its record is in the log, whatever else fails. So every such
answer has a record of its own, which says what was asked for and what has been done.
-/

namespace ForexCopy

open Pool Machine

/-- The request has been done, and the record says so. -/
def AdminRequest.Done (hashToken : String → String) (r : Registry) (record : AuditRecord) :
    AdminRequest → Prop
  | .createMaster body => ∃ input ∈ body, ∃ id, (id, input) ∈ r.masterInputs ∧
      record.action = .masterCreated ∧ record.entity = .master id ∧
        record.newValue = some (.master { id := id } input)
  | .createSlave body => ∃ input ∈ body, ∃ id, (id, input.account) ∈ r.slaveAccounts ∧
      record.action = .slaveCreated ∧ record.entity = .slave id ∧
        record.newValue = some (.slave (Registry.slaveRow id input) input.account)
  | .updateSlave id body => ∃ input ∈ body, ∃ before after : Slave,
      record.action = .slaveUpdated ∧ record.entity = .slave id ∧
        record.oldValue = some (.columns (input.pick before)) ∧
        record.newValue = some (.columns (input.pick (after.patch input)))
  | .registerConnector owner token => ∃ id, (id, hashToken token) ∈ r.tokenHashes ∧
      record.action = .connectorRegistered ∧ record.entity = .connector id ∧
        record.newValue = some (.owner owner)
  | .setSymbolMapping slaveId body => ∃ input ∈ body,
      record.action = .symbolMappingSet ∧ record.entity = .slave slaveId ∧
        record.newValue = some (.mapping input.masterSymbol input.slaveSymbol)
  | .deleteSymbolMapping slaveId mappingId => mappingId ∈ r.deletedMappings ∧
      mappingId ∉ r.mappingIds.map Prod.fst ∧ record.action = .symbolMappingDeleted ∧
        record.entity = .slave slaveId ∧ record.oldValue = some (.mappingId mappingId)

/-- The handler is at a point of its own request. -/
def RegistryCall.Coherent (hashToken : String → String) (r : Registry) : RegistryCall → Prop
  | .admin ⟨_, _, request, .createMaster input⟩ => request = .createMaster (some input)
  | .admin ⟨_, _, request, .findMaster input⟩ => request = .createSlave (some input)
  | .admin ⟨_, _, request, .createSlave input⟩ => request = .createSlave (some input)
  | .admin ⟨_, _, request, .findSlave id input⟩ => request = .updateSlave id (some input)
  | .admin ⟨_, _, request, .updateSlave existing input⟩ =>
    request = .updateSlave existing.id (some input)
  | .admin ⟨_, _, request, .findOwner owner token⟩ => request = .registerConnector owner token
  | .admin ⟨_, _, request, .createConnector owner token⟩ => request = .registerConnector owner token
  | .admin ⟨_, _, request, .findMappedSlave slaveId body⟩ => request = .setSymbolMapping slaveId body
  | .admin ⟨_, _, request, .upsertMapping slaveId input⟩ => request = .setSymbolMapping slaveId (some input)
  | .admin ⟨_, _, request, .deleteMapping slaveId mappingId⟩ =>
    request = .deleteSymbolMapping slaveId mappingId
  | .admin ⟨_, _, request, .audit record⟩ => request.Done hashToken r record
  | .backend _ => True

/-- What is there stays, and a deleted mapping's identifier does not come back. -/
structure Registry.Keeps (r r' : Registry) : Prop where
  masters : r.masterInputs ⊆ r'.masterInputs
  slaves : r.slaveAccounts ⊆ r'.slaveAccounts
  connectors : r.tokenHashes ⊆ r'.tokenHashes
  deleted : r.deletedMappings ⊆ r'.deletedMappings
  gone : ∀ mappingId ∈ r.deletedMappings, mappingId ∉ r.mappingIds.map Prod.fst →
    mappingId ∉ r'.mappingIds.map Prod.fst

section

variable {crypto : AdminCrypto} {hashToken : String → String} {reply : Reply} {r r' : Registry}

theorem AdminRequest.Done.mono {request : AdminRequest} {record : AuditRecord}
    (h : request.Done hashToken r record) (hkeeps : r.Keeps r') : request.Done hashToken r' record := by
  cases request with
  | createMaster body =>
      obtain ⟨input, hbody, id, hrow, hrecord⟩ := h
      exact ⟨input, hbody, id, hkeeps.masters hrow, hrecord⟩
  | createSlave body =>
      obtain ⟨input, hbody, id, hrow, hrecord⟩ := h
      exact ⟨input, hbody, id, hkeeps.slaves hrow, hrecord⟩
  | registerConnector owner token =>
      obtain ⟨id, hrow, hrecord⟩ := h
      exact ⟨id, hkeeps.connectors hrow, hrecord⟩
  | deleteSymbolMapping slaveId mappingId => exact ⟨hkeeps.deleted h.1, hkeeps.gone _ h.1 h.2.1, h.2.2⟩
  | updateSlave | setSymbolMapping => exact h

theorem RegistryCall.Coherent.mono {call : RegistryCall} (h : call.Coherent hashToken r)
    (hkeeps : r.Keeps r') : call.Coherent hashToken r' := by
  cases call with
  | backend task => trivial
  | admin call =>
      obtain ⟨admin, ip, request, point⟩ := call
      cases point with
      | audit record => exact AdminRequest.Done.mono h hkeeps
      | _ => exact h

theorem Registry.Keeps.of_same (hmasters : r'.masterInputs = r.masterInputs)
    (hslaves : r'.slaveAccounts = r.slaveAccounts) (hconnectors : r'.tokenHashes = r.tokenHashes)
    (hdeleted : r'.deletedMappings = r.deletedMappings) (hmappings : r'.mappingIds = r.mappingIds) :
    r.Keeps r' where
  masters := hmasters ▸ List.Subset.refl _
  slaves := hslaves ▸ List.Subset.refl _
  connectors := hconnectors ▸ List.Subset.refl _
  deleted := hdeleted ▸ List.Subset.refl _
  gone _ _ hgone := hmappings ▸ hgone

theorem Registry.upsertSymbolMapping_keeps (r : Registry) (slaveId : Uuid)
    (masterSymbol slaveSymbol : String) :
    r.Keeps (r.upsertSymbolMapping slaveId masterSymbol slaveSymbol) where
  masters := List.Subset.refl _
  slaves := List.Subset.refl _
  connectors := List.Subset.refl _
  deleted := List.Subset.refl _
  gone mappingId hdeleted hgone := by
    have hfresh := Table.fresh_notMem (r.mappingIds.map Prod.fst ++ r.deletedMappings)
    unfold upsertSymbolMapping
    dsimp only
    split_ifs
    · exact hgone
    · rw [List.map_append, List.mem_append, not_or]
      refine ⟨hgone, fun hnew => hfresh (List.mem_append_right _ ?_)⟩
      obtain rfl := List.mem_singleton.mp hnew
      exact hdeleted

/-- A write does what was asked for, and its record says so. -/
theorem AdminWrite.done {call : AdminCall} {record : AuditRecord}
    (h : AdminWrite hashToken r call.ip call.point r' record)
    (hcoherent : (RegistryCall.admin call).Coherent hashToken r) :
    r.Keeps r' ∧ call.request.Done hashToken r' record := by
  obtain ⟨admin, ip, request, point⟩ := call
  cases h with
  | @master input _ _ hcreated =>
      obtain rfl : request = .createMaster (some input) := hcoherent
      unfold Registry.createMaster at hcreated
      split_ifs at hcreated
      obtain ⟨rfl, rfl⟩ := Prod.mk.inj (Option.some.inj hcreated)
      refine ⟨⟨by simp, by simp, by simp, by simp, fun _ _ hgone => hgone⟩, input, rfl, _, ?_, rfl, rfl, rfl⟩
      exact List.mem_append_right _ (List.mem_singleton_self _)
  | @slave input _ _ hcreated =>
      obtain rfl : request = .createSlave (some input) := hcoherent
      unfold Registry.createSlave at hcreated
      split_ifs at hcreated
      obtain ⟨rfl, rfl⟩ := Prod.mk.inj (Option.some.inj hcreated)
      refine ⟨⟨by simp, by simp, by simp, by simp, fun _ _ hgone => hgone⟩, input, rfl, _, ?_, rfl, rfl, rfl⟩
      exact List.mem_append_right _ (List.mem_singleton_self _)
  | @update existing row input =>
      obtain rfl : request = .updateSlave existing.id (some input) := hcoherent
      exact ⟨.of_same rfl rfl rfl rfl rfl, input, rfl, existing, row, rfl, rfl, rfl, rfl⟩
  | @connector owner token _ _ hcreated =>
      obtain rfl : request = .registerConnector owner token := hcoherent
      unfold Registry.createConnector at hcreated
      split_ifs at hcreated
      obtain ⟨rfl, rfl⟩ := Prod.mk.inj (Option.some.inj hcreated)
      refine ⟨⟨by simp, by simp, by simp, by simp, fun _ _ hgone => hgone⟩, _, ?_, rfl, rfl, rfl⟩
      exact List.mem_append_right _ (List.mem_singleton_self _)
  | @mapping slaveId input =>
      obtain rfl : request = .setSymbolMapping slaveId (some input) := hcoherent
      exact ⟨r.upsertSymbolMapping_keeps _ _ _, input, rfl, rfl, rfl, rfl⟩
  | @unmapping slaveId mappingId _ hdeleted =>
      obtain rfl : request = .deleteSymbolMapping slaveId mappingId := hcoherent
      unfold Registry.deleteSymbolMapping at hdeleted
      split at hdeleted
      · cases hdeleted
      · obtain ⟨rfl, -⟩ := Prod.mk.inj hdeleted
        have hremoved : mappingId ∉
            (r.mappingIds.filter fun entry => entry.1 ≠ mappingId).map Prod.fst := by simp
        refine ⟨⟨by simp, by simp, by simp, by simp, fun _ _ hgone hmem => hgone ?_⟩, ?_, hremoved, rfl,
          rfl, rfl⟩
        · exact (List.filter_sublist.map Prod.fst).subset hmem
        · exact List.mem_append_right _ (List.mem_singleton_self _)

theorem AdminRead.coherent {call : AdminCall} {point : AdminPoint} (h : AdminRead r call.point point)
    (hcoherent : (RegistryCall.admin call).Coherent hashToken r) :
    (RegistryCall.admin { call with point := point }).Coherent hashToken r := by
  obtain ⟨admin, ip, request, current⟩ := call
  cases h with
  | master | owner => exact hcoherent
  | @slave id input existing hfound =>
      obtain rfl : existing.id = id := Table.lookup_key hfound
      exact hcoherent
  | @mappedSlave slaveId body input _ hbody _ =>
      obtain rfl := hbody
      exact hcoherent

theorem AdminRequest.start_coherent {asked : AdminRequest} {point : AdminPoint}
    (h : asked.start = .ok point) (admin : AdminTokenPayload) (ip : Option String) (r : Registry) :
    (RegistryCall.admin ⟨admin, ip, asked, point⟩).Coherent hashToken r := by
  cases asked with
  | createMaster | createSlave | updateSlave =>
      simp only [start] at h
      split at h
      · cases h
      · rename_i hbody
        obtain ⟨rfl, -⟩ := Option.filter_eq_some_iff.mp hbody
        cases h
        rfl
  | registerConnector | setSymbolMapping | deleteSymbolMapping =>
      cases h
      rfl

/-! ### The answers -/

/-- Each success that was answered since the start has a record of its own, in the order of the answers. -/
def Registry.Backed (hashToken : String → String) (start r : Registry) : Prop :=
  ∃ written answers told, r.auditLog = start.auditLog ++ written ∧
    r.answered = start.answered ++ answers ∧ told.Sublist written ∧
    List.Forall₂ (fun answer record => answer.1.Done hashToken r record ∧ answer.2 = answer.1.successCode)
      (answers.filter fun answer => answer.2 < 300) told

variable {start : Registry}

theorem Registry.Backed.mono (h : start.Backed hashToken r) (hkeeps : r.Keeps r')
    (hlog : r'.auditLog = r.auditLog) (hanswered : r'.answered = r.answered) :
    start.Backed hashToken r' := by
  obtain ⟨written, answers, told, hwritten, hanswers, hsublist, hbacked⟩ := h
  refine ⟨written, answers, told, hlog.trans hwritten, hanswered.trans hanswers, hsublist, ?_⟩
  exact hbacked.imp fun _ _ hdone => ⟨hdone.1.mono hkeeps, hdone.2⟩

theorem Registry.Backed.refuse (h : start.Backed hashToken r) (request : AdminRequest) {code : ℕ}
    (hcode : 300 ≤ code) : start.Backed hashToken (r.answer request code) := by
  obtain ⟨written, answers, told, hwritten, hanswers, hsublist, hbacked⟩ := h
  refine ⟨written, answers ++ [(request, code)], told, hwritten, ?_, hsublist, ?_⟩
  · simp [answer, hanswers]
  · have hnone : [(request, code)].filter (fun answer => answer.2 < 300) = [] :=
      List.filter_eq_nil_iff.mpr (by simpa using hcode)
    rw [List.filter_append, hnone, List.append_nil]
    exact hbacked

theorem Registry.Backed.writeAudit (h : start.Backed hashToken r) (record : AuditRecord) :
    start.Backed hashToken (r.writeAudit record) := by
  obtain ⟨written, answers, told, hwritten, hanswers, hsublist, hbacked⟩ := h
  refine ⟨written ++ [record], answers, told, ?_, hanswers, ?_, hbacked⟩
  · simp [Registry.writeAudit, hwritten]
  · exact hsublist.trans (List.sublist_append_left _ _)

theorem AdminRequest.successCode_lt (request : AdminRequest) : request.successCode < 300 := by
  cases request <;> simp [successCode]

/-- The record and the answer of one handler. -/
theorem Registry.Backed.audited (h : start.Backed hashToken r) {request : AdminRequest}
    {record : AuditRecord} (hdone : request.Done hashToken r record) :
    start.Backed hashToken ((r.writeAudit record).answer request request.successCode) := by
  obtain ⟨written, answers, told, hwritten, hanswers, hsublist, hbacked⟩ := h
  refine ⟨written ++ [record], answers ++ [(request, request.successCode)], told ++ [record], ?_, ?_,
    hsublist.append (List.Sublist.refl _), ?_⟩
  · simp [Registry.writeAudit, answer, hwritten]
  · simp [Registry.writeAudit, answer, hanswers]
  · have hone : [(request, request.successCode)].filter (fun answer => answer.2 < 300) =
        [(request, request.successCode)] :=
      List.filter_eq_self.mpr (by simpa using request.successCode_lt)
    rw [List.filter_append, hone]
    exact List.rel_append hbacked (.cons ⟨hdone, rfl⟩ .nil)

theorem AdminCall.Step.backed {call : AdminCall} {next : List AdminCall}
    (hstep : call.Step hashToken reply r r' next) (h : start.Backed hashToken r)
    (hcoherent : (RegistryCall.admin call).Coherent hashToken r) :
    r.Keeps r' ∧ start.Backed hashToken r' ∧
      ∀ other ∈ next, (RegistryCall.admin other).Coherent hashToken r' := by
  cases hstep with
  | @refused code hcode =>
      have hrefusal : 300 ≤ code := by
        simp only [List.mem_cons, List.not_mem_nil, or_false] at hcode
        omega
      exact ⟨.of_same rfl rfl rfl rfl rfl, h.refuse _ hrefusal, by simp⟩
  | read hread =>
      exact ⟨.of_same rfl rfl rfl rfl rfl, h, List.forall_mem_singleton.mpr (hread.coherent hcoherent)⟩
  | wrote hwrite =>
      obtain ⟨hkeeps, hdone⟩ := hwrite.done hcoherent
      have hbacked := h.mono hkeeps hwrite.sameLogs.auditLog hwrite.sameLogs.answered
      exact ⟨hkeeps, hbacked, List.forall_mem_singleton.mpr hdone⟩
  | lost hwrite =>
      obtain ⟨hkeeps, -⟩ := hwrite.done hcoherent
      have hbacked := h.mono hkeeps hwrite.sameLogs.auditLog hwrite.sameLogs.answered
      exact ⟨⟨hkeeps.masters, hkeeps.slaves, hkeeps.connectors, hkeeps.deleted, hkeeps.gone⟩,
        hbacked.refuse call.request (by simp : 300 ≤ 500), by simp⟩
  | @audited record hpoint _ =>
      obtain ⟨admin, ip, request, point⟩ := call
      obtain rfl : point = .audit record := hpoint
      exact ⟨.of_same rfl rfl rfl rfl rfl, h.audited hcoherent, by simp⟩
  | auditLost =>
      exact ⟨.of_same rfl rfl rfl rfl rfl, (h.writeAudit _).refuse _ (by simp), by simp⟩

theorem RegistryCall.Step.backed {call : RegistryCall} {next : List RegistryCall}
    (hstep : call.Step hashToken reply r r' next) (h : start.Backed hashToken r)
    (hcoherent : call.Coherent hashToken r) :
    r.Keeps r' ∧ start.Backed hashToken r' ∧ ∀ other ∈ next, other.Coherent hashToken r' := by
  cases hstep with
  | admin hstep =>
      obtain ⟨hkeeps, hbacked, hnext⟩ := hstep.backed h hcoherent
      exact ⟨hkeeps, hbacked, List.forall_mem_map.mpr hnext⟩
  | backend =>
      exact ⟨.of_same rfl rfl rfl rfl rfl, h.mono (.of_same rfl rfl rfl rfl rfl) rfl rfl,
        List.forall_mem_map.mpr fun _ _ => trivial⟩

theorem RegistryArrival.Start.backed {arrival : RegistryArrival} {calls : List RegistryCall}
    (hstart : arrival.Start crypto r r' calls) (h : start.Backed hashToken r) :
    r.Keeps r' ∧ start.Backed hashToken r' ∧ ∀ call ∈ calls, call.Coherent hashToken r' := by
  cases hstart with
  | @refused _ _ _ asked code hcode =>
      have hrefusal : 300 ≤ code := by
        simp only [List.mem_cons, List.not_mem_nil, or_false] at hcode
        omega
      exact ⟨.of_same rfl rfl rfl rfl rfl, h.refuse _ hrefusal, by simp⟩
  | begun _ hpoint =>
      exact ⟨.of_same rfl rfl rfl rfl rfl, h,
        List.forall_mem_singleton.mpr (AdminRequest.start_coherent hpoint _ _ r)⟩
  | login =>
      exact ⟨.of_same rfl rfl rfl rfl rfl, h.mono (.of_same rfl rfl rfl rfl rfl) rfl rfl, by simp⟩
  | backend =>
      exact ⟨.of_same rfl rfl rfl rfl rfl, h.mono (.of_same rfl rfl rfl rfl rfl) rfl rfl,
        List.forall_mem_map.mpr fun _ _ => trivial⟩

def Registry.answering (hashToken : String → String) (start : Registry) : Outline Registry RegistryCall where
  shared r := start.Backed hashToken r
  task r call := call.Coherent hashToken r

theorem Registry.answering_preserved :
    Preserved (Registry.step crypto hashToken) (start.answering hashToken).Holds := by
  intro c action c' h hstep
  cases action with
  | resume i reply =>
      refine h.resume (RegistryCall.step hashToken) hstep ?_ ?_
      · intro task s' next _ hmove hbacked hcoherent
        exact ((RegistryCall.step_sound hmove).backed hbacked hcoherent).2
      · intro task s' next hget hmove hbacked other _ hother
        have hcoherent := h.2 task (List.mem_of_getElem? hget)
        exact hother.mono ((RegistryCall.step_sound hmove).backed hbacked hcoherent).1
  | arrive arrival =>
      obtain ⟨⟨r', calls⟩, happly, rfl⟩ := Option.map_eq_some_iff.mp hstep
      obtain ⟨hkeeps, hbacked, hcalls⟩ := (RegistryArrival.apply_sound happly).backed h.1
      exact .arrive hbacked (fun task htask => (h.2 task htask).mono hkeeps) hcalls

end

/-- Whatever overlaps and wherever it fails, no success is answered without its record in the log. -/
theorem Registry.success_recorded {crypto : AdminCrypto} {hashToken : String → String}
    {start c : Pool Registry RegistryCall} {actions : List RegistryAction} (hidle : start.tasks = [])
    (hrun : follow (Registry.step crypto hashToken) start actions = some c) :
    ∃ written answers told, c.shared.auditLog = start.shared.auditLog ++ written ∧
      c.shared.answered = start.shared.answered ++ answers ∧ told.Sublist written ∧
      List.Forall₂ (fun answer record =>
          answer.1.Done hashToken c.shared record ∧ answer.2 = answer.1.successCode)
        (answers.filter fun answer => answer.2 < 300) told :=
  (Registry.answering_preserved.follow
    ⟨⟨[], [], [], (List.append_nil _).symm, (List.append_nil _).symm, .slnil, .nil⟩, by simp [hidle]⟩
    hrun).1

/-- After that a symbol is mapped, and the mapping is deleted again. -/
def Sample.remapped : List RegistryAction :=
  administered ++
  .arrive (.request (some "Bearer jwt") none none
    (.setSymbolMapping 1 (some ⟨"XAUUSD", "GOLD"⟩))) :: settled 3 ++
  .arrive (.request (some "Bearer jwt") none none (.deleteSymbolMapping 1 1)) :: settled 2

theorem administered_success_recorded :
    ∃ c, follow (Registry.step Sample.adminCrypto id) Sample.registry Sample.remapped = some c ∧
      c.shared.answered.map Prod.snd = [201, 201, 200, 201, 204] ∧ c.shared.mappingIds = [] ∧
      ∃ written answers told, c.shared.auditLog = [] ++ written ∧ c.shared.answered = [] ++ answers ∧
        told.Sublist written ∧ List.Forall₂ (fun answer record =>
            answer.1.Done id c.shared record ∧ answer.2 = answer.1.successCode)
          (answers.filter fun answer => answer.2 < 300) told := by
  have hruns : ∃ c, follow (Registry.step Sample.adminCrypto id) Sample.registry Sample.remapped = some c ∧
      c.shared.answered.map Prod.snd = [201, 201, 200, 201, 204] ∧ c.shared.mappingIds = [] := by
    decide +kernel
  obtain ⟨c, hrun, hanswered, hgone⟩ := hruns
  exact ⟨c, hrun, hanswered, hgone, Registry.success_recorded rfl hrun⟩

end ForexCopy
