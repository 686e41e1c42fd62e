import ForexCopy.Proof.Terminal.Mirror

/-!
# Executions and reports

What the terminal executes enters the holdings at once, through a result that is not recorded yet; what
is recorded moves from the result to its row. Both keep a terminal and its copy orders in step.
-/

namespace ForexCopy

open Machine

/-! ### Executions -/

section

variable {slaveId : Uuid} {orders : List CopyOrder} (results : List ExecutionResult)
  {order : CopyOrder} {result : ExecutionResult}

theorem executes_append {ticket : String} :
    order.Executes (results ++ [result]) ticket ↔ order.Executes results ticket ∨
      (result.copyId = order.id ∧ result.status = .executed ∧ result.slaveTicket = some ticket) := by
  simp only [CopyOrder.Executes, List.mem_append, List.mem_singleton, or_and_right, exists_or,
    exists_eq_left, or_assoc]

theorem holdings_opened_append (hids : (orders.map CopyOrder.id).Nodup) (horder : order ∈ orders)
    (hslave : order.slaveId = slaveId) (hid : order.id = result.copyId)
    (entry : String × Position) :
    entry ∈ (holdings slaveId orders (results ++ [result])).opened ↔
      entry ∈ (holdings slaveId orders results).opened ∨
        (order.type = .open ∧ order.masterTicket = entry.1 ∧ order.id = entry.2.copyId ∧
          order.requestedVolume.map Decimal.toNumber = some entry.2.volume ∧
          result.status = .executed ∧ result.slaveTicket = some entry.2.ticket) := by
  constructor
  · rintro ⟨row, hrow, hrslave, htype, hmaster, hrid, hvolume, hticket⟩
    rcases (executes_append results).mp hticket with hold | ⟨hcopy, hnew⟩
    · exact .inl ⟨row, hrow, hrslave, htype, hmaster, hrid, hvolume, hold⟩
    · obtain rfl := Table.eq_of_key_eq hids hrow horder (hcopy.symm.trans hid.symm)
      exact .inr ⟨htype, hmaster, hrid, hvolume, hnew⟩
  · rintro (⟨row, hrow, hrslave, htype, hmaster, hrid, hvolume, hticket⟩ |
      ⟨htype, hmaster, hcopy, hvolume, hnew⟩)
    · exact ⟨row, hrow, hrslave, htype, hmaster, hrid, hvolume,
        (executes_append results).mpr (.inl hticket)⟩
    · exact ⟨order, horder, hslave, htype, hmaster, hcopy, hvolume,
        (executes_append results).mpr (.inr ⟨hid.symm, hnew⟩)⟩

theorem holdings_closed_append (hids : (orders.map CopyOrder.id).Nodup) (horder : order ∈ orders)
    (hslave : order.slaveId = slaveId) (hid : order.id = result.copyId) (entry : String × String) :
    entry ∈ (holdings slaveId orders (results ++ [result])).closed ↔
      entry ∈ (holdings slaveId orders results).closed ∨
        (order.type = .close ∧ order.masterTicket = entry.1 ∧ result.status = .executed ∧
          result.slaveTicket = some entry.2) := by
  constructor
  · rintro ⟨row, hrow, hrslave, htype, hmaster, hticket⟩
    rcases (executes_append results).mp hticket with hold | ⟨hcopy, hnew⟩
    · exact .inl ⟨row, hrow, hrslave, htype, hmaster, hold⟩
    · obtain rfl := Table.eq_of_key_eq hids hrow horder (hcopy.symm.trans hid.symm)
      exact .inr ⟨htype, hmaster, hnew⟩
  · rintro (⟨row, hrow, hrslave, htype, hmaster, hticket⟩ | ⟨htype, hmaster, hnew⟩)
    · exact ⟨row, hrow, hrslave, htype, hmaster, (executes_append results).mpr (.inl hticket)⟩
    · exact ⟨order, horder, hslave, htype, hmaster,
        (executes_append results).mpr (.inr ⟨hid.symm, hnew⟩)⟩

theorem holdings_append_of_none (hids : (orders.map CopyOrder.id).Nodup) (horder : order ∈ orders)
    (hslave : order.slaveId = slaveId) (hid : order.id = result.copyId)
    (hnone : order.type = .open ∨ order.type = .close → result.status ≠ .executed) :
    holdings slaveId orders (results ++ [result]) = holdings slaveId orders results := by
  refine Holdings.ext (Set.ext fun entry => ?_) (Set.ext fun entry => ?_)
  · rw [holdings_opened_append results hids horder hslave hid]
    exact or_iff_left fun h => hnone (.inl h.1) h.2.2.2.2.1
  · rw [holdings_closed_append results hids horder hslave hid]
    exact or_iff_left fun h => hnone (.inr h.1) h.2.2.1

theorem holdings_append_of_open (hids : (orders.map CopyOrder.id).Nodup) (horder : order ∈ orders)
    (hslave : order.slaveId = slaveId) (hid : order.id = result.copyId) (htype : order.type = .open)
    {volume : ℚ} (hvolume : order.requestedVolume.map Decimal.toNumber = some volume)
    (hstatus : result.status = .executed) {ticket : String}
    (hticket : result.slaveTicket = some ticket) :
    holdings slaveId orders (results ++ [result]) =
      ⟨insert (order.masterTicket, ⟨result.copyId, ticket, volume⟩)
        (holdings slaveId orders results).opened, (holdings slaveId orders results).closed⟩ := by
  refine Holdings.ext (Set.ext fun entry => ?_) (Set.ext fun entry => ?_)
  · rw [holdings_opened_append results hids horder hslave hid, Set.mem_insert_iff, or_comm]
    obtain ⟨masterTicket, copyId, k, v⟩ := entry
    refine or_congr_left ⟨?_, ?_⟩
    · rintro ⟨-, rfl, hcopy, hv, -, hk⟩
      obtain rfl : result.copyId = copyId := hid.symm.trans hcopy
      obtain rfl : volume = v := Option.some.inj (hvolume.symm.trans hv)
      obtain rfl : ticket = k := Option.some.inj (hticket.symm.trans hk)
      rfl
    · intro heq
      simp only [Prod.mk.injEq, Position.mk.injEq] at heq
      obtain ⟨rfl, rfl, rfl, rfl⟩ := heq
      exact ⟨htype, rfl, hid, hvolume, hstatus, hticket⟩
  · rw [holdings_closed_append results hids horder hslave hid]
    refine or_iff_left fun h => ?_
    rw [htype] at h
    cases h.1

theorem holdings_append_of_close (hids : (orders.map CopyOrder.id).Nodup) (horder : order ∈ orders)
    (hslave : order.slaveId = slaveId) (hid : order.id = result.copyId) (htype : order.type = .close)
    (hstatus : result.status = .executed) {ticket : String}
    (hticket : result.slaveTicket = some ticket) :
    holdings slaveId orders (results ++ [result]) =
      ⟨(holdings slaveId orders results).opened,
        insert (order.masterTicket, ticket) (holdings slaveId orders results).closed⟩ := by
  refine Holdings.ext (Set.ext fun entry => ?_) (Set.ext fun entry => ?_)
  · rw [holdings_opened_append results hids horder hslave hid]
    refine or_iff_left fun h => ?_
    rw [htype] at h
    cases h.1
  · rw [holdings_closed_append results hids horder hslave hid, Set.mem_insert_iff, or_comm]
    obtain ⟨masterTicket, k⟩ := entry
    refine or_congr_left ⟨?_, ?_⟩
    · rintro ⟨-, rfl, -, hk⟩
      obtain rfl : ticket = k := Option.some.inj (hticket.symm.trans hk)
      rfl
    · intro heq
      obtain ⟨rfl, rfl⟩ := Prod.mk.inj heq
      exact ⟨htype, rfl, hstatus, hticket⟩

end

namespace Mirrors

variable {slaveId : Uuid} {w w' : World} {connector : SlaveConnector}

/-- An execution answers one instruction with one result; what it changes at the terminal has to show
in the holdings. -/
theorem answer (h : Mirrors slaveId w connector) {i : ℕ} {instruction : CopyInstruction}
    (hget : connector.instructions[i]? = some instruction) {terminal : Terminal}
    {result : ExecutionResult} (hcopy : result.copyId = instruction.copyId)
    (hticket : result.status = .executed → ∃ ticket, result.slaveTicket = some ticket)
    (hcoherent : (holdings slaveId w.copyOrders (connector.results ++ [result])).Coherent
      Position.ticket)
    (hopened : ∀ position, position ∈ terminal.opened ↔ ∃ masterTicket, (masterTicket, position) ∈
      (holdings slaveId w.copyOrders (connector.results ++ [result])).opened)
    (hclosed : ∀ ticket, ticket ∈ terminal.closed ↔ ∃ masterTicket, (masterTicket, ticket) ∈
      (holdings slaveId w.copyOrders (connector.results ++ [result])).closed) :
    Mirrors slaveId w
      ⟨terminal, connector.instructions.eraseIdx i, connector.results ++ [result]⟩ := by
  obtain ⟨hlt, rfl⟩ := List.getElem?_eq_some_iff.mp hget
  have hperm := List.getElem_cons_eraseIdx_perm hlt
  refine ⟨h.ids, h.oneOpen, h.sized, h.ticketed, hcoherent, hopened, hclosed, ?_, ?_, ?_⟩
  · have hmoved : ((connector.instructions.eraseIdx i).map CopyInstruction.copyId ++
        (connector.results ++ [result]).map ExecutionResult.copyId).Perm
        (connector.instructions.map CopyInstruction.copyId ++
          connector.results.map ExecutionResult.copyId) := by
      rw [List.map_append, List.map_singleton, hcopy, ← List.append_assoc]
      refine List.perm_append_comm.trans ?_
      rw [List.singleton_append, ← List.cons_append]
      exact (hperm.map CopyInstruction.copyId).append_right _
    exact hmoved.nodup_iff.mpr h.inFlight
  · intro other hother
    exact h.instructions other (List.eraseIdx_subset hother)
  · intro answered hanswered
    rcases List.mem_append.mp hanswered with hold | hnew
    · exact h.results answered hold
    · obtain rfl := List.mem_singleton.mp hnew
      obtain ⟨order, horder, hfor⟩ := h.instructions _ (List.getElem_mem hlt)
      exact ⟨order, horder, hfor.id.trans hcopy.symm, hfor.slave, hfor.status, hticket⟩

/-- An answer that opens and closes nothing leaves the holdings as they were. -/
theorem answer_unchanged (h : Mirrors slaveId w connector) {i : ℕ} {instruction : CopyInstruction}
    (hget : connector.instructions[i]? = some instruction) {result : ExecutionResult}
    (hcopy : result.copyId = instruction.copyId)
    (hticket : result.status = .executed → ∃ ticket, result.slaveTicket = some ticket)
    (hnone : instruction.action = .open ∨ instruction.action = .close →
      result.status ≠ .executed) :
    Mirrors slaveId w
      ⟨connector.terminal, connector.instructions.eraseIdx i, connector.results ++ [result]⟩ := by
  obtain ⟨order, horder, hfor⟩ := h.instructions instruction (List.mem_of_getElem? hget)
  have hsame : holdings slaveId w.copyOrders (connector.results ++ [result]) =
      holdings slaveId w.copyOrders connector.results :=
    holdings_append_of_none _ h.ids horder hfor.slave (hfor.id.trans hcopy.symm)
      (hfor.action ▸ hnone)
  refine h.answer hget hcopy hticket ?_ ?_ ?_
  · rw [hsame]
    exact h.coherent
  · rw [hsame]
    exact h.opened
  · rw [hsame]
    exact h.closed

theorem execute (h : Mirrors slaveId w connector) {i : ℕ} {outcome : OrderOutcome}
    {connector' : SlaveConnector} (hexecute : connector.execute i outcome = some connector') :
    Mirrors slaveId w connector' := by
  obtain ⟨instruction, terminal, result, hget, hterminal, rfl⟩ := SlaveConnector.execute_cases hexecute
  have hmem := List.mem_of_getElem? hget
  obtain ⟨order, horder, hfor⟩ := h.instructions instruction hmem
  -- The row of the instruction is SENT and not reported on yet.
  have hidle : ∀ ticket, ¬order.Executes connector.results ticket := by
    rintro ticket (⟨hexecuted, -⟩ | ⟨reported, hreported, hid, -⟩)
    · rw [hfor.status] at hexecuted
      cases hexecuted
    · exact (List.nodup_append.mp h.inFlight).2.2 _ (List.mem_map_of_mem hmem) _
        (List.mem_map_of_mem hreported) (hfor.id.symm.trans hid.symm)
  cases Terminal.execute_executed hterminal with
  | failed reason =>
      exact h.answer_unchanged hget rfl (by simp [CopyInstruction.failure])
        (by simp [CopyInstruction.failure])
  | @opened ticket volume haction hvolume hfresh =>
      have htype : order.type = .open := hfor.action.trans haction
      have hnew := holdings_append_of_open connector.results h.ids horder hfor.slave hfor.id htype
        ((hfor.volume htype).symm.trans hvolume) (rfl : (instruction.success ticket).status = .executed)
        rfl
      refine h.answer hget rfl (fun _ => ⟨ticket, rfl⟩) ?_ ?_ ?_ <;> rw [hnew]
      · refine h.coherent.open ?_ ?_
        · -- The slave has no other OPEN copy of the master ticket.
          rintro position ⟨row, hrow, hrslave, hrtype, hmaster, -, -, hexecutes⟩
          have hid := h.oneOpen _ (World.core_mem_cores hrow) _ (World.core_mem_cores horder) hrslave
            hfor.slave hrtype htype hmaster
          obtain rfl := Table.eq_of_key_eq h.ids hrow horder hid
          exact hidle _ hexecutes
        · intro masterTicket position hposition hsame
          have hmem := (h.opened position).mpr ⟨masterTicket, hposition⟩
          exact hfresh (List.mem_map.mpr ⟨position, hmem, hsame⟩)
      · intro position
        rw [Terminal.open, List.mem_append, List.mem_singleton, h.opened]
        simp only [Set.mem_insert_iff, Prod.mk.injEq, exists_or, exists_and_right, exists_eq,
          true_and]
        exact or_comm
      · exact h.closed
  | @closed ticket haction hticket =>
      have htype : order.type = .close := hfor.action.trans haction
      have hnew := holdings_append_of_close connector.results h.ids horder hfor.slave hfor.id htype
        (rfl : (instruction.success ticket).status = .executed) rfl
      refine h.answer hget rfl (fun _ => ⟨ticket, rfl⟩) ?_ ?_ ?_ <;> rw [hnew]
      · -- The instruction names the ticket of the OPEN copy of its master ticket.
        obtain ⟨found, hfound, opened, hopened, hoslave, homaster, hotype, hostatus, hoticket⟩ :=
          hfor.ticket htype
        obtain rfl := Option.some.inj (hticket.symm.trans hfound)
        obtain ⟨volume, hvolume⟩ := h.sized opened hopened hoslave hotype (by simp [hostatus])
        have hentry : (order.masterTicket, ⟨opened.id, ticket, volume.toNumber⟩) ∈
            (holdings slaveId w.copyOrders connector.results).opened :=
          ⟨opened, hopened, hoslave, hotype, homaster, rfl, by simp [hvolume],
            .inl ⟨hostatus, hoticket⟩⟩
        exact h.coherent.close hentry
      · exact h.opened
      · intro k
        rw [Terminal.close, List.mem_cons, h.closed]
        simp only [Set.mem_insert_iff, Prod.mk.injEq, exists_or, exists_and_right, exists_eq,
          true_and]
  | modified ticket haction =>
      exact h.answer_unchanged hget rfl (fun _ => ⟨ticket, rfl⟩) (by simp [haction])

end Mirrors

/-! ### Reports -/

section

variable {results rest : List ExecutionResult} {result : ExecutionResult} {row : CopyOrder}
  {ticket : String}

theorem executes_of_ne (hresults : ∀ other, other ∈ results ↔ other = result ∨ other ∈ rest)
    (hne : row.id ≠ result.copyId) : row.Executes results ticket ↔ row.Executes rest ticket := by
  refine or_congr_right ⟨?_, ?_⟩
  · rintro ⟨reported, hreported, hid, hexecuted⟩
    refine ⟨reported, ((hresults reported).mp hreported).resolve_left ?_, hid, hexecuted⟩
    rintro rfl
    exact hne hid.symm
  · rintro ⟨reported, hreported, hexecuted⟩
    exact ⟨reported, (hresults reported).mpr (.inr hreported), hexecuted⟩

theorem executes_reported (hresults : ∀ other, other ∈ results ↔ other = result ∨ other ∈ rest)
    (honly : ∀ other ∈ rest, other.copyId ≠ result.copyId) (hid : row.id = result.copyId)
    (hsent : row.status = .sent) :
    row.Executes results ticket ↔ result.status = .executed ∧ result.slaveTicket = some ticket := by
  constructor
  · rintro (⟨hexecuted, -⟩ | ⟨reported, hreported, hcopy, hexecuted⟩)
    · rw [hsent] at hexecuted
      cases hexecuted
    · obtain rfl := ((hresults reported).mp hreported).resolve_right fun hrest =>
        honly reported hrest (hcopy.trans hid)
      exact hexecuted
  · intro hexecuted
    exact .inr ⟨result, (hresults result).mpr (.inl rfl), hid.symm, hexecuted⟩

theorem executes_record (honly : ∀ other ∈ rest, other.copyId ≠ result.copyId)
    (hid : row.id = result.copyId)
    (hticketed : result.status = .executed → ∃ ticket, result.slaveTicket = some ticket)
    (now : DateTime) :
    (CopyOrder.record result row now row).Executes rest ticket ↔
      result.status = .executed ∧ result.slaveTicket = some ticket := by
  have hstatus : (CopyOrder.record result row now row).status = .executed ↔
      result.status = .executed := by
    cases hresult : result.status <;>
      simp [CopyOrder.record, ExecutionStatus.toCopyOrderStatus, hresult]
  constructor
  · rintro (⟨hexecuted, hticket⟩ | ⟨reported, hreported, hcopy, -⟩)
    · obtain ⟨found, hfound⟩ := hticketed (hstatus.mp hexecuted)
      refine ⟨hstatus.mp hexecuted, ?_⟩
      simpa [CopyOrder.record, hfound] using hticket
    · exact absurd (hcopy.trans hid) (honly reported hreported)
  · rintro ⟨hexecuted, hticket⟩
    exact .inl ⟨hstatus.mpr hexecuted, by simp [CopyOrder.record, hticket]⟩

/-- A recorded result says in its row what it has said before. -/
theorem holdings_record (slaveId : Uuid) {orders : List CopyOrder}
    (hids : (orders.map CopyOrder.id).Nodup) (hrow : row ∈ orders) (hid : row.id = result.copyId)
    (hsent : row.status = .sent)
    (hresults : ∀ other, other ∈ results ↔ other = result ∨ other ∈ rest)
    (honly : ∀ other ∈ rest, other.copyId ≠ result.copyId)
    (hticketed : result.status = .executed → ∃ ticket, result.slaveTicket = some ticket)
    (now : DateTime) :
    holdings slaveId
        (Table.update CopyOrder.id result.copyId (CopyOrder.record result row now) orders) rest =
      holdings slaveId orders results := by
  refine Carries.holdings_eq ?_ ?_
  · intro order horder _ ticket hticket
    by_cases hsame : order.id = result.copyId
    · obtain rfl := Table.eq_of_key_eq hids horder hrow (hsame.trans hid.symm)
      refine ⟨_, Table.mem_update_of_eq hrow hid, rfl, ?_⟩
      exact (executes_record honly hid hticketed now).mpr
        ((executes_reported hresults honly hid hsent).mp hticket)
    · exact ⟨order, Table.mem_update_of_ne horder hsame, rfl,
        (executes_of_ne hresults hsame).mp hticket⟩
  · intro order horder _ ticket hticket
    rcases (Table.mem_update_row hids hrow hid).mp horder with rfl | ⟨hold, hne⟩
    · refine ⟨row, hrow, rfl, (executes_reported hresults honly hid hsent).mpr ?_⟩
      exact (executes_record honly hid hticketed now).mp hticket
    · exact ⟨order, hold, rfl, (executes_of_ne hresults hne).mpr hticket⟩

end

namespace Mirrors

variable {slaveId : Uuid} {w w' : World} {connector : SlaveConnector}

theorem record (h : Mirrors slaveId w connector) {i : ℕ} {result : ExecutionResult}
    (hget : connector.results[i]? = some result) {row : CopyOrder} (hrow : row ∈ w.copyOrders)
    (hid : row.id = result.copyId) (now : DateTime)
    (horders : w'.copyOrders = Table.update CopyOrder.id result.copyId
      (CopyOrder.record result row now) w.copyOrders) :
    Mirrors slaveId w' { connector with results := connector.results.eraseIdx i } := by
  obtain ⟨hlt, rfl⟩ := List.getElem?_eq_some_iff.mp hget
  have hperm := List.getElem_cons_eraseIdx_perm hlt
  have hmem : connector.results[i] ∈ connector.results := List.getElem_mem hlt
  set result := connector.results[i]
  have hresults : ∀ other, other ∈ connector.results ↔ other = result ∨
      other ∈ connector.results.eraseIdx i := fun other => by
    rw [← hperm.mem_iff, List.mem_cons]
  obtain ⟨order, horder, horderId, hslave, hsent, hticketed⟩ := h.results result hmem
  obtain rfl := Table.eq_of_key_eq h.ids hrow horder (hid.trans horderId.symm)
  -- No other instruction or result is about the row.
  have hflight : (result.copyId :: (connector.instructions.map CopyInstruction.copyId ++
      (connector.results.eraseIdx i).map ExecutionResult.copyId)).Nodup := by
    rw [← List.nodup_middle, ← List.map_cons]
    exact ((hperm.map ExecutionResult.copyId).append_left _).nodup_iff.mpr h.inFlight
  obtain ⟨hnone, hrest⟩ := List.nodup_cons.mp hflight
  have honly : ∀ other ∈ connector.results.eraseIdx i, other.copyId ≠ result.copyId :=
    fun other hother hsame => hnone (List.mem_append_right _ (List.mem_map.mpr ⟨other, hother, hsame⟩))
  have hmem : ∀ order, order ∈ w'.copyOrders ↔ order = CopyOrder.record result row now row ∨
      (order ∈ w.copyOrders ∧ order.id ≠ result.copyId) := fun order => by
    rw [horders]
    exact Table.mem_update_row h.ids hrow hid
  have hkept : ∀ order ∈ w.copyOrders, order.id ≠ result.copyId → order ∈ w'.copyOrders :=
    fun order horder hne => (hmem order).mpr (.inr ⟨horder, hne⟩)
  have hsame : holdings slaveId w'.copyOrders (connector.results.eraseIdx i) =
      holdings slaveId w.copyOrders connector.results := by
    rw [horders]
    exact holdings_record slaveId h.ids hrow hid hsent hresults honly hticketed now
  have hexecuted : ∀ order ∈ w.copyOrders, order.status = .executed → order ∈ w'.copyOrders := by
    intro order horder hstatus
    refine hkept order horder fun horderId => ?_
    rw [Table.eq_of_key_eq h.ids horder hrow (horderId.trans hid.symm), hsent] at hstatus
    cases hstatus
  have hcore := keepsCore_record result row now
  refine ⟨?_, ?_, ?_, ?_, ?_, ?_, ?_, hrest, ?_, ?_⟩
  · rw [horders, Table.map_update _ hcore.id]
    exact h.ids
  · rw [World.cores, horders, Table.map_update _ hcore]
    exact h.oneOpen
  · intro order horder hoslave htype hnotFailed
    rcases (hmem order).mp horder with rfl | ⟨hold, -⟩
    · exact h.sized row hrow hslave htype (by simp [hsent])
    · exact h.sized order hold hoslave htype hnotFailed
  · intro order horder hoslave hstatus
    rcases (hmem order).mp horder with rfl | ⟨hold, -⟩
    · cases hresult : result.status with
      | executed =>
          obtain ⟨ticket, hticket⟩ := hticketed hresult
          exact ⟨ticket, by simp [CopyOrder.record, hticket]⟩
      | failed => simp [CopyOrder.record, ExecutionStatus.toCopyOrderStatus, hresult] at hstatus
    · exact h.ticketed order hold hoslave hstatus
  · rw [hsame]
    exact h.coherent
  · rw [hsame]
    exact h.opened
  · rw [hsame]
    exact h.closed
  · intro instruction hinstruction
    obtain ⟨order, horder, hfor⟩ := h.instructions instruction hinstruction
    have hne : order.id ≠ result.copyId := fun horderId =>
      hnone (List.mem_append_left _ (List.mem_map.mpr
        ⟨instruction, hinstruction, hfor.id.symm.trans horderId⟩))
    exact ⟨order, hkept order horder hne, hfor.mono hexecuted⟩
  · intro other hother
    obtain ⟨order, horder, horderId, hrest⟩ := h.results other (List.eraseIdx_subset hother)
    exact ⟨order, hkept order horder (horderId ▸ honly other hother), horderId, hrest⟩

end Mirrors

end ForexCopy
