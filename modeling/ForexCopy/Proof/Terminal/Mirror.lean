import ForexCopy.Library.Holdings
import ForexCopy.Proof.Terminal.Alone
import Mathlib.Data.List.Perm.Basic

/-!
# The copy orders as a view of the terminal

Two records are kept of the same holdings. The backend pairs executed OPENs with executed CLOSEs by
master ticket, the terminal by the ticket of the position. What ties them together is the holdings that
the rows and the unrecorded results tell between them: an execution adds to these and to the terminal
at once, and no call that runs alone changes them.
-/

namespace ForexCopy

open Machine

/-- The copy was executed under the ticket: the row tells so, or a result not yet recorded. -/
def CopyOrder.Executes (results : List ExecutionResult) (order : CopyOrder) (ticket : String) : Prop :=
  (order.status = .executed ∧ order.slaveTicket = some ticket) ∨
    ∃ result ∈ results, result.copyId = order.id ∧ result.status = .executed ∧
      result.slaveTicket = some ticket

/-- What the rows and the unrecorded results tell, by master ticket. -/
def holdings (slaveId : Uuid) (orders : List CopyOrder) (results : List ExecutionResult) :
    Holdings String Position String where
  opened := {entry | ∃ order ∈ orders, order.slaveId = slaveId ∧ order.type = .open ∧
    order.masterTicket = entry.1 ∧ order.id = entry.2.copyId ∧
    order.requestedVolume.map Decimal.toNumber = some entry.2.volume ∧
    order.Executes results entry.2.ticket}
  closed := {entry | ∃ order ∈ orders, order.slaveId = slaveId ∧ order.type = .close ∧
    order.masterTicket = entry.1 ∧ order.Executes results entry.2}

def OneOpen (slaveId : Uuid) (cores : List CopyOrder) : Prop :=
  ∀ a ∈ cores, ∀ b ∈ cores, a.slaveId = slaveId → b.slaveId = slaveId → a.type = .open →
    b.type = .open → a.masterTicket = b.masterTicket → a.id = b.id

/-- The instruction asks for what the row, which is SENT, says. -/
structure CopyInstruction.IsFor (slaveId : Uuid) (orders : List CopyOrder) (order : CopyOrder)
    (instruction : CopyInstruction) : Prop where
  id : order.id = instruction.copyId
  slave : order.slaveId = slaveId
  status : order.status = .sent
  action : order.type = instruction.action
  volume : order.type = .open → instruction.volume = order.requestedVolume.map Decimal.toNumber
  ticket : order.type = .close → ∃ ticket, instruction.slaveTicket = some ticket ∧
    ∃ opened ∈ orders, opened.slaveId = slaveId ∧ opened.masterTicket = order.masterTicket ∧
      opened.type = .open ∧ opened.status = .executed ∧ opened.slaveTicket = some ticket

/-- The terminal has opened and closed what the rows and the unrecorded results tell, and what is in
flight belongs to rows that are SENT. -/
structure Mirrors (slaveId : Uuid) (w : World) (connector : SlaveConnector) : Prop where
  ids : (w.copyOrders.map CopyOrder.id).Nodup
  oneOpen : OneOpen slaveId w.cores
  sized : ∀ order ∈ w.copyOrders, order.slaveId = slaveId → order.type = .open →
    order.status ≠ .failed → ∃ volume, order.requestedVolume = some volume
  ticketed : ∀ order ∈ w.copyOrders, order.slaveId = slaveId → order.status = .executed →
    ∃ ticket, order.slaveTicket = some ticket
  coherent : (holdings slaveId w.copyOrders connector.results).Coherent Position.ticket
  opened : ∀ position, position ∈ connector.terminal.opened ↔
    ∃ masterTicket, (masterTicket, position) ∈ (holdings slaveId w.copyOrders connector.results).opened
  closed : ∀ ticket, ticket ∈ connector.terminal.closed ↔
    ∃ masterTicket, (masterTicket, ticket) ∈ (holdings slaveId w.copyOrders connector.results).closed
  inFlight : (connector.instructions.map CopyInstruction.copyId ++
    connector.results.map ExecutionResult.copyId).Nodup
  instructions : ∀ instruction ∈ connector.instructions,
    ∃ order ∈ w.copyOrders, instruction.IsFor slaveId w.copyOrders order
  results : ∀ result ∈ connector.results, ∃ order ∈ w.copyOrders, order.id = result.copyId ∧
    order.slaveId = slaveId ∧ order.status = .sent ∧
    (result.status = .executed → ∃ ticket, result.slaveTicket = some ticket)

namespace SlaveLink

/-- The tickets and volumes that the backend takes for open. -/
def viewPairs (slaveId : Uuid) (link : SlaveLink) : List (Option String × Option ℚ) :=
  (getCopyOrderPositions slaveId link.backend.shared.copyOrders).open.map fun info =>
    (info.slaveTicket, info.requestedVolume)

/-- The tickets and volumes that are open at the terminal. -/
def positionPairs (link : SlaveLink) : List (Option String × Option ℚ) :=
  link.connector.terminal.positions.map fun position => (some position.ticket, some position.volume)

def ShowsTerminal (slaveId : Uuid) (link : SlaveLink) : Prop :=
  ∀ pair, pair ∈ link.viewPairs slaveId ↔ pair ∈ link.positionPairs

end SlaveLink

namespace Mirrors

variable {slaveId : Uuid} {w : World} {connector : SlaveConnector}

theorem mem_positions (h : Mirrors slaveId w connector) {position : Position} :
    position ∈ connector.terminal.positions ↔
      position ∈ (holdings slaveId w.copyOrders connector.results).byKey := by
  rw [h.coherent.byKey_eq_byTicket, Terminal.mem_positions, h.opened, h.closed]
  simp [Holdings.byTicket]

theorem mem_byKey_of_quiet (h : Mirrors slaveId w connector) (hquiet : connector.results = [])
    {pair : Option String × Option ℚ} :
    (∃ position ∈ (holdings slaveId w.copyOrders connector.results).byKey,
      (some position.ticket, some position.volume) = pair) ↔
    ∃ order ∈ stillOpen (executedOrders slaveId .open w.copyOrders)
      (executedOrders slaveId .close w.copyOrders),
      (order.slaveTicket, order.requestedVolume.map Decimal.toNumber) = pair := by
  have hexecutes : ∀ (order : CopyOrder) (ticket : String),
      order.Executes connector.results ticket ↔
        order.status = .executed ∧ order.slaveTicket = some ticket := by
    intro order ticket
    simp [CopyOrder.Executes, hquiet]
  constructor
  · rintro ⟨position, ⟨masterTicket, ⟨order, horder, hslave, htype, rfl, hid, hvolume, hticket⟩, hopen⟩,
      rfl⟩
    obtain ⟨hstatus, hslaveTicket⟩ := (hexecutes _ _).mp hticket
    refine ⟨order, mem_stillOpen.mpr ⟨mem_executedOrders.mpr ⟨horder, hslave, htype, hstatus⟩, ?_⟩, ?_⟩
    · intro close hclose hsame
      obtain ⟨hmem, hcslave, hctype, hcstatus⟩ := mem_executedOrders.mp hclose
      obtain ⟨ticket, hcticket⟩ := h.ticketed close hmem hcslave hcstatus
      exact hopen ticket
        ⟨close, hmem, hcslave, hctype, hsame, (hexecutes _ _).mpr ⟨hcstatus, hcticket⟩⟩
    · rw [hslaveTicket, hvolume]
  · rintro ⟨order, horder, rfl⟩
    obtain ⟨hopen, hnone⟩ := mem_stillOpen.mp horder
    obtain ⟨hmem, hslave, htype, hstatus⟩ := mem_executedOrders.mp hopen
    obtain ⟨ticket, hticket⟩ := h.ticketed order hmem hslave hstatus
    obtain ⟨volume, hvolume⟩ := h.sized order hmem hslave htype (by simp [hstatus])
    refine ⟨⟨order.id, ticket, volume.toNumber⟩, ⟨order.masterTicket, ?_, ?_⟩, ?_⟩
    · exact ⟨order, hmem, hslave, htype, rfl, rfl, by simp [hvolume],
        (hexecutes _ _).mpr ⟨hstatus, hticket⟩⟩
    · rintro t ⟨close, hclose, hcslave, hctype, hsame, hct⟩
      exact hnone close
        (mem_executedOrders.mpr ⟨hclose, hcslave, hctype, ((hexecutes _ _).mp hct).1⟩) hsame
    · rw [hticket, hvolume]
      rfl

theorem showsTerminal {link : SlaveLink}
    (h : Mirrors slaveId link.backend.shared link.connector) (hquiet : link.connector.results = []) :
    link.ShowsTerminal slaveId := by
  intro pair
  simp only [SlaveLink.viewPairs, SlaveLink.positionPairs, getCopyOrderPositions, copyOrderPositions,
    List.map_map, List.mem_map, h.mem_positions]
  exact (h.mem_byKey_of_quiet hquiet).symm

/-! ### Calls -/

theorem exists_sent (h : Mirrors slaveId w connector) {copyId : Uuid}
    (hmem : copyId ∈ connector.instructions.map CopyInstruction.copyId ++
      connector.results.map ExecutionResult.copyId) :
    ∃ order ∈ w.copyOrders, order.id = copyId ∧ order.status = .sent := by
  rcases List.mem_append.mp hmem with hmem | hmem
  · obtain ⟨instruction, hinstruction, rfl⟩ := List.mem_map.mp hmem
    obtain ⟨order, horder, hfor⟩ := h.instructions instruction hinstruction
    exact ⟨order, horder, hfor.id, hfor.status⟩
  · obtain ⟨result, hresult, rfl⟩ := List.mem_map.mp hmem
    obtain ⟨order, horder, hid, -, hsent, -⟩ := h.results result hresult
    exact ⟨order, horder, hid, hsent⟩

theorem not_executes (h : Mirrors slaveId w connector) {order : CopyOrder}
    (hstatus : order.status ≠ .executed)
    (hflight : ∀ row ∈ w.copyOrders, row.id = order.id → row.status ≠ .sent) (ticket : String) :
    ¬order.Executes connector.results ticket := by
  rintro (⟨hexecuted, -⟩ | ⟨result, hresult, hid, -⟩)
  · exact hstatus hexecuted
  · obtain ⟨row, hrow, hrowId, -, hsent, -⟩ := h.results result hresult
    exact hflight row hrow (hrowId.trans hid) hsent

end Mirrors

/-- Whatever the first rows and results tell as executed, the second ones tell of the same copies. -/
def Carries (slaveId : Uuid) (orders : List CopyOrder) (results : List ExecutionResult)
    (orders' : List CopyOrder) (results' : List ExecutionResult) : Prop :=
  ∀ order ∈ orders, order.slaveId = slaveId → ∀ ticket, order.Executes results ticket →
    ∃ order' ∈ orders', order'.core = order.core ∧ order'.Executes results' ticket

theorem Carries.subset {slaveId : Uuid} {orders orders' : List CopyOrder}
    {results results' : List ExecutionResult} (h : Carries slaveId orders results orders' results') :
    (holdings slaveId orders results).opened ⊆ (holdings slaveId orders' results').opened ∧
      (holdings slaveId orders results).closed ⊆ (holdings slaveId orders' results').closed := by
  constructor
  · rintro ⟨masterTicket, position⟩ ⟨order, horder, hslave, htype, hmaster, hid, hvolume, hticket⟩
    obtain ⟨order', horder', hcore, hticket'⟩ := h order horder hslave _ hticket
    refine ⟨order', horder', ?_, ?_, ?_, ?_, ?_, hticket'⟩
    · exact (CopyOrder.slaveId_of_core hcore).trans hslave
    · exact (CopyOrder.type_of_core hcore).trans htype
    · exact (CopyOrder.masterTicket_of_core hcore).trans hmaster
    · exact (CopyOrder.id_of_core hcore).trans hid
    · rw [CopyOrder.requestedVolume_of_core hcore, hvolume]
  · rintro ⟨masterTicket, ticket⟩ ⟨order, horder, hslave, htype, hmaster, hticket⟩
    obtain ⟨order', horder', hcore, hticket'⟩ := h order horder hslave _ hticket
    refine ⟨order', horder', ?_, ?_, ?_, hticket'⟩
    · exact (CopyOrder.slaveId_of_core hcore).trans hslave
    · exact (CopyOrder.type_of_core hcore).trans htype
    · exact (CopyOrder.masterTicket_of_core hcore).trans hmaster

theorem Carries.holdings_eq {slaveId : Uuid} {orders orders' : List CopyOrder}
    {results results' : List ExecutionResult} (h : Carries slaveId orders results orders' results')
    (h' : Carries slaveId orders' results' orders results) :
    holdings slaveId orders' results' = holdings slaveId orders results :=
  Holdings.ext (h'.subset.1.antisymm h.subset.1) (h'.subset.2.antisymm h.subset.2)

theorem CopyInstruction.IsFor.mono {slaveId : Uuid} {orders orders' : List CopyOrder}
    {order : CopyOrder} {instruction : CopyInstruction} (h : instruction.IsFor slaveId orders order)
    (hkept : ∀ row ∈ orders, row.status = .executed → row ∈ orders') :
    instruction.IsFor slaveId orders' order where
  id := h.id
  slave := h.slave
  status := h.status
  action := h.action
  volume := h.volume
  ticket htype := by
    obtain ⟨ticket, hticket, opened, hopened, hslave, hmaster, hopen, hstatus, hsame⟩ := h.ticket htype
    exact ⟨ticket, hticket, opened, hkept opened hopened hstatus, hslave, hmaster, hopen, hstatus,
      hsame⟩

namespace Mirrors

variable {slaveId : Uuid} {w w' : World} {connector : SlaveConnector} {added : List CopyInstruction}

theorem of_eq (h : Mirrors slaveId w connector) (horders : w'.copyOrders = w.copyOrders) :
    Mirrors slaveId w' connector := by
  have hcores : w'.cores = w.cores := congrArg (List.map CopyOrder.core) horders
  exact ⟨horders ▸ h.ids, hcores ▸ h.oneOpen, horders ▸ h.sized, horders ▸ h.ticketed,
    horders ▸ h.coherent, horders ▸ h.opened, horders ▸ h.closed, h.inFlight,
    horders ▸ h.instructions, horders ▸ h.results⟩

/-- A call that executes nothing, keeps the rows that are SENT or executed, and hands over
instructions for rows that are SENT now. -/
theorem call (h : Mirrors slaveId w connector)
    (hids : (w'.copyOrders.map CopyOrder.id).Nodup)
    (honeOpen : OneOpen slaveId w'.cores)
    (hsized : ∀ order ∈ w'.copyOrders, order.slaveId = slaveId → order.type = .open →
      order.status ≠ .failed → ∃ volume, order.requestedVolume = some volume)
    (hback : ∀ order ∈ w'.copyOrders, order ∈ w.copyOrders ∨
      order.status ≠ .executed ∧ ∀ row ∈ w.copyOrders, row.id = order.id → row.status ≠ .sent)
    (hkept : ∀ order ∈ w.copyOrders, order ∈ w'.copyOrders ∨
      order.status ≠ .sent ∧ order.status ≠ .executed)
    (hadded : added = [] ∨ ∃ instruction order, added = [instruction] ∧ order ∈ w'.copyOrders ∧
      instruction.IsFor slaveId w.copyOrders order ∧
      ∀ row ∈ w.copyOrders, row.id = order.id → row.status ≠ .sent) :
    Mirrors slaveId w' { connector with instructions := connector.instructions ++ added } := by
  have hexecuted : ∀ row ∈ w.copyOrders, row.status = .executed → row ∈ w'.copyOrders :=
    fun row hrow hstatus => (hkept row hrow).resolve_right fun hnot => hnot.2 hstatus
  have hsent : ∀ row ∈ w.copyOrders, row.status = .sent → row ∈ w'.copyOrders :=
    fun row hrow hstatus => (hkept row hrow).resolve_right fun hnot => hnot.1 hstatus
  have hforth : Carries slaveId w.copyOrders connector.results w'.copyOrders connector.results := by
    intro order horder hslave ticket hticket
    refine ⟨order, (hkept order horder).resolve_right fun hnot => ?_, rfl, hticket⟩
    refine h.not_executes hnot.2 (fun row hrow hid => ?_) ticket hticket
    rw [Table.eq_of_key_eq h.ids hrow horder hid]
    exact hnot.1
  have hcarries : Carries slaveId w'.copyOrders connector.results w.copyOrders connector.results := by
    intro order horder hslave ticket hticket
    refine ⟨order, (hback order horder).resolve_right fun hnot => ?_, rfl, hticket⟩
    exact h.not_executes hnot.1 hnot.2 ticket hticket
  have hsame := hforth.holdings_eq hcarries
  refine ⟨hids, honeOpen, hsized, ?_, ?_, ?_, ?_, ?_, ?_, ?_⟩
  · intro order horder hslave hstatus
    have hold := (hback order horder).resolve_right fun hnot => hnot.1 hstatus
    exact h.ticketed order hold hslave hstatus
  · rw [hsame]
    exact h.coherent
  · rw [hsame]
    exact h.opened
  · rw [hsame]
    exact h.closed
  · rcases hadded with rfl | ⟨instruction, order, rfl, -, hfor, hnot⟩
    · simpa using h.inFlight
    · have hfresh : instruction.copyId ∉ connector.instructions.map CopyInstruction.copyId ++
          connector.results.map ExecutionResult.copyId := by
        intro hmem
        obtain ⟨row, hrow, hid, hstatus⟩ := h.exists_sent hmem
        exact hnot row hrow (hid.trans hfor.id.symm) hstatus
      rw [List.map_append, List.append_assoc, List.map_singleton, List.singleton_append,
        List.nodup_middle]
      exact List.nodup_cons.mpr ⟨hfresh, h.inFlight⟩
  · intro instruction hinstruction
    rcases List.mem_append.mp hinstruction with hold | hnew
    · obtain ⟨order, horder, hfor⟩ := h.instructions instruction hold
      exact ⟨order, hsent order horder hfor.status, hfor.mono hexecuted⟩
    · rcases hadded with rfl | ⟨new, order, rfl, horder, hfor, -⟩
      · cases hnew
      · obtain rfl := List.mem_singleton.mp hnew
        exact ⟨order, horder, hfor.mono hexecuted⟩
  · intro result hresult
    obtain ⟨order, horder, hid, hslave, hstatus, hticket⟩ := h.results result hresult
    exact ⟨order, hsent order horder hstatus, hid, hslave, hstatus, hticket⟩

/-- A dispatch inserts a row, and hands over at most an instruction for it. -/
theorem insert (h : Mirrors slaveId w connector) {row : CopyOrder}
    (horders : w'.copyOrders = w.copyOrders ++ [row]) (hid : row.id = w.nextCopyId)
    (hstatus : row.status ≠ .executed)
    (hopens : row.slaveId = slaveId → row.type = .open → ∀ order ∈ w.copyOrders,
      order.slaveId = slaveId → order.type = .open → order.masterTicket ≠ row.masterTicket)
    (hsized : row.slaveId = slaveId → row.type = .open → row.status ≠ .failed →
      ∃ volume, row.requestedVolume = some volume)
    (hadded : added = [] ∨ ∃ instruction, added = [instruction] ∧
      instruction.IsFor slaveId w.copyOrders row) :
    Mirrors slaveId w' { connector with instructions := connector.instructions ++ added } := by
  have hnew : ∀ order ∈ w.copyOrders, order.id = row.id → order.status ≠ .sent :=
    fun order horder hsame => absurd (hsame.trans hid) (World.ne_nextCopyId_of_mem horder)
  refine h.call ?_ ?_ ?_ ?_ ?_ ?_
  · rw [horders]
    exact Table.nodup_append_of_notMem h.ids (hid ▸ w.nextCopyId_notMem)
  · intro a ha b hb haslave hbslave hatype hbtype hsame
    have hcores : w'.cores = w.cores ++ [row.core] := by simp [World.cores, horders]
    rw [hcores, List.mem_append, List.mem_singleton] at ha hb
    rcases ha with ha | rfl <;> rcases hb with hb | rfl
    · exact h.oneOpen a ha b hb haslave hbslave hatype hbtype hsame
    · obtain ⟨order, horder, rfl⟩ := World.exists_of_mem_cores ha
      exact absurd hsame (hopens hbslave hbtype order horder haslave hatype)
    · obtain ⟨order, horder, rfl⟩ := World.exists_of_mem_cores hb
      exact absurd hsame.symm (hopens haslave hatype order horder hbslave hbtype)
    · rfl
  · intro order horder hslave htype hnotFailed
    rw [horders, List.mem_append, List.mem_singleton] at horder
    rcases horder with horder | rfl
    · exact h.sized order horder hslave htype hnotFailed
    · exact hsized hslave htype hnotFailed
  · intro order horder
    rw [horders, List.mem_append, List.mem_singleton] at horder
    rcases horder with horder | rfl
    · exact .inl horder
    · exact .inr ⟨hstatus, hnew⟩
  · intro order horder
    exact .inl (by simp [horders, horder])
  · refine hadded.imp_right ?_
    rintro ⟨instruction, rfl, hfor⟩
    exact ⟨instruction, row, rfl, by simp [horders], hfor, hnew⟩

/-- A poll takes a row off the queue, and hands over at most an instruction for it. -/
theorem update (h : Mirrors slaveId w connector) {row : CopyOrder} {change : CopyOrder → CopyOrder}
    (horders : w'.copyOrders = Table.update CopyOrder.id row.id change w.copyOrders)
    (hcore : KeepsCore change) (hrow : row ∈ w.copyOrders) (hpending : row.status = .pending)
    (hstatus : (change row).status ≠ .executed)
    (hadded : added = [] ∨ ∃ instruction, added = [instruction] ∧
      instruction.IsFor slaveId w.copyOrders (change row)) :
    Mirrors slaveId w' { connector with instructions := connector.instructions ++ added } := by
  have hmem : ∀ order ∈ w'.copyOrders, order ∈ w.copyOrders ∨ order = change row := by
    intro order horder
    rw [horders, Table.mem_update_row h.ids hrow rfl] at horder
    exact horder.symm.imp_left And.left
  have hnotSent : ∀ order ∈ w.copyOrders, order.id = (change row).id → order.status ≠ .sent := by
    intro order horder hid
    rw [Table.eq_of_key_eq h.ids horder hrow (hid.trans (hcore.id row)), hpending]
    decide
  refine h.call ?_ ?_ ?_ ?_ ?_ ?_
  · rw [horders, Table.map_update _ hcore.id]
    exact h.ids
  · rw [World.cores, horders, Table.map_update _ hcore]
    exact h.oneOpen
  · intro order horder hslave htype hnotFailed
    rcases hmem order horder with hold | rfl
    · exact h.sized order hold hslave htype hnotFailed
    · rw [hcore.slaveId] at hslave
      rw [CopyOrder.type_of_core (hcore row)] at htype
      rw [CopyOrder.requestedVolume_of_core (hcore row)]
      exact h.sized row hrow hslave htype (by simp [hpending])
  · intro order horder
    refine (hmem order horder).imp_right ?_
    rintro rfl
    exact ⟨hstatus, hnotSent⟩
  · intro order horder
    by_cases hid : order.id = row.id
    · obtain rfl := Table.eq_of_key_eq h.ids horder hrow hid
      exact .inr (by simp [hpending])
    · exact .inl (by rw [horders]; exact Table.mem_update_of_ne horder hid)
  · refine hadded.imp_right ?_
    rintro ⟨instruction, rfl, hfor⟩
    refine ⟨instruction, change row, rfl, ?_, hfor, hnotSent⟩
    rw [horders]
    exact Table.mem_update_of_eq hrow rfl

end Mirrors

end ForexCopy
