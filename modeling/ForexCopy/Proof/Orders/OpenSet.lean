import ForexCopy.Proof.Grounded

/-!
# What a CLOSE retires

A CLOSE is sent with the ticket of the latest executed OPEN of its master ticket, but the open set is
kept by master ticket: an executed CLOSE retires every OPEN copy of its master ticket. The two agree
as long as the OPEN copies of a master ticket that are still open carry one slave ticket.
-/

namespace ForexCopy

open Machine Pool

abbrev World.openCopies (w : World) (slaveId : Uuid) : List OpenCopyOrderInfo :=
  (getCopyOrderPositions slaveId w.copyOrders).open

section

variable {slaveId : Uuid} {orders : List CopyOrder}

theorem getCopyOrderPositions_open :
    (getCopyOrderPositions slaveId orders).open =
      (stillOpen (executedOrders slaveId .open orders)
        (executedOrders slaveId .close orders)).map CopyOrder.openInfo := rfl

theorem stillOpen_of_closes {opens closes closes' : List CopyOrder} {masterTicket : String}
    (h : ∀ ticket, ticket ∈ closes'.map CopyOrder.masterTicket ↔
      ticket ∈ closes.map CopyOrder.masterTicket ∨ ticket = masterTicket) :
    stillOpen opens closes' =
      (stillOpen opens closes).filter fun order => order.masterTicket ≠ masterTicket := by
  unfold stillOpen
  rw [List.filter_filter]
  refine List.filter_congr fun order _ => ?_
  have hticket := h order.masterTicket
  by_cases hold : order.masterTicket ∈ closes.map CopyOrder.masterTicket
  · simp [hold, hticket.mpr (.inl hold)]
  · by_cases heq : order.masterTicket = masterTicket
    · simp [heq, heq ▸ hticket.mpr (.inr heq)]
    · simp [hold, heq, mt hticket.mp (by tauto)]

theorem open_updateOrder_close {copyId : Uuid} {change : CopyOrder → CopyOrder} {row : CopyOrder}
    (hids : (orders.map CopyOrder.id).Nodup) (hrow : row ∈ orders) (hid : row.id = copyId)
    (hslave : row.slaveId = slaveId) (hclose : row.type = .close)
    (hcore : KeepsCore change) (hexecuted : (change row).status = .executed) :
    (getCopyOrderPositions slaveId (Table.update CopyOrder.id copyId change orders)).open =
      (getCopyOrderPositions slaveId orders).open.filter fun info =>
        info.masterTicket ≠ row.masterTicket := by
  have hrowOf : ∀ order ∈ orders, order.id = copyId → order = row := fun order horder h =>
    Table.eq_of_key_eq hids horder hrow (h.trans hid.symm)
  have hcoreRow : (change row).slaveId = slaveId ∧ (change row).type = .close ∧
      (change row).masterTicket = row.masterTicket :=
    ⟨(hcore.slaveId row).trans hslave, (CopyOrder.type_of_core (hcore row)).trans hclose,
      CopyOrder.masterTicket_of_core (hcore row)⟩
  have hopens : executedOrders slaveId .open (Table.update CopyOrder.id copyId change orders) =
      executedOrders slaveId .open orders := by
    refine Table.filter_update_of_notMem fun order horder h => ?_
    obtain rfl := hrowOf order horder h
    simp [hclose, hcoreRow.2.1]
  have hcloses : ∀ ticket,
      ticket ∈ (executedOrders slaveId .close
        (Table.update CopyOrder.id copyId change orders)).map CopyOrder.masterTicket ↔
      ticket ∈ (executedOrders slaveId .close orders).map CopyOrder.masterTicket ∨
        ticket = row.masterTicket := by
    intro ticket
    simp only [List.mem_map, mem_executedOrders]
    constructor
    · rintro ⟨order, ⟨hmem, hrest⟩, rfl⟩
      obtain ⟨old, hold, ⟨hkey, rfl⟩ | ⟨-, rfl⟩⟩ := Table.mem_update.mp hmem
      · obtain rfl := hrowOf old hold hkey
        exact .inr hcoreRow.2.2
      · exact .inl ⟨order, ⟨hold, hrest⟩, rfl⟩
    · rintro (⟨order, ⟨hmem, hrest⟩, rfl⟩ | rfl)
      · by_cases hkey : order.id = copyId
        · obtain rfl := hrowOf order hmem hkey
          exact ⟨change order, ⟨Table.mem_update_of_eq hmem hkey, hcoreRow.1, hcoreRow.2.1,
            hexecuted⟩, hcoreRow.2.2⟩
        · exact ⟨order, ⟨Table.mem_update_of_ne hmem hkey, hrest⟩, rfl⟩
      · exact ⟨change row, ⟨Table.mem_update_of_eq hrow hid, hcoreRow.1, hcoreRow.2.1, hexecuted⟩,
          hcoreRow.2.2⟩
  rw [getCopyOrderPositions_open, getCopyOrderPositions_open, hopens, stillOpen_of_closes hcloses,
    List.filter_map]
  rfl

end

/-! ### The recorded CLOSE -/

/-- Recording an executed CLOSE that was sent with ticket `k` only retires OPEN copies with ticket
`k`. -/
def CloseRetiresOnlyItsTicket : Prop :=
  ∀ (start c c' : Config) (actions : List Action) (i : ℕ) (slaveId : Uuid)
    (reply : Reply) (result : ExecutionResult) (order : CopyOrder) (k : String),
    start.Idle → follow Backend.step start actions = some c →
    c.tasks[i]? = some (.message slaveId result (.record order)) → order.type = .close →
    result.status = .executed → reply ≠ .rejected → Backend.step c (.resume i reply) = some c' →
    (∃ delivery ∈ c.shared.sent, delivery.instruction.copyId = order.id ∧
      delivery.instruction.slaveTicket = some k) →
    ∀ info ∈ c.shared.openCopies slaveId, info ∉ c'.shared.openCopies slaveId →
      info.slaveTicket = some k

namespace Sample

/-- A second OPEN of the same position, as a scaled-in position has. -/
def scaledInEvent : NormalizedTradeEvent where
  eventId := "OPEN-7-1001-2"
  masterTicket := "1001"
  type := .open
  symbol := "EURUSD"
  side := some .buy
  volume := some 1
  masterId := 1
  valid := by decide +kernel

def scaledInStart : Config := config mt5Slave [openEvent, scaledInEvent, closeEvent]

def scaledInClose : List Action :=
  [.arrive (.masterEvent openEvent)] ++ settle 8 ++ reported 1 "71" ++
    [.arrive (.masterEvent scaledInEvent)] ++ settle 8 ++ reported 2 "72" ++
    [.arrive (.masterEvent closeEvent)] ++ settle 7 ++
    (reported 3 "72").dropLast

end Sample

/-- The CLOSE of a scaled-in position is sent with the ticket of the second OPEN and retires both. -/
theorem scaled_in_close_retires_both : ¬CloseRetiresOnlyItsTicket := by
  intro h
  have hrun : ∃ c, follow Backend.step Sample.scaledInStart Sample.scaledInClose = some c ∧
      ∃ order, Table.lookup CopyOrder.id 3 c.shared.copyOrders = some order ∧
      ∃ c', Backend.step c (.resume 0 .ok) = some c' ∧
        c.tasks[0]? = some (.message 5 (Sample.executed 3 "72") (.record order)) ∧
        order.type = .close ∧
        (∃ delivery ∈ c.shared.sent, delivery.instruction.copyId = order.id ∧
          delivery.instruction.slaveTicket = some "72") ∧
        ∃ info ∈ c.shared.openCopies 5, info ∉ c'.shared.openCopies 5 ∧
          info.slaveTicket = some "71" := by
    decide +kernel
  obtain ⟨c, hfollow, order, -, c', hstep, htask, hclose, hsent, info, hinfo, hgone, hticket⟩ := hrun
  have hidle : Sample.scaledInStart.Idle := ⟨⟨by decide, by decide, by decide, by decide⟩, rfl, rfl⟩
  have h72 : info.slaveTicket = some "72" :=
    h _ c c' _ 0 5 .ok _ order "72" hidle hfollow htask hclose rfl (by decide) hstep hsent info hinfo
      hgone
  rw [hticket] at h72
  exact absurd h72 (by decide)

/-- Recording an executed CLOSE retires exactly the OPEN copies of its master ticket, whatever their
own tickets are; so only copies with ticket `k` leave exactly when every open copy of the master
ticket carries `k`. -/
theorem executed_close_retires_master_ticket (start c c' : Config) (actions : List Action) (i : ℕ)
    (slaveId : Uuid) (reply : Reply) (result : ExecutionResult) (order : CopyOrder)
    (hstart : start.Idle) (hrun : follow Backend.step start actions = some c)
    (htask : c.tasks[i]? = some (.message slaveId result (.record order)))
    (hclose : order.type = .close) (hexecuted : result.status = .executed)
    (hreply : reply ≠ .rejected) (hstep : Backend.step c (.resume i reply) = some c') :
    c'.shared.openCopies slaveId = (c.shared.openCopies slaveId).filter (fun info =>
        info.masterTicket ≠ order.masterTicket) ∧
      ∀ k, (∀ info ∈ c.shared.openCopies slaveId, info ∉ c'.shared.openCopies slaveId →
          info.slaveTicket = some k) ↔
        ∀ info ∈ c.shared.openCopies slaveId, info.masterTicket = order.masterTicket →
          info.slaveTicket = some k := by
  obtain ⟨hsound, hgrounded⟩ := grounded_preserved.follow hstart.grounded hrun
  obtain ⟨hcore, hslave, hid⟩ := hgrounded _ (List.mem_of_getElem? htask)
  obtain ⟨row, hrow, hsame⟩ := World.exists_of_mem_cores hcore
  have hsteps : c'.shared =
      c.shared.updateOrder result.copyId (CopyOrder.record result order c.shared.now) := by
    obtain ⟨task, hget, rfl⟩ := Option.map_eq_some_iff.mp hstep
    obtain rfl := Option.some.inj (hget.symm.trans htask)
    cases reply with
    | ok | swapped | lost => rfl
    | rejected => exact absurd rfl hreply
  have hopen : c'.shared.openCopies slaveId = (c.shared.openCopies slaveId).filter (fun info =>
      info.masterTicket ≠ order.masterTicket) := by
    have hrowId : row.id = result.copyId := (CopyOrder.id_of_core hsame).trans hid
    have hrowSlave : row.slaveId = slaveId := (CopyOrder.slaveId_of_core hsame).trans hslave
    have hrowType : row.type = .close := (CopyOrder.type_of_core hsame).trans hclose
    rw [hsteps, ← CopyOrder.masterTicket_of_core hsame]
    exact open_updateOrder_close hsound.ids hrow hrowId hrowSlave hrowType (keepsCore_record _ _ _)
      (by simp [CopyOrder.record, hexecuted, ExecutionStatus.toCopyOrderStatus])
  refine ⟨hopen, fun k => ?_⟩
  rw [hopen]
  constructor
  · intro h info hinfo hticket
    exact h info hinfo (by simp [hticket])
  · intro h info hinfo hgone
    refine h info hinfo ?_
    by_contra hne
    exact hgone (List.mem_filter.mpr ⟨hinfo, by simpa using hne⟩)

/-- What the CLOSE of the scaled-in position leaves open is what has another master ticket. -/
theorem scaled_in_close_retires_ticket_1001 : ∃ c c',
    follow Backend.step Sample.scaledInStart Sample.scaledInClose = some c ∧
      Backend.step c (.resume 0 .ok) = some c' ∧
      c'.shared.openCopies 5 =
        (c.shared.openCopies 5).filter (fun info => info.masterTicket ≠ "1001") := by
  have hrun : ∃ c, follow Backend.step Sample.scaledInStart Sample.scaledInClose = some c ∧
      ∃ order, Table.lookup CopyOrder.id 3 c.shared.copyOrders = some order ∧
      ∃ c', Backend.step c (.resume 0 .ok) = some c' ∧
        c.tasks[0]? = some (.message 5 (Sample.executed 3 "72") (.record order)) ∧
        order.type = .close ∧ order.masterTicket = "1001" := by
    decide +kernel
  obtain ⟨c, hfollow, order, -, c', hstep, htask, hclose, hticket⟩ := hrun
  have hidle : Sample.scaledInStart.Idle := ⟨⟨by decide, by decide, by decide, by decide⟩, rfl, rfl⟩
  have hretired := executed_close_retires_master_ticket _ c c' _ 0 5 .ok _ order hidle hfollow htask
    hclose rfl (by decide) hstep
  exact ⟨c, c', hfollow, hstep, hticket ▸ hretired.1⟩

end ForexCopy
