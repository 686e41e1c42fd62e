import ForexCopy.Proof.Polling.Once

/-!
# The lifecycle of a copy order

The four writers of the status column write by id, whatever the row says by then. The lifecycle is
kept as long as they come in turn: a call takes a row in hand while it is PENDING and with no other
call, and a report is recorded on a row that is SENT. Then a row that a call has in hand is still
PENDING when the call writes it.
-/

namespace ForexCopy

open Machine Pool

inductive CopyOrderStatus.Moves : CopyOrderStatus → CopyOrderStatus → Prop
  | stay (status : CopyOrderStatus) : Moves status status
  | send : Moves .pending .sent
  | refuse : Moves .pending .failed
  | execute : Moves .sent .executed
  | fail : Moves .sent .failed

def World.MovesTo (w w' : World) : Prop :=
  ∀ row ∈ w.copyOrders, ∀ row' ∈ w'.copyOrders, row'.id = row.id → row.status.Moves row'.status

/-! ### Calls in turn -/

/-- The row a call has in hand: it was found PENDING, and the call is going to write it. -/
def Task.inHand : Task → Option Uuid
  | .copy _ (.markOffline copyId) | .copy _ (.markSent copyId _) => some copyId
  | task => task.polled

theorem Task.Background.inHand {task : Task} (h : task.Background) : task.inHand = none :=
  Task.of_background (fun _ _ => rfl) (fun _ => rfl) (fun _ _ _ _ => rfl) h

def Config.Free (c : Config) (copyId : Uuid) : Prop := ∀ task ∈ c.tasks, task.inHand ≠ some copyId

instance (c : Config) (copyId : Uuid) : Decidable (c.Free copyId) :=
  inferInstanceAs (Decidable (∀ task ∈ c.tasks, task.inHand ≠ some copyId))

def World.Waiting (w : World) (copyId : Uuid) : Prop :=
  ∀ row ∈ w.copyOrders, row.id = copyId → row.status = .pending

instance (w : World) (copyId : Uuid) : Decidable (w.Waiting copyId) :=
  inferInstanceAs (Decidable (∀ row ∈ w.copyOrders, row.id = copyId → row.status = .pending))

/-- The report finds its row SENT, or with the status it reports, or it reports a failure of a row
that still waits and that no call has in hand. -/
def Config.ReportInTurn (c : Config) (result : ExecutionResult) : Prop :=
  ∀ row ∈ c.shared.copyOrders, row.id = result.copyId →
    row.status = .sent ∨ row.status = result.status.toCopyOrderStatus ∨
      row.status = .pending ∧ result.status = .failed ∧ c.Free result.copyId

instance (c : Config) (result : ExecutionResult) : Decidable (c.ReportInTurn result) :=
  inferInstanceAs (Decidable (∀ row ∈ c.shared.copyOrders, row.id = result.copyId → _))

/-- The slave whose connector the call looks for, and the copy order it fails without one. -/
def Task.checksConnector : Task → Option (Uuid × Uuid)
  | .copy run (.findConnector copyId) => some (run.slave.id, copyId)
  | _ => none

/-- The call takes a row in hand only while it waits and no other call has it, and records a report
only in turn. -/
structure Task.WritesInTurn (c : Config) (task : Task) : Prop where
  poll : ∀ slaveId ∈ task.choosing, ∀ order ∈ oldestPending slaveId c.shared.copyOrders,
    c.Free order.id
  connector : ∀ checked ∈ task.checksConnector, c.shared.hasOnlineConnector checked.1 = false →
    c.Free checked.2 ∧ c.shared.Waiting checked.2
  report : ∀ report ∈ task.recording, c.ReportInTurn report.2

instance (c : Config) (task : Task) : Decidable (task.WritesInTurn c) :=
  decidable_of_iff (_ ∧ _ ∧ _) ⟨fun h => ⟨h.1, h.2.1, h.2.2⟩, fun h => ⟨h.poll, h.connector, h.report⟩⟩

/-- The writers of the status column come in turn. -/
def WritersInTurn (c : Config) (a : Action) : Prop := ∀ task ∈ a.resumed c, task.WritesInTurn c

instance (c : Config) (a : Action) : Decidable (WritersInTurn c a) :=
  inferInstanceAs (Decidable (∀ task ∈ a.resumed c, task.WritesInTurn c))

/-! ### Worlds that move -/

namespace World

variable {w w' : World} {copyId : Uuid}

theorem MovesTo.of_eq (hw : w.Sound) (h : w'.copyOrders = w.copyOrders) : w.MovesTo w' := by
  intro row hrow row' hrow' hid
  obtain rfl := Table.eq_of_key_eq hw.ids (h ▸ hrow') hrow hid
  exact .stay _

theorem MovesTo.insertOrder (hw : w.Sound) {order : CopyOrder} (hid : order.id = w.nextCopyId) :
    w.MovesTo (w.insertOrder order) := by
  intro row hrow row' hrow' hsame
  rcases List.mem_append.mp hrow' with hold | hnew
  · obtain rfl := Table.eq_of_key_eq hw.ids hold hrow hsame
    exact .stay _
  · obtain rfl := List.mem_singleton.mp hnew
    exact absurd (hsame.symm.trans hid) (ne_nextCopyId_of_mem hrow)

/-- A write moves the world along the lifecycle when it moves its own row. -/
theorem MovesTo.updateOrder (hw : w.Sound) {change : CopyOrder → CopyOrder}
    (hcore : KeepsCore change)
    (h : ∀ row ∈ w.copyOrders, row.id = copyId → row.status.Moves (change row).status) :
    w.MovesTo (w.updateOrder copyId change) := by
  intro row hrow row' hrow' hsame
  obtain ⟨old, hold, ⟨hkey, rfl⟩ | ⟨-, rfl⟩⟩ := Table.mem_update.mp hrow'
  · obtain rfl := Table.eq_of_key_eq hw.ids hold hrow ((hcore.id old).symm.trans hsame)
    exact h _ hold hkey
  · obtain rfl := Table.eq_of_key_eq hw.ids hold hrow hsame
    exact .stay _

theorem Waiting.of_eq (h : w.Waiting copyId) (horders : w'.copyOrders = w.copyOrders) :
    w'.Waiting copyId := by
  unfold Waiting
  rw [horders]
  exact h

theorem Waiting.insertOrder {order : CopyOrder} (h : w.Waiting copyId)
    (horder : order.id = copyId → order.status = .pending) : (w.insertOrder order).Waiting copyId := by
  intro row hrow hid
  rcases List.mem_append.mp hrow with hold | hnew
  · exact h row hold hid
  · obtain rfl := List.mem_singleton.mp hnew
    exact horder hid

theorem Waiting.updateOrder {change : CopyOrder → CopyOrder} {written : Uuid} (h : w.Waiting copyId)
    (hcore : KeepsCore change) (hne : written ≠ copyId) :
    (w.updateOrder written change).Waiting copyId := by
  intro row hrow hid
  obtain ⟨old, hold, ⟨hkey, rfl⟩ | ⟨-, rfl⟩⟩ := Table.mem_update.mp hrow
  · exact absurd (hkey.symm.trans ((hcore.id old).symm.trans hid)) hne
  · exact h row hold hid

/-- A copy order that does not exist yet waits in the sense that nobody has sent it. -/
theorem waiting_nextCopyId (w : World) : w.Waiting w.nextCopyId :=
  fun _ hrow hid => absurd hid (ne_nextCopyId_of_mem hrow)

end World

/-! ### Accounting for the rows in hand -/

/-- At most one call has the row in hand, and only while it waits. -/
def handLedger (copyId : Uuid) : Ledger World Task ℕ where
  hold task := if task.inHand = some copyId then 1 else 0
  balance w held := held ≤ 1 ∧ (0 < held → w.Waiting copyId)

section

variable {w w' : World} {copyId : Uuid} {held held' : ℕ}

theorem handLedger_total_eq_zero {tasks : List Task} (h : ∀ t ∈ tasks, t.inHand ≠ some copyId) :
    total (handLedger copyId).hold tasks = 0 :=
  total_eq_zero fun t ht => if_neg (h t ht)

theorem handLedger_keep (horders : w'.copyOrders = w.copyOrders) (hheld : held' ≤ held)
    (h : (handLedger copyId).balance w held) : (handLedger copyId).balance w' held' :=
  ⟨hheld.trans h.1, fun hpos => (h.2 (by omega)).of_eq horders⟩

theorem handLedger_idle {task : Task} {next : List Task} {rest : ℕ}
    (horders : w'.copyOrders = w.copyOrders) (hidle : ∀ t ∈ next, t.inHand = none)
    (h : (handLedger copyId).balance w ((handLedger copyId).hold task + rest)) :
    (handLedger copyId).balance w' (total (handLedger copyId).hold next + rest) := by
  rw [handLedger_total_eq_zero fun t ht => by simp [hidle t ht]]
  exact handLedger_keep horders (by omega) h

/-- A write is free to settle a row that nobody else has in hand. -/
theorem handLedger_write {change : CopyOrder → CopyOrder} {written : Uuid} (hcore : KeepsCore change)
    (hheld : held' ≤ held) (hwritten : written = copyId → held' = 0)
    (h : (handLedger copyId).balance w held) :
    (handLedger copyId).balance (w.updateOrder written change) held' := by
  refine ⟨hheld.trans h.1, fun hpos => ?_⟩
  exact (h.2 (by omega)).updateOrder hcore fun heq => by
    have := hwritten heq
    omega

theorem handLedger_insert {order : CopyOrder} (hid : order.id = w.nextCopyId)
    (hnew : copyId = w.nextCopyId → held' ≤ 1 ∧ (0 < held' → order.status = .pending))
    (hold : copyId ≠ w.nextCopyId → held' ≤ held) (h : (handLedger copyId).balance w held) :
    (handLedger copyId).balance (w.insertOrder order) held' := by
  by_cases hcopy : copyId = w.nextCopyId
  · obtain ⟨hone, hpending⟩ := hnew hcopy
    refine ⟨hone, fun hpos => ?_⟩
    exact (hcopy ▸ w.waiting_nextCopyId).insertOrder fun _ => hpending hpos
  · have hle := hold hcopy
    refine ⟨hle.trans h.1, fun hpos => ?_⟩
    exact (h.2 (by omega)).insertOrder fun heq => absurd (heq.symm.trans hid) hcopy

end

theorem Task.Grounded.inHand {w : World} {task : Task} {copyId : Uuid} (h : task.Grounded w)
    (hhand : task.inHand = some copyId) : ∃ core ∈ w.cores, core.id = copyId := by
  unfold Task.inHand at hhand
  split at hhand
  · obtain rfl := Option.some.inj hhand
    obtain ⟨volume, hcore⟩ := h
    exact ⟨_, hcore, rfl⟩
  · obtain rfl := Option.some.inj hhand
    obtain ⟨-, volume, hcore⟩ := h
    exact ⟨_, hcore, rfl⟩
  · unfold Task.polled at hhand
    split at hhand
    · obtain rfl := Option.some.inj hhand
      exact ⟨_, h.1, rfl⟩
    · obtain rfl := Option.some.inj hhand
      exact ⟨_, h.1, rfl⟩
    · obtain rfl := Option.some.inj hhand
      exact ⟨_, h.1, rfl⟩
    · obtain rfl := Option.some.inj hhand
      obtain ⟨core, hcore, hid, -⟩ := h
      exact ⟨core, hcore, hid⟩
    · simp at hhand

/-- What the condition grants the step of a call, seen from one copy order. -/
structure Task.InTurn (w : World) (copyId : Uuid) (rest : ℕ) (task : Task) : Prop where
  poll : ∀ slaveId, task = .poll slaveId .findOrder →
    ∀ order ∈ oldestPending slaveId w.copyOrders, order.id = copyId → rest = 0
  connector : ∀ run, task = .copy run (.findConnector copyId) →
    w.hasOnlineConnector run.slave.id = false → rest = 0 ∧ w.Waiting copyId
  report : ∀ slaveId result order, task = .message slaveId result (.record order) →
    result.copyId = copyId → rest = 0

theorem CopyPoint.HasNoRow.inHand {point : CopyPoint} (h : point.HasNoRow) (run : CopyRun) :
    (Task.copy run point).inHand = none := by
  cases point with
  | findConnector | markOffline | markSent => cases h
  | _ => rfl

/-- A run of `copyToSlave` takes its row in hand after the insert, when it finds no connector. -/
theorem CopyRead.inHand {w : World} {run : CopyRun} {point point' : CopyPoint}
    (hread : CopyRead w run point point') :
    (Task.copy run point').inHand = none ∨ ∃ copyId, point = .findConnector copyId ∧
      point' = .markOffline copyId ∧ w.hasOnlineConnector run.slave.id = false :=
  hread.leads.imp_left fun hpoint => hpoint.inHand run

/-- Every step keeps the row in one hand, as long as it comes in turn. -/
theorem Task.Step.handLedger {reply : Reply} {w w' : World} {task : Task} {next : List Task}
    {copyId : Uuid} {rest : ℕ} (hstep : Task.Step reply w task w' next)
    (hw : w.Sound) (hturn : task.InTurn w copyId rest) (hfresh : copyId = w.nextCopyId → rest = 0)
    (h : (ForexCopy.handLedger copyId).balance w ((ForexCopy.handLedger copyId).hold task + rest)) :
    (ForexCopy.handLedger copyId).balance w' (total (ForexCopy.handLedger copyId).hold next + rest) := by
  -- The one who writes a row has it in hand, so no other call has.
  have hwrites : ∀ change written, KeepsCore change → task.inHand = some written →
      (ForexCopy.handLedger copyId).balance (w.updateOrder written change) (0 + rest) := by
    intro change written hcore hhand
    refine handLedger_write hcore (by omega) (fun heq => ?_) h
    have hone := h.1
    simp only [ForexCopy.handLedger, hhand, heq, if_true] at hone
    omega
  cases hstep with
  | background htask hnext hsame =>
      exact handLedger_idle hsame.copyOrders (fun t ht => (hnext t ht).inHand) h
  | ends | persist => exact handLedger_idle rfl (by simp) h
  | eventRead | fanOut | messageRead => exact handLedger_idle rfl (by simp [inHand, polled]) h
  | @copyRead run point point' hread =>
      rcases hread.inHand with hhand | ⟨id, rfl, rfl, hoffline⟩
      · exact handLedger_idle rfl (by simpa using hhand) h
      · by_cases hid : id = copyId
        · subst hid
          obtain ⟨hrest, hwaiting⟩ := hturn.connector run rfl hoffline
          exact ⟨by simp [ForexCopy.handLedger, inHand, hrest], fun _ => hwaiting⟩
        · exact handLedger_keep rfl (by simp [ForexCopy.handLedger, inHand, hid]) h
  | refuse run reason requestedVolume =>
      refine handLedger_insert rfl (fun heq => ?_) (fun _ => by simp) h
      have := hfresh heq
      simp [this]
  | insert run resolvedSymbol slaveTicket volume hkey hnext =>
      refine handLedger_insert rfl (fun heq => ⟨?_, fun _ => rfl⟩) (fun hne => ?_) h
      · have := hfresh heq
        cases hnext <;> simp [this, ForexCopy.handLedger, inHand, polled, heq]
      · cases hnext <;> simp [ForexCopy.handLedger, inHand, polled, Ne.symm hne]
  | push run resolvedSymbol slaveTicket volume =>
      refine handLedger_keep (World.copyOrders_push _ _ _) le_rfl
        (handLedger_insert rfl (fun heq => ⟨?_, fun _ => rfl⟩) (fun hne => ?_) h)
      · have := hfresh heq
        simp [this, ForexCopy.handLedger, inHand, heq]
      · simp [ForexCopy.handLedger, inHand, Ne.symm hne]
  | markOffline run written => exact hwrites _ written (keepsCore_markFailed _) rfl
  | markSent run written =>
      exact hwrites _ written (keepsCore_ite (keepsCore_markSent _) (keepsCore_markFailed _)) rfl
  | record slaveId result order =>
      exact handLedger_write (keepsCore_record _ _ _) (by simp)
        (fun heq => by simpa using hturn.report slaveId result order rfl heq) h
  | @pollRead slaveId point point' hread =>
      by_cases hpoint : point = .findOrder
      · subst hpoint
        cases hread with
        | @order order tradeEvent holdest hevent =>
            have hhand : (Task.poll slaveId (pickUp order tradeEvent)).inHand = some order.id := by
              unfold pickUp
              split_ifs <;> rfl
            by_cases hid : order.id = copyId
            · obtain ⟨hmem, -, hpending⟩ := World.oldestPending_eq_some holdest
              have hrest := hturn.poll slaveId rfl order holdest hid
              refine ⟨by simp [ForexCopy.handLedger, hhand, hid, hrest], fun _ row hrow hrowId => ?_⟩
              obtain rfl := Table.eq_of_key_eq hw.ids hrow hmem (hrowId.trans hid.symm)
              exact hpending
            · exact handLedger_keep rfl (by simp [ForexCopy.handLedger, hhand, hid]) h
      · have hsame : (Task.poll slaveId point').inHand = (Task.poll slaveId point).inHand :=
          hread.polled hpoint
        exact handLedger_keep rfl (by simp [ForexCopy.handLedger, hsame]) h
  | pollFailed slaveId order => exact hwrites _ order.id (keepsCore_markFailed _) rfl
  | respond slaveId instruction =>
      exact handLedger_keep (World.copyOrders_respond _ _ _) le_rfl
        (hwrites _ instruction.copyId (keepsCore_markSent _) rfl)
  | respondLost slaveId instruction =>
      exact hwrites _ instruction.copyId (keepsCore_markSent _) rfl

/-- What a call has in hand still waits. -/
def HandsWait (c : Config) : Prop := ∀ copyId, (handLedger copyId).Holds c

theorem HandsWait.waiting {c : Config} (h : HandsWait c) {task : Task} {copyId : Uuid}
    (htask : task ∈ c.tasks) (hhand : task.inHand = some copyId) : c.shared.Waiting copyId := by
  have hle := le_total (handLedger copyId).hold htask
  refine (h copyId).2 (Nat.lt_of_lt_of_le ?_ hle)
  simp [handLedger, hhand]

theorem Config.Free.total {c : Config} {copyId : Uuid} (h : c.Free copyId) :
    total (handLedger copyId).hold c.tasks = 0 :=
  handLedger_total_eq_zero h

theorem HandsWait.total_eq_zero {c : Config} (h : HandsWait c) {row : CopyOrder}
    (hrow : row ∈ c.shared.copyOrders) (hstatus : row.status ≠ .pending) :
    total (handLedger row.id).hold c.tasks = 0 := by
  by_contra hpos
  exact hstatus ((h row.id).2 (Nat.pos_of_ne_zero hpos) row hrow rfl)

theorem inTurn_of_writersInTurn {c : Config} {i : ℕ} {reply : Reply} {task : Task} {copyId : Uuid}
    {rest : ℕ} (hc : grounded.Holds c) (h : HandsWait c) (hok : WritersInTurn c (.resume i reply))
    (hget : c.tasks[i]? = some task)
    (htotal : total (handLedger copyId).hold c.tasks = (handLedger copyId).hold task + rest) :
    task.InTurn c.shared copyId rest where
  poll := by
    rintro slaveId rfl order holdest rfl
    have hfree := ((hok _ hget).poll slaveId rfl order holdest).total
    omega
  connector := by
    rintro run rfl hoffline
    obtain ⟨hfree, hwaiting⟩ : c.Free copyId ∧ c.shared.Waiting copyId :=
      (hok _ hget).connector _ rfl hoffline
    have hnone := hfree.total
    exact ⟨by omega, hwaiting⟩
  report := by
    rintro slaveId result order rfl rfl
    obtain ⟨hcore, -, hid⟩ := hc.2 _ (List.mem_of_getElem? hget)
    obtain ⟨row, hrow, hsame⟩ := World.exists_of_mem_cores hcore
    have hrowId : row.id = result.copyId := (CopyOrder.id_of_core hsame).trans hid
    suffices hnone : total (handLedger result.copyId).hold c.tasks = 0 by omega
    rcases (hok _ hget).report _ rfl row hrow hrowId with hsent | hreported | ⟨-, -, hfree⟩
    · exact hrowId ▸ h.total_eq_zero hrow (by simp [hsent])
    · refine hrowId ▸ h.total_eq_zero hrow ?_
      cases hresult : result.status <;>
        simp [hreported, hresult, ExecutionStatus.toCopyOrderStatus]
    · exact hfree.total

theorem handsWait_preserved :
    Preserved (restrict Backend.step WritersInTurn) fun c => grounded.Holds c ∧ HandsWait c := by
  refine grounded_preserved.restrict.and fun c a c' hc h hstep copyId => ?_
  obtain ⟨hok, hstep⟩ := restrict_eq_some.mp hstep
  refine Backend.ledger_step (h copyId) hstep ?_ ?_ ?_
  · rintro i reply task w' next rfl hget hmove rest htotal hbalance
    refine hmove.handLedger hc.1 (inTurn_of_writersInTurn hc h hok hget htotal) ?_ hbalance
    rintro rfl
    have hnone : total (handLedger c.shared.nextCopyId).hold c.tasks = 0 :=
      total_eq_zero fun other hother => if_neg fun hhand => by
        obtain ⟨core, hcore, hid⟩ := (hc.2 other hother).inHand hhand
        exact World.ne_nextCopyId hcore hid
    omega
  · intro stimulus _ held hbalance
    exact handLedger_keep (stimulus.apply_frame c.shared).1 le_rfl hbalance
  · intro task htask
    cases htask with
    | background h => simp [handLedger, h.inHand]
    | masterEvent | message | poll => rfl

/-! ### The status column -/

/-- A step moves copy orders along the lifecycle when what it has in hand waits and its report is in
turn. -/
theorem Task.Step.moves {reply : Reply} {w w' : World} {task : Task} {next : List Task}
    (hstep : Task.Step reply w task w' next) (hw : w.Sound)
    (hhand : ∀ copyId, task.inHand = some copyId → w.Waiting copyId)
    (hreport : ∀ slaveId result order, task = .message slaveId result (.record order) →
      ∀ row ∈ w.copyOrders, row.id = result.copyId →
        row.status.Moves result.status.toCopyOrderStatus) : w.MovesTo w' := by
  have hfail : ∀ copyId reason, task.inHand = some copyId →
      w.MovesTo (w.updateOrder copyId (CopyOrder.markFailed reason)) := by
    intro copyId reason h
    refine .updateOrder hw (keepsCore_markFailed _) fun row hrow hid => ?_
    rw [hhand copyId h row hrow hid]
    exact .refuse
  have hsend : ∀ copyId, task.inHand = some copyId →
      w.MovesTo (w.updateOrder copyId (CopyOrder.markSent w.now)) := by
    intro copyId h
    refine .updateOrder hw (keepsCore_markSent _) fun row hrow hid => ?_
    rw [hhand copyId h row hrow hid]
    exact .send
  cases hstep with
  | background _ _ hsame => exact .of_eq hw hsame.copyOrders
  | refuse | insert | push => exact .insertOrder hw rfl
  | markOffline run copyId => exact hfail copyId _ rfl
  | markSent run copyId sent =>
      cases sent
      · exact hfail copyId _ rfl
      · exact hsend copyId rfl
  | record slaveId result order =>
      exact .updateOrder hw (keepsCore_record _ _ _) (hreport slaveId result order rfl)
  | pollFailed slaveId order => exact hfail order.id _ rfl
  | respond slaveId instruction => exact hsend instruction.copyId rfl
  | respondLost slaveId instruction => exact hsend instruction.copyId rfl
  | _ => exact .of_eq hw rfl

theorem moves_of_writersInTurn {c c' : Config} {a : Action} (hc : grounded.Holds c)
    (h : HandsWait c) (hstep : restrict Backend.step WritersInTurn c a = some c') :
    c.shared.MovesTo c'.shared := by
  obtain ⟨hok, hstep⟩ := restrict_eq_some.mp hstep
  refine Backend.world_step (P := c.shared.MovesTo) hstep ?_ ?_
  · rintro i reply task w' next rfl hget hmove
    refine hmove.moves hc.1 (fun copyId => h.waiting (List.mem_of_getElem? hget)) ?_
    rintro slaveId result order rfl row hrow hid
    rcases (hok _ hget).report _ rfl row hrow hid with hsent | hreported | ⟨hpending, hfailed, -⟩
    · rw [hsent]
      cases result.status
      · exact .execute
      · exact .fail
    · rw [hreported]
      exact .stay _
    · rw [hpending, hfailed]
      exact .refuse
  · intro stimulus _
    exact .of_eq hc.1 (stimulus.apply_frame c.shared).1

/-! ### Runs -/

theorem CopyOrder.Finished.stays {row : CopyOrder} (h : row.Finished) {status : CopyOrderStatus}
    (hmoves : row.status.Moves status) : status = row.status := by
  unfold CopyOrder.Finished at h
  generalize row.status = before at h hmoves
  cases hmoves <;> simp_all

theorem finished_preserved (copyId : Uuid) (status : CopyOrderStatus) :
    Preserved (restrict Backend.step WritersInTurn) fun c => (grounded.Holds c ∧ HandsWait c) ∧
      ∃ row ∈ c.shared.copyOrders, row.id = copyId ∧ row.status = status ∧ row.Finished := by
  refine handsWait_preserved.and fun c a c' hc h hstep => ?_
  obtain ⟨row, hrow, hid, hstatus, hfinished⟩ := h
  have hbefore := Backend.step_before (restrict_eq_some.mp hstep).2
  obtain ⟨row', hrow', hcore⟩ := World.exists_of_mem_cores
    (hbefore.mem_cores (World.core_mem_cores hrow))
  have hsame : row'.id = row.id := CopyOrder.id_of_core hcore
  have hstays := hfinished.stays (moves_of_writersInTurn hc.1 hc.2 hstep row hrow row' hrow' hsame)
  refine ⟨row', hrow', hsame.trans hid, hstays.trans hstatus, ?_⟩
  unfold CopyOrder.Finished at hfinished ⊢
  rw [hstays]
  exact hfinished

/-- In every run copy orders only move along the lifecycle, and the finished ones stay as they are. -/
def KeepsLifecycle : Prop :=
  ∀ (start c : Config) (actions : List Action), start.Idle →
    follow Backend.step start actions = some c →
    (∀ a c', Backend.step c a = some c' → c.shared.MovesTo c'.shared) ∧
      ∀ (later : List Action) (c' : Config), follow Backend.step c later = some c' →
        ∀ row ∈ c.shared.copyOrders, row.Finished → ∀ row' ∈ c'.shared.copyOrders,
          row'.id = row.id → row'.status = row.status

namespace Sample

/-- The slave's report is recorded before the sender has marked the row. -/
def reportBeforeSentWrite : List Action :=
  .arrive (.masterEvent openEvent) :: settle 7 ++
    [.arrive (.slaveMessage 5 9 (some (executed 1 "71"))), .resume 2 .ok, .resume 2 .ok]

end Sample

/-- The sender's late write takes an EXECUTED row back to SENT. -/
theorem late_sent_write_reopens_executed : ¬KeepsLifecycle := by
  intro h
  have hruns : ∃ c, follow Backend.step (Sample.config Sample.mt5Slave [Sample.openEvent])
      Sample.reportBeforeSentWrite = some c ∧ ∃ c', Backend.step c (.resume 0 .ok) = some c' ∧
      ∃ row ∈ c.shared.copyOrders, row.status = .executed ∧
        ∃ row' ∈ c'.shared.copyOrders, row'.id = row.id ∧ row'.status = .sent := by
    decide +kernel
  obtain ⟨c, hrun, c', hstep, row, hrow, hstatus, row', hrow', hid, hstatus'⟩ := hruns
  have hidle : (Sample.config Sample.mt5Slave [Sample.openEvent]).Idle :=
    ⟨⟨by decide, by decide, by decide, by decide⟩, rfl, rfl⟩
  have hmoves := (h _ c _ hidle hrun).1 _ c' hstep row hrow row' hrow' hid
  rw [hstatus, hstatus'] at hmoves
  cases hmoves

/-- While the writers come in turn, copy orders only move along the lifecycle, and the finished ones
stay as they are. -/
theorem lifecycle_of_writersInTurn (start c : Config) (actions : List Action) (hstart : start.Idle)
    (hrun : Backend.run WritersInTurn start actions = some c) :
    (∀ a c', WritersInTurn c a → Backend.step c a = some c' → c.shared.MovesTo c'.shared) ∧
      ∀ (later : List Action) (c' : Config), Backend.run WritersInTurn c later = some c' →
        ∀ row ∈ c.shared.copyOrders, row.Finished → ∀ row' ∈ c'.shared.copyOrders,
          row'.id = row.id → row'.status = row.status := by
  have hinit : HandsWait start := by
    intro copyId
    unfold Ledger.Holds
    rw [hstart.tasks]
    simp [handLedger]
  have hc := handsWait_preserved.follow ⟨hstart.grounded, hinit⟩ hrun
  constructor
  · intro a c' hok hstep
    exact moves_of_writersInTurn hc.1 hc.2 (restrict_eq_some.mpr ⟨hok, hstep⟩)
  · intro later c' hlater row hrow hfinished row' hrow' hid
    obtain ⟨⟨hgrounded, -⟩, kept, hkept, hkeptId, hstatus, -⟩ :=
      (finished_preserved row.id row.status).follow ⟨hc, row, hrow, rfl, rfl, hfinished⟩ hlater
    obtain rfl := Table.eq_of_key_eq hgrounded.1.ids hrow' hkept (hid.trans hkeptId.symm)
    exact hstatus

def Sample.reportAfterSentWrite : List Action :=
  .arrive (.masterEvent Sample.openEvent) :: Sample.settle 8 ++ Sample.reported 1 "71"

theorem report_after_sent_write_lifecycle :
    ∃ c, Backend.run WritersInTurn (Sample.config Sample.mt5Slave [Sample.openEvent])
        Sample.reportAfterSentWrite = some c ∧
      ∀ (later : List Action) (c' : Config), Backend.run WritersInTurn c later = some c' →
        ∀ row ∈ c.shared.copyOrders, row.Finished → ∀ row' ∈ c'.shared.copyOrders,
          row'.id = row.id → row'.status = row.status := by
  have hruns : (Backend.run WritersInTurn (Sample.config Sample.mt5Slave [Sample.openEvent])
      Sample.reportAfterSentWrite).isSome := by
    decide +kernel
  obtain ⟨c, hrun⟩ := Option.isSome_iff_exists.mp hruns
  have hidle : (Sample.config Sample.mt5Slave [Sample.openEvent]).Idle :=
    ⟨⟨by decide, by decide, by decide, by decide⟩, rfl, rfl⟩
  exact ⟨c, hrun, (lifecycle_of_writersInTurn _ c _ hidle hrun).2⟩

end ForexCopy
