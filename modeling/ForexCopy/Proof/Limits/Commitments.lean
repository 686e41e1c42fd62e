import ForexCopy.Proof.Limits.Writers
import ForexCopy.Proof.Admission

/-!
# What a slave is committed to

Beside the open copies that the risk checks read, a slave is committed to every OPEN that is on its
way: about to be inserted, in the queue, with a poll, or handed over and not reported on. Only a CLOSE
that no call can take back any more ends a commitment for good. What a slave is committed to grows only
where an OPEN passes the checks.
-/

namespace ForexCopy

open Machine Pool

namespace Config

def Polled (c : Config) (copyId : Uuid) : Prop := ∃ task ∈ c.tasks, task.polled = some copyId

def MayWrite (c : Config) (copyId : Uuid) : Prop := ∃ task ∈ c.tasks, task.mayWrite = some copyId

instance (c : Config) (copyId : Uuid) : Decidable (c.Polled copyId) :=
  inferInstanceAs (Decidable (∃ task ∈ c.tasks, task.polled = some copyId))

instance (c : Config) (copyId : Uuid) : Decidable (c.MayWrite copyId) :=
  inferInstanceAs (Decidable (∃ task ∈ c.tasks, task.mayWrite = some copyId))

/-- The master ticket has an executed CLOSE that no call may still overwrite. -/
def Closed (c : Config) (slaveId : Uuid) (masterTicket : String) : Prop :=
  ∃ close ∈ executedOrders slaveId .close c.shared.copyOrders,
    close.masterTicket = masterTicket ∧ ¬c.MayWrite close.id

instance (c : Config) (slaveId : Uuid) (masterTicket : String) :
    Decidable (c.Closed slaveId masterTicket) :=
  inferInstanceAs (Decidable (∃ close ∈ executedOrders slaveId .close c.shared.copyOrders, _))

/-- The copy order is executed, or has not been reported on and may be or was handed over. -/
def Live (c : Config) (row : CopyOrder) : Prop :=
  row.status = .executed ∨ row.executedAt = none ∧
    (row.status = .pending ∨ c.Polled row.id ∨ c.shared.Delivered row.id)

instance (c : Config) (row : CopyOrder) : Decidable (c.Live row) :=
  inferInstanceAs (Decidable (_ ∨ _ ∧ (_ ∨ _ ∨ _)))

/-- The OPEN copy counts, or may come to count, among the open copies of the slave. -/
def Commits (c : Config) (slaveId : Uuid) (row : CopyOrder) : Prop :=
  row.slaveId = slaveId ∧ row.type = .open ∧ c.Live row ∧ ¬c.Closed slaveId row.masterTicket

instance (c : Config) (slaveId : Uuid) (row : CopyOrder) : Decidable (c.Commits slaveId row) :=
  inferInstanceAs (Decidable (_ ∧ _ ∧ _ ∧ _))

end Config

/-- The stored volume of an OPEN of the slave that is about to be inserted. -/
def Task.inserting (slaveId : Uuid) : Task → Option (Option (Decimal 2))
  | .copy run (.createOrder _ _ volume) =>
    if run.slave.id = slaveId ∧ run.event.type = .open then some (volume.map (Decimal.ofNumber 2))
    else none
  | _ => none

/-- The stored volumes of all that the slave is committed to. -/
def Config.committedVolumes (c : Config) (slaveId : Uuid) : List (Option (Decimal 2)) :=
  (c.shared.copyOrders.filter (c.Commits slaveId)).map CopyOrder.requestedVolume ++
    c.tasks.filterMap (Task.inserting slaveId)

/-- What an OPEN that is about to be inserted is going to commit the slave to. -/
def Task.commits (slaveId : Uuid) (size : Option (Decimal 2) → ℕ) (task : Task) : ℕ :=
  ((task.inserting slaveId).map size).getD 0

theorem Task.commits_createOrder {slaveId : Uuid} {run : CopyRun} (hslave : run.slave.id = slaveId)
    (htype : run.event.type = .open) (size : Option (Decimal 2) → ℕ) (resolvedSymbol : String)
    (slaveTicket : Option String) (volume : Option ℚ) :
    (Task.copy run (.createOrder resolvedSymbol slaveTicket volume)).commits slaveId size =
      size (volume.map (Decimal.ofNumber 2)) := by
  simp [commits, inserting, hslave, htype]

theorem Task.commits_createOrder_other {slaveId : Uuid} {run : CopyRun}
    (h : ¬(run.slave.id = slaveId ∧ run.event.type = .open)) (size : Option (Decimal 2) → ℕ)
    (resolvedSymbol : String) (slaveTicket : Option String) (volume : Option ℚ) :
    (Task.copy run (.createOrder resolvedSymbol slaveTicket volume)).commits slaveId size = 0 := by
  simp [commits, inserting, h]

theorem Task.Background.commits {task : Task} (h : task.Background) (slaveId : Uuid)
    (size : Option (Decimal 2) → ℕ) : task.commits slaveId size = 0 :=
  Task.of_background (fun _ _ => rfl) (fun _ => rfl) (fun _ _ _ _ => rfl) h

def Config.weight (c : Config) (slaveId : Uuid) (size : Option (Decimal 2) → ℕ) (row : CopyOrder) :
    ℕ :=
  if c.Commits slaveId row then size row.requestedVolume else 0

/-- What the slave is committed to, each OPEN counted by its size. -/
def Config.committed (c : Config) (slaveId : Uuid) (size : Option (Decimal 2) → ℕ) : ℕ :=
  Table.tally (c.weight slaveId size) c.shared.copyOrders + total (Task.commits slaveId size) c.tasks

theorem Config.committed_eq_tally (c : Config) (slaveId : Uuid) (size : Option (Decimal 2) → ℕ) :
    c.committed slaveId size = Table.tally size (c.committedVolumes slaveId) := by
  have htasks : ∀ tasks : List Task, total (Task.commits slaveId size) tasks =
      Table.tally size (tasks.filterMap (Task.inserting slaveId)) := by
    intro tasks
    induction tasks with
    | nil => rfl
    | cons task rest ih =>
        rw [total_cons, ih, List.filterMap_cons, Task.commits]
        cases task.inserting slaveId <;> simp
  unfold committed committedVolumes weight
  rw [Table.tally_append, Table.tally_map, Table.tally_filter, htasks]

/-- A report is recorded on an instruction that was handed over and not reported on before. -/
def World.ReportsOnce (w : World) (slaveId : Uuid) (task : Task) : Prop :=
  ∀ report ∈ task.recording, report.1 = slaveId → ∀ row ∈ w.copyOrders,
    row.id = report.2.copyId → w.Delivered row.id ∧ row.executedAt = none ∧ row.status ≠ .executed

instance (w : World) (slaveId : Uuid) (task : Task) : Decidable (w.ReportsOnce slaveId task) :=
  inferInstanceAs (Decidable (∀ report ∈ task.recording, _))

/-! ### One step -/

section

variable {c c' : Config} {reply : Reply} {task : Task} {next : List Task} {slaveId copyId : Uuid}

theorem Config.Polled.before (hmove : Task.Step reply c.shared task c'.shared next)
    (htask : task ∈ c.tasks) (hnext : ∀ t ∈ c'.tasks, t ∈ c.tasks ∨ t ∈ next)
    (h : c'.Polled copyId) : c.Polled copyId ∨ c.shared.Queued copyId := by
  obtain ⟨t, ht, hpolled⟩ := h
  rcases hnext t ht with hold | hnew
  · exact .inl ⟨t, hold, hpolled⟩
  · exact (hmove.polled hnew hpolled).imp_left fun hsame => ⟨task, htask, hsame⟩

theorem Config.MayWrite.before (hmove : Task.Step reply c.shared task c'.shared next)
    (htask : task ∈ c.tasks) (hnext : ∀ t ∈ c'.tasks, t ∈ c.tasks ∨ t ∈ next)
    (h : c'.MayWrite copyId) :
    c.MayWrite copyId ∨ c.shared.Queued copyId ∨ copyId = c.shared.nextCopyId := by
  obtain ⟨t, ht, hwrite⟩ := h
  rcases hnext t ht with hold | hnew
  · exact .inl ⟨t, hold, hwrite⟩
  · exact (hmove.mayWrite hnew hwrite).imp_left fun hsame => ⟨task, htask, hsame⟩

/-- A CLOSE that no call may overwrite stays executed. -/
theorem Config.Closed.after {masterTicket : String} (hc : grounded.Holds c)
    (hmove : Task.Step reply c.shared task c'.shared next) (htask : task ∈ c.tasks)
    (hnext : ∀ t ∈ c'.tasks, t ∈ c.tasks ∨ t ∈ next) (honce : c.shared.ReportsOnce slaveId task)
    (h : c.Closed slaveId masterTicket) : c'.Closed slaveId masterTicket := by
  obtain ⟨close, hclose, hticket, hfree⟩ := h
  obtain ⟨hmem, hslave, htype, hexecuted⟩ := mem_executedOrders.mp hclose
  have hkept : close ∈ c'.shared.copyOrders := by
    cases hmove.write with
    | keep h => exact h ▸ hmem
    | insert order _ _ h => exact h ▸ List.mem_append_left _ hmem
    | mark copyId change hhand _ _ _ _ h =>
        refine h ▸ Table.mem_update_of_ne hmem fun hid => hfree ⟨task, htask, ?_⟩
        unfold Task.mayWrite
        split
        · cases hhand
        · exact hid ▸ hhand
    | record reporter result order heq h =>
        subst heq
        refine h ▸ Table.mem_update_of_ne hmem fun hid => ?_
        obtain ⟨hcore, hreporter, horder⟩ := hc.2 _ htask
        have hsame : close.core = order.core :=
          hc.1.core_eq hcore hmem (hid.trans horder.symm)
        have hown : reporter = slaveId :=
          hreporter.symm.trans ((CopyOrder.slaveId_of_core hsame).symm.trans hslave)
        exact (honce _ rfl hown close hmem hid).2.2 hexecuted
  refine ⟨close, mem_executedOrders.mpr ⟨hkept, hslave, htype, hexecuted⟩, hticket, fun hwrite => ?_⟩
  rcases hwrite.before hmove htask hnext with hbefore | ⟨row, hrow, hid, hpending⟩ | hfresh
  · exact hfree hbefore
  · obtain rfl := Table.eq_of_key_eq hc.1.ids hrow hmem hid
    rw [hexecuted] at hpending
    cases hpending
  · exact World.ne_nextCopyId_of_mem hmem hfresh

theorem Config.reachable_before {row : CopyOrder} (hc : grounded.Holds c)
    (hmove : Task.Step reply c.shared task c'.shared next) (htask : task ∈ c.tasks)
    (hnext : ∀ t ∈ c'.tasks, t ∈ c.tasks ∨ t ∈ next) (hrow : row ∈ c.shared.copyOrders)
    (h : c'.Polled row.id ∨ c'.shared.Delivered row.id) :
    row.status = .pending ∨ c.Polled row.id ∨ c.shared.Delivered row.id := by
  rcases h with hpolled | hdelivered
  · rcases hpolled.before hmove htask hnext with hbefore | ⟨queued, hmem, hid, hpending⟩
    · exact .inr (.inl hbefore)
    · obtain rfl := Table.eq_of_key_eq hc.1.ids hmem hrow hid
      exact .inl hpending
  · rcases hmove.delivered hdelivered with hbefore | hpolled | hfresh
    · exact .inr (.inr hbefore)
    · exact .inr (.inl ⟨task, htask, hpolled⟩)
    · exact absurd hfresh (World.ne_nextCopyId_of_mem hrow)

/-- A row weighs no more after the step than before, when it was live if it is. -/
theorem Config.weight_le {size : Option (Decimal 2) → ℕ} {row row' : CopyOrder}
    (hclosed : ∀ masterTicket, c.Closed slaveId masterTicket → c'.Closed slaveId masterTicket)
    (hcore : row'.core = row.core) (hlive : row.slaveId = slaveId → c'.Live row' → c.Live row) :
    c'.weight slaveId size row' ≤ c.weight slaveId size row := by
  have hslave : row'.slaveId = row.slaveId := CopyOrder.slaveId_of_core hcore
  have htype : row'.type = row.type := CopyOrder.type_of_core hcore
  have hticket : row'.masterTicket = row.masterTicket := CopyOrder.masterTicket_of_core hcore
  have hvolume : row'.requestedVolume = row.requestedVolume := CopyOrder.requestedVolume_of_core hcore
  unfold weight
  split_ifs with hafter hbefore
  · rw [hvolume]
  · obtain ⟨hid, hopen, halive, hfree⟩ := hafter
    have hown : row.slaveId = slaveId := hslave.symm.trans hid
    exact absurd ⟨hown, htype ▸ hopen, hlive hown halive, fun h => hfree (hticket ▸ hclosed _ h)⟩
      hbefore
  · exact Nat.zero_le _
  · exact Nat.zero_le _

/-- The rows that were there weigh no more after the step, so only an inserted row adds to them. -/
theorem Config.tally_le (c' : Config) (size : Option (Decimal 2) → ℕ) (hc : grounded.Holds c)
    (hmove : Task.Step reply c.shared task c'.shared next) (htask : task ∈ c.tasks)
    (hnext : ∀ t ∈ c'.tasks, t ∈ c.tasks ∨ t ∈ next) (honce : c.shared.ReportsOnce slaveId task) :
    Table.tally (c'.weight slaveId size) c'.shared.copyOrders ≤
      Table.tally (c.weight slaveId size) c.shared.copyOrders +
        Table.tally (c'.weight slaveId size)
          (c'.shared.copyOrders.drop c.shared.copyOrders.length) := by
  have hclosed : ∀ masterTicket, c.Closed slaveId masterTicket → c'.Closed slaveId masterTicket :=
    fun _ h => h.after hc hmove htask hnext honce
  have hreach : ∀ row ∈ c.shared.copyOrders, c'.Polled row.id ∨ c'.shared.Delivered row.id →
      row.status = .pending ∨ c.Polled row.id ∨ c.shared.Delivered row.id :=
    fun row hrow => Config.reachable_before hc hmove htask hnext hrow
  have hsame : ∀ row ∈ c.shared.copyOrders,
      c'.weight slaveId size row ≤ c.weight slaveId size row := by
    intro row hrow
    refine weight_le hclosed rfl fun _ halive => ?_
    rcases halive with hexecuted | ⟨hnone, hpending | hreached⟩
    · exact .inl hexecuted
    · exact .inr ⟨hnone, .inl hpending⟩
    · exact .inr ⟨hnone, hreach row hrow hreached⟩
  cases hmove.write with
  | keep h =>
      rw [h]
      exact (Table.tally_le hsame).trans (Nat.le_add_right _ _)
  | insert order _ _ h =>
      rw [h, List.drop_left, Table.tally_append]
      exact Nat.add_le_add_right (Table.tally_le hsame) _
  | mark copyId change _ hcore hsettles hstatus hexecutedAt h =>
      rw [h]
      refine (Table.tally_update_le (fun row hrow _ => ?_) fun row hrow _ => hsame row hrow).trans
        (Nat.le_add_right _ _)
      refine weight_le hclosed (hcore row) fun _ halive => ?_
      rcases halive with hexecuted | ⟨hnone, hpending | hreached⟩
      · exact absurd hexecuted (hstatus row)
      · exact absurd hpending (hsettles row)
      · exact .inr ⟨hexecutedAt row ▸ hnone, hreach row hrow (hcore.id row ▸ hreached)⟩
  | record reporter result order heq h =>
      subst heq
      rw [h]
      refine (Table.tally_update_le (fun row hrow hid => ?_) fun row hrow _ => hsame row hrow).trans
        (Nat.le_add_right _ _)
      refine weight_le hclosed (row.core_record _ _ _) fun hown _ => ?_
      obtain ⟨hcore, hreporter, horder⟩ := hc.2 _ htask
      have hsameCore : row.core = order.core := hc.1.core_eq hcore hrow (hid.trans horder.symm)
      have hreported : reporter = slaveId :=
        hreporter.symm.trans ((CopyOrder.slaveId_of_core hsameCore).symm.trans hown)
      obtain ⟨hdelivered, hnone, -⟩ := honce _ rfl hreported row hrow hid
      exact .inr ⟨hnone, .inr (.inr hdelivered)⟩

end

end ForexCopy
