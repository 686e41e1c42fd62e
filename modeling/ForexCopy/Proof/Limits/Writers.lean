import ForexCopy.Proof.Orders.Lifecycle

/-!
# Who writes a row

An insert gives a row an identifier no call has seen. After that a row is written by the call that has
it in hand, which takes it off the queue, and by the record of a report. What a call may still write,
and what it may still hand over, it got from the call it goes on from, from the queue, or by inserting
the row itself.
-/

namespace ForexCopy

open Machine Pool

/-- The row a call may still write, besides recording a report. -/
def Task.mayWrite : Task → Option Uuid
  | .copy _ (.findConnector copyId) => some copyId
  | task => task.inHand

theorem Task.Background.mayWrite {task : Task} (h : task.Background) : task.mayWrite = none :=
  Task.of_background (fun _ _ => rfl) (fun _ => rfl) (fun _ _ _ _ => rfl) h

def World.Delivered (w : World) (copyId : Uuid) : Prop :=
  ∃ delivery ∈ w.sent, delivery.instruction.copyId = copyId

instance (w : World) (copyId : Uuid) : Decidable (w.Delivered copyId) :=
  inferInstanceAs (Decidable (∃ delivery ∈ w.sent, delivery.instruction.copyId = copyId))

def World.Queued (w : World) (copyId : Uuid) : Prop :=
  ∃ row ∈ w.copyOrders, row.id = copyId ∧ row.status = .pending

inductive Task.Write (w w' : World) (task : Task) : Prop
  | keep (h : w'.copyOrders = w.copyOrders)
  | insert (order : CopyOrder) (hid : order.id = w.nextCopyId) (hsent : order.executedAt = none)
      (h : w'.copyOrders = w.copyOrders ++ [order])
  /-- A row in hand is marked SENT or FAILED. -/
  | mark (copyId : Uuid) (change : CopyOrder → CopyOrder) (hhand : task.inHand = some copyId)
      (hcore : KeepsCore change) (hsettles : Settles change)
      (hstatus : ∀ row, (change row).status ≠ .executed)
      (hexecutedAt : ∀ row, (change row).executedAt = row.executedAt)
      (h : w'.copyOrders = Table.update CopyOrder.id copyId change w.copyOrders)
  | record (slaveId : Uuid) (result : ExecutionResult) (order : CopyOrder)
      (htask : task = .message slaveId result (.record order))
      (h : w'.copyOrders =
        Table.update CopyOrder.id result.copyId (CopyOrder.record result order w.now) w.copyOrders)

theorem CopyPoint.HasNoRow.mayWrite {point : CopyPoint} (h : point.HasNoRow) (run : CopyRun) :
    (Task.copy run point).mayWrite = none := by
  cases point with
  | findConnector | markOffline | markSent => cases h
  | _ => rfl

theorem CopyRead.mayWrite {w : World} {run : CopyRun} {point point' : CopyPoint}
    (hread : CopyRead w run point point') :
    (Task.copy run point').mayWrite = none ∨
      (Task.copy run point').mayWrite = (Task.copy run point).mayWrite := by
  cases hread.leads with
  | inl hpoint => exact .inl (hpoint.mayWrite run)
  | inr hoffline =>
      obtain ⟨copyId, rfl, rfl, -⟩ := hoffline
      exact .inr rfl

namespace Task

variable {reply : Reply} {w w' : World} {task : Task} {next : List Task} {copyId : Uuid}

theorem Step.write (hstep : Task.Step reply w task w' next) : Task.Write w w' task := by
  have hfail : ∀ copyId reason, task.inHand = some copyId →
      Task.Write w (w.updateOrder copyId (CopyOrder.markFailed reason)) task := fun copyId reason h =>
    .mark copyId _ h (keepsCore_markFailed _) (settles_markFailed _)
      (fun _ => by simp [CopyOrder.markFailed]) (fun _ => rfl) rfl
  have hsend : ∀ copyId, task.inHand = some copyId →
      ∀ u : World, u.copyOrders = (w.updateOrder copyId (CopyOrder.markSent w.now)).copyOrders →
        Task.Write w u task := fun copyId h u hu =>
    .mark copyId _ h (keepsCore_markSent _) (settles_markSent _)
      (fun _ => by simp [CopyOrder.markSent]) (fun _ => rfl) hu
  cases hstep with
  | background _ _ hsame => exact .keep hsame.copyOrders
  | refuse | insert => exact .insert _ rfl rfl rfl
  | push => exact .insert _ rfl rfl rfl
  | markOffline run copyId => exact hfail copyId _ rfl
  | markSent run copyId sent =>
      cases sent
      · exact hfail copyId _ rfl
      · exact hsend copyId rfl _ rfl
  | record slaveId result order => exact .record slaveId result order rfl rfl
  | pollFailed slaveId order => exact hfail order.id _ rfl
  | respond slaveId instruction => exact hsend instruction.copyId rfl _ rfl
  | respondLost slaveId instruction => exact hsend instruction.copyId rfl _ rfl
  | _ => exact .keep rfl

/-- A poll that goes on works on the row it had, or on one from the queue. -/
theorem Step.polled (hstep : Task.Step reply w task w' next) {t : Task} (ht : t ∈ next)
    (hpolled : t.polled = some copyId) : task.polled = some copyId ∨ w.Queued copyId := by
  cases hstep with
  | background _ hnext =>
      rw [(hnext t ht).polled] at hpolled
      cases hpolled
  | @pollRead slaveId point point' hread =>
      obtain rfl := List.mem_singleton.mp ht
      by_cases hpoint : point = .findOrder
      · subst hpoint
        cases hread with
        | @order order tradeEvent holdest =>
            obtain ⟨hmem, -, hpending⟩ := World.oldestPending_eq_some holdest
            refine .inr ⟨order, hmem, ?_, hpending⟩
            unfold pickUp at hpolled
            split_ifs at hpolled <;> exact Option.some.inj hpolled
      · exact .inl (hread.polled hpoint ▸ hpolled)
  | insert _ _ _ _ _ hnext =>
      obtain ⟨rfl, -⟩ | rfl := hnext.mem ht
      · cases hpolled
      · cases hpolled
  | fanOut =>
      obtain ⟨slave, -, rfl⟩ := List.mem_map.mp ht
      cases hpolled
  | eventRead | copyRead | push | messageRead =>
      obtain rfl := List.mem_singleton.mp ht
      cases hpolled
  | _ => simp at ht

/-- What a call may write it could write before, or took from the queue, or has just inserted. -/
theorem Step.mayWrite (hstep : Task.Step reply w task w' next) {t : Task} (ht : t ∈ next)
    (hwrite : t.mayWrite = some copyId) :
    task.mayWrite = some copyId ∨ w.Queued copyId ∨ copyId = w.nextCopyId := by
  have hpoll : t.polled = some copyId → task.polled = some copyId ∨ w.Queued copyId :=
    hstep.polled ht
  cases hstep with
  | background _ hnext =>
      rw [(hnext t ht).mayWrite] at hwrite
      cases hwrite
  | copyRead hread =>
      obtain rfl := List.mem_singleton.mp ht
      rcases hread.mayWrite with hnone | hsame
      · rw [hnone] at hwrite
        cases hwrite
      · exact .inl (hsame ▸ hwrite)
  | insert _ _ _ _ _ hnext =>
      obtain ⟨rfl, -⟩ | rfl := hnext.mem ht
      · exact .inr (.inr (Option.some.inj hwrite).symm)
      · exact .inr (.inr (Option.some.inj hwrite).symm)
  | push =>
      obtain rfl := List.mem_singleton.mp ht
      exact .inr (.inr (Option.some.inj hwrite).symm)
  | fanOut =>
      obtain ⟨slave, -, rfl⟩ := List.mem_map.mp ht
      cases hwrite
  | eventRead | messageRead =>
      obtain rfl := List.mem_singleton.mp ht
      cases hwrite
  | pollRead hread =>
      obtain rfl := List.mem_singleton.mp ht
      rcases hpoll hwrite with hbefore | hqueued
      · exact .inl hbefore
      · exact .inr (.inl hqueued)
  | _ => simp at ht

theorem Step.delivered (hstep : Task.Step reply w task w' next) (h : w'.Delivered copyId) :
    w.Delivered copyId ∨ task.polled = some copyId ∨ copyId = w.nextCopyId := by
  obtain ⟨delivery, hdelivery, hid⟩ := h
  cases hstep with
  | background _ _ hsame => exact .inl ⟨delivery, hsame.sent ▸ hdelivery, hid⟩
  | push run =>
      rcases List.mem_append.mp hdelivery with hold | hnew
      · exact .inl ⟨delivery, hold, hid⟩
      · obtain rfl := List.mem_singleton.mp hnew
        exact .inr (.inr hid.symm)
  | respond slaveId instruction =>
      rcases List.mem_append.mp hdelivery with hold | hnew
      · exact .inl ⟨delivery, hold, hid⟩
      · obtain rfl := List.mem_singleton.mp hnew
        exact .inr (.inl (congrArg some hid))
  | _ => exact .inl ⟨delivery, hdelivery, hid⟩

end Task

end ForexCopy
