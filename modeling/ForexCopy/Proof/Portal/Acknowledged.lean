import ForexCopy.Proof.Portal.Frames

/-!
# An acknowledged result is a recorded one

The polling route answers an execution result with 200 whatever becomes of it: what the recording
throws is caught and logged. The EA drops a result on 200 and posts it again on anything else, so a
result whose query or whose update failed is lost for both sides.
-/

namespace ForexCopy

open Table

/-- The row shows the status, ticket, price and reason that the result reports. -/
structure CopyOrder.Shows (result : ExecutionResult) (row : CopyOrder) : Prop where
  status : row.status = result.status.toCopyOrderStatus
  slaveTicket : ∀ ticket ∈ result.slaveTicket, row.slaveTicket = some ticket
  executionPrice : ∀ price ∈ result.executionPrice,
    row.executionPrice = some (SignedDecimal.ofNumber 5 price)
  errorReason : ∀ reason ∈ result.reason, row.errorReason = some reason

theorem CopyOrder.shows_record (result : ExecutionResult) (read row : CopyOrder) (now : DateTime) :
    (CopyOrder.record result read now row).Shows result where
  status := rfl
  slaveTicket := fun ticket hticket => by
    have hsome : result.slaveTicket = some ticket := hticket
    simp [record, hsome]
  executionPrice := fun price hprice => by
    have hsome : result.executionPrice = some price := hprice
    simp [record, hsome]
  errorReason := fun reason hreason => by
    have hsome : result.reason = some reason := hreason
    simp [record, hsome]

namespace Portal

def Records (p : Portal) (result : ExecutionResult) : Prop :=
  ∃ row ∈ p.world.copyOrders, row.id = result.copyId ∧ row.Shows result

/-- The portal before and after the step of the handling that is answered. The query settles at `p` as
`first` says; if there is an update, it settles as `second` says at `later`, which is whatever others
have made of the portal by then. -/
def answering (p later : Portal) (slaveId : Uuid) (result : ExecutionResult)
    (first second : Reply) : Portal × Portal :=
  match p.executionResultStep first slaveId result .findOrder with
  | (_, .executionResult _ _ point :: _) =>
    (later, (later.executionResultStep second slaveId result point).1)
  | (answered, _) => (p, answered)

/-- If the answer is 200, the copy order shows what was reported. -/
def AnswersTruly (slaveId : Uuid) (result : ExecutionResult) (outcome : Portal × Portal) : Prop :=
  outcome.2.acknowledged = outcome.1.acknowledged ++ [(slaveId, result)] → outcome.2.Records result

variable {p later : Portal} {slaveId : Uuid} {result : ExecutionResult} {first second : Reply}
  {row : CopyOrder}

/-- The query finds the row, so the handling goes on exactly when it resolves. -/
theorem findOrder_step (hids : (p.world.copyOrders.map CopyOrder.id).Nodup)
    (hrow : row ∈ p.world.copyOrders) (hid : row.id = result.copyId)
    (hslave : row.slaveId = slaveId) (reply : Reply) :
    slaveMessageStep reply p.world slaveId result .findOrder =
      reply.query p.world [.message slaveId result (.record row)] := by
  simp only [slaveMessageStep, lookup_of_mem hids hrow hid, if_pos hslave]

theorem answering_of_unresolved (hids : (p.world.copyOrders.map CopyOrder.id).Nodup)
    (hrow : row ∈ p.world.copyOrders) (hid : row.id = result.copyId)
    (hslave : row.slaveId = slaveId) (hfirst : ¬first.Resolves) :
    p.answering later slaveId result first second =
      (p, { p with acknowledged := p.acknowledged ++ [(slaveId, result)] }) := by
  have hquery : slaveMessageStep first p.world slaveId result .findOrder = (p.world, []) := by
    rw [findOrder_step hids hrow hid hslave]
    cases first with
    | ok => exact absurd (.inl rfl) hfirst
    | swapped => exact absurd (.inr rfl) hfirst
    | rejected | lost => rfl
  simp only [answering, executionResultStep_done hquery]

theorem answering_of_resolved (hids : (p.world.copyOrders.map CopyOrder.id).Nodup)
    (hrow : row ∈ p.world.copyOrders) (hid : row.id = result.copyId)
    (hslave : row.slaveId = slaveId) (hfirst : first.Resolves) :
    p.answering later slaveId result first second =
      (later, { later with
        world := (slaveMessageStep second later.world slaveId result (.record row)).1
        acknowledged := later.acknowledged ++ [(slaveId, result)] }) := by
  have hquery : slaveMessageStep first p.world slaveId result .findOrder =
      (p.world, [.message slaveId result (.record row)]) := by
    rw [findOrder_step hids hrow hid hslave, hfirst.query]
  have hdone : (slaveMessageStep second later.world slaveId result (.record row)).2 = [] := by
    cases second <;> rfl
  simp only [answering, executionResultStep_next hquery]
  rw [executionResultStep_done (Prod.ext rfl hdone)]

/-- An update that takes effect writes what was reported, whatever has happened to the row since. -/
theorem records_of_update (hrow : ∃ current ∈ later.world.copyOrders, current.id = result.copyId)
    (hsecond : second ≠ .rejected) {acknowledged : List (Uuid × ExecutionResult)} :
    Records { later with
      world := (slaveMessageStep second later.world slaveId result (.record row)).1
      acknowledged := acknowledged } result := by
  obtain ⟨current, hcurrent, hid⟩ := hrow
  have hupdated : (slaveMessageStep second later.world slaveId result (.record row)).1 =
      later.world.updateOrder result.copyId (CopyOrder.record result row later.world.now) := by
    cases second with
    | ok | swapped | lost => rfl
    | rejected => exact absurd rfl hsecond
  refine ⟨CopyOrder.record result row later.world.now current, ?_, hid,
    CopyOrder.shows_record result row current _⟩
  rw [hupdated]
  exact mem_update_of_eq hcurrent hid

end Portal

/-- The answer is true exactly when the query resolves and the update takes effect, or the row shows the
result without it: at the time of the query if that fails, and else at the time of the update. -/
theorem answersTruly_iff {p later : Portal} {slaveId : Uuid} {result : ExecutionResult}
    {row : CopyOrder} (hids : (p.world.copyOrders.map CopyOrder.id).Nodup)
    (hrow : row ∈ p.world.copyOrders) (hid : row.id = result.copyId)
    (hslave : row.slaveId = slaveId) (hlater : p.world.Before later.world) (first second : Reply) :
    Portal.AnswersTruly slaveId result (p.answering later slaveId result first second) ↔
      if first.Resolves then second ≠ .rejected ∨ later.Records result else p.Records result := by
  have hcurrent : ∃ current ∈ later.world.copyOrders, current.id = result.copyId := by
    obtain ⟨current, hmem, hcore⟩ :=
      World.exists_of_mem_cores (hlater.mem_cores (World.core_mem_cores hrow))
    exact ⟨current, hmem, (CopyOrder.id_of_core hcore).trans hid⟩
  split_ifs with hfirst
  · simp only [Portal.answering_of_resolved hids hrow hid hslave hfirst, Portal.AnswersTruly,
      forall_const]
    by_cases hsecond : second = .rejected
    · subst hsecond
      exact ⟨.inr, fun h => h.resolve_left fun hne => hne rfl⟩
    · exact ⟨fun _ => .inl hsecond, fun _ => Portal.records_of_update hcurrent hsecond⟩
  · simp only [Portal.answering_of_unresolved hids hrow hid hslave hfirst, Portal.AnswersTruly,
      forall_const]
    exact Iff.rfl

namespace Sample

/-- The MT4 slave has polled the order and executed it. -/
def handedOver : Portal where
  world := (queued mt4Slave openEvent).shared.updateOrder 1 (CopyOrder.markSent 0)

/-- The same half a second later. -/
def stillHandedOver : Portal := { handedOver with world := { handedOver.world with now := 500 } }

end Sample

open Sample in
theorem recorded_answersTruly :
    Portal.AnswersTruly 4 (executed 1 "71")
      (handedOver.answering stillHandedOver 4 (executed 1 "71") .ok .ok) := by
  have hrow : ∃ row ∈ handedOver.world.copyOrders,
      row.id = (executed 1 "71").copyId ∧ row.slaveId = 4 := by
    decide +kernel
  obtain ⟨row, hmem, hid, hslave⟩ := hrow
  have hlater : handedOver.world.Before stillHandedOver.world := .of_eq rfl rfl
  refine (answersTruly_iff (by decide +kernel) hmem hid hslave hlater .ok .ok).mpr ?_
  rw [if_pos (.inl rfl)]
  exact .inl (by decide)

open Sample in
/-- The update fails, the EA is told 200, and the order stays SENT. -/
theorem unrecorded_acknowledged :
    let outcome := handedOver.answering stillHandedOver 4 (executed 1 "71") .ok .rejected
    ¬Portal.AnswersTruly 4 (executed 1 "71") outcome ∧
      outcome.2.world.copyOrders.map CopyOrder.status = [.sent] := by
  intro outcome
  have hstatus : outcome.2.world.copyOrders.map CopyOrder.status = [.sent] := by decide +kernel
  refine ⟨fun htruly => ?_, hstatus⟩
  obtain ⟨row, hrow, -, hshows⟩ := htruly (by decide +kernel)
  have hsent : row.status ∈ [CopyOrderStatus.sent] := hstatus ▸ List.mem_map_of_mem hrow
  rw [hshows.status, List.mem_singleton] at hsent
  cases hsent

end ForexCopy
