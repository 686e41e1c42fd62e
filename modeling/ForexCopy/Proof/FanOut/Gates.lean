import ForexCopy.Proof.FanOut.Complete

/-!
# What stands in front of a copy

A `copyToSlave` that runs alone ends with one row and at most one instruction. An OPEN copy gets
through when all the checks in front of it pass, and otherwise its row names the first of them that does
not. In front of a CLOSE or a MODIFY there is none of them: its row and its instruction do not depend on
what the checks look at.
-/

namespace ForexCopy

open Machine Pool

/-- Nothing happens but that the operations a call waits for succeed. -/
def RunsAlone (_ : Config) (a : Action) : Prop := ∃ reply ∈ a.reply, reply.Resolves

instance (c : Config) (a : Action) : Decidable (RunsAlone c a) :=
  inferInstanceAs (Decidable (∃ reply ∈ a.reply, reply.Resolves))

theorem RunsAlone.resumes {c : Config} {a : Action} (h : RunsAlone c a) :
    ∃ i reply, a = .resume i reply ∧ reply.Resolves := by
  obtain ⟨reply, hreply, hresolves⟩ := h
  cases a with
  | resume i reply' => exact ⟨i, reply', rfl, Option.some.inj hreply ▸ hresolves⟩
  | arrive stimulus => cases hreply

def World.adding (w : World) (row : CopyOrder) (deliveries : List Delivery) : World :=
  { w with copyOrders := w.copyOrders ++ [row], sent := w.sent ++ deliveries }

/-- The same with other masters and slaves in it. -/
def World.withAccounts (w : World) (masters : List Master) (slaves : List Slave) : World :=
  { w with masters := masters, slaves := slaves }

/-- A check in front of an OPEN copy, and the reason it gives when it does not pass. -/
structure OpenCheck where
  passes : Bool
  reason : String

namespace CopyRun

/-- The checks before an OPEN copy is sized, in their order. -/
def entryChecks (w : World) (run : CopyRun) : List OpenCheck :=
  let count := (w.getOpenPositionsSummary run.slave.id).count
  [⟨!run.slave.emergencyStop, "EMERGENCY_STOP_ACTIVE"⟩,
    ⟨run.event.symbol ∉ run.slave.blockedSymbols, "SYMBOL_BLOCKED"⟩,
    ⟨run.slave.allowedSymbols = [] ∨ run.event.symbol ∈ run.slave.allowedSymbols,
      "SYMBOL_NOT_ALLOWED"⟩,
    ⟨∀ maxPositions ∈ run.slave.maxPositions, count < maxPositions, "MAX_POSITIONS_REACHED"⟩]

def sizingCheck (run : CopyRun) : OpenCheck :=
  match calculateVolume .double run.sizing with
  | .volume _ => ⟨true, ""⟩
  | .rejected reason => ⟨false, reason⟩

def online (w : World) (run : CopyRun) : Bool :=
  if run.slave.platform = "MT4" then w.hasOnlineConnector run.slave.id
  else w.isSlaveConnected run.slave.id

/-- All checks in front of an OPEN copy, in their order. -/
def openChecks (w : World) (run : CopyRun) : List OpenCheck :=
  let totalVolume := (w.getOpenPositionsSummary run.slave.id).totalVolume
  run.entryChecks w ++
    [run.sizingCheck,
      ⟨∀ volume ∈ run.sized, ∀ maxExposure ∈ run.slave.maxExposure,
        Arithmetic.double.add totalVolume volume ≤ maxExposure.toNumber, "MAX_EXPOSURE_EXCEEDED"⟩,
      ⟨run.online w, "SLAVE_OFFLINE"⟩]

def firstRefusal (w : World) (run : CopyRun) : Option OpenCheck :=
  (run.openChecks w).find? (!·.passes)

/-- The row of an OPEN copy and what is sent with it. The row keeps hundredths of a lot. -/
def OpensRow (w : World) (run : CopyRun) (row : CopyOrder) (deliveries : List Delivery) : Prop :=
  match run.firstRefusal w with
  | some check => row.status = .failed ∧ row.errorReason = some check.reason ∧ deliveries = []
  | none => ∃ volume, run.sized = some volume ∧
    row.requestedVolume = some (Decimal.ofNumber 2 volume) ∧
    (row.requestedVolume.map Decimal.toNumber = some volume ↔ Decimal.OnGrid 2 volume) ∧
    if run.slave.platform = "MT4" then
      row.status = .pending ∧ deliveries = []
    else
      row.status = .sent ∧ ∃ instruction, deliveries = [⟨.push, run.slave.id, instruction⟩] ∧
        instruction.copyId = row.id ∧ instruction.volume = some volume

/-- What an OPEN copy comes to. An event that was copied to the slave before is refused by the table,
and leaves nothing. -/
def OpensAs (w : World) (run : CopyRun) (w' : World) : Prop :=
  (run.Unsent w → ∃ row deliveries, w' = w.adding row deliveries ∧ row.type = .open ∧
    row.dispatchKey = (run.tradeEventId, run.slave.id) ∧ run.OpensRow w row deliveries) ∧
  (¬run.Unsent w → w' = w)

end CopyRun

/-- The slave without what the checks and the sizing look at. -/
def Slave.ungated (slave : Slave) : Slave :=
  { slave with
    copyMode := .multiplier
    fixedLot := none
    multiplier := ⟨0⟩
    minLot := ⟨0⟩
    maxLot := ⟨0⟩
    lotStep := ⟨0⟩
    balance := none
    equity := none
    emergencyStop := false
    allowedSymbols := []
    blockedSymbols := []
    maxPositions := none
    maxExposure := none }

/-- The runs copy one event to one slave, under whatever limits, sizing and figures. -/
structure CopyRun.SameUngated (run run' : CopyRun) : Prop where
  slave : run'.slave.ungated = run.slave.ungated
  tradeEventId : run'.tradeEventId = run.tradeEventId
  event : run'.event = run.event

/-! ### The end of a run -/

namespace CopyRun

variable {w w' : World} {run : CopyRun} {reply : Reply}

/-- Where a run is that has been alone so far. -/
inductive Solo (w : World) (run : CopyRun) : Config → Prop
  | reading {point : CopyPoint} (hread : run.HasRead w point) : Solo w run ⟨w, [.copy run point]⟩
  | finding {resolvedSymbol : String} {slaveTicket : Option String} {volume : Option ℚ}
      (hunsent : run.Unsent w)
      (hdecision : run.decision w = .createOrder resolvedSymbol slaveTicket volume)
      (hplatform : run.slave.platform = "MT4") :
      Solo w run ⟨w.adding (run.pendingOrder w.nextCopyId volume) [],
        [.copy run (.findConnector w.nextCopyId)]⟩
  | failing {volume : Option ℚ} (hunsent : run.Unsent w)
      (hends : run.Ends w w.nextCopyId (run.decision w)
        (run.failedOrder w.nextCopyId "SLAVE_OFFLINE" volume) []) :
      Solo w run ⟨w.adding (run.pendingOrder w.nextCopyId volume) [],
        [.copy run (.markOffline w.nextCopyId)]⟩
  | sending {volume : Option ℚ} {deliveries : List Delivery} (hunsent : run.Unsent w)
      (hends : run.Ends w w.nextCopyId (run.decision w)
        ((run.pendingOrder w.nextCopyId volume).markSent w.now) deliveries) :
      Solo w run ⟨w.adding (run.pendingOrder w.nextCopyId volume) deliveries,
        [.copy run (.markSent w.nextCopyId true)]⟩
  | done {row : CopyOrder} {deliveries : List Delivery} (hunsent : run.Unsent w)
      (hends : run.Ends w w.nextCopyId (run.decision w) row deliveries) :
      Solo w run ⟨w.adding row deliveries, []⟩
  | refused (hsent : ¬run.Unsent w) : Solo w run ⟨w, []⟩

theorem adding_insertOrder (order : CopyOrder) : w.insertOrder order = w.adding order [] := by
  simp [World.insertOrder, World.adding]

theorem adding_push (order : CopyOrder) (instruction : CopyInstruction) :
    w.adding order [⟨.push, run.slave.id, instruction⟩] =
      (w.adding order []).push run.slave.id instruction := by
  simp [World.push, World.adding]

theorem updateOrder_adding {order : CopyOrder} (hid : order.id = w.nextCopyId)
    (deliveries : List Delivery) (change : CopyOrder → CopyOrder) :
    (w.adding order deliveries).updateOrder w.nextCopyId change =
      w.adding (change order) deliveries := by
  simp only [World.updateOrder, World.adding, World.copyOrders_update_inserted hid]

/-- The insert and what it sends. -/
theorem Solo.of_dispatch (hunsent : run.Unsent w) {resolvedSymbol : String}
    {slaveTicket : Option String} {volume : Option ℚ}
    (hdecision : run.decision w = .createOrder resolvedSymbol slaveTicket volume) :
    let outcome := run.dispatch (w.insertOrder (run.pendingOrder w.nextCopyId volume)) w.nextCopyId
      resolvedSymbol slaveTicket volume
    run.Solo w ⟨outcome.1, outcome.2⟩ := by
  intro outcome
  have hconnected : (w.adding (run.pendingOrder w.nextCopyId volume) []).isSlaveConnected
      run.slave.id = w.isSlaveConnected run.slave.id := rfl
  by_cases hplatform : run.slave.platform = "MT4"
  · simp only [outcome, dispatch, if_pos hplatform, adding_insertOrder]
    exact .finding hunsent hdecision hplatform
  · cases honline : w.isSlaveConnected run.slave.id with
    | false =>
        simp only [outcome, dispatch, if_neg hplatform, adding_insertOrder, hconnected, honline]
        refine .failing hunsent ?_
        rw [hdecision]
        exact .unpushed _ _ _ hplatform honline
    | true =>
        simp only [outcome, dispatch, if_neg hplatform, World.sendToSlave, adding_insertOrder,
          hconnected, honline, if_true]
        rw [← adding_push]
        refine .sending hunsent ?_
        rw [hdecision]
        exact .pushed _ _ _ hplatform honline

theorem Solo.step (hcopyable : isCopyableEvent run.event) (hreply : reply.Resolves) {task : Task}
    (h : run.Solo w ⟨w', [task]⟩) :
    run.Solo w ⟨(task.step reply w').1, (task.step reply w').2⟩ := by
  cases h with
  | @reading point hread =>
      by_cases hreading : point = run.decision w
      · subst hreading
        rcases run.decision_cases w with ⟨reason, volume, hdecision⟩ |
          ⟨resolvedSymbol, slaveTicket, volume, hdecision⟩
        · rw [hdecision]
          by_cases hunsent : run.Unsent w
          · rw [failOrder_step hreply hunsent, adding_insertOrder]
            refine .done hunsent ?_
            rw [hdecision]
            exact .failed reason volume
          · have hcreate : w.createOrder (run.failedOrder w.nextCopyId reason volume) = none :=
              if_pos (not_not.mp hunsent)
            simp only [Task.step, copyToSlaveStep, hcreate]
            exact .refused hunsent
        · rw [hdecision]
          by_cases hunsent : run.Unsent w
          · rw [createOrder_step hreply hunsent]
            exact .of_dispatch hunsent hdecision
          · have hcreate : w.createOrder (run.pendingOrder w.nextCopyId volume) = none :=
              if_pos (not_not.mp hunsent)
            simp only [Task.step, copyToSlaveStep, hcreate]
            exact .refused hunsent
      · obtain ⟨point', hread', hstep⟩ :=
          hasRead_step hcopyable (.refl w) rfl hreply hread hreading
        rw [hstep]
        exact .reading hread'
  | @finding resolvedSymbol slaveTicket volume hunsent hdecision hplatform =>
      have honline : (w.adding (run.pendingOrder w.nextCopyId volume) []).hasOnlineConnector
          run.slave.id = w.hasOnlineConnector run.slave.id := rfl
      simp only [Task.step, copyToSlaveStep, hreply.query, honline]
      cases hfound : w.hasOnlineConnector run.slave.id with
      | true =>
          refine .done hunsent ?_
          rw [hdecision]
          exact .queued _ _ _ hplatform hfound
      | false =>
          refine .failing hunsent ?_
          rw [hdecision]
          exact .unqueued _ _ _ hplatform hfound
  | failing hunsent hends =>
      simp only [Task.step, copyToSlaveStep, hreply.settle]
      rw [updateOrder_adding rfl]
      exact .done hunsent hends
  | sending hunsent hends =>
      simp only [Task.step, copyToSlaveStep, hreply.settle, if_true]
      rw [updateOrder_adding rfl]
      exact .done hunsent hends

theorem Solo.tasks {c : Config} (h : run.Solo w c) : c.tasks.length ≤ 1 := by
  cases h <;> simp

theorem solo_preserved (hcopyable : isCopyableEvent run.event) :
    Preserved (restrict Backend.step RunsAlone) (run.Solo w) := by
  intro c a c' h hstep
  obtain ⟨hok, hstep⟩ := restrict_eq_some.mp hstep
  obtain ⟨i, reply, rfl, hreply⟩ := hok.resumes
  obtain ⟨w', tasks⟩ := c
  have hone := h.tasks
  match tasks with
  | [] => simp [Backend.step, Pool.resume] at hstep
  | [task] =>
      obtain ⟨rfl, rfl⟩ := resume_single Task.step hstep
      exact h.step hcopyable hreply
  | _ :: _ :: _ => simp at hone

/-- A run that has ended: one row and what it sent, or nothing where the event had been copied to the
slave before. -/
theorem solo_ends (hcopyable : isCopyableEvent run.event) {actions : List Action} {c : Config}
    (hrun : Backend.run RunsAlone ⟨w, [.copy run .resolveSymbol]⟩ actions = some c)
    (hdone : c.tasks = []) :
    (run.Unsent w ∧ ∃ row deliveries, run.Ends w w.nextCopyId (run.decision w) row deliveries ∧
      c.shared = w.adding row deliveries) ∨ (¬run.Unsent w ∧ c.shared = w) := by
  have hstart : run.Solo w ⟨w, [.copy run .resolveSymbol]⟩ := .reading trivial
  cases (solo_preserved hcopyable).follow hstart hrun with
  | done hunsent hends => exact .inl ⟨hunsent, _, _, hends, rfl⟩
  | refused hsent => exact .inr ⟨hsent, rfl⟩
  | _ => cases hdone

/-! ### OPEN copies -/

/-- What a list of checks comes to. -/
def verdict (checks : List OpenCheck) : RiskCheckResult :=
  match checks.find? (!·.passes) with
  | some check => .refused check.reason
  | none => .allowed

theorem verdict_cons (check : OpenCheck) (rest : List OpenCheck) :
    verdict (check :: rest) = if check.passes = false then .refused check.reason else verdict rest := by
  unfold verdict
  cases hpasses : check.passes <;> simp [hpasses]

theorem checkEntryAllowed_verdict (w : World) (run : CopyRun) :
    checkEntryAllowed (run.entryCheck (w.getOpenPositionsSummary run.slave.id).count) =
      verdict (run.entryChecks w) := by
  unfold checkEntryAllowed entryCheck entryChecks
  simp only [verdict_cons, Bool.not_eq_false', decide_eq_false_iff_not, not_not, not_or, not_forall,
    not_lt, exists_prop, ne_eq]
  rfl

/-- Where an OPEN copy is headed after the checks that come before its row. -/
theorem decision_opens (hopen : run.event.type = .open) :
    (∃ check volume, run.firstRefusal w = some check ∧ run.decision w = .failOrder check.reason volume) ∨
      ∃ resolvedSymbol volume, run.sized = some volume ∧
        run.decision w = .createOrder resolvedSymbol none (some volume) ∧
        run.firstRefusal w = if run.online w then none else some ⟨false, "SLAVE_OFFLINE"⟩ := by
  have hentry := checkEntryAllowed_verdict w run
  unfold verdict at hentry
  unfold decision firstRefusal openChecks
  rw [if_pos hopen, List.find?_append]
  unfold afterPositions
  rw [hentry]
  cases hrefused : (run.entryChecks w).find? (!·.passes) with
  | some check => exact .inl ⟨check, none, rfl, rfl⟩
  | none =>
      unfold sizingCheck sized checkExposureAllowed exposureCheck
      cases hsizing : calculateVolume .double run.sizing with
      | rejected reason => exact .inl ⟨_, run.event.volume, rfl, rfl⟩
      | volume volume =>
          by_cases hexposure : ∀ maxExposure ∈ run.slave.maxExposure,
              Arithmetic.double.add (w.getOpenPositionsSummary run.slave.id).totalVolume volume ≤
                maxExposure.toNumber
          · have hwithin : ¬∃ maxExposure ∈ run.slave.maxExposure.map Decimal.toNumber, maxExposure <
                Arithmetic.double.add (w.getOpenPositionsSummary run.slave.id).totalVolume volume := by
              simpa using hexposure
            refine .inr ⟨w.resolveSlaveSymbol run.slave.id run.event.symbol, volume, rfl, ?_, ?_⟩
            · simp only [if_neg hwithin]
            · cases run.online w <;> simpa using hexposure
          · have hover : ∃ maxExposure ∈ run.slave.maxExposure.map Decimal.toNumber, maxExposure <
                Arithmetic.double.add (w.getOpenPositionsSummary run.slave.id).totalVolume volume := by
              simpa using hexposure
            refine .inl ⟨⟨false, "MAX_EXPOSURE_EXCEEDED"⟩, some volume, ?_, by simp only [if_pos hover]⟩
            simpa using hover

theorem Ends.type {copyId : Uuid} {point : CopyPoint} {row : CopyOrder} {deliveries : List Delivery}
    (h : run.Ends w copyId point row deliveries) : row.type = run.event.type := by
  cases h <;> rfl

/-- The row that an OPEN copy ends with is the one that its checks ask for. -/
theorem Ends.opensRow (hopen : run.event.type = .open) {copyId : Uuid} {row : CopyOrder}
    {deliveries : List Delivery} (h : run.Ends w copyId (run.decision w) row deliveries) :
    run.OpensRow w row deliveries := by
  unfold OpensRow
  rcases decision_opens (w := w) hopen with ⟨check, volume, hrefused, hdecision⟩ |
    ⟨resolvedSymbol, volume, hsizing, hdecision, hrefused⟩
  · rw [hdecision] at h
    rw [hrefused]
    cases h
    exact ⟨rfl, rfl, rfl⟩
  · have honGrid : (some (Decimal.ofNumber 2 volume)).map Decimal.toNumber = some volume ↔
        Decimal.OnGrid 2 volume := by
      rw [Option.map_some, Option.some.injEq]
      exact sized_stored_iff hsizing
    rw [hdecision] at h
    rw [hrefused]
    unfold online
    cases h with
    | queued _ _ _ hplatform honline =>
        simp only [if_pos hplatform, honline, if_true]
        exact ⟨volume, hsizing, rfl, honGrid, rfl, trivial⟩
    | unqueued _ _ _ hplatform hoffline =>
        simp only [if_pos hplatform, hoffline]
        exact ⟨rfl, rfl, trivial⟩
    | pushed _ _ _ hplatform honline =>
        simp only [if_neg hplatform, honline, if_true]
        exact ⟨volume, hsizing, rfl, honGrid, rfl, _, rfl, rfl, rfl⟩
    | unpushed _ _ _ hplatform hoffline =>
        simp only [if_neg hplatform, hoffline]
        exact ⟨rfl, rfl, trivial⟩

/-! ### CLOSE and MODIFY copies -/

theorem Ends.unique {copyId : Uuid} {point : CopyPoint} {row row' : CopyOrder}
    {deliveries deliveries' : List Delivery} (h : run.Ends w copyId point row deliveries)
    (h' : run.Ends w copyId point row' deliveries') : row = row' ∧ deliveries = deliveries' := by
  cases h <;> cases h' <;> first | exact ⟨rfl, rfl⟩ | simp_all

section

variable {run' : CopyRun} (h : run.SameUngated run') (masters : List Master) (slaves : List Slave)

include h

theorem SameUngated.slaveId : run'.slave.id = run.slave.id :=
  show run'.slave.ungated.id = _ by rw [h.slave]; rfl

theorem SameUngated.platform : run'.slave.platform = run.slave.platform :=
  show run'.slave.ungated.platform = _ by rw [h.slave]; rfl

theorem SameUngated.order : run'.order = run.order := by
  funext copyId status requestedVolume errorReason
  simp only [CopyRun.order, h.slaveId, h.tradeEventId, h.event]

theorem SameUngated.instruction : run'.instruction = run.instruction := by
  funext copyId resolvedSymbol slaveTicket volume
  simp only [CopyRun.instruction, h.event]

theorem SameUngated.unsent_iff : run'.Unsent (w.withAccounts masters slaves) ↔ run.Unsent w := by
  unfold Unsent World.withAccounts
  rw [h.slaveId, h.tradeEventId]

theorem SameUngated.decision_eq (htype : run.event.type ≠ .open) :
    run'.decision (w.withAccounts masters slaves) = run.decision w := by
  unfold decision
  rw [if_neg htype, if_neg (h.event ▸ htype), h.slaveId, h.event]
  unfold afterTicket
  rw [h.event]
  rfl

/-- What a run ends with does not depend on the limits, the sizing or the figures of anyone. -/
theorem SameUngated.ends {copyId : Uuid} {point : CopyPoint} {row : CopyOrder}
    {deliveries : List Delivery} (hends : run.Ends w copyId point row deliveries) :
    run'.Ends (w.withAccounts masters slaves) copyId point row deliveries := by
  have hconnected : (w.withAccounts masters slaves).isSlaveConnected run'.slave.id =
      w.isSlaveConnected run.slave.id := by rw [h.slaveId]; rfl
  have hconnector : (w.withAccounts masters slaves).hasOnlineConnector run'.slave.id =
      w.hasOnlineConnector run.slave.id := by rw [h.slaveId]; rfl
  have hfailed : run'.failedOrder = run.failedOrder := by
    funext copyId reason volume
    simp only [failedOrder, h.order]
  have hpending : run'.pendingOrder = run.pendingOrder := by
    funext copyId volume
    simp only [pendingOrder, h.order]
  cases hends with
  | failed reason volume => exact hfailed ▸ .failed reason volume
  | queued resolvedSymbol slaveTicket volume hplatform honline =>
      exact hpending ▸ .queued _ _ _ (h.platform.trans hplatform) (hconnector.trans honline)
  | unqueued resolvedSymbol slaveTicket volume hplatform hoffline =>
      exact hfailed ▸ .unqueued _ _ _ (h.platform.trans hplatform) (hconnector.trans hoffline)
  | pushed resolvedSymbol slaveTicket volume hplatform honline =>
      rw [← hpending, ← h.instruction, ← h.slaveId]
      exact .pushed _ _ _ (h.platform ▸ hplatform) (hconnected.trans honline)
  | unpushed resolvedSymbol slaveTicket volume hplatform hoffline =>
      exact hfailed ▸ .unpushed _ _ _ (h.platform ▸ hplatform) (hconnected.trans hoffline)

end

end CopyRun

/-- A slave whose lot step its column has rounded to nothing, and which takes half of every volume. -/
def Sample.unsteppedSlave : Slave := { mt5Slave with lotStep := ⟨0⟩, multiplier := ⟨5000⟩ }

open Sample in
/-- Half of 0.15 lots are pushed, and 0.08 are written. -/
theorem pushed_volume_written_otherwise :
    ∃ c, Backend.run RunsAlone ⟨(config unsteppedSlave [smallOpenEvent]).shared,
        [.copy ⟨unsteppedSlave, 0, smallOpenEvent, ⟨none, none⟩⟩ .resolveSymbol]⟩ (settle 5) =
          some c ∧
      c.tasks = [] ∧ ∃ row ∈ c.shared.copyOrders, ∃ delivery ∈ c.shared.sent,
        delivery.instruction.copyId = row.id ∧
        row.requestedVolume.map Decimal.toNumber ≠ delivery.instruction.volume := by
  decide +kernel

/-- What a lone run comes to. As an OPEN copy it gets through exactly when every check passes, and names
the first that does not; as a CLOSE or a MODIFY copy it does the same under all limits, sizings and
figures. -/
theorem gates_opens_only (w : World) (run : CopyRun) (actions : List Action) (c : Config)
    (hrun : Backend.run RunsAlone ⟨w, [.copy run .resolveSymbol]⟩ actions = some c)
    (hdone : c.tasks = []) :
    (run.event.type = .open → run.OpensAs w c.shared) ∧
    (run.event.type = .close ∨ run.event.type = .modify →
      ∀ masters slaves run' actions' c', run.SameUngated run' →
        Backend.run RunsAlone ⟨w.withAccounts masters slaves, [.copy run' .resolveSymbol]⟩ actions' =
          some c' → c'.tasks = [] → c'.shared = c.shared.withAccounts masters slaves) := by
  constructor
  · intro hopen
    rcases CopyRun.solo_ends (.inl hopen) hrun hdone with
      ⟨hunsent, row, deliveries, hends, hshared⟩ | ⟨hsent, hshared⟩
    · refine ⟨fun _ => ⟨row, deliveries, hshared, ?_, hends.key.2.1, hends.opensRow hopen⟩,
        fun hsent => absurd hunsent hsent⟩
      exact hends.type.trans hopen
    · exact ⟨fun hunsent => absurd hunsent hsent, fun _ => hshared⟩
  · intro htype masters slaves run' actions' c' hsame hrun' hdone'
    have hopen : run.event.type ≠ .open := by rcases htype with h | h <;> simp [h]
    have hcopyable' : isCopyableEvent run'.event := by
      rw [hsame.event]
      exact .inr htype
    rcases CopyRun.solo_ends (.inr htype) hrun hdone with
      ⟨hunsent, row, deliveries, hends, hshared⟩ | ⟨hsent, hshared⟩
    · rcases CopyRun.solo_ends hcopyable' hrun' hdone' with
        ⟨hunsent', row', deliveries', hends', hshared'⟩ | ⟨hsent', hshared'⟩
      · rw [hsame.decision_eq masters slaves hopen] at hends'
        obtain ⟨rfl, rfl⟩ := (hsame.ends masters slaves hends).unique hends'
        rw [hshared', hshared]
        rfl
      · exact absurd ((hsame.unsent_iff masters slaves).mpr hunsent) hsent'
    · rcases CopyRun.solo_ends hcopyable' hrun' hdone' with
        ⟨hunsent', -⟩ | ⟨-, hshared'⟩
      · exact absurd ((hsame.unsent_iff masters slaves).mp hunsent') hsent
      · rw [hshared', hshared]

namespace Sample

/-- The event with the identifier `tradeEventId`, copied to the slave. -/
def copyOf (slave : Slave) (tradeEventId : Uuid) (event : NormalizedTradeEvent) : CopyRun :=
  ⟨slave, tradeEventId, event, ⟨none, none⟩⟩

def stoppedSlave : Slave :=
  { mt5Slave with emergencyStop := true, maxPositions := some 0, maxExposure := some ⟨0⟩ }

/-- The OPEN was copied and executed. -/
def opened : World :=
  { (config mt5Slave [openEvent, closeEvent]).shared with
    copyOrders := [{ (copyOf mt5Slave 0 openEvent).pendingOrder 1 (some 1) with
      status := .executed, slaveTicket := some "71" }] }

end Sample

open Sample in
/-- A stopped slave opens nothing, but its position is closed as it would be otherwise. -/
theorem stopped_slave_still_closes :
    (∃ c, Backend.run RunsAlone ⟨opened, [.copy (copyOf stoppedSlave 1 otherOpenEvent) .resolveSymbol]⟩
        (settle 4) = some c ∧ (copyOf stoppedSlave 1 otherOpenEvent).OpensAs opened c.shared) ∧
    ∃ c c', Backend.run RunsAlone ⟨opened, [.copy (copyOf mt5Slave 1 closeEvent) .resolveSymbol]⟩
        (settle 4) = some c ∧
      Backend.run RunsAlone ⟨opened.withAccounts [] [stoppedSlave],
        [.copy (copyOf stoppedSlave 1 closeEvent) .resolveSymbol]⟩ (settle 4) = some c' ∧
      c.shared.sent.length = 1 ∧ c'.shared = c.shared.withAccounts [] [stoppedSlave] := by
  have hopens : ∃ c, Backend.run RunsAlone
      ⟨opened, [.copy (copyOf stoppedSlave 1 otherOpenEvent) .resolveSymbol]⟩ (settle 4) = some c ∧
        c.tasks = [] := by
    decide +kernel
  have hcloses : ∃ c, Backend.run RunsAlone
      ⟨opened, [.copy (copyOf mt5Slave 1 closeEvent) .resolveSymbol]⟩ (settle 4) = some c ∧
        c.tasks = [] ∧ c.shared.sent.length = 1 := by
    decide +kernel
  have hstopped : ∃ c, Backend.run RunsAlone ⟨opened.withAccounts [] [stoppedSlave],
      [.copy (copyOf stoppedSlave 1 closeEvent) .resolveSymbol]⟩ (settle 4) = some c ∧
        c.tasks = [] := by
    decide +kernel
  obtain ⟨c, hrun, hdone⟩ := hopens
  obtain ⟨closed, hclosed, hdone', hsent⟩ := hcloses
  obtain ⟨closed', hclosed', hdone''⟩ := hstopped
  refine ⟨⟨c, hrun, (gates_opens_only _ _ _ c hrun hdone).1 rfl⟩, closed, closed', hclosed, hclosed',
    hsent, ?_⟩
  exact (gates_opens_only _ _ _ closed hclosed hdone').2 (.inl rfl) [] [stoppedSlave]
    (copyOf stoppedSlave 1 closeEvent) (settle 4) closed' ⟨rfl, rfl, rfl⟩ hclosed' hdone''

end ForexCopy
