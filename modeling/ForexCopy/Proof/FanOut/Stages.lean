import ForexCopy.Proof.Terminal.Alone

/-!
# One slave's part of a fan-out

A run of `copyToSlave` reads and writes only the copy orders of its own slave. So the runs of other
slaves leave it where it is, and while its own operations succeed it comes to the row and to the
instruction that its slave's copy orders determined when it started.
-/

namespace ForexCopy

/-- What the backend holds of a slave: its copy orders, and what was handed to it. -/
structure SlaveView where
  orders : List CopyOrder
  sent : List Delivery

def World.view (w : World) (slaveId : Uuid) : SlaveView where
  orders := w.copyOrders.filter (·.slaveId = slaveId)
  sent := w.sent.filter (·.slaveId = slaveId)

def SlaveView.adding (view : SlaveView) (order : CopyOrder) (deliveries : List Delivery) : SlaveView where
  orders := view.orders ++ [order]
  sent := view.sent ++ deliveries

/-- What a run reads beside the copy orders. -/
structure World.SameSetting (w w' : World) : Prop where
  symbolMappings : w'.symbolMappings = w.symbolMappings
  connectors : w'.connectors = w.connectors
  connections : w'.connections = w.connections
  scan : w'.scan = w.scan
  now : w'.now = w.now

namespace CopyRun

/-- Where the reads of a run lead. -/
def decision (w : World) (run : CopyRun) : CopyPoint :=
  let resolvedSymbol := w.resolveSlaveSymbol run.slave.id run.event.symbol
  if run.event.type = .open then
    run.afterPositions resolvedSymbol (w.getOpenPositionsSummary run.slave.id)
  else
    run.afterTicket resolvedSymbol
      (findExecutedOpenSlaveTicket run.slave.id run.event.masterTicket w.copyOrders)

/-- The run has read what `w` holds of its slave, as far as it has got. -/
def HasRead (w : World) (run : CopyRun) : CopyPoint → Prop
  | .resolveSymbol => True
  | .findTicket resolvedSymbol => run.event.type ≠ .open ∧
    resolvedSymbol = w.resolveSlaveSymbol run.slave.id run.event.symbol
  | .readPositions resolvedSymbol => run.event.type = .open ∧
    resolvedSymbol = w.resolveSlaveSymbol run.slave.id run.event.symbol
  | .readCloses resolvedSymbol opens => run.event.type = .open ∧
    resolvedSymbol = w.resolveSlaveSymbol run.slave.id run.event.symbol ∧
    opens = w.findExecuted run.slave.id .open
  | .readOpens resolvedSymbol closes => run.event.type = .open ∧
    resolvedSymbol = w.resolveSlaveSymbol run.slave.id run.event.symbol ∧
    closes = w.findExecuted run.slave.id .close
  | point => point = run.decision w

/-- The row and the deliveries that a run ends with from where its reads have led it. -/
inductive Ends (w : World) (run : CopyRun) (copyId : Uuid) :
    CopyPoint → CopyOrder → List Delivery → Prop
  | failed (reason : String) (volume : Option ℚ) :
      Ends w run copyId (.failOrder reason volume) (run.failedOrder copyId reason volume) []
  | queued (resolvedSymbol : String) (slaveTicket : Option String) (volume : Option ℚ)
      (hplatform : run.slave.platform = "MT4") (honline : w.hasOnlineConnector run.slave.id = true) :
      Ends w run copyId (.createOrder resolvedSymbol slaveTicket volume)
        (run.pendingOrder copyId volume) []
  | unqueued (resolvedSymbol : String) (slaveTicket : Option String) (volume : Option ℚ)
      (hplatform : run.slave.platform = "MT4") (hoffline : w.hasOnlineConnector run.slave.id = false) :
      Ends w run copyId (.createOrder resolvedSymbol slaveTicket volume)
        (run.failedOrder copyId "SLAVE_OFFLINE" volume) []
  | pushed (resolvedSymbol : String) (slaveTicket : Option String) (volume : Option ℚ)
      (hplatform : run.slave.platform ≠ "MT4") (honline : w.isSlaveConnected run.slave.id = true) :
      Ends w run copyId (.createOrder resolvedSymbol slaveTicket volume)
        ((run.pendingOrder copyId volume).markSent w.now)
        [⟨.push, run.slave.id, run.instruction copyId resolvedSymbol slaveTicket volume⟩]
  | unpushed (resolvedSymbol : String) (slaveTicket : Option String) (volume : Option ℚ)
      (hplatform : run.slave.platform ≠ "MT4") (hoffline : w.isSlaveConnected run.slave.id = false) :
      Ends w run copyId (.createOrder resolvedSymbol slaveTicket volume)
        (run.failedOrder copyId "SLAVE_OFFLINE" volume) []

/-- Where a run is that started in `w` and whose operations have succeeded: what the backend holds of
its slave, and the call that is left of it. -/
inductive Stage (w : World) (run : CopyRun) (view : SlaveView) : List Task → Prop
  | reading {point : CopyPoint} (hread : run.HasRead w point) (hview : view = w.view run.slave.id) :
      Stage w run view [.copy run point]
  | finding {copyId : Uuid} {resolvedSymbol : String} {slaveTicket : Option String}
      {volume : Option ℚ}
      (hdecision : run.decision w = .createOrder resolvedSymbol slaveTicket volume)
      (hplatform : run.slave.platform = "MT4")
      (hview : view = (w.view run.slave.id).adding (run.pendingOrder copyId volume) []) :
      Stage w run view [.copy run (.findConnector copyId)]
  | failing {copyId : Uuid} {volume : Option ℚ}
      (hends : run.Ends w copyId (run.decision w) (run.failedOrder copyId "SLAVE_OFFLINE" volume) [])
      (hview : view = (w.view run.slave.id).adding (run.pendingOrder copyId volume) []) :
      Stage w run view [.copy run (.markOffline copyId)]
  | sending {copyId : Uuid} {volume : Option ℚ} {deliveries : List Delivery}
      (hends : run.Ends w copyId (run.decision w) ((run.pendingOrder copyId volume).markSent w.now)
        deliveries)
      (hview : view = (w.view run.slave.id).adding (run.pendingOrder copyId volume) deliveries) :
      Stage w run view [.copy run (.markSent copyId true)]
  | done {copyId : Uuid} {row : CopyOrder} {deliveries : List Delivery}
      (hends : run.Ends w copyId (run.decision w) row deliveries)
      (hview : view = (w.view run.slave.id).adding row deliveries) :
      Stage w run view []

end CopyRun

/-! ### Views -/

section

variable {w w' : World} {slaveId : Uuid}

theorem executedOrders_view (type : TradeEventType) :
    executedOrders slaveId type w.copyOrders = executedOrders slaveId type (w.view slaveId).orders := by
  unfold executedOrders World.view
  rw [List.filter_filter]
  refine List.filter_congr fun order _ => ?_
  by_cases h : order.slaveId = slaveId <;> simp [h]

theorem findExecutedOpenSlaveTicket_view (masterTicket : String) :
    findExecutedOpenSlaveTicket slaveId masterTicket w.copyOrders =
      findExecutedOpenSlaveTicket slaveId masterTicket (w.view slaveId).orders := by
  unfold findExecutedOpenSlaveTicket World.view
  rw [← List.filter_reverse, List.find?_filter]
  refine congrArg (Option.bind · CopyOrder.slaveTicket)
    (congrArg (List.find? · _) (funext fun order => ?_))
  by_cases h : order.slaveId = slaveId <;> simp [h]

theorem CopyRun.unsent_view {run : CopyRun} (h : w'.view run.slave.id = w.view run.slave.id)
    (hunsent : run.Unsent w) : run.Unsent w' := by
  intro hmem
  obtain ⟨order, horder, hkey⟩ := List.mem_map.mp hmem
  have hslave : order.slaveId = run.slave.id := congrArg Prod.snd hkey
  have hview : order ∈ (w'.view run.slave.id).orders := List.mem_filter.mpr ⟨horder, by simp [hslave]⟩
  rw [h] at hview
  exact hunsent (List.mem_map.mpr ⟨order, List.mem_of_mem_filter hview, hkey⟩)

namespace World

theorem view_insertOrder {order : CopyOrder} (hslave : order.slaveId = slaveId) :
    (w.insertOrder order).view slaveId = (w.view slaveId).adding order [] := by
  simp [view, SlaveView.adding, hslave]

theorem view_insertOrder_of_ne {order : CopyOrder} (hslave : order.slaveId ≠ slaveId) :
    (w.insertOrder order).view slaveId = w.view slaveId := by
  simp [view, hslave]

theorem view_push (instruction : CopyInstruction) :
    (w.push slaveId instruction).view slaveId =
      ⟨(w.view slaveId).orders, (w.view slaveId).sent ++ [⟨.push, slaveId, instruction⟩]⟩ := by
  simp [view]

theorem view_push_of_ne {other : Uuid} (hslave : other ≠ slaveId) (instruction : CopyInstruction) :
    (w.push other instruction).view slaveId = w.view slaveId := by
  simp [view, hslave]

theorem view_updateOrder {view : SlaveView} {row : CopyOrder} {deliveries : List Delivery}
    {change : CopyOrder → CopyOrder} (hw : w.Sound)
    (hview : w.view slaveId = view.adding row deliveries) (hchange : KeepsCore change) :
    (w.updateOrder row.id change).view slaveId = view.adding (change row) deliveries := by
  obtain ⟨horders, hsent⟩ := SlaveView.mk.inj hview
  have hids : ((view.orders ++ [row]).map CopyOrder.id).Nodup :=
    horders ▸ hw.ids.sublist (List.filter_sublist.map _)
  have hold : ∀ order ∈ view.orders, order.id ≠ row.id := by
    rw [List.map_append, List.nodup_append] at hids
    exact fun order horder => hids.2.2 _ (List.mem_map_of_mem horder) _ (by simp)
  have hslave : ∀ order : CopyOrder, decide ((change order).slaveId = slaveId) =
      decide (order.slaveId = slaveId) := fun order => by rw [hchange.slaveId]
  have hupdated : (Table.update CopyOrder.id row.id change w.copyOrders).filter (·.slaveId = slaveId) =
      view.orders ++ [change row] := by
    rw [Table.filter_update _ hslave, horders, Table.update_append_last hold rfl]
  exact congr (congrArg SlaveView.mk hupdated) hsent

theorem view_updateOrder_of_ne {copyId : Uuid} {change : CopyOrder → CopyOrder}
    (hchange : KeepsCore change)
    (hforeign : ∀ order ∈ w.copyOrders, order.id = copyId → order.slaveId ≠ slaveId) :
    (w.updateOrder copyId change).view slaveId = w.view slaveId := by
  have horders : (w.updateOrder copyId change).copyOrders.filter (·.slaveId = slaveId) =
      w.copyOrders.filter (·.slaveId = slaveId) := by
    refine Table.filter_update_of_notMem fun order horder hid => ?_
    simp [hchange.slaveId, hforeign order horder hid]
  exact congrArg (SlaveView.mk · _) horders

end World

end

/-! ### The run's own steps -/

namespace World.SameSetting

variable {w w' w'' : World}

theorem refl (w : World) : w.SameSetting w := ⟨rfl, rfl, rfl, rfl, rfl⟩

theorem trans (h : w.SameSetting w') (h' : w'.SameSetting w'') : w.SameSetting w'' where
  symbolMappings := h'.symbolMappings.trans h.symbolMappings
  connectors := h'.connectors.trans h.connectors
  connections := h'.connections.trans h.connections
  scan := h'.scan.trans h.scan
  now := h'.now.trans h.now

theorem resolveSlaveSymbol (h : w.SameSetting w') (slaveId : Uuid) (masterSymbol : String) :
    w'.resolveSlaveSymbol slaveId masterSymbol = w.resolveSlaveSymbol slaveId masterSymbol := by
  unfold World.resolveSlaveSymbol
  rw [h.symbolMappings]

theorem isSlaveConnected (h : w.SameSetting w') (slaveId : Uuid) :
    w'.isSlaveConnected slaveId = w.isSlaveConnected slaveId := by
  unfold World.isSlaveConnected
  rw [h.connections]

theorem hasOnlineConnector (h : w.SameSetting w') (slaveId : Uuid) :
    w'.hasOnlineConnector slaveId = w.hasOnlineConnector slaveId := by
  unfold World.hasOnlineConnector
  rw [h.connectors]

end World.SameSetting

namespace CopyRun

variable {w w' : World} {run : CopyRun} {reply : Reply}

theorem decision_cases (w : World) (run : CopyRun) :
    (∃ reason volume, run.decision w = .failOrder reason volume) ∨
      ∃ resolvedSymbol slaveTicket volume,
        run.decision w = .createOrder resolvedSymbol slaveTicket volume := by
  simp only [decision, afterPositions, afterTicket]
  repeat' split
  all_goals simp

theorem hasRead_decision (w : World) (run : CopyRun) : run.HasRead w (run.decision w) := by
  rcases run.decision_cases w with ⟨_, _, h⟩ | ⟨_, _, _, h⟩ <;> rw [h] <;> exact h.symm

/-- The next read of a run is what it would have been at the start. -/
theorem hasRead_step (hcopyable : isCopyableEvent run.event)
    (hsetting : w.SameSetting w') (hview : w'.view run.slave.id = w.view run.slave.id)
    (hreply : reply.Resolves) {point : CopyPoint} (hread : run.HasRead w point)
    (hreading : point ≠ run.decision w) :
    ∃ point', run.HasRead w point' ∧
      Task.step reply w' (.copy run point) = (w', [.copy run point']) := by
  have hexecuted : ∀ type, w'.findExecuted run.slave.id type = w.findExecuted run.slave.id type :=
      fun type => by
    unfold World.findExecuted
    rw [executedOrders_view, executedOrders_view (w := w), hview, hsetting.scan]
  cases point with
  | resolveSymbol =>
      refine ⟨run.afterSymbol (w.resolveSlaveSymbol run.slave.id run.event.symbol), ?_, ?_⟩
      · unfold afterSymbol
        split_ifs with hacts hopen
        · exact ⟨by rcases hacts with h | h <;> simp [h], rfl⟩
        · exact ⟨hopen, rfl⟩
        · exact absurd (hcopyable.resolve_left hopen) hacts
      · simp only [Task.step, copyToSlaveStep, hreply.query, hsetting.resolveSlaveSymbol]
  | findTicket resolvedSymbol =>
      obtain ⟨htype, rfl⟩ := hread
      refine ⟨run.decision w, run.hasRead_decision w, ?_⟩
      have hticket : findExecutedOpenSlaveTicket run.slave.id run.event.masterTicket w'.copyOrders =
          findExecutedOpenSlaveTicket run.slave.id run.event.masterTicket w.copyOrders := by
        rw [findExecutedOpenSlaveTicket_view, findExecutedOpenSlaveTicket_view (w := w), hview]
      simp only [Task.step, copyToSlaveStep, hreply.query, hticket, decision, if_neg htype]
  | readPositions resolvedSymbol =>
      obtain ⟨htype, rfl⟩ := hread
      rcases hreply with rfl | rfl
      · exact ⟨.readCloses _ _, ⟨htype, rfl, hexecuted .open⟩, rfl⟩
      · exact ⟨.readOpens _ _, ⟨htype, rfl, hexecuted .close⟩, rfl⟩
  | readCloses resolvedSymbol opens =>
      obtain ⟨htype, rfl, rfl⟩ := hread
      refine ⟨run.decision w, run.hasRead_decision w, ?_⟩
      simp only [Task.step, copyToSlaveStep, hreply.query, hexecuted, decision, if_pos htype]
      rfl
  | readOpens resolvedSymbol closes =>
      obtain ⟨htype, rfl, rfl⟩ := hread
      refine ⟨run.decision w, run.hasRead_decision w, ?_⟩
      simp only [Task.step, copyToSlaveStep, hreply.query, hexecuted, decision, if_pos htype]
      rfl
  | failOrder | createOrder | findConnector | markOffline | markSent => exact absurd hread hreading

theorem failOrder_step (hreply : reply.Resolves) (hunsent : run.Unsent w) (reason : String)
    (volume : Option ℚ) : Task.step reply w (.copy run (.failOrder reason volume)) =
      (w.insertOrder (run.failedOrder w.nextCopyId reason volume), []) := by
  have hcreate : w.createOrder (run.failedOrder w.nextCopyId reason volume) =
      some (w.insertOrder (run.failedOrder w.nextCopyId reason volume)) := if_neg hunsent
  simp only [Task.step, copyToSlaveStep, hcreate, hreply.settle]

theorem createOrder_step (hreply : reply.Resolves) (hunsent : run.Unsent w) (resolvedSymbol : String)
    (slaveTicket : Option String) (volume : Option ℚ) :
    Task.step reply w (.copy run (.createOrder resolvedSymbol slaveTicket volume)) =
      run.dispatch (w.insertOrder (run.pendingOrder w.nextCopyId volume)) w.nextCopyId resolvedSymbol
        slaveTicket volume := by
  have hcreate : w.createOrder (run.pendingOrder w.nextCopyId volume) =
      some (w.insertOrder (run.pendingOrder w.nextCopyId volume)) := if_neg hunsent
  rcases hreply with rfl | rfl <;> simp only [Task.step, copyToSlaveStep, hcreate]

/-- The insert and what it sends. -/
theorem Stage.of_dispatch (hsetting : w.SameSetting w')
    (hview : w'.view run.slave.id = w.view run.slave.id)
    {resolvedSymbol : String} {slaveTicket : Option String} {volume : Option ℚ}
    (hdecision : run.decision w = .createOrder resolvedSymbol slaveTicket volume) :
    let outcome := run.dispatch (w'.insertOrder (run.pendingOrder w'.nextCopyId volume)) w'.nextCopyId
      resolvedSymbol slaveTicket volume
    w'.SameSetting outcome.1 ∧ run.Stage w (outcome.1.view run.slave.id) outcome.2 := by
  intro outcome
  have hinserted : (w'.insertOrder (run.pendingOrder w'.nextCopyId volume)).view run.slave.id =
      (w.view run.slave.id).adding (run.pendingOrder w'.nextCopyId volume) [] :=
    hview ▸ World.view_insertOrder rfl
  have hconnected : (w'.insertOrder (run.pendingOrder w'.nextCopyId volume)).isSlaveConnected
    run.slave.id = w.isSlaveConnected run.slave.id := hsetting.isSlaveConnected _
  by_cases hplatform : run.slave.platform = "MT4"
  · simp only [outcome, dispatch, if_pos hplatform]
    exact ⟨⟨rfl, rfl, rfl, rfl, rfl⟩, .finding hdecision hplatform hinserted⟩
  · cases honline : w.isSlaveConnected run.slave.id with
    | false =>
        simp only [outcome, dispatch, if_neg hplatform, hconnected, honline]
        refine ⟨⟨rfl, rfl, rfl, rfl, rfl⟩, .failing ?_ hinserted⟩
        rw [hdecision]
        exact .unpushed _ _ _ hplatform honline
    | true =>
        simp only [outcome, dispatch, if_neg hplatform, World.sendToSlave, hconnected, honline]
        have hends : run.Ends w w'.nextCopyId (run.decision w)
            ((run.pendingOrder w'.nextCopyId volume).markSent w.now) [⟨.push, run.slave.id,
              run.instruction w'.nextCopyId resolvedSymbol slaveTicket volume⟩] := by
          rw [hdecision]
          exact .pushed _ _ _ hplatform honline
        refine ⟨⟨rfl, rfl, rfl, rfl, rfl⟩, .sending hends ?_⟩
        simp only [if_true]
        rw [World.view_push, hinserted]
        simp [SlaveView.adding]

/-- A step of the run whose operation succeeds. -/
theorem Stage.own_step (hcopyable : isCopyableEvent run.event) (hunsent : run.Unsent w)
    (hsetting : w.SameSetting w') (hsound : w'.Sound) (hreply : reply.Resolves) {task : Task}
    (h : run.Stage w (w'.view run.slave.id) [task]) {w'' : World} {next : List Task}
    (hmove : task.step reply w' = (w'', next)) :
    w'.SameSetting w'' ∧ run.Stage w (w''.view run.slave.id) next := by
  cases h with
  | @reading point hread hview =>
      have hunsent' : run.Unsent w' := unsent_view hview hunsent
      by_cases hreading : point = run.decision w
      · subst hreading
        rcases run.decision_cases w with ⟨reason, volume, hdecision⟩ |
          ⟨resolvedSymbol, slaveTicket, volume, hdecision⟩
        · rw [hdecision, failOrder_step hreply hunsent'] at hmove
          obtain ⟨rfl, rfl⟩ := Prod.mk.inj hmove
          have hends : run.Ends w w'.nextCopyId (run.decision w)
              (run.failedOrder w'.nextCopyId reason volume) [] := by
            rw [hdecision]
            exact .failed reason volume
          exact ⟨⟨rfl, rfl, rfl, rfl, rfl⟩, .done hends (hview ▸ World.view_insertOrder rfl)⟩
        · rw [hdecision, createOrder_step hreply hunsent'] at hmove
          have hdispatched := of_dispatch hsetting hview hdecision
          rw [hmove] at hdispatched
          exact hdispatched
      · obtain ⟨point', hread', hstep⟩ := hasRead_step hcopyable hsetting hview hreply hread hreading
        obtain ⟨rfl, rfl⟩ := Prod.mk.inj (hstep.symm.trans hmove)
        exact ⟨.refl _, .reading hread' hview⟩
  | @finding copyId resolvedSymbol slaveTicket volume hdecision hplatform hview =>
      simp only [Task.step, copyToSlaveStep, hreply.query, hsetting.hasOnlineConnector] at hmove
      obtain ⟨rfl, rfl⟩ := Prod.mk.inj hmove
      refine ⟨.refl _, ?_⟩
      cases honline : w.hasOnlineConnector run.slave.id with
      | true =>
          have hends : run.Ends w copyId (run.decision w) (run.pendingOrder copyId volume) [] := by
            rw [hdecision]
            exact .queued _ _ _ hplatform honline
          exact .done hends hview
      | false =>
          refine .failing ?_ hview
          rw [hdecision]
          exact .unqueued _ _ _ hplatform honline
  | @failing copyId volume hends hview =>
      simp only [Task.step, copyToSlaveStep, hreply.settle] at hmove
      obtain ⟨rfl, rfl⟩ := Prod.mk.inj hmove
      refine ⟨⟨rfl, rfl, rfl, rfl, rfl⟩, .done hends ?_⟩
      exact World.view_updateOrder hsound hview (keepsCore_markFailed _)
  | @sending copyId volume deliveries hends hview =>
      simp only [Task.step, copyToSlaveStep, hreply.settle, if_true] at hmove
      obtain ⟨rfl, rfl⟩ := Prod.mk.inj hmove
      refine ⟨⟨rfl, rfl, rfl, rfl, rfl⟩, .done hends ?_⟩
      rw [hsetting.now]
      exact World.view_updateOrder hsound hview (keepsCore_markSent _)

theorem Stage.copies {view : SlaveView} {tasks : List Task} (h : run.Stage w view tasks) :
    tasks = [] ∨ ∃ point, tasks = [.copy run point] := by
  cases h with
  | done => exact .inl rfl
  | reading | finding | failing | sending => exact .inr ⟨_, rfl⟩

end CopyRun

/-! ### The steps of other runs -/

/-- A step of a run for another slave. -/
theorem Task.Step.foreign {reply : Reply} {w w' : World} {next : List Task} {run : CopyRun}
    {point : CopyPoint} (hstep : Task.Step reply w (.copy run point) w' next) (hsound : w.Sound)
    (hgrounded : (Task.copy run point).Grounded w) {slaveId : Uuid} (hforeign : run.slave.id ≠ slaveId) :
    w'.view slaveId = w.view slaveId := by
  have hrow : ∀ copyId volume, (run.pendingOrder copyId volume).core ∈ w.cores →
      ∀ order ∈ w.copyOrders, order.id = copyId → order.slaveId ≠ slaveId := by
    intro copyId volume hcore order horder hid
    have hsame := hsound.core_eq hcore horder hid
    exact fun hslave => hforeign ((CopyOrder.slaveId_of_core hsame).symm.trans hslave)
  cases hstep with
  | background htask => exact htask.elim
  | refuse => exact World.view_insertOrder_of_ne hforeign
  | insert => exact World.view_insertOrder_of_ne hforeign
  | push => exact (World.view_push_of_ne hforeign _).trans (World.view_insertOrder_of_ne hforeign)
  | markOffline _ copyId =>
      obtain ⟨volume, hcore⟩ := hgrounded
      exact World.view_updateOrder_of_ne (keepsCore_markFailed _) (hrow copyId volume hcore)
  | markSent _ copyId =>
      obtain ⟨-, volume, hcore⟩ := hgrounded
      exact World.view_updateOrder_of_ne
        (keepsCore_ite (keepsCore_markSent _) (keepsCore_markFailed _)) (hrow copyId volume hcore)
  | _ => rfl

/-- A run changes nothing but copy orders and what is handed over, and goes on as the same run. -/
theorem Task.Step.copying {reply : Reply} {w w' : World} {next : List Task} {run : CopyRun}
    {point : CopyPoint} (hstep : Task.Step reply w (.copy run point) w' next) :
    w.SameSetting w' ∧ ∀ t ∈ next, ∃ point', t = .copy run point' := by
  cases hstep with
  | background htask => exact htask.elim
  | insert _ _ _ _ hkey hnext =>
      refine ⟨⟨rfl, rfl, rfl, rfl, rfl⟩, fun t ht => ?_⟩
      obtain ⟨rfl, -⟩ | rfl := hnext.mem ht
      · exact ⟨_, rfl⟩
      · exact ⟨_, rfl⟩
  | _ => exact ⟨⟨rfl, rfl, rfl, rfl, rfl⟩, by simp⟩

end ForexCopy
