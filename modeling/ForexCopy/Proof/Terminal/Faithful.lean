import ForexCopy.Proof.Terminal.Results

/-!
# The view is faithful

The view shows the terminal in every state without an unrecorded result, provided that the volume in an
instruction is the one stored in its row. That is so for a row that is polled. A push carries the volume
as it was calculated, and a lot step that its column has rounded to nothing leaves the volume off the
column's grid, as does a product of doubles.
-/

namespace ForexCopy

open Machine

/-! ### Dispatches -/

namespace CopyRun

/-- The OPEN copies of its master ticket are of the event itself. -/
def OpensOnce (w : World) (run : CopyRun) : Prop :=
  run.event.type = .open → ∀ order ∈ w.copyOrders, order.slaveId = run.slave.id →
    order.type = .open → order.masterTicket = run.event.masterTicket →
    order.tradeEventId = run.tradeEventId

instance (w : World) (run : CopyRun) : Decidable (run.OpensOnce w) :=
  inferInstanceAs (Decidable (_ → ∀ order ∈ w.copyOrders, _))

/-- An OPEN that is going to be pushed has a volume of whole hundredths of a lot. -/
def StoresVolume (w : World) (run : CopyRun) : Prop :=
  run.event.type = .open → run.slave.platform ≠ "MT4" → w.isSlaveConnected run.slave.id = true →
    checkEntryAllowed (run.entryCheck
      (w.getOpenPositionsSummary run.slave.id).count) = .allowed →
    ∀ volume ∈ run.sized,
      checkExposureAllowed (run.exposureCheck
        (w.getOpenPositionsSummary run.slave.id).totalVolume volume) = .allowed →
      Decimal.OnGrid 2 volume

instance (w : World) (run : CopyRun) : Decidable (run.StoresVolume w) :=
  inferInstanceAs (Decidable (_ → _ → _ → _ → ∀ volume ∈ run.sized, _))

variable {w : World} {run : CopyRun}

theorem StoresVolume.stored (h : run.StoresVolume w) {slaveTicket : Option String}
    {volume : Option ℚ} (hready : run.Ready w slaveTicket volume) (htype : run.event.type = .open)
    (hplatform : run.slave.platform ≠ "MT4") (honline : w.isSlaveConnected run.slave.id = true) :
    (volume.map (Decimal.ofNumber 2)).map Decimal.toNumber = volume := by
  obtain ⟨-, sized, rfl, hcalculated, hentry, hexposure⟩ := hready.opens htype
  have hsized : run.sized = some sized := sized_eq_some.mpr hcalculated
  have hgrid := h htype hplatform honline hentry sized hsized hexposure
  rw [Option.map_some, Option.map_some, (sized_stored_iff hsized).mpr hgrid]

end CopyRun

namespace Mirrors

variable {slaveId : Uuid} {w w' : World} {connector : SlaveConnector}

theorem dispatch (h : Mirrors slaveId w connector) {run : CopyRun} (hleads : run.LeadsTo w w')
    (hopensOnce : run.slave.id = slaveId → run.OpensOnce w)
    (hstores : run.slave.id = slaveId → run.StoresVolume w) :
    Mirrors slaveId w' (connector.receive slaveId w w') := by
  obtain ⟨rows, deliveries, houtcome, horders, hsent⟩ := hleads
  rw [connector.receive_eq hsent]
  -- The OPEN copies of the master ticket would be of the event, which has no copy order yet.
  have hopens : run.Unsent w → run.slave.id = slaveId → run.event.type = .open →
      ∀ order ∈ w.copyOrders, order.slaveId = slaveId → order.type = .open →
        order.masterTicket ≠ run.event.masterTicket := by
    intro hunsent hslave htype order horder hoslave hotype hsame
    have hevent := hopensOnce hslave htype order horder (hoslave.trans hslave.symm) hotype hsame
    exact hunsent (List.mem_map.mpr ⟨order, horder, Prod.ext hevent (hoslave.trans hslave.symm)⟩)
  have hsized : ∀ {slaveTicket volume}, run.Ready w slaveTicket volume → run.event.type = .open →
      ∃ stored, volume.map (Decimal.ofNumber 2) = some stored := by
    intro slaveTicket volume hready htype
    obtain ⟨-, sized, rfl, -⟩ := hready.opens htype
    exact ⟨_, rfl⟩
  cases houtcome with
  | duplicate =>
      rw [List.filter_nil, List.map_nil, List.append_nil]
      exact h.of_eq (horders.trans (List.append_nil _))
  | failed reason volume hunsent =>
      refine h.insert horders rfl (by simp [CopyRun.failedOrder, CopyRun.order]) (hopens hunsent) ?_
        (.inl rfl)
      exact fun _ _ hstatus => absurd rfl hstatus
  | queued slaveTicket volume hunsent hready =>
      exact h.insert horders rfl (by simp [CopyRun.pendingOrder, CopyRun.order]) (hopens hunsent)
        (fun _ htype _ => hsized hready htype) (.inl rfl)
  | pushed resolvedSymbol slaveTicket volume hunsent hready hplatform honline =>
      refine h.insert horders rfl (by simp [CopyOrder.markSent]) (hopens hunsent)
        (fun _ htype _ => hsized hready htype) ?_
      by_cases hslave : run.slave.id = slaveId
      · refine .inr ⟨_, by rw [List.filter_cons_of_pos (by simpa using hslave)]; rfl, rfl, hslave,
          rfl, rfl, fun htype => ?_, fun htype => ?_⟩
        · exact ((hstores hslave).stored hready htype hplatform honline).symm
        · have hclose : run.event.type = .close := htype
          obtain ⟨ticket, hticket, hfound⟩ := hready.acts (by simp [hclose])
          obtain ⟨opened, hopened, hoslave, hrest⟩ := findExecutedOpenSlaveTicket_eq_some hfound
          exact ⟨ticket, hticket, opened, hopened, hoslave.trans hslave, hrest⟩
      · exact .inl (by simp [hslave])

theorem poll (h : Mirrors slaveId w connector) (hpolled : w.Polled slaveId w') :
    Mirrors slaveId w' (connector.receive slaveId w w') := by
  cases hpolled with
  | nothing =>
      rw [connector.receive_same rfl]
      exact h
  | @failed order holdest =>
      obtain ⟨hmem, -, hpending⟩ := World.oldestPending_eq_some holdest
      have hsent : (w.updateOrder order.id (CopyOrder.markFailed "NO_MATCHING_OPEN_COPY")).sent =
          w.sent ++ [] := (List.append_nil _).symm
      rw [connector.receive_eq hsent]
      exact h.update rfl (keepsCore_markFailed _) hmem hpending (by simp [CopyOrder.markFailed])
        (.inl rfl)
  | @responded order tradeEvent resolvedSymbol slaveTicket holdest hacts =>
      obtain ⟨hmem, hslave, hpending⟩ := World.oldestPending_eq_some holdest
      have hsent : ((w.updateOrder order.id (CopyOrder.markSent w.now)).respond slaveId
          (order.instruction tradeEvent resolvedSymbol slaveTicket)).sent = w.sent ++
            [⟨.poll, slaveId, order.instruction tradeEvent resolvedSymbol slaveTicket⟩] := rfl
      rw [connector.receive_eq hsent]
      refine h.update rfl (keepsCore_markSent _) hmem hpending (by simp [CopyOrder.markSent])
        (.inr ⟨order.instruction tradeEvent resolvedSymbol slaveTicket, by simp, rfl, hslave, rfl, rfl,
          fun _ => rfl, fun htype => ?_⟩)
      obtain ⟨ticket, hticket, hfound⟩ := hacts (.inl htype)
      obtain ⟨opened, hopened, hoslave, hrest⟩ := findExecutedOpenSlaveTicket_eq_some hfound
      exact ⟨ticket, hticket, opened, hopened, hoslave, hrest⟩

end Mirrors

/-! ### Runs -/

def SerialMove.dispatches (w : World) : SerialMove → Option CopyRun
  | .dispatch slaveId event account => w.dispatched slaveId event account
  | _ => none

namespace SlaveLink

/-- A master ticket has one OPEN event. -/
def OpensOnce (slaveId : Uuid) (link : SlaveLink) (move : SerialMove) : Prop :=
  ∀ run ∈ move.dispatches link.backend.shared, run.slave.id = slaveId →
    run.OpensOnce link.backend.shared

instance (slaveId : Uuid) (link : SlaveLink) (move : SerialMove) :
    Decidable (OpensOnce slaveId link move) :=
  inferInstanceAs (Decidable (∀ run ∈ move.dispatches link.backend.shared, _))

/-- Besides, no volume is pushed that its row cannot hold. -/
def OpensOnceAsStored (slaveId : Uuid) (link : SlaveLink) (move : SerialMove) : Prop :=
  OpensOnce slaveId link move ∧
    ∀ run ∈ move.dispatches link.backend.shared, run.slave.id = slaveId →
      run.StoresVolume link.backend.shared

instance (slaveId : Uuid) (link : SlaveLink) (move : SerialMove) :
    Decidable (OpensOnceAsStored slaveId link move) :=
  inferInstanceAs (Decidable (_ ∧ ∀ run ∈ move.dispatches link.backend.shared, _))

/-- A slave at the start of its history: it has no copy orders, and its terminal is empty. -/
structure Fresh (slaveId : Uuid) (link : SlaveLink) : Prop where
  keyed : link.backend.shared.Keyed
  orders : ∀ order ∈ link.backend.shared.copyOrders, order.slaveId ≠ slaveId
  connector : link.connector = {}

theorem Fresh.mirrors {slaveId : Uuid} {link : SlaveLink} (h : link.Fresh slaveId) :
    Mirrors slaveId link.backend.shared link.connector := by
  have hnone : holdings slaveId link.backend.shared.copyOrders link.connector.results = ⟨∅, ∅⟩ := by
    refine Holdings.ext (Set.eq_empty_of_forall_notMem ?_) (Set.eq_empty_of_forall_notMem ?_) <;>
      rintro entry ⟨order, horder, hslave, -⟩ <;> exact h.orders order horder hslave
  refine ⟨h.keyed.copyIds, ?_, ?_, ?_, ?_, ?_, ?_, ?_, ?_, ?_⟩
  · intro a ha _ _ haslave
    obtain ⟨order, horder, rfl⟩ := World.exists_of_mem_cores ha
    exact absurd haslave (h.orders order horder)
  · exact fun order horder hslave => absurd hslave (h.orders order horder)
  · exact fun order horder hslave => absurd hslave (h.orders order horder)
  · rw [hnone]
    exact .empty
  · rw [hnone, h.connector]
    simp
  · rw [hnone, h.connector]
    simp
  · simp [h.connector]
  · simp [h.connector]
  · simp [h.connector]

theorem mirrors_preserved (slaveId : Uuid) :
    Preserved (restrict (serialStep slaveId) (OpensOnceAsStored slaveId)) fun link =>
      Mirrors slaveId link.backend.shared link.connector := by
  intro link move link' h hstep
  obtain ⟨⟨hopensOnce, hstores⟩, hstep⟩ := restrict_eq_some.mp hstep
  cases move with
  | dispatch id event account =>
      obtain ⟨run, hrun, rfl⟩ := Option.map_eq_some_iff.mp hstep
      have hcopyable : isCopyableEvent run.event := by
        unfold World.dispatched at hrun
        repeat' split at hrun
        all_goals cases hrun
        assumption
      exact h.dispatch (CopyRun.alone_leadsTo hcopyable) (hopensOnce run hrun) (hstores run hrun)
  | poll =>
      obtain rfl := Option.some.inj hstep
      exact h.poll World.alone_polled
  | execute i outcome =>
      obtain ⟨connector, hexecute, rfl⟩ := Option.map_eq_some_iff.mp hstep
      exact h.execute hexecute
  | record i =>
      obtain ⟨result, hget, rfl⟩ := Option.map_eq_some_iff.mp hstep
      obtain ⟨row, hrow, hid, hslave, -⟩ := h.results result (List.mem_of_getElem? hget)
      have hrecorded : ((link.backend.shared.alone [.message slaveId result .findOrder]).shared) =
          link.backend.shared.updateOrder result.copyId
            (CopyOrder.record result row link.backend.shared.now) :=
        World.alone_recorded h.ids hrow hid hslave
      have hsent : (link.backend.shared.alone [.message slaveId result .findOrder]).shared.sent =
          link.backend.shared.sent := by rw [hrecorded, World.sent_updateOrder]
      simp only [afterCalls, SlaveConnector.receive_same _ hsent]
      refine h.record hget hrow hid link.backend.shared.now ?_
      rw [hrecorded, World.copyOrders_updateOrder]
  | environment stimulus =>
      simp only [serialStep] at hstep
      split_ifs at hstep with haside
      obtain rfl := Option.some.inj hstep
      have hbackground : ∀ task ∈ (stimulus.apply link.backend.shared).2, task.Background := by
        intro task htask
        have := List.all_eq_true.mp haside task htask
        cases task <;> trivial
      refine h.of_eq ?_
      exact (Config.settle_aside awaits _ hbackground).1.trans (stimulus.apply_frame _).1

/-- Whenever every result is recorded the view shows the terminal, in whatever order a slave's events
are dispatched, delivered, executed and recorded. -/
def ViewFaithful : Prop :=
  ∀ (slaveId : Uuid) (start link : SlaveLink) (moves : List SerialMove), start.Fresh slaveId →
    follow (restrict (serialStep slaveId) (OpensOnce slaveId)) start moves = some link →
    link.connector.results = [] → link.ShowsTerminal slaveId

/-- A lot step that its column rounds to nothing, and half of 0.15 lots. -/
def Sample.unstoredVolume : List SerialMove :=
  [.environment (.patchSlave 5 { lotStep := some (1 / 1000), multiplier := some (1 / 2) }),
    .dispatch 5 Sample.smallOpenEvent ⟨none, none⟩, .execute 0 (.done "875421"), .record 0]

theorem unstored_volume_differs : ¬ViewFaithful := by
  intro h
  have hruns : ∃ link, follow (restrict (serialStep 5) (OpensOnce 5))
      ⟨Sample.config Sample.mt5Slave [Sample.smallOpenEvent], {}⟩ Sample.unstoredVolume = some link ∧
      link.connector.results = [] ∧ ∃ pair ∈ link.viewPairs 5, pair ∉ link.positionPairs := by
    decide +kernel
  obtain ⟨link, hrun, hquiet, pair, hview, hposition⟩ := hruns
  have hfresh : Fresh 5 ⟨Sample.config Sample.mt5Slave [Sample.smallOpenEvent], {}⟩ :=
    ⟨⟨by decide, by decide, by decide, by decide⟩, by decide, rfl⟩
  exact hposition ((h 5 _ link _ hfresh hrun hquiet pair).mp hview)

/-- As long as no volume is pushed that its row cannot hold, the view shows the terminal whenever every
result is recorded. -/
theorem view_shows_terminal (slaveId : Uuid) (start link : SlaveLink) (moves : List SerialMove)
    (hstart : start.Fresh slaveId)
    (hrun : follow (restrict (serialStep slaveId) (OpensOnceAsStored slaveId)) start moves =
      some link)
    (hquiet : link.connector.results = []) : link.ShowsTerminal slaveId :=
  ((mirrors_preserved slaveId).follow hstart.mirrors hrun).showsTerminal hquiet

/-- Two positions are opened, and one of them is closed. -/
def Sample.openTwiceCloseOnce : List SerialMove :=
  [.dispatch 5 Sample.openEvent ⟨none, none⟩, .dispatch 5 Sample.otherOpenEvent ⟨none, none⟩,
    .execute 1 (.done "875422"), .execute 0 (.done "875421"), .record 1,
    .dispatch 5 Sample.closeEvent ⟨none, none⟩, .record 0, .execute 0 (.done "875421"), .record 0]

theorem open_twice_close_once_shows_terminal :
    ∃ link, follow (restrict (serialStep 5) (OpensOnceAsStored 5))
        ⟨Sample.config Sample.mt5Slave
          [Sample.openEvent, Sample.closeEvent, Sample.otherOpenEvent], {}⟩
        Sample.openTwiceCloseOnce = some link ∧ link.ShowsTerminal 5 := by
  have hruns : ∃ link, follow (restrict (serialStep 5) (OpensOnceAsStored 5))
      ⟨Sample.config Sample.mt5Slave
        [Sample.openEvent, Sample.closeEvent, Sample.otherOpenEvent], {}⟩
      Sample.openTwiceCloseOnce = some link ∧ link.connector.results = [] := by
    decide +kernel
  obtain ⟨link, hrun, hquiet⟩ := hruns
  have hfresh : Fresh 5 ⟨Sample.config Sample.mt5Slave
      [Sample.openEvent, Sample.closeEvent, Sample.otherOpenEvent], {}⟩ :=
    ⟨⟨by decide, by decide, by decide, by decide⟩, by decide, rfl⟩
  exact ⟨link, hrun, view_shows_terminal 5 _ link _ hfresh hrun hquiet⟩

end SlaveLink

end ForexCopy
