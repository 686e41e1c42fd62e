import ForexCopy.Proof.Rows

/-!
# What a run of `copyToSlave` has passed

Where a run is tells what it has checked. Only copyable events are dispatched; a run about to insert
the row of an OPEN has a slave without an emergency stop and a volume the calculator accepted, and one
about to insert the row of a CLOSE or MODIFY has a ticket to act on.
-/

namespace ForexCopy

open Machine Pool

namespace CopyRun

/-- The volume an OPEN is going to have, when the calculator accepts it. -/
def sized (run : CopyRun) : Option ℚ :=
  match calculateVolume .double run.sizing with
  | .volume volume => some volume
  | .rejected _ => none

variable {run : CopyRun} {volume : ℚ}

theorem sized_eq_some : run.sized = some volume ↔ calculateVolume .double run.sizing = .volume volume := by
  unfold sized
  split <;> simp_all

theorem sized_nonneg (h : run.sized = some volume) : 0 ≤ volume :=
  run.slave.minLot.toNumber_nonneg.trans (calculateVolume_bounds (sized_eq_some.mp h)).1

theorem isNumber_sized (h : run.sized = some volume) : Binary64.IsNumber volume := by
  refine calculateVolume_isNumber (fun fixedLot hfixed => ?_) run.slave.maxLot.isNumber_toNumber
    (sized_eq_some.mp h)
  obtain ⟨lot, -, rfl⟩ := Option.map_eq_some_iff.mp hfixed
  exact lot.isNumber_toNumber

/-- The column keeps a calculated volume exactly when it is on the column's grid. -/
theorem sized_stored_iff (h : run.sized = some volume) :
    (Decimal.ofNumber 2 volume).toNumber = volume ↔ Decimal.OnGrid 2 volume :=
  Decimal.toNumber_ofNumber_iff (sized_nonneg h) (isNumber_sized h) (by norm_num)

theorem sized_onGrid (hstep : run.slave.lotStep.units ≠ 0) (hmax : run.slave.maxLot.value ≤ 20000000)
    (h : run.sized = some volume) : Decimal.OnGrid 2 volume :=
  have hlotStep : run.sizing.lotStep = run.slave.lotStep.toNumber := rfl
  have hmaxLot : run.sizing.maxLot = run.slave.maxLot.toNumber := rfl
  calculateVolume_onGrid hlotStep hmaxLot hstep hmax (sized_eq_some.mp h)

end CopyRun

/-- What a run has passed at its point. -/
def CopyRun.Admitted (run : CopyRun) : CopyPoint → Prop
  | .findTicket _ => run.event.type ≠ .open
  | .readPositions _ | .readCloses _ _ | .readOpens _ _ => run.event.type = .open
  | .createOrder _ slaveTicket volume =>
    (run.event.type = .open → run.slave.emergencyStop = false ∧ slaveTicket = none ∧
      ∃ sized, volume = some sized ∧ calculateVolume .double run.sizing = .volume sized) ∧
    (run.event.type ≠ .open → ∃ ticket, slaveTicket = some ticket ∧ ticket ≠ "")
  | _ => True

def Task.Admitted : Task → Prop
  | .masterEvent event _ => isCopyableEvent event
  | .copy run point => isCopyableEvent run.event ∧ run.Admitted point
  | _ => True

def admission : Outline World Task := ⟨fun _ => True, fun _ t => t.Admitted⟩

theorem Task.Background.admitted {task : Task} (h : task.Background) : task.Admitted :=
  Task.of_background (fun _ _ => trivial) (fun _ => trivial) (fun _ _ _ _ => trivial) h

namespace CopyRun

variable {run : CopyRun}

theorem admitted_afterSymbol (hcopyable : isCopyableEvent run.event) (resolvedSymbol : String) :
    run.Admitted (run.afterSymbol resolvedSymbol) := by
  unfold afterSymbol
  split_ifs with hticket hopen
  · rcases hticket with h | h <;> simp [Admitted, h]
  · exact hopen
  · rcases hcopyable with h | h | h
    · exact absurd h hopen
    · exact absurd (.inl h) hticket
    · exact absurd (.inr h) hticket

theorem admitted_afterTicket (htype : run.event.type ≠ .open) (resolvedSymbol : String)
    (priorOpenTicket : Option String) :
    run.Admitted (run.afterTicket resolvedSymbol priorOpenTicket) := by
  unfold afterTicket
  split
  · trivial
  · rename_i slaveTicket hticket
    exact ⟨fun hopen => absurd hopen htype, fun _ => ⟨slaveTicket, rfl, (truthy_eq_some.mp hticket).2⟩⟩

/-- What the OPEN branch has checked when it goes on to the insert. -/
theorem afterPositions_eq_createOrder {resolvedSymbol symbol : String}
    {openSummary : OpenPositionsSummary} {slaveTicket : Option String} {volume : Option ℚ}
    (h : run.afterPositions resolvedSymbol openSummary = .createOrder symbol slaveTicket volume) :
    checkEntryAllowed (run.entryCheck openSummary.count) = .allowed ∧ slaveTicket = none ∧
      ∃ sized, volume = some sized ∧ calculateVolume .double run.sizing = .volume sized ∧
        checkExposureAllowed (run.exposureCheck openSummary.totalVolume sized) = .allowed := by
  unfold afterPositions at h
  split at h
  · cases h
  · rename_i hentry
    split at h
    · cases h
    · rename_i sized hsized
      split at h
      · cases h
      · rename_i hexposure
        cases h
        exact ⟨hentry, rfl, sized, rfl, hsized, hexposure⟩

theorem admitted_afterPositions (htype : run.event.type = .open) (resolvedSymbol : String)
    (openSummary : OpenPositionsSummary) :
    run.Admitted (run.afterPositions resolvedSymbol openSummary) := by
  cases hpoint : run.afterPositions resolvedSymbol openSummary with
  | createOrder symbol slaveTicket volume =>
      obtain ⟨hentry, hticket, sized, hvolume, hsized, -⟩ := afterPositions_eq_createOrder hpoint
      refine ⟨fun _ => ⟨?_, hticket, sized, hvolume, hsized⟩, fun hother => absurd htype hother⟩
      exact (checkEntryAllowed_eq_allowed hentry).1
  | failOrder => trivial
  | _ =>
      -- The branch ends in a refusal or in the insert.
      unfold afterPositions at hpoint
      repeat' split at hpoint
      all_goals cases hpoint

end CopyRun

theorem CopyRead.admitted {w : World} {run : CopyRun} {point point' : CopyPoint}
    (hread : CopyRead w run point point') (hcopyable : isCopyableEvent run.event)
    (h : run.Admitted point) : run.Admitted point' := by
  cases hread with
  | symbol => exact CopyRun.admitted_afterSymbol hcopyable _
  | ticket => exact CopyRun.admitted_afterTicket h _ _
  | opens => exact h
  | closes => exact h
  | closesAfterOpens => exact CopyRun.admitted_afterPositions h _ _
  | opensAfterCloses => exact CopyRun.admitted_afterPositions h _ _
  | offline => trivial

theorem Task.Step.admitted {reply : Reply} {w w' : World} {task : Task} {next : List Task}
    (hstep : Task.Step reply w task w' next) (h : task.Admitted) : ∀ t ∈ next, t.Admitted := by
  cases hstep with
  | background _ hnext => exact fun t ht => (hnext t ht).admitted
  | eventRead => simpa [Admitted] using h
  | fanOut => simpa [Admitted, CopyRun.Admitted] using fun _ _ => h
  | copyRead hread => simpa [Admitted] using ⟨h.1, hread.admitted h.1 h.2⟩
  | insert run resolvedSymbol slaveTicket volume hkey hnext =>
      intro t ht
      obtain ⟨rfl, -⟩ | rfl := hnext.mem ht
      · exact ⟨h.1, trivial⟩
      · exact ⟨h.1, trivial⟩
  | push => simpa [Admitted, CopyRun.Admitted] using h.1
  | messageRead | pollRead => simp [Admitted]
  | _ => simp

theorem Stimulus.admitted (w : World) (stimulus : Stimulus) :
    ∀ t ∈ (stimulus.apply w).2, t.Admitted := by
  intro t ht
  cases stimulus with
  | masterEvent event =>
      simp only [apply, handleMasterEvent] at ht
      split_ifs at ht with hcopyable
      · obtain rfl := List.mem_singleton.mp ht
        exact hcopyable
      · simp at ht
  | ingest masterId payload =>
      simp only [apply, ingestTradeEvent] at ht
      split_ifs at ht
      · obtain rfl := List.mem_singleton.mp ht
        trivial
      · simp at ht
  | slaveMessage slaveId connectorId message =>
      cases message <;> simp [apply, handleSlaveMessage] at ht
      · subst ht
        trivial
      · rcases ht with rfl | rfl <;> trivial
  | executionResult slaveId connectorId body =>
      cases body <;> simp [apply, handleSlaveMessage] at ht
      rcases ht with rfl | rfl <;> trivial
  | poll slaveId connectorId =>
      simp [apply] at ht
      rcases ht with rfl | rfl <;> trivial
  | heartbeat | connect =>
      simp [apply] at ht
      subst ht
      trivial
  | _ => simp [apply] at ht

theorem admission_preserved : Preserved Backend.step admission.Holds := by
  intro c a c' hc hstep
  refine Backend.outline_step hc hstep ?_ ?_ fun _ _ _ _ hother => hother
  · intro _ reply task w' next _ hget hmove
    exact ⟨trivial, hmove.admitted (hc.2 task (List.mem_of_getElem? hget))⟩
  · intro stimulus _
    exact ⟨trivial, stimulus.admitted _⟩

end ForexCopy
