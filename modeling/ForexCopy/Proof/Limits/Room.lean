import ForexCopy.Proof.Limits.Commitments
import ForexCopy.Proof.Slaves
import Mathlib.Data.List.Permutation

/-!
# The risk limits

The checks of an OPEN read the executed copies, and a copy counts among them only once its result is
recorded. So OPENs that are checked before the results of earlier ones are recorded can exceed the
limits together. They do not as long as there is room for each OPEN that passes on what it has read:
room for it beside all that the slave is committed to. Volumes are added as doubles, so there has to be
room in whatever order they are added.
-/

namespace ForexCopy

open Machine Pool

/-- What a requested volume adds to the exposure. -/
def lots (volume : Option (Decimal 2)) : ℚ := (volume.map Decimal.toNumber).getD 0

theorem lots_nonneg (volume : Option (Decimal 2)) : 0 ≤ lots volume := by
  cases volume with
  | none => exact le_rfl
  | some volume => exact volume.toNumber_nonneg

/-- The limits of the slave admit copies of these volumes, added up in any order. -/
structure Slave.HasRoomFor (slave : Slave) (volumes : List (Option (Decimal 2))) : Prop where
  positions : ∀ maxPositions ∈ slave.maxPositions, volumes.length ≤ maxPositions
  exposure : ∀ maxExposure ∈ slave.maxExposure, ∀ terms ∈ (volumes.map lots).permutations',
    Arithmetic.double.sum terms ≤ maxExposure.toNumber

theorem Slave.hasRoomFor_iff {slave : Slave} {volumes : List (Option (Decimal 2))} :
    slave.HasRoomFor volumes ↔
      (∀ maxPositions ∈ slave.maxPositions, volumes.length ≤ maxPositions) ∧
        ∀ maxExposure ∈ slave.maxExposure, ∀ terms ∈ (volumes.map lots).permutations',
          Arithmetic.double.sum terms ≤ maxExposure.toNumber :=
  ⟨fun h => ⟨h.positions, h.exposure⟩, fun h => ⟨h.1, h.2⟩⟩

instance (slave : Slave) (volumes : List (Option (Decimal 2))) :
    Decidable (slave.HasRoomFor volumes) :=
  decidable_of_iff _ Slave.hasRoomFor_iff.symm

/-- Where there is room for more there is room for less. -/
theorem Slave.HasRoomFor.mono {slave : Slave} {volumes fewer : List (Option (Decimal 2))}
    (h : slave.HasRoomFor volumes) (hfewer : fewer.Subperm volumes) : slave.HasRoomFor fewer := by
  refine ⟨fun maxPositions hmax => hfewer.length_le.trans (h.positions maxPositions hmax), ?_⟩
  intro maxExposure hmax terms hterms
  obtain ⟨kept, hkept, hsublist⟩ := hfewer
  obtain ⟨rest, hrest⟩ := hsublist.exists_perm_append
  have hall : terms ++ rest.map lots ∈ (volumes.map lots).permutations' := by
    rw [List.mem_permutations'] at hterms ⊢
    have hkeptTerms : (terms ++ rest.map lots).Perm ((kept ++ rest).map lots) := by
      rw [List.map_append]
      exact (hterms.trans (hkept.symm.map lots)).append_right _
    exact hkeptTerms.trans (hrest.symm.map lots)
  have hnonneg : ∀ term ∈ rest.map lots, 0 ≤ term := by
    intro term hterm
    obtain ⟨volume, -, rfl⟩ := List.mem_map.mp hterm
    exact lots_nonneg volume
  exact (Arithmetic.double_sum_le_append terms hnonneg).trans (h.exposure maxExposure hmax _ hall)

namespace CopyRun

/-- The summary the risk checks get when the second of the two queries resolves. -/
def summaryRead (run : CopyRun) (w : World) : CopyPoint → Option OpenPositionsSummary
  | .readCloses _ opens => some (openPositionsSummary
      (copyOrderPositions opens (w.findExecuted run.slave.id .close)))
  | .readOpens _ closes => some (openPositionsSummary
      (copyOrderPositions (w.findExecuted run.slave.id .open) closes))
  | _ => none

/-- The OPEN passes both checks on the summary. -/
def Passes (run : CopyRun) (summary : OpenPositionsSummary) (volume : ℚ) : Prop :=
  checkEntryAllowed (run.entryCheck summary.count) = .allowed ∧
    checkExposureAllowed (run.exposureCheck summary.totalVolume volume) = .allowed

instance (run : CopyRun) (summary : OpenPositionsSummary) (volume : ℚ) :
    Decidable (run.Passes summary volume) :=
  inferInstanceAs (Decidable (_ ∧ _))

end CopyRun

/-! ### Conditions on a run -/

def FixedLimits (slaveId : Uuid) (c : Config) (a : Action) : Prop :=
  ∀ change ∈ a.patched, change.1 = slaveId → ∀ slave ∈ c.shared.slaves, slave.id = slaveId →
    (slave.patch change.2).maxPositions = slave.maxPositions ∧
      (slave.patch change.2).maxExposure = slave.maxExposure

def ReportsOnce (slaveId : Uuid) (c : Config) (a : Action) : Prop :=
  ∀ task ∈ a.resumed c, c.shared.ReportsOnce slaveId task

/-- If the call's OPEN of the slave passes the checks on what it has read, there is room for it beside
what the slave is committed to. -/
def Task.HasRoom (slaveId : Uuid) (c : Config) (task : Task) : Prop :=
  ∀ copy ∈ task.copying, copy.1.slave.id = slaveId →
    ∀ summary ∈ copy.1.summaryRead c.shared copy.2, ∀ volume ∈ copy.1.sized,
      copy.1.Passes summary volume →
        copy.1.slave.HasRoomFor (some (Decimal.ofNumber 2 volume) :: c.committedVolumes slaveId)

instance (slaveId : Uuid) (c : Config) (task : Task) : Decidable (task.HasRoom slaveId c) :=
  inferInstanceAs (Decidable (∀ copy ∈ task.copying, _))

def HasRoom (slaveId : Uuid) (c : Config) (a : Action) : Prop :=
  ∀ task ∈ a.resumed c, task.HasRoom slaveId c

instance (slaveId : Uuid) (c : Config) (a : Action) : Decidable (FixedLimits slaveId c a) :=
  inferInstanceAs (Decidable (∀ change ∈ a.patched, _))

instance (slaveId : Uuid) (c : Config) (a : Action) : Decidable (ReportsOnce slaveId c a) :=
  inferInstanceAs (Decidable (∀ task ∈ a.resumed c, c.shared.ReportsOnce slaveId task))

instance (slaveId : Uuid) (c : Config) (a : Action) : Decidable (HasRoom slaveId c a) :=
  inferInstanceAs (Decidable (∀ task ∈ a.resumed c, task.HasRoom slaveId c))

/-! ### Commitments grow where an OPEN is admitted -/

/-- The step admits an OPEN of the slave. -/
structure Admits (w : World) (slaveId : Uuid) (task : Task) (volume : ℚ) : Prop where
  run : ∃ run point summary, task = .copy run point ∧ run.slave.id = slaveId ∧
    summary ∈ run.summaryRead w point ∧ volume ∈ run.sized ∧ run.Passes summary volume

section

variable {w w' : World} {slaveId : Uuid} {size : Option (Decimal 2) → ℕ}

theorem CopyRead.commits (slaveId : Uuid) (size : Option (Decimal 2) → ℕ) {run : CopyRun}
    {point point' : CopyPoint} (hread : CopyRead w run point point')
    (hadmitted : (Task.copy run point).Admitted) :
    (Task.copy run point').commits slaveId size = 0 ∨
      ∃ volume, Admits w slaveId (.copy run point) volume ∧
        (Task.copy run point').commits slaveId size = size (some (Decimal.ofNumber 2 volume)) := by
  have hchecks : ∀ resolvedSymbol summary, summary ∈ run.summaryRead w point →
      point' = run.afterPositions resolvedSymbol summary →
      (Task.copy run point').commits slaveId size = 0 ∨
        ∃ volume, Admits w slaveId (.copy run point) volume ∧
          (Task.copy run point').commits slaveId size = size (some (Decimal.ofNumber 2 volume)) := by
    intro resolvedSymbol summary hsummary hpoint
    cases point' with
    | createOrder symbol slaveTicket volume =>
        obtain ⟨hentry, -, sized, rfl, hsized, hexposure⟩ :=
          CopyRun.afterPositions_eq_createOrder hpoint.symm
        by_cases hown : run.slave.id = slaveId ∧ run.event.type = .open
        · exact .inr ⟨sized, ⟨run, point, summary, rfl, hown.1, hsummary,
            CopyRun.sized_eq_some.mpr hsized, hentry, hexposure⟩,
            Task.commits_createOrder hown.1 hown.2 _ _ _ _⟩
        · exact .inl (Task.commits_createOrder_other hown _ _ _ _)
    | _ => exact .inl rfl
  cases hread with
  | symbol =>
      refine .inl ?_
      unfold CopyRun.afterSymbol
      split_ifs with hticket hopen
      · rfl
      · rfl
      · exact Task.commits_createOrder_other (fun h => hopen h.2) _ _ _ _
  | ticket resolvedSymbol =>
      refine .inl ?_
      unfold CopyRun.afterTicket
      split
      · rfl
      · exact Task.commits_createOrder_other (fun h => hadmitted.2 h.2) _ _ _ _
  | opens | closes | offline => exact .inl rfl
  | closesAfterOpens resolvedSymbol opens => exact hchecks resolvedSymbol _ rfl rfl
  | opensAfterCloses resolvedSymbol closes => exact hchecks resolvedSymbol _ rfl rfl

variable {c : Config} {tasks' : List Task} {reply : Reply} {task : Task} {next : List Task}

theorem weight_failedOrder (hc : grounded.Holds c) (hnext : ∀ t ∈ tasks', t ∈ c.tasks) (run : CopyRun)
    (reason : String) (requestedVolume : Option ℚ) :
    Config.weight ⟨c.shared.insertOrder
        (run.failedOrder c.shared.nextCopyId reason requestedVolume), tasks'⟩ slaveId size
      (run.failedOrder c.shared.nextCopyId reason requestedVolume) = 0 := by
  refine if_neg ?_
  rintro ⟨-, -, hexecuted | ⟨-, hpending | ⟨t, ht, hpolled⟩ | ⟨delivery, hdelivery, hid⟩⟩, -⟩
  · cases hexecuted
  · cases hpending
  · have hhand : t.inHand = some c.shared.nextCopyId := by
      unfold Task.inHand
      split
      · cases hpolled
      · cases hpolled
      · exact hpolled
    obtain ⟨core, hcore, hfresh⟩ := (hc.2 t (hnext t ht)).inHand hhand
    exact World.ne_nextCopyId hcore hfresh
  · obtain ⟨core, hcore, hcoreId, -⟩ := hc.1.sent delivery hdelivery
    exact World.ne_nextCopyId hcore (hcoreId.trans hid)

theorem weight_pendingOrder_le (c' : Config) (run : CopyRun) (copyId : Uuid) (resolvedSymbol : String)
    (slaveTicket : Option String) (volume : Option ℚ) :
    c'.weight slaveId size (run.pendingOrder copyId volume) ≤
      (Task.copy run (.createOrder resolvedSymbol slaveTicket volume)).commits slaveId size := by
  unfold Config.weight
  split_ifs with hcommits
  · have hown : run.slave.id = slaveId ∧ run.event.type = .open := ⟨hcommits.1, hcommits.2.1⟩
    exact (Task.commits_createOrder hown.1 hown.2 _ _ _ _).ge
  · exact Nat.zero_le _

/-- What a step adds in rows and in OPENs to insert, its own call was going to add already, unless
the step admits an OPEN. -/
theorem Task.Step.commits (slaveId : Uuid) (size : Option (Decimal 2) → ℕ)
    (hc : ForexCopy.grounded.Holds c) (hadmitted : task.Admitted)
    (hmove : Task.Step reply c.shared task w' next) (hnext : ∀ t ∈ tasks', t ∈ c.tasks ∨ t ∈ next) :
    Table.tally (Config.weight ⟨w', tasks'⟩ slaveId size)
        (w'.copyOrders.drop c.shared.copyOrders.length) + total (Task.commits slaveId size) next ≤
        task.commits slaveId size ∨
      ∃ volume, Admits c.shared slaveId task volume ∧
        w'.copyOrders.drop c.shared.copyOrders.length = [] ∧
        total (Task.commits slaveId size) next = size (some (Decimal.ofNumber 2 volume)) := by
  have hkeep : w'.copyOrders.length = c.shared.copyOrders.length →
      (∀ t ∈ next, t.commits slaveId size = 0) →
      Table.tally (Config.weight ⟨w', tasks'⟩ slaveId size)
        (w'.copyOrders.drop c.shared.copyOrders.length) + total (Task.commits slaveId size) next ≤
        task.commits slaveId size := by
    intro hlength hzero
    rw [← hlength, List.drop_length, total_eq_zero hzero]
    exact Nat.zero_le _
  cases hmove with
  | background htask hkept hsame =>
      exact .inl (hkeep (by rw [hsame.copyOrders]) fun t ht => (hkept t ht).commits slaveId size)
  | copyRead hread =>
      rcases hread.commits slaveId size hadmitted with hzero | ⟨volume, hadmits, hsize⟩
      · exact .inl (hkeep rfl (by simpa using hzero))
      · exact .inr ⟨volume, hadmits, List.drop_length, by simpa using hsize⟩
  | refuse run reason requestedVolume =>
      refine .inl ?_
      rw [World.copyOrders_insertOrder, List.drop_left, Table.tally_cons,
        weight_failedOrder hc fun t ht => (hnext t ht).resolve_right (by simp)]
      exact Nat.zero_le _
  | insert run resolvedSymbol slaveTicket volume hkey hinserted =>
      refine .inl ?_
      have hzero : ∀ t ∈ next, t.commits slaveId size = 0 := by
        intro t ht
        obtain ⟨rfl, -⟩ | rfl := hinserted.mem ht
        · rfl
        · rfl
      rw [World.copyOrders_insertOrder, List.drop_left, Table.tally_cons, Table.tally_nil,
        Nat.add_zero, total_eq_zero hzero]
      exact weight_pendingOrder_le _ run _ resolvedSymbol slaveTicket volume
  | push run resolvedSymbol slaveTicket volume =>
      refine .inl ?_
      rw [World.copyOrders_push, World.copyOrders_insertOrder, List.drop_left, Table.tally_cons,
        Table.tally_nil, Nat.add_zero]
      exact weight_pendingOrder_le _ run _ resolvedSymbol slaveTicket volume
  | eventRead | messageRead | pollRead => exact .inl (hkeep rfl (by simp [commits, inserting]))
  | fanOut => exact .inl (hkeep rfl (by simp [commits, inserting]))
  | ends | persist => exact .inl (hkeep rfl (by simp))
  | _ => exact .inl (hkeep (by simp) (by simp))

end

theorem Task.Starting.idle {task : Task} (h : task.Starting) (slaveId : Uuid)
    (size : Option (Decimal 2) → ℕ) :
    task.polled = none ∧ task.mayWrite = none ∧ task.commits slaveId size = 0 := by
  cases h with
  | background h => exact ⟨h.polled, h.mayWrite, h.commits slaveId size⟩
  | masterEvent | message | poll => exact ⟨rfl, rfl, rfl⟩

theorem Stimulus.committed_le (c : Config) (stimulus : Stimulus) (slaveId : Uuid)
    (size : Option (Decimal 2) → ℕ) :
    Config.committed (c.arrive (stimulus.apply c.shared).1 (stimulus.apply c.shared).2) slaveId size ≤
      c.committed slaveId size := by
  obtain ⟨horders, hsent, hstarting⟩ := stimulus.apply_frame c.shared
  have hidle := fun t ht => (hstarting t ht).idle slaveId size
  have hbefore : ∀ t ∈ c.tasks ++ (stimulus.apply c.shared).2, ∀ copyId,
      (t.polled = some copyId → t ∈ c.tasks) ∧ (t.mayWrite = some copyId → t ∈ c.tasks) := by
    intro t ht copyId
    rcases List.mem_append.mp ht with hold | hnew
    · exact ⟨fun _ => hold, fun _ => hold⟩
    · obtain ⟨hpolled, hwrite, -⟩ := hidle t hnew
      rw [hpolled, hwrite]
      exact ⟨nofun, nofun⟩
  unfold Config.committed Pool.arrive
  refine Nat.add_le_add ?_ ?_
  · dsimp only
    rw [horders]
    refine Table.tally_le fun row _ => Config.weight_le ?_ rfl fun _ halive => ?_
    · rintro masterTicket ⟨close, hclose, hticket, hfree⟩
      refine ⟨close, horders.symm ▸ hclose, hticket, ?_⟩
      rintro ⟨t, ht, hwrite⟩
      exact hfree ⟨t, (hbefore t ht _).2 hwrite, hwrite⟩
    · rcases halive with hexecuted | ⟨hnone, hpending | ⟨t, ht, hpolled⟩ | hdelivered⟩
      · exact .inl hexecuted
      · exact .inr ⟨hnone, .inl hpending⟩
      · exact .inr ⟨hnone, .inr (.inl ⟨t, (hbefore t ht _).1 hpolled, hpolled⟩)⟩
      · unfold World.Delivered at hdelivered
        rw [hsent] at hdelivered
        exact .inr ⟨hnone, .inr (.inr hdelivered)⟩
  · rw [total_append, total_eq_zero fun t ht => (hidle t ht).2.2, Nat.add_zero]

/-- A slave's commitments grow only where one of its OPENs is admitted, by that OPEN. -/
theorem committed_step {c c' : Config} {a : Action} {slaveId : Uuid} (hc : grounded.Holds c)
    (hadmission : admission.Holds c) (hstep : Backend.step c a = some c')
    (honce : ReportsOnce slaveId c a) (size : Option (Decimal 2) → ℕ) :
    c'.committed slaveId size ≤ c.committed slaveId size ∨
      ∃ i reply task volume, a = .resume i reply ∧ c.tasks[i]? = some task ∧
        Admits c.shared slaveId task volume ∧
        c'.committed slaveId size ≤
          c.committed slaveId size + size (some (Decimal.ofNumber 2 volume)) := by
  cases a with
  | arrive stimulus =>
      obtain rfl := Option.some.inj hstep
      exact .inl (stimulus.committed_le c slaveId size)
  | resume i reply =>
      obtain ⟨before, task, after, w', next, hget, htasks, hmove, rfl⟩ :=
        resume_cases Task.step hstep
      have hmoved := Task.step_sound hmove
      have htask := List.mem_of_getElem? hget
      have hnext : ∀ t ∈ before ++ (next ++ after), t ∈ c.tasks ∨ t ∈ next := by
        intro t ht
        rw [htasks]
        simp only [List.mem_append, List.mem_cons] at ht ⊢
        tauto
      have honceTask : c.shared.ReportsOnce slaveId task := honce task hget
      have hrows := Config.tally_le ⟨w', before ++ (next ++ after)⟩ size hc hmoved htask hnext
        honceTask
      have hbefore : total (Task.commits slaveId size) c.tasks = task.commits slaveId size +
          (total (Task.commits slaveId size) before + total (Task.commits slaveId size) after) := by
        rw [htasks, total_append, total_cons]
        omega
      have hafter : total (Task.commits slaveId size) (before ++ (next ++ after)) =
          total (Task.commits slaveId size) next +
          (total (Task.commits slaveId size) before + total (Task.commits slaveId size) after) := by
        rw [total_append, total_append]
        omega
      unfold Config.committed
      rcases hmoved.commits slaveId size hc (hadmission.2 task htask) hnext with
        hle | ⟨volume, hadmits, hdrop, hsize⟩
      · refine .inl ?_
        dsimp only at hrows ⊢
        omega
      · refine .inr ⟨i, reply, task, volume, rfl, hget, hadmits, ?_⟩
        dsimp only at hrows ⊢
        rw [hdrop, Table.tally_nil] at hrows
        omega

/-- The call admits an OPEN of one volume only. -/
theorem Admits.volume_eq {w : World} {slaveId : Uuid} {task : Task} {volume other : ℚ}
    (h : Admits w slaveId task volume) (h' : Admits w slaveId task other) : other = volume := by
  obtain ⟨run, point, summary, rfl, -, -, hsized, -⟩ := h
  obtain ⟨run', point', summary', heq, -, -, hsized', -⟩ := h'
  obtain ⟨rfl, -⟩ := Task.copy.inj heq
  exact Option.some.inj (hsized'.symm.trans hsized)

/-- So what is committed after the step was committed before, or is the volume of the OPEN. -/
theorem committedVolumes_step {c c' : Config} {a : Action} {slaveId : Uuid} (hc : grounded.Holds c)
    (hadmission : admission.Holds c) (hstep : Backend.step c a = some c')
    (honce : ReportsOnce slaveId c a) :
    (c'.committedVolumes slaveId).Subperm (c.committedVolumes slaveId) ∨
      ∃ i reply task volume, a = .resume i reply ∧ c.tasks[i]? = some task ∧
        Admits c.shared slaveId task volume ∧
        (c'.committedVolumes slaveId).Subperm
          (some (Decimal.ofNumber 2 volume) :: c.committedVolumes slaveId) := by
  have hcounts : ∀ d, (c'.committedVolumes slaveId).count d ≤ (c.committedVolumes slaveId).count d ∨
      ∃ i reply task volume, a = .resume i reply ∧ c.tasks[i]? = some task ∧
        Admits c.shared slaveId task volume ∧ (c'.committedVolumes slaveId).count d ≤
          (some (Decimal.ofNumber 2 volume) :: c.committedVolumes slaveId).count d := by
    intro d
    have hstepped := committed_step hc hadmission hstep honce fun other => if other = d then 1 else 0
    simp only [Config.committed_eq_tally, Table.tally_eq_count] at hstepped
    refine hstepped.imp_right ?_
    rintro ⟨i, reply, task, volume, ha, hget, hadmits, hle⟩
    refine ⟨i, reply, task, volume, ha, hget, hadmits, hle.trans ?_⟩
    rw [List.count_cons]
    simp
  by_cases hadmits : ∃ i reply task volume, a = .resume i reply ∧ c.tasks[i]? = some task ∧
      Admits c.shared slaveId task volume
  · obtain ⟨i, reply, task, volume, rfl, hget, hadmits⟩ := hadmits
    refine .inr ⟨i, reply, task, volume, rfl, hget, hadmits, List.subperm_ext_iff.mpr fun d _ => ?_⟩
    rcases hcounts d with hle | ⟨_, _, task', volume', ha, hget', hadmits', hle⟩
    · exact hle.trans (List.count_le_count_cons)
    · obtain ⟨rfl, rfl⟩ := Action.resume.inj ha
      obtain rfl := Option.some.inj (hget.symm.trans hget')
      obtain rfl := hadmits.volume_eq hadmits'
      exact hle
  · refine .inl (List.subperm_ext_iff.mpr fun d _ => (hcounts d).resolve_right ?_)
    rintro ⟨i, reply, task, volume, ha, hget, hadmitted, -⟩
    exact hadmits ⟨i, reply, task, volume, ha, hget, hadmitted⟩

end ForexCopy
