import ForexCopy.Proof.FanOut.Stages
import ForexCopy.Proof.Slaves

/-!
# A fan-out is complete

The handler of an event that is persisted starts one run for each eligible slave. However the runs
interleave and whichever of them throw, a slave whose own operations succeed ends with one copy order
for the event, and with that and the instruction that its run would have come to alone; the other
slaves get neither.
-/

namespace ForexCopy

open Machine Pool

/-- Nothing but the replies that the calls wait for reaches the backend. -/
def OnlyReplies (_ : Config) (a : Action) : Prop := a.reply.isSome

instance (c : Config) (a : Action) : Decidable (OnlyReplies c a) :=
  inferInstanceAs (Decidable (a.reply.isSome = true))

theorem OnlyReplies.resumes {c : Config} {a : Action} (h : OnlyReplies c a) :
    ∃ i reply, a = .resume i reply := by
  cases a with
  | resume i reply => exact ⟨i, reply, rfl⟩
  | arrive stimulus => cases h

/-- The call works for the slave: it is the handler, or the slave's own run. -/
def Task.serves (slaveId : Uuid) : Task → Bool
  | .masterEvent _ _ => true
  | .copy run _ => run.slave.id = slaveId
  | _ => false

/-- The same, and the operations that are made for the slave succeed. -/
def SucceedsFor (slaveId : Uuid) (c : Config) (a : Action) : Prop :=
  OnlyReplies c a ∧ ∀ task ∈ a.resumed c, task.serves slaveId → ∀ reply ∈ a.reply, reply.Resolves

instance (slaveId : Uuid) (c : Config) (a : Action) : Decidable (SucceedsFor slaveId c a) :=
  inferInstanceAs (Decidable (_ ∧ ∀ task ∈ a.resumed c, _ → ∀ reply ∈ a.reply, _))

/-- The runs that an event is fanned out to. -/
def World.fanOut (w : World) (event : NormalizedTradeEvent) (tradeEventId : Uuid) : List CopyRun :=
  (eligibleSlaves event.masterId w.slaves).map fun slave =>
    ⟨slave, tradeEventId, event, masterAccount event.masterId w.masters⟩

/-- The same under another generated identifier. -/
def CopyOrder.renamed (copyId : Uuid) (order : CopyOrder) : CopyOrder := { order with id := copyId }

def Delivery.renamed (copyId : Uuid) (delivery : Delivery) : Delivery :=
  { delivery with instruction := { delivery.instruction with copyId := copyId } }

/-- A run ends with a failed row and no instruction, or with one that is on its way: pushed, or left
for the slave to poll. -/
def CopyRun.Settled (run : CopyRun) (row : CopyOrder) (sent : List Delivery) : Prop :=
  if run.slave.platform = "MT4" then
    (row.status = .failed ∨ row.status = .pending) ∧ sent = []
  else
    row.status = .failed ∧ sent = [] ∨ row.status = .sent ∧ ∃ instruction,
      instruction.copyId = row.id ∧ sent = [⟨.push, run.slave.id, instruction⟩]

/-! ### How a run ends -/

namespace CopyRun

variable {w : World} {run : CopyRun} {copyId copyId' : Uuid} {point : CopyPoint}
  {row row' : CopyOrder} {deliveries deliveries' : List Delivery}

theorem Ends.key (h : run.Ends w copyId point row deliveries) :
    row.id = copyId ∧ row.dispatchKey = (run.tradeEventId, run.slave.id) ∧
      row.slaveId = run.slave.id := by
  cases h <;> exact ⟨rfl, rfl, rfl⟩

theorem Ends.settled (h : run.Ends w copyId point row deliveries) : run.Settled row deliveries := by
  unfold Settled
  cases h with
  | failed reason volume =>
      split_ifs
      · exact ⟨.inl rfl, rfl⟩
      · exact .inl ⟨rfl, rfl⟩
  | queued _ _ _ hplatform => exact if_pos hplatform ▸ ⟨.inr rfl, rfl⟩
  | unqueued _ _ _ hplatform => exact if_pos hplatform ▸ ⟨.inl rfl, rfl⟩
  | pushed _ _ _ hplatform => exact if_neg hplatform ▸ .inr ⟨rfl, _, rfl, rfl⟩
  | unpushed _ _ _ hplatform => exact if_neg hplatform ▸ .inl ⟨rfl, rfl⟩

/-- Only the generated identifier is left open. -/
theorem Ends.renamed (h : run.Ends w copyId point row deliveries)
    (h' : run.Ends w copyId' point row' deliveries') :
    row = row'.renamed copyId ∧ deliveries = deliveries'.map (Delivery.renamed copyId) := by
  cases h <;> cases h' <;> first | exact ⟨rfl, rfl⟩ | simp_all

end CopyRun

/-! ### The runs side by side -/

/-- The call is a run for the slave. -/
def Task.copies (slaveId : Uuid) : Task → Bool
  | .copy run _ => run.slave.id = slaveId
  | _ => false

/-- Only these runs are left. -/
structure Config.Copying (w : World) (runs : List CopyRun) (c : Config) : Prop where
  grounded : grounded.Holds c
  setting : w.SameSetting c.shared
  tasks : ∀ task ∈ c.tasks, ∃ run ∈ runs, ∃ point, task = .copy run point

namespace Config.Copying

variable {w : World} {runs : List CopyRun} {c c' : Config} {a : Action}

theorem step (h : c.Copying w runs) (hquiet : OnlyReplies c a) (hstep : Backend.step c a = some c') :
    c'.Copying w runs := by
  obtain ⟨i, reply, rfl⟩ := hquiet.resumes
  have hgrounded := grounded_preserved h.grounded hstep
  obtain ⟨before, task, after, w', next, hget, htasks, hmove, rfl⟩ := resume_cases Task.step hstep
  obtain ⟨run, hrun, point, rfl⟩ := h.tasks task (List.mem_of_getElem? hget)
  obtain ⟨hsetting, hnext⟩ := (Task.step_sound hmove).copying
  refine ⟨hgrounded, h.setting.trans hsetting, fun t ht => ?_⟩
  have hrest := h.tasks t
  rw [htasks] at hrest
  simp only [List.mem_append, List.mem_cons] at ht hrest
  rcases ht with hbefore | hsucc | hafter
  · exact hrest (.inl hbefore)
  · obtain ⟨point', rfl⟩ := hnext t hsucc
    exact ⟨run, hrun, point', rfl⟩
  · exact hrest (.inr (.inr hafter))

/-- A slave without a run is left as it is. -/
theorem view_of_foreign (h : c.Copying w runs) (hquiet : OnlyReplies c a)
    (hstep : Backend.step c a = some c') {slaveId : Uuid}
    (hforeign : ∀ run ∈ runs, run.slave.id ≠ slaveId) :
    c'.shared.view slaveId = c.shared.view slaveId := by
  obtain ⟨i, reply, rfl⟩ := hquiet.resumes
  obtain ⟨_, task, _, w', next, hget, -, hmove, rfl⟩ := resume_cases Task.step hstep
  have hmem := List.mem_of_getElem? hget
  obtain ⟨run, hrun, point, rfl⟩ := h.tasks task hmem
  exact (Task.step_sound hmove).foreign h.grounded.1 (h.grounded.2 _ hmem) (hforeign run hrun)

/-- A run whose operations succeed stays on its course. -/
theorem stage (h : c.Copying w runs) {run : CopyRun}
    (hcopyable : isCopyableEvent run.event) (hunsent : run.Unsent w)
    (hok : SucceedsFor run.slave.id c a) (hstep : Backend.step c a = some c')
    (hstage : run.Stage w (c.shared.view run.slave.id) (c.tasks.filter (Task.copies run.slave.id))) :
    run.Stage w (c'.shared.view run.slave.id) (c'.tasks.filter (Task.copies run.slave.id)) := by
  obtain ⟨i, reply, rfl⟩ := hok.1.resumes
  have hone : (c.tasks.filter (Task.copies run.slave.id)).length ≤ 1 := by
    rcases hstage.copies with htasks | ⟨_, htasks⟩ <;> simp [htasks]
  refine resume_watched (P := fun w' tasks => run.Stage w (w'.view run.slave.id) tasks) Task.step
    hone hstep ?_ ?_
  · intro task w' next hget hwatch honly hmove
    have hreply : reply.Resolves := by
      refine hok.2 task hget ?_ reply rfl
      obtain ⟨other, -, point, rfl⟩ := h.tasks task (List.mem_of_getElem? hget)
      exact hwatch
    rw [honly] at hstage
    have hnext := (hstage.own_step hcopyable hunsent h.setting h.grounded.1 hreply hmove).2
    rcases hnext.copies with rfl | ⟨point, rfl⟩
    · exact hnext
    · simpa [Task.copies] using hnext
  · intro task w' next hget hwatch hmove
    have hmem := List.mem_of_getElem? hget
    obtain ⟨other, -, point, rfl⟩ := h.tasks task hmem
    have hforeign : other.slave.id ≠ run.slave.id := by simpa [Task.copies] using hwatch
    have hmoved := Task.step_sound hmove
    refine ⟨List.filter_eq_nil_iff.mpr fun t ht => ?_, ?_⟩
    · obtain ⟨point', rfl⟩ := hmoved.copying.2 t ht
      simpa [Task.copies] using hforeign
    · rw [hmoved.foreign h.grounded.1 (h.grounded.2 _ hmem) hforeign]
      exact hstage

end Config.Copying

/-! ### How long a fan-out takes -/

/-- The replies a run waits for at most. -/
def CopyPoint.rank : CopyPoint → ℕ
  | .resolveSymbol => 6
  | .findTicket _ | .readPositions _ => 5
  | .readCloses _ _ | .readOpens _ _ => 4
  | .failOrder _ _ | .createOrder _ _ _ => 3
  | .findConnector _ => 2
  | .markOffline _ | .markSent _ _ => 1

/-- The same for the calls of a fan-out to `n` slaves. -/
def Task.rank (n : ℕ) : Task → ℕ
  | .masterEvent _ .findEvent => 3 + 6 * n
  | .masterEvent _ (.findSlaves _) => 2 + 6 * n
  | .masterEvent _ (.findMaster _ slaves) => 1 + 6 * slaves.length
  | .copy _ point => point.rank
  | _ => 0

theorem CopyRead.rank_lt {w : World} {run : CopyRun} {point point' : CopyPoint}
    (hread : CopyRead w run point point') : point'.rank < point.rank := by
  cases hread with
  | symbol =>
      unfold CopyRun.afterSymbol
      split_ifs <;> simp [CopyPoint.rank]
  | ticket =>
      unfold CopyRun.afterTicket
      split <;> simp [CopyPoint.rank]
  | opens | closes | offline => simp [CopyPoint.rank]
  | closesAfterOpens | opensAfterCloses =>
      unfold CopyRun.afterPositions
      repeat' split
      all_goals simp [CopyPoint.rank]

theorem Task.Step.rank_lt {reply : Reply} {w w' : World} {next : List Task} {run : CopyRun}
    {point : CopyPoint} (hstep : Task.Step reply w (.copy run point) w' next) (n : ℕ) :
    total (Task.rank n) next < (Task.copy run point).rank n := by
  have hpositive : 0 < point.rank := by cases point <;> simp [CopyPoint.rank]
  cases hstep with
  | background htask => exact htask.elim
  | copyRead hread => simpa [Task.rank] using hread.rank_lt
  | insert _ _ _ _ _ hnext => cases hnext <;> simp [Task.rank, CopyPoint.rank]
  | push => simp [Task.rank, CopyPoint.rank]
  | _ => exact hpositive

theorem Config.Copying.rank_lt {w : World} {runs : List CopyRun} {c c' : Config} {a : Action}
    (h : c.Copying w runs) (hquiet : OnlyReplies c a) (hstep : Backend.step c a = some c') (n : ℕ) :
    total (Task.rank n) c'.tasks < total (Task.rank n) c.tasks := by
  obtain ⟨i, reply, rfl⟩ := hquiet.resumes
  obtain ⟨before, task, after, w', next, hget, htasks, hmove, rfl⟩ := resume_cases Task.step hstep
  obtain ⟨run, -, point, rfl⟩ := h.tasks task (List.mem_of_getElem? hget)
  have hlower := (Task.step_sound hmove).rank_lt n
  rw [htasks]
  simp only [total_append, total_cons]
  omega

/-! ### The handler -/

/-- Where the handler of a persisted event is. -/
inductive Handling (w : World) (event : NormalizedTradeEvent) (tradeEventId : Uuid) :
    EventPoint → Prop
  | event : Handling w event tradeEventId .findEvent
  | slaves : Handling w event tradeEventId (.findSlaves tradeEventId)
  | master : Handling w event tradeEventId
      (.findMaster tradeEventId (eligibleSlaves event.masterId w.slaves))

/-- What a fan-out comes to: the handler alone, and then the runs. -/
inductive FansOut (w : World) (event : NormalizedTradeEvent) (tradeEventId : Uuid)
    (P : Config → Prop) : Config → Prop
  | handling {point : EventPoint} (h : Handling w event tradeEventId point) :
      FansOut w event tradeEventId P ⟨w, [.masterEvent event point]⟩
  | copying {c : Config} (h : P c) : FansOut w event tradeEventId P c

variable {w : World} {event : NormalizedTradeEvent} {tradeEvent : TradeEvent}

/-- The handler fails, goes on, or starts the runs. -/
theorem Handling.step
    (hpersisted : Table.lookup TradeEvent.eventId event.eventId w.tradeEvents = some tradeEvent)
    {point : EventPoint} (h : Handling w event tradeEvent.id point) (reply : Reply) :
    (¬reply.Resolves ∧ Task.step reply w (.masterEvent event point) = (w, [])) ∨
      (∃ point', Handling w event tradeEvent.id point' ∧
        Task.step reply w (.masterEvent event point) = (w, [.masterEvent event point'])) ∨
      Task.step reply w (.masterEvent event point) =
        (w, (w.fanOut event tradeEvent.id).map fun run => .copy run .resolveSymbol) := by
  by_cases hreply : reply.Resolves
  · right
    cases h with
    | event =>
        refine .inl ⟨_, .slaves, ?_⟩
        simp only [Task.step, masterEventStep, hpersisted, hreply.query]
    | slaves =>
        refine .inl ⟨_, .master, ?_⟩
        simp only [Task.step, masterEventStep, hreply.query]
    | master =>
        refine .inr ?_
        simp only [Task.step, masterEventStep, hreply.query, World.fanOut, List.map_map]
        rfl
  · refine .inl ⟨hreply, ?_⟩
    have hrejected : reply = .rejected ∨ reply = .lost := by
      cases reply <;> simp_all [Reply.Resolves]
    rcases hrejected with rfl | rfl <;> cases h <;>
      simp [Task.step, masterEventStep, hpersisted, Reply.query, Reply.settle]

/-- What holds when the runs start, and when the handler fails, holds to the end if they preserve it. -/
theorem FansOut.preserved
    (hpersisted : Table.lookup TradeEvent.eventId event.eventId w.tradeEvents = some tradeEvent)
    {ok : Config → Action → Prop} [∀ c a, Decidable (ok c a)] {P : Config → Prop}
    (hquiet : ∀ c a, ok c a → OnlyReplies c a)
    (hruns : P ⟨w, (w.fanOut event tradeEvent.id).map fun run => .copy run .resolveSymbol⟩)
    (hfail : ∀ point reply, ok ⟨w, [.masterEvent event point]⟩ (.resume 0 reply) → ¬reply.Resolves →
      P ⟨w, []⟩) (hP : Preserved (restrict Backend.step ok) P) :
    Preserved (restrict Backend.step ok) (FansOut w event tradeEvent.id P) := by
  intro c a c' hc hstep
  cases hc with
  | copying h => exact .copying (hP h hstep)
  | @handling point h =>
      obtain ⟨hok, hstep⟩ := restrict_eq_some.mp hstep
      obtain ⟨i, reply, rfl⟩ := (hquiet _ _ hok).resumes
      obtain ⟨rfl, rfl⟩ := resume_single Task.step hstep
      rcases h.step hpersisted reply with ⟨hreply, hmove⟩ | ⟨point', hpoint, hmove⟩ | hmove
      · rw [hmove]
        exact .copying (hfail point reply hok hreply)
      · rw [hmove]
        exact .handling hpoint
      · rw [hmove]
        exact .copying hruns

theorem Handling.rank_lt
    (hpersisted : Table.lookup TradeEvent.eventId event.eventId w.tradeEvents = some tradeEvent)
    {point : EventPoint} (h : Handling w event tradeEvent.id point) (reply : Reply) :
    total (Task.rank (eligibleSlaves event.masterId w.slaves).length)
        (Task.step reply w (.masterEvent event point)).2 <
      (Task.masterEvent event point).rank (eligibleSlaves event.masterId w.slaves).length := by
  have hruns : ∀ (n : ℕ) (slaves : List Slave) (account : MasterAccount), total (Task.rank n)
      (slaves.map fun slave => .copy ⟨slave, tradeEvent.id, event, account⟩ .resolveSymbol) =
        6 * slaves.length := by
    intro n slaves account
    induction slaves with
    | nil => rfl
    | cons slave rest ih =>
        rw [List.map_cons, total_cons, ih, List.length_cons]
        simp only [Task.rank, CopyPoint.rank]
        omega
  cases h with
  | event =>
      simp only [Task.step, masterEventStep, hpersisted]
      cases reply <;> simp [Reply.query, Reply.settle, Task.rank]
  | slaves =>
      simp only [Task.step, masterEventStep]
      cases reply <;> simp [Reply.query, Reply.settle, Task.rank]
  | master =>
      simp only [Task.step, masterEventStep]
      cases reply <;> simp [Reply.query, Reply.settle, Task.rank, hruns]

/-! ### Runs from the start -/

theorem copying_preserved (w : World) (runs : List CopyRun) :
    Preserved (restrict Backend.step OnlyReplies) (Config.Copying w runs) := by
  intro c a c' h hstep
  obtain ⟨hquiet, hstep⟩ := restrict_eq_some.mp hstep
  exact h.step hquiet hstep

theorem copying_start (hw : w.Sound) (runs : List CopyRun) :
    Config.Copying w runs ⟨w, runs.map fun run => .copy run .resolveSymbol⟩ := by
  refine ⟨⟨hw, fun task htask => ?_⟩, .refl w, fun task htask => ?_⟩
  · obtain ⟨run, -, rfl⟩ := List.mem_map.mp htask
    trivial
  · obtain ⟨run, hrun, rfl⟩ := List.mem_map.mp htask
    exact ⟨run, hrun, _, rfl⟩

theorem copying_nil (hw : w.Sound) (runs : List CopyRun) : Config.Copying w runs ⟨w, []⟩ :=
  ⟨⟨hw, by simp⟩, .refl w, by simp⟩

/-- A fan-out ends: no run is longer than its calls allow. -/
theorem fanOut_length (hw : w.Sound)
    (hpersisted : Table.lookup TradeEvent.eventId event.eventId w.tradeEvents = some tradeEvent)
    {c : Config} {actions : List Action}
    (hrun : Backend.run OnlyReplies ⟨w, [.masterEvent event .findEvent]⟩ actions = some c) :
    actions.length ≤ 3 + 6 * (eligibleSlaves event.masterId w.slaves).length := by
  have hpreserved := FansOut.preserved (P := Config.Copying w (w.fanOut event tradeEvent.id))
    hpersisted (fun _ _ h => h) (copying_start hw _) (fun _ _ _ _ => copying_nil hw _)
    (copying_preserved w _)
  have hrank : ∀ ⦃c : Config⦄ ⦃a : Action⦄ ⦃c' : Config⦄,
      FansOut w event tradeEvent.id (Config.Copying w (w.fanOut event tradeEvent.id)) c →
      restrict Backend.step OnlyReplies c a = some c' →
      total (Task.rank (eligibleSlaves event.masterId w.slaves).length) c'.tasks <
        total (Task.rank (eligibleSlaves event.masterId w.slaves).length) c.tasks := by
    intro c a c' hc hstep
    obtain ⟨hquiet, hstep⟩ := restrict_eq_some.mp hstep
    cases hc with
    | copying h => exact h.rank_lt hquiet hstep _
    | @handling point h =>
        obtain ⟨i, reply, rfl⟩ := hquiet.resumes
        obtain ⟨rfl, rfl⟩ := resume_single Task.step hstep
        simpa using h.rank_lt hpersisted reply
  have hlength := hpreserved.follow_length hrank (.handling .event) hrun
  simp only [total_cons, total_nil, Task.rank] at hlength
  omega

/-- A slave that the event is not copied to is left as it is. -/
theorem fanOut_foreign (hw : w.Sound)
    (hpersisted : Table.lookup TradeEvent.eventId event.eventId w.tradeEvents = some tradeEvent)
    {c : Config} {actions : List Action}
    (hrun : Backend.run OnlyReplies ⟨w, [.masterEvent event .findEvent]⟩ actions = some c)
    {slaveId : Uuid} (hforeign : slaveId ∉ (eligibleSlaves event.masterId w.slaves).map Slave.id) :
    c.shared.view slaveId = w.view slaveId := by
  have hruns : ∀ run ∈ w.fanOut event tradeEvent.id, run.slave.id ≠ slaveId := by
    rintro run hrun rfl
    obtain ⟨slave, hslave, rfl⟩ := List.mem_map.mp hrun
    exact hforeign (List.mem_map_of_mem hslave)
  have hleft : Preserved (restrict Backend.step OnlyReplies) fun c =>
      Config.Copying w (w.fanOut event tradeEvent.id) c ∧ c.shared.view slaveId = w.view slaveId := by
    refine (copying_preserved w _).and fun c a c' h hview hstep => ?_
    obtain ⟨hquiet, hstep⟩ := restrict_eq_some.mp hstep
    exact (h.view_of_foreign hquiet hstep hruns).trans hview
  have hpreserved := FansOut.preserved hpersisted (fun _ _ h => h) ⟨copying_start hw _, rfl⟩
    (fun _ _ _ _ => ⟨copying_nil hw _, rfl⟩) hleft
  cases hpreserved.follow (.handling .event) hrun with
  | handling h => rfl
  | copying h => exact h.2

/-- The runs keep one of them on its course. -/
theorem stage_preserved {run : CopyRun} (runs : List CopyRun) (hcopyable : isCopyableEvent run.event)
    (hunsent : run.Unsent w) :
    Preserved (restrict Backend.step (SucceedsFor run.slave.id)) fun c => Config.Copying w runs c ∧
      run.Stage w (c.shared.view run.slave.id) (c.tasks.filter (Task.copies run.slave.id)) := by
  intro c a c' h hstep
  obtain ⟨hok, hstep⟩ := restrict_eq_some.mp hstep
  exact ⟨h.1.step hok.1 hstep, h.1.stage hcopyable hunsent hok hstep h.2⟩

theorem CopyRun.Stage.start (run : CopyRun) :
    run.Stage w (w.view run.slave.id) [.copy run .resolveSymbol] :=
  .reading trivial rfl

/-- Where no call of the slave is left, its run has ended. -/
theorem CopyRun.Stage.ends {run : CopyRun} {view : SlaveView} (h : run.Stage w view []) :
    ∃ copyId row deliveries, run.Ends w copyId (run.decision w) row deliveries ∧
      view = (w.view run.slave.id).adding row deliveries := by
  cases h with
  | done hends hview => exact ⟨_, _, _, hends, hview⟩

theorem fanOut_ends (hw : w.Sound) (hslaves : (w.slaves.map Slave.id).Nodup)
    (hcopyable : isCopyableEvent event)
    (hpersisted : Table.lookup TradeEvent.eventId event.eventId w.tradeEvents = some tradeEvent)
    {run : CopyRun} (hmem : run ∈ w.fanOut event tradeEvent.id) (hunsent : run.Unsent w)
    {c : Config} {actions : List Action}
    (hrun : Backend.run (SucceedsFor run.slave.id) ⟨w, [.masterEvent event .findEvent]⟩ actions =
      some c) (hdone : c.tasks = []) :
    ∃ copyId row deliveries, run.Ends w copyId (run.decision w) row deliveries ∧
      c.shared.view run.slave.id = (w.view run.slave.id).adding row deliveries := by
  have hids : ((w.fanOut event tradeEvent.id).map fun run => run.slave.id).Nodup := by
    unfold World.fanOut
    rw [List.map_map]
    exact eligibleSlaves_ids_nodup hslaves event.masterId
  have hevent : run.event = event := by
    obtain ⟨slave, -, rfl⟩ := List.mem_map.mp hmem
    rfl
  have hown : ((w.fanOut event tradeEvent.id).map fun run => Task.copy run .resolveSymbol).filter
      (Task.copies run.slave.id) = [.copy run .resolveSymbol] := by
    rw [List.filter_map]
    exact congrArg (List.map _) (Table.filter_eq_singleton hids hmem)
  have hpreserved := FansOut.preserved hpersisted (fun _ _ hok => hok.1)
    ⟨copying_start hw _, hown ▸ .start run⟩
    (fun point reply hok hfailed => absurd (hok.2 _ rfl rfl reply rfl) hfailed)
    (stage_preserved (w.fanOut event tradeEvent.id) (hevent ▸ hcopyable) hunsent)
  cases hpreserved.follow (.handling .event) hrun with
  | handling h => cases hdone
  | copying h =>
      have hstage := h.2
      rw [hdone] at hstage
      exact CopyRun.Stage.ends hstage

/-! ### A run on its own -/

theorem Config.settle_run {ok : Config → Action → Prop} [∀ c a, Decidable (ok c a)]
    (hok : ∀ c, ok c (.resume 0 .ok)) (n : ℕ) (c : Config) :
    ∃ k, Backend.run ok c (List.replicate k (.resume 0 .ok)) = some (c.settle n) ∧
      (k = n ∨ (c.settle n).tasks = []) := by
  induction n generalizing c with
  | zero => exact ⟨0, rfl, .inl rfl⟩
  | succ n ih =>
      cases hstep : Backend.step c (.resume 0 .ok) with
      | none =>
          have hsettled : c.settle (n + 1) = c := by simp [Config.settle, hstep]
          refine ⟨0, by rw [hsettled]; rfl, .inr ?_⟩
          rw [hsettled]
          simpa [Backend.step, Pool.resume] using hstep
      | some c' =>
          obtain ⟨k, hrun, hlast⟩ := ih c'
          have hsettled : c.settle (n + 1) = c'.settle n := by simp [Config.settle, hstep]
          refine ⟨k + 1, ?_, ?_⟩
          · rw [List.replicate_succ, hsettled]
            have hfirst : restrict Backend.step ok c (.resume 0 .ok) = some c' :=
              restrict_eq_some.mpr ⟨hok c, hstep⟩
            simpa [Backend.run, hfirst] using hrun
          · rw [hsettled]
            exact hlast.imp_left fun h => by rw [h]

theorem alone_ends {run : CopyRun} (hw : w.Sound) (hcopyable : isCopyableEvent run.event)
    (hunsent : run.Unsent w) :
    ∃ copyId row deliveries, run.Ends w copyId (run.decision w) row deliveries ∧
      (w.alone [.copy run .resolveSymbol]).shared.view run.slave.id =
        (w.view run.slave.id).adding row deliveries := by
  have hok : ∀ c, SucceedsFor run.slave.id c (.resume 0 .ok) :=
    fun c => ⟨rfl, fun _ _ _ reply hreply => .inl (Option.some.inj hreply).symm⟩
  obtain ⟨k, hrun, hlast⟩ := Config.settle_run hok awaits ⟨w, [.copy run .resolveSymbol]⟩
  have hpreserved := stage_preserved [run] hcopyable hunsent
  have hstart : Config.Copying w [run] ⟨w, [.copy run .resolveSymbol]⟩ := copying_start hw [run]
  have hinitial : run.Stage w (w.view run.slave.id)
      ([Task.copy run .resolveSymbol].filter (Task.copies run.slave.id)) := by
    simpa [Task.copies] using CopyRun.Stage.start run
  have hstage := (hpreserved.follow ⟨hstart, hinitial⟩ hrun).2
  have hlength := hpreserved.follow_length
    (fun c a c' h hstep => h.1.rank_lt (restrict_eq_some.mp hstep).1.1 (restrict_eq_some.mp hstep).2 0)
    ⟨hstart, hinitial⟩ hrun
  simp only [List.length_replicate, total_cons, total_nil, Task.rank, CopyPoint.rank] at hlength
  have hdone : (Config.settle awaits ⟨w, [.copy run .resolveSymbol]⟩).tasks = [] := by
    refine hlast.resolve_left fun hk => ?_
    rw [hk] at hlength
    unfold awaits at hlength
    omega
  rw [hdone] at hstage
  exact CopyRun.Stage.ends hstage

/-! ### The fan-out -/

/-- The copy orders of the event for the slave. -/
def World.copiesOf (w : World) (tradeEventId slaveId : Uuid) : List CopyOrder :=
  w.copyOrders.filter (·.dispatchKey = (tradeEventId, slaveId))

/-- What was handed to the slave. -/
def World.sentTo (w : World) (slaveId : Uuid) : List Delivery := w.sent.filter (·.slaveId = slaveId)

theorem copiesOf_view (w : World) (tradeEventId slaveId : Uuid) :
    w.copiesOf tradeEventId slaveId =
      (w.view slaveId).orders.filter (·.dispatchKey = (tradeEventId, slaveId)) := by
  unfold World.copiesOf World.view
  rw [List.filter_filter]
  refine List.filter_congr fun order _ => ?_
  by_cases hkey : order.dispatchKey = (tradeEventId, slaveId)
  · have hslave : order.slaveId = slaveId := congrArg Prod.snd hkey
    simp [hkey, hslave]
  · simp [hkey]

/-- Where nothing was there before, the view of a slave whose run has ended is that row and those
deliveries. -/
theorem CopyRun.Ends.seen {run : CopyRun} {copyId : Uuid} {point : CopyPoint} {row : CopyOrder}
    {deliveries : List Delivery} (h : run.Ends w copyId point row deliveries) (hsent : w.sent = [])
    (hundispatched : ∀ order ∈ w.copyOrders, order.tradeEventId ≠ run.tradeEventId) {w' : World}
    (hview : w'.view run.slave.id = (w.view run.slave.id).adding row deliveries) :
    w'.copiesOf run.tradeEventId run.slave.id = [row] ∧ w'.sentTo run.slave.id = deliveries := by
  constructor
  · have hnone : w.copiesOf run.tradeEventId run.slave.id = [] :=
      List.filter_eq_nil_iff.mpr fun order horder hkey =>
        hundispatched order horder (congrArg Prod.fst (of_decide_eq_true hkey))
    rw [copiesOf_view] at hnone ⊢
    simp [hview, SlaveView.adding, hnone, h.key.2.1]
  · change (w'.view run.slave.id).sent = deliveries
    rw [hview]
    simp [SlaveView.adding, World.view, hsent]

/-- The fan-out of a persisted event ends. The slaves it is not for get no copy order of it and no
instruction. One that it is for, and whose own operations succeed, gets one copy order, and what its own
run would have come to alone. -/
theorem fan_out_complete (w : World) (event : NormalizedTradeEvent) (tradeEvent : TradeEvent)
    (actions : List Action) (c : Config) (hidle : Config.Idle ⟨w, []⟩)
    (hslaves : (w.slaves.map Slave.id).Nodup) (hcopyable : isCopyableEvent event)
    (hpersisted : Table.lookup TradeEvent.eventId event.eventId w.tradeEvents = some tradeEvent)
    (hundispatched : ∀ order ∈ w.copyOrders, order.tradeEventId ≠ tradeEvent.id)
    (hrun : Backend.run OnlyReplies ⟨w, handleMasterEvent event⟩ actions = some c) :
    actions.length ≤ 3 + 6 * (eligibleSlaves event.masterId w.slaves).length ∧
      (∀ slaveId, (∀ slave ∈ w.slaves, slave.id = slaveId → slave.masterId ≠ event.masterId ∨
          slave.copyEnabled = false ∨ slave.status = .disabled) →
        c.shared.copiesOf tradeEvent.id slaveId = [] ∧ c.shared.sentTo slaveId = []) ∧
      ∀ slave ∈ w.slaves, slave.masterId = event.masterId → slave.copyEnabled = true →
        slave.status ≠ .disabled →
        Backend.run (SucceedsFor slave.id) ⟨w, handleMasterEvent event⟩ actions = some c →
        c.tasks = [] →
        let run : CopyRun := ⟨slave, tradeEvent.id, event, masterAccount event.masterId w.masters⟩
        let alone := (w.alone [.copy run .resolveSymbol]).shared
        ∃ row aloneRow, c.shared.copiesOf tradeEvent.id slave.id = [row] ∧
          run.Settled row (c.shared.sentTo slave.id) ∧
          alone.copiesOf tradeEvent.id slave.id = [aloneRow] ∧ row = aloneRow.renamed row.id ∧
          c.shared.sentTo slave.id = (alone.sentTo slave.id).map (Delivery.renamed row.id) := by
  have hw : w.Sound := hidle.grounded.1
  have hnothing : w.sent = [] := hidle.sent
  rw [handleMasterEvent, if_pos hcopyable] at hrun ⊢
  refine ⟨fanOut_length hw hpersisted hrun, fun slaveId hbarred => ?_, ?_⟩
  · have hforeign : slaveId ∉ (eligibleSlaves event.masterId w.slaves).map Slave.id := by
      intro hmem
      obtain ⟨slave, hslave, hid⟩ := List.mem_map.mp hmem
      obtain ⟨hthere, hmaster, hcopies, hstatus⟩ := mem_eligibleSlaves.mp hslave
      rcases hbarred slave hthere hid with h | h | h
      · exact h hmaster
      · simp [h] at hcopies
      · exact hstatus h
    have hview := fanOut_foreign hw hpersisted hrun hforeign
    refine ⟨?_, (congrArg SlaveView.sent hview).trans ?_⟩
    · rw [copiesOf_view, hview, ← copiesOf_view]
      exact List.filter_eq_nil_iff.mpr fun order horder hkey =>
        hundispatched order horder (congrArg Prod.fst (of_decide_eq_true hkey))
    · simp [World.view, hnothing]
  · intro slave hthere hmaster hcopies hstatus hsucceeds hdone run alone
    have hslave : slave ∈ eligibleSlaves event.masterId w.slaves :=
      mem_eligibleSlaves.mpr ⟨hthere, hmaster, hcopies, hstatus⟩
    have hmem : run ∈ w.fanOut event tradeEvent.id := List.mem_map.mpr ⟨slave, hslave, rfl⟩
    have hunsent : run.Unsent w := fun hkey => by
      obtain ⟨order, horder, hkey⟩ := List.mem_map.mp hkey
      exact hundispatched order horder (congrArg Prod.fst hkey)
    obtain ⟨copyId, row, deliveries, hends, hview⟩ :=
      fanOut_ends hw hslaves hcopyable hpersisted hmem hunsent hsucceeds hdone
    obtain ⟨aloneId, aloneRow, aloneDeliveries, haloneEnds, haloneView⟩ :=
      alone_ends hw hcopyable hunsent
    obtain ⟨hrow, hsent⟩ := hends.seen hnothing hundispatched hview
    obtain ⟨haloneRow, haloneSent⟩ := haloneEnds.seen hnothing hundispatched haloneView
    obtain ⟨hrenamed, hdeliveries⟩ := hends.renamed haloneEnds
    refine ⟨row, aloneRow, hrow, ?_, haloneRow, ?_, ?_⟩
    · exact hsent ▸ hends.settled
    · exact hends.key.1 ▸ hrenamed
    · rw [hends.key.1]
      exact hsent.trans (haloneSent ▸ hdeliveries)

namespace Sample

/-- Two slaves to copy to, one on each platform; one that does not copy, one that is disabled and one of
another master. -/
def fiveSlaves : World :=
  { (config mt5Slave [openEvent]).shared with
    slaves :=
      [mt5Slave, mt4Slave, { id := 6, masterId := 1, copyEnabled := false },
        { id := 7, masterId := 1, status := .disabled }, { id := 8, masterId := 2 }] }

/-- The polling slave's run throws between two steps of the other one. -/
def throwsBeside : List Action :=
  settle 3 ++ [.resume 1 .ok, .resume 0 .ok, .resume 1 .rejected] ++ settle 4

end Sample

open Sample in
theorem five_slaves_complete :
    ∃ c, Backend.run OnlyReplies ⟨fiveSlaves, handleMasterEvent openEvent⟩ throwsBeside = some c ∧
      (∀ slaveId ∈ [6, 7, 8], c.shared.copiesOf 0 slaveId = []) ∧
      (c.shared.copiesOf 0 5).length = 1 := by
  have hruns : ∃ c,
      Backend.run OnlyReplies ⟨fiveSlaves, handleMasterEvent openEvent⟩ throwsBeside = some c ∧
      Backend.run (SucceedsFor 5) ⟨fiveSlaves, handleMasterEvent openEvent⟩ throwsBeside = some c ∧
      c.tasks = [] := by
    decide +kernel
  obtain ⟨c, hrun, hsucceeds, hdone⟩ := hruns
  have hidle : Config.Idle ⟨fiveSlaves, []⟩ :=
    ⟨⟨by decide, by decide, by decide, by decide⟩, rfl, rfl⟩
  obtain ⟨-, hbarred, hcopied⟩ := fan_out_complete fiveSlaves openEvent (openEvent.row 0)
    throwsBeside c hidle (by decide) (by decide) (by decide +kernel) (by decide) hrun
  obtain ⟨row, -, hrow, -⟩ :=
    hcopied mt5Slave (by decide +kernel) rfl rfl (by decide) hsucceeds hdone
  have hnone : ∀ slaveId ∈ [6, 7, 8], ∀ slave ∈ fiveSlaves.slaves, slave.id = slaveId →
      slave.masterId ≠ openEvent.masterId ∨ slave.copyEnabled = false ∨ slave.status = .disabled := by
    decide +kernel
  exact ⟨c, hrun, fun slaveId hmem => (hbarred slaveId (hnone slaveId hmem)).1,
    congrArg List.length hrow⟩

end ForexCopy
