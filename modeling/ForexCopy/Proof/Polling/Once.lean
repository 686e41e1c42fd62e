import ForexCopy.Proof.Dispatch

/-!
# Polls and double delivery

A poll chooses the oldest PENDING row with one query and claims it with a later one. Two polls of a
slave that overlap can both choose a row before either has claimed it, and then both respond with it.
That is all that can go wrong: as long as no poll chooses a row that another poll is still working on,
a copy order is in at most one response.
-/

namespace ForexCopy

open Machine Pool

/-- The row a poll has chosen and not yet responded with. -/
def Task.polled : Task → Option Uuid
  | .poll _ (.findTicket order _) | .poll _ (.markFailed order)
  | .poll _ (.resolveSymbol order _ _) => some order.id
  | .poll _ (.markSent instruction) => some instruction.copyId
  | _ => none

theorem Task.Background.polled {task : Task} (h : task.Background) : task.polled = none :=
  Task.of_background (fun _ _ => rfl) (fun _ => rfl) (fun _ _ _ _ => rfl) h

def World.responses (w : World) (copyId : Uuid) : ℕ :=
  w.sent.countP fun delivery => delivery.transport = .poll ∧ delivery.instruction.copyId = copyId

def Task.ChoosesApart (c : Config) (task : Task) : Prop :=
  ∀ slaveId ∈ task.choosing, ∀ order ∈ oldestPending slaveId c.shared.copyOrders,
    ∀ other ∈ c.tasks, other.polled ≠ some order.id

instance (c : Config) (task : Task) : Decidable (task.ChoosesApart c) :=
  inferInstanceAs (Decidable (∀ slaveId ∈ task.choosing, _))

/-- No poll is about to choose a row that another poll is still working on. -/
def PollsApart (c : Config) (a : Action) : Prop := ∀ task ∈ a.resumed c, task.ChoosesApart c

instance (c : Config) (a : Action) : Decidable (PollsApart c a) :=
  inferInstanceAs (Decidable (∀ task ∈ a.resumed c, task.ChoosesApart c))

/-! ### Rows that left the queue -/

def World.NotPending (w : World) (copyId : Uuid) : Prop :=
  ∀ order ∈ w.copyOrders, order.id = copyId → order.status ≠ .pending

/-- Every write to an existing row takes it off the queue. -/
def Settles (change : CopyOrder → CopyOrder) : Prop := ∀ order, (change order).status ≠ .pending

theorem settles_markSent (now : DateTime) : Settles (CopyOrder.markSent now) :=
  fun _ => by simp [CopyOrder.markSent]

theorem settles_markFailed (reason : String) : Settles (CopyOrder.markFailed reason) :=
  fun _ => by simp [CopyOrder.markFailed]

theorem settles_record (result : ExecutionResult) (read : CopyOrder) (now : DateTime) :
    Settles (CopyOrder.record result read now) := fun _ => by
  cases hstatus : result.status <;> simp [CopyOrder.record, ExecutionStatus.toCopyOrderStatus, hstatus]

theorem settles_ite {sent : Bool} {f g : CopyOrder → CopyOrder} (hf : Settles f) (hg : Settles g) :
    Settles (if sent then f else g) := by
  cases sent
  · exact hg
  · exact hf

namespace World

variable {w w' : World} {copyId : Uuid}

theorem NotPending.updateOrder {change : CopyOrder → CopyOrder} (h : w.NotPending copyId)
    (written : Uuid) (hchange : Settles change) :
    (w.updateOrder written change).NotPending copyId := by
  intro order horder hid
  obtain ⟨old, hold, ⟨-, rfl⟩ | ⟨-, rfl⟩⟩ := Table.mem_update.mp horder
  · exact hchange old
  · exact h order hold hid

theorem notPending_updateOrder {change : CopyOrder → CopyOrder} (hchange : Settles change) :
    (w.updateOrder copyId change).NotPending copyId := by
  intro order horder hid
  obtain ⟨old, hold, ⟨-, rfl⟩ | ⟨hne, rfl⟩⟩ := Table.mem_update.mp horder
  · exact hchange old
  · exact absurd hid hne

theorem responses_of_sent (h : w'.sent = w.sent) : w'.responses copyId = w.responses copyId := by
  unfold responses
  rw [h]

theorem responses_push (slaveId : Uuid) (instruction : CopyInstruction) :
    (w.push slaveId instruction).responses copyId = w.responses copyId := by
  simp [responses]

theorem responses_respond (slaveId : Uuid) (instruction : CopyInstruction) :
    (w.respond slaveId instruction).responses copyId =
      w.responses copyId + if instruction.copyId = copyId then 1 else 0 := by
  simp [responses, List.countP_cons]

theorem Sound.responses_nextCopyId (h : w.Sound) : w.responses w.nextCopyId = 0 := by
  refine List.countP_eq_zero.mpr fun delivery hdelivery => ?_
  obtain ⟨core, hcore, hid, -⟩ := h.sent delivery hdelivery
  have := ne_nextCopyId hcore
  simp [← hid, this]

theorem oldestPending_eq_some {slaveId : Uuid} {orders : List CopyOrder} {order : CopyOrder}
    (h : oldestPending slaveId orders = some order) :
    order ∈ orders ∧ order.slaveId = slaveId ∧ order.status = .pending := by
  have hprop := List.find?_some h
  simp only [decide_eq_true_eq] at hprop
  exact ⟨List.mem_of_find?_eq_some h, hprop⟩

end World

/-! ### Accounting -/

/-- A copy order is with one poll or in one response, and one that was responded with has left the
queue. -/
def pollLedger (copyId : Uuid) : Ledger World Task ℕ where
  hold task := if task.polled = some copyId then 1 else 0
  balance w held := held + w.responses copyId ≤ 1 ∧ (0 < w.responses copyId → w.NotPending copyId)

section

variable {w w' : World} {copyId : Uuid} {held held' : ℕ}

theorem pollLedger_total_eq_zero {tasks : List Task} (h : ∀ t ∈ tasks, t.polled = none) :
    total (pollLedger copyId).hold tasks = 0 :=
  total_eq_zero fun t ht => by simp [pollLedger, h t ht]

theorem pollLedger_write {change : CopyOrder → CopyOrder} {written : Uuid}
    (hchange : Settles change) (hheld : held' ≤ held) (h : (pollLedger copyId).balance w held) :
    (pollLedger copyId).balance (w.updateOrder written change) held' := by
  obtain ⟨hsum, hleft⟩ := h
  exact ⟨(Nat.add_le_add_right hheld _).trans hsum,
    fun hpos => (hleft hpos).updateOrder written hchange⟩

theorem pollLedger_keep (horders : w'.copyOrders = w.copyOrders) (hsent : w'.sent = w.sent)
    (hheld : held' ≤ held) (h : (pollLedger copyId).balance w held) :
    (pollLedger copyId).balance w' held' := by
  obtain ⟨hsum, hleft⟩ := h
  have hresponses : w'.responses copyId = w.responses copyId := World.responses_of_sent hsent
  refine ⟨?_, fun hpos => ?_⟩
  · rw [hresponses]
    omega
  · unfold World.NotPending
    rw [horders]
    exact hleft (hresponses ▸ hpos)

theorem pollLedger_idle {task : Task} {next : List Task} {rest : ℕ}
    (horders : w'.copyOrders = w.copyOrders) (hsent : w'.sent = w.sent)
    (hidle : ∀ t ∈ next, t.polled = none)
    (h : (pollLedger copyId).balance w ((pollLedger copyId).hold task + rest)) :
    (pollLedger copyId).balance w' (total (pollLedger copyId).hold next + rest) := by
  rw [pollLedger_total_eq_zero hidle]
  exact pollLedger_keep horders hsent (by omega) h

theorem pollLedger_insert {order : CopyOrder} (hw : w.Sound) (hid : order.id = w.nextCopyId)
    (hheld : held' ≤ held) (h : (pollLedger copyId).balance w held) :
    (pollLedger copyId).balance (w.insertOrder order) held' := by
  obtain ⟨hsum, hleft⟩ := h
  refine ⟨(Nat.add_le_add_right hheld _).trans hsum, fun hpos row hrow hrowId => ?_⟩
  rcases List.mem_append.mp hrow with hold | hnew
  · exact hleft hpos row hold hrowId
  · obtain rfl := List.mem_singleton.mp hnew
    have hnone : (w.insertOrder row).responses copyId = 0 := by
      rw [← hrowId, hid]
      exact hw.responses_nextCopyId
    omega

end

theorem PollRead.polled {w : World} {slaveId : Uuid} {point point' : PollPoint}
    (hread : PollRead w slaveId point point') (hpoint : point ≠ .findOrder) :
    (Task.poll slaveId point').polled = (Task.poll slaveId point).polled := by
  cases hread with
  | order => exact absurd rfl hpoint
  | noTicket | ticket | symbol => rfl

/-- Every step keeps the ledger, a poll that chooses a row because nobody else works on it. -/
theorem Task.Step.pollLedger {reply : Reply} {w w' : World} {task : Task} {next : List Task}
    {copyId : Uuid} {rest : ℕ} (hstep : Task.Step reply w task w' next) (hw : w.Sound)
    (hapart : ∀ slaveId, task = .poll slaveId .findOrder →
      ∀ order ∈ oldestPending slaveId w.copyOrders, order.id = copyId → rest = 0)
    (h : (ForexCopy.pollLedger copyId).balance w ((ForexCopy.pollLedger copyId).hold task + rest)) :
    (ForexCopy.pollLedger copyId).balance w' (total (ForexCopy.pollLedger copyId).hold next + rest) := by
  cases hstep with
  | background htask hnext hsame =>
      exact pollLedger_idle hsame.copyOrders hsame.sent (fun t ht => (hnext t ht).polled) h
  | ends | persist => exact pollLedger_idle rfl rfl (by simp) h
  | eventRead | fanOut | copyRead | messageRead =>
      exact pollLedger_idle rfl rfl (by simp [polled]) h
  | refuse => exact pollLedger_insert hw rfl (by simp) h
  | insert run resolvedSymbol slaveTicket volume hkey hnext =>
      have hidle : ∀ t ∈ next, t.polled = none := by
        intro t ht
        obtain ⟨rfl, -⟩ | rfl := hnext.mem ht
        · rfl
        · rfl
      rw [pollLedger_total_eq_zero hidle]
      exact pollLedger_insert hw rfl (by omega) h
  | push run resolvedSymbol slaveTicket volume =>
      have hinserted : (ForexCopy.pollLedger copyId).balance
          (w.insertOrder (run.pendingOrder w.nextCopyId volume)) rest :=
        pollLedger_insert hw rfl (by simp) h
      rw [pollLedger_total_eq_zero (by simp [polled]), Nat.zero_add]
      exact ⟨by rw [World.responses_push]; exact hinserted.1,
        fun hpos => hinserted.2 (World.responses_push _ _ ▸ hpos)⟩
  | markOffline => exact pollLedger_write (settles_markFailed _) (by simp) h
  | markSent =>
      exact pollLedger_write (settles_ite (settles_markSent _) (settles_markFailed _)) (by simp) h
  | record => exact pollLedger_write (settles_record _ _ _) (by simp) h
  | @pollRead slaveId point point' hread =>
      by_cases hpoint : point = .findOrder
      · subst hpoint
        cases hread with
        | @order order tradeEvent holdest hevent =>
            have hheld : (Task.poll slaveId (pickUp order tradeEvent)).polled = some order.id := by
              unfold pickUp
              split_ifs <;> rfl
            by_cases hid : order.id = copyId
            · -- The row is PENDING, so no response carried it, and no other poll holds it.
              obtain ⟨hmem, -, hpending⟩ := World.oldestPending_eq_some holdest
              have hrest := hapart slaveId rfl order holdest hid
              have hresponses : w.responses copyId = 0 := by
                by_contra hpos
                exact h.2 (Nat.pos_of_ne_zero hpos) order hmem hid hpending
              refine ⟨?_, fun hpos => absurd hpos (by omega)⟩
              simp [ForexCopy.pollLedger, hheld, hid, hrest, hresponses]
            · refine pollLedger_keep rfl rfl ?_ h
              simp [ForexCopy.pollLedger, hheld, hid]
      · refine pollLedger_keep rfl rfl ?_ h
        simp [ForexCopy.pollLedger, hread.polled hpoint]
  | pollFailed => exact pollLedger_write (settles_markFailed _) (by simp) h
  | respond slaveId instruction =>
      have hsettles : (w.updateOrder instruction.copyId (CopyOrder.markSent w.now)).NotPending
          instruction.copyId := World.notPending_updateOrder (settles_markSent w.now)
      have hwritten : (ForexCopy.pollLedger copyId).balance
          (w.updateOrder instruction.copyId (CopyOrder.markSent w.now))
          ((ForexCopy.pollLedger copyId).hold (.poll slaveId (.markSent instruction)) + rest) :=
        pollLedger_write (settles_markSent w.now) le_rfl h
      refine ⟨?_, fun _ => ?_⟩
      · have hsum := hwritten.1
        rw [World.responses_respond]
        simp only [ForexCopy.pollLedger, polled, Option.some.injEq, total_nil] at hsum ⊢
        omega
      · by_cases hid : instruction.copyId = copyId
        · exact hid ▸ hsettles
        · refine hwritten.2 ?_
          rename_i hpos
          rw [World.responses_respond, if_neg hid] at hpos
          exact hpos
  | respondLost => exact pollLedger_write (settles_markSent _) (by simp) h

theorem pollLedger_preserved (copyId : Uuid) :
    Preserved (restrict Backend.step PollsApart) fun c =>
      grounded.Holds c ∧ (pollLedger copyId).Holds c := by
  refine grounded_preserved.restrict.and fun c a c' hc h hstep => ?_
  obtain ⟨hok, hstep⟩ := restrict_eq_some.mp hstep
  refine Backend.ledger_step h hstep ?_ ?_ ?_
  · rintro i reply task w' next rfl hget hmove rest htotal hbalance
    refine hmove.pollLedger hc.1 ?_ hbalance
    rintro slaveId rfl order holdest rfl
    have hfree : total (pollLedger order.id).hold c.tasks = 0 :=
      total_eq_zero fun other hother => if_neg (hok _ hget slaveId rfl order holdest other hother)
    omega
  · intro stimulus _ held hbalance
    obtain ⟨horders, hsent, -⟩ := stimulus.apply_frame c.shared
    exact pollLedger_keep horders hsent le_rfl hbalance
  · intro task htask
    cases htask with
    | background h => simp [pollLedger, h.polled]
    | masterEvent | message | poll => rfl

/-! ### Responses -/

def Action.PollsOnly (slaveId : Uuid) : Action → Prop
  | .resume _ reply => reply = .ok
  | .arrive (.poll polling _) => polling = slaveId
  | .arrive _ => False

/-- Each copy order is in at most one response, however the polls of a slave overlap. -/
def RespondedOnce : Prop :=
  ∀ (slaveId : Uuid) (start c : Config) (actions : List Action), start.Idle →
    (∀ a ∈ actions, a.PollsOnly slaveId) → follow Backend.step start actions = some c →
    ∀ copyId, c.shared.responses copyId ≤ 1

/-- Two polls, the second of which reads the queue before the first has marked its row. -/
def Sample.overlappingPolls : List Action :=
  [.arrive (.poll 4 9), .arrive (.poll 4 9), .resume 1 .ok, .resume 3 .ok] ++
    [.resume 1 .ok, .resume 1 .ok, .resume 2 .ok, .resume 2 .ok]

theorem overlapping_polls_respond_twice : ¬RespondedOnce := by
  intro h
  have hruns : ∃ c, follow Backend.step (Sample.queued Sample.mt4Slave Sample.openEvent)
      Sample.overlappingPolls = some c ∧ c.shared.responses 1 = 2 := by
    decide +kernel
  obtain ⟨c, hrun, htwice⟩ := hruns
  have hidle : (Sample.queued Sample.mt4Slave Sample.openEvent).Idle :=
    ⟨⟨by decide, by decide, by decide, by decide⟩, rfl, rfl⟩
  have honce := h 4 _ c _ hidle (by simp [Sample.overlappingPolls, Action.PollsOnly]) hrun 1
  omega

/-- As long as no poll chooses a row that another poll is still working on, each copy order is in at
most one response, whatever else the backend does meanwhile. -/
theorem polls_apart_respond_once (start c : Config) (actions : List Action) (hstart : start.Idle)
    (hrun : Backend.run PollsApart start actions = some c) (copyId : Uuid) :
    c.shared.responses copyId ≤ 1 := by
  have hledger : (pollLedger copyId).Holds start := by
    unfold Ledger.Holds
    rw [hstart.tasks]
    simp [pollLedger, World.responses, hstart.sent]
  obtain ⟨-, hsum, -⟩ := (pollLedger_preserved copyId).follow ⟨hstart.grounded, hledger⟩ hrun
  omega

def Sample.successivePolls : List Action :=
  [.arrive (.poll 4 9), .resume 1 .ok, .resume 1 .ok, .resume 1 .ok, .arrive (.poll 4 9),
    .resume 2 .ok]

theorem successive_polls_respond_once :
    ∃ c, Backend.run PollsApart (Sample.queued Sample.mt4Slave Sample.openEvent)
        Sample.successivePolls = some c ∧ c.shared.responses 1 = 1 := by
  have hruns : ∃ c, Backend.run PollsApart (Sample.queued Sample.mt4Slave Sample.openEvent)
      Sample.successivePolls = some c ∧ 1 ≤ c.shared.responses 1 := by
    decide +kernel
  obtain ⟨c, hrun, hresponded⟩ := hruns
  have hidle : (Sample.queued Sample.mt4Slave Sample.openEvent).Idle :=
    ⟨⟨by decide, by decide, by decide, by decide⟩, rfl, rfl⟩
  exact ⟨c, hrun, (polls_apart_respond_once _ c _ hidle hrun 1).antisymm hresponded⟩

end ForexCopy
