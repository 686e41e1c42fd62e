import ForexCopy.Proof.Terminal.Alone

/-!
# Recording results in any order

A slave may send a result again, and its queue sends the newest first. Where the messages hold at most
one result of a copy order's own slave for it, the order in which they arrive, how often they do and how
the two steps of their handling interleave leave the same table, up to the time of recording.
-/

namespace ForexCopy

open Machine Pool

/-- The slave and the message that reach `handleSlaveMessage`. -/
def Action.report : Action → Option (Uuid × Option ExecutionResult)
  | .arrive (.slaveMessage slaveId _ message) => some (slaveId, message)
  | .arrive (.executionResult slaveId _ body) => some (slaveId, body)
  | _ => none

/-- A message on a master's channel, or a poll. -/
def Action.trades : Action → Bool
  | .arrive (.masterEvent _) | .arrive (.poll _ _) => true
  | _ => false

/-- Of what concerns copy orders only these messages arrive, and the operations succeed. -/
def Reporting (messages : List (Uuid × Option ExecutionResult)) (_ : Config) (a : Action) : Prop :=
  (∀ message ∈ a.report, message ∈ messages) ∧ (∀ reply ∈ a.reply, reply.Resolves) ∧ ¬a.trades

instance (messages : List (Uuid × Option ExecutionResult)) (c : Config) (a : Action) :
    Decidable (Reporting messages c a) :=
  inferInstanceAs (Decidable (_ ∧ _ ∧ _))

/-- All that the messages have to say has been recorded. -/
def Config.Reported (messages : List (Uuid × Option ExecutionResult)) (actions : List Action)
    (c : Config) : Prop :=
  (∀ message ∈ messages, ∃ a ∈ actions, a.report = some message) ∧ ∀ t ∈ c.tasks, t.Background

namespace CopyOrder

/-- The messages hold the result from the row's own slave. -/
def HasResult (messages : List (Uuid × Option ExecutionResult)) (row : CopyOrder)
    (result : ExecutionResult) : Prop :=
  (row.slaveId, some result) ∈ messages ∧ result.copyId = row.id

/-- The row with the result in it: the status, and what else the result carries. -/
def Recorded (result : ExecutionResult) (row row' : CopyOrder) : Prop :=
  ∃ executedAt, row' = CopyOrder.record result row executedAt row

/-- Only the fields of a result, and the time of recording, are other ones. -/
def SameButResult (row row' : CopyOrder) : Prop :=
  row' = { row with
    status := row'.status
    slaveTicket := row'.slaveTicket
    executionPrice := row'.executionPrice
    errorReason := row'.errorReason
    executedAt := row'.executedAt }

/-- What the messages come to for a row. -/
structure Settles (messages : List (Uuid × Option ExecutionResult)) (row row' : CopyOrder) : Prop where
  recorded : ∀ result, row.HasResult messages result → Recorded result row row'
  sameButResult : row.SameButResult row'
  keptTicket : ∀ result, row.HasResult messages result → result.slaveTicket = none →
    row'.slaveTicket = row.slaveTicket
  unchanged : (∀ result, ¬row.HasResult messages result) → row' = row

/-- The row as it was, or with its result in it. -/
structure Towards (orders : List CopyOrder) (messages : List (Uuid × Option ExecutionResult))
    (row row' : CopyOrder) : Prop where
  mem : row ∈ orders
  progress : row' = row ∨ ∃ result, row.HasResult messages result ∧ Recorded result row row'

/-- Without the time of recording. -/
def undated (order : CopyOrder) : CopyOrder := { order with executedAt := none }

/-- Each row has one result in the messages at most. -/
def OneResult (messages : List (Uuid × Option ExecutionResult)) (orders : List CopyOrder) : Prop :=
  ∀ row ∈ orders, ∀ result result', row.HasResult messages result → row.HasResult messages result' →
    result = result'

variable {messages : List (Uuid × Option ExecutionResult)} {orders : List CopyOrder}
  {row row' read : CopyOrder} {result : ExecutionResult}

theorem Recorded.id (h : Recorded result row row') : row'.id = row.id := by
  obtain ⟨_, rfl⟩ := h
  rfl

theorem Recorded.undated_eq {row'' : CopyOrder} (h : Recorded result row row')
    (h' : Recorded result row row'') : row'.undated = row''.undated := by
  obtain ⟨_, rfl⟩ := h
  obtain ⟨_, rfl⟩ := h'
  rfl

theorem Recorded.sameButResult (h : Recorded result row row') : row.SameButResult row' := by
  obtain ⟨_, rfl⟩ := h
  rfl

theorem Recorded.keptTicket (h : Recorded result row row') (hnone : result.slaveTicket = none) :
    row'.slaveTicket = row.slaveTicket := by
  obtain ⟨_, rfl⟩ := h
  simp [CopyOrder.record, hnone]

theorem Settles.of_recorded (hrecorded : ∀ result, row.HasResult messages result → Recorded result row row')
    (hunchanged : (∀ result, ¬row.HasResult messages result) → row' = row) :
    Settles messages row row' where
  recorded := hrecorded
  sameButResult := by
    by_cases hresult : ∃ result, row.HasResult messages result
    · obtain ⟨result, hresult⟩ := hresult
      exact (hrecorded result hresult).sameButResult
    · rw [hunchanged (not_exists.mp hresult)]
      rfl
  keptTicket result hresult := (hrecorded result hresult).keptTicket
  unchanged := hunchanged

theorem Towards.core (h : Towards orders messages row row') : row'.core = row.core := by
  rcases h.progress with rfl | ⟨result, -, _, rfl⟩ <;> rfl

/-- A kept field is the same however often the result has been recorded. -/
theorem orElse_kept {α : Type*} (new old : Option α) : (new <|> (new <|> old)) = (new <|> old) := by
  cases new <;> rfl

/-- Recording a result over itself, or over a row that was read before, changes the time only. -/
theorem Towards.record (hone : OneResult messages orders) (hresult : row.HasResult messages result)
    (hread : Towards orders messages row read) (hrow : Towards orders messages row row')
    (executedAt : DateTime) : Recorded result row (CopyOrder.record result read executedAt row') := by
  have hsame : ∀ other, Towards orders messages row other → other = row ∨ Recorded result row other := by
    intro other hother
    refine hother.progress.imp_right ?_
    rintro ⟨result', hresult', hrecorded⟩
    exact hone row hrow.mem _ _ hresult' hresult ▸ hrecorded
  refine ⟨executedAt, ?_⟩
  rcases hsame read hread with rfl | ⟨_, rfl⟩ <;> rcases hsame row' hrow with rfl | ⟨_, rfl⟩ <;>
    simp only [CopyOrder.record, orElse_kept]

end CopyOrder

/-! ### The two steps of the handling -/

section

variable {orders : List CopyOrder} {messages : List (Uuid × Option ExecutionResult)} {w w' : World}
  {reply : Reply} {slaveId : Uuid} {result : ExecutionResult}

/-- What a suspended call knows: it handles one of the messages, and has read the row it is for. -/
def Task.Reporting (orders : List CopyOrder) (messages : List (Uuid × Option ExecutionResult)) :
    Task → Prop
  | .message slaveId result .findOrder => (slaveId, some result) ∈ messages
  | .message slaveId result (.record order) => ∃ row ∈ orders, row.slaveId = slaveId ∧
    row.HasResult messages result ∧ row.Towards orders messages order
  | task => task.Background

def recording (orders : List CopyOrder) (messages : List (Uuid × Option ExecutionResult)) :
    Outline World Task where
  shared w := List.Forall₂ (CopyOrder.Towards orders messages) orders w.copyOrders
  task _ task := task.Reporting orders messages

theorem Task.Background.reporting {task : Task} (h : task.Background) :
    task.Reporting orders messages :=
  Task.of_background (fun _ _ => trivial) (fun _ => trivial) (fun _ _ _ _ => trivial) h

/-- A call handles a message, or has no part in it. -/
theorem Task.Reporting.cases {task : Task} (h : task.Reporting orders messages) :
    (∃ slaveId result point, task = .message slaveId result point) ∨ task.Background := by
  cases task with
  | message slaveId result point => exact .inl ⟨slaveId, result, point, rfl⟩
  | ingest | persist | heartbeat => exact .inr trivial
  | masterEvent | copy | poll => exact .inr h

theorem findOrder_step (hreply : reply.Resolves) (w : World) (slaveId : Uuid)
    (result : ExecutionResult) : Task.step reply w (.message slaveId result .findOrder) =
      (w, match Table.lookup CopyOrder.id result.copyId w.copyOrders with
        | none => []
        | some order =>
          if order.slaveId = slaveId then [.message slaveId result (.record order)] else []) := by
  simp only [Task.step, slaveMessageStep]
  cases Table.lookup CopyOrder.id result.copyId w.copyOrders with
  | none => exact hreply.query w []
  | some order => exact hreply.query w _

theorem record_step (hreply : reply.Resolves) (w : World) (slaveId : Uuid) (result : ExecutionResult)
    (order : CopyOrder) : Task.step reply w (.message slaveId result (.record order)) =
      (w.updateOrder result.copyId (CopyOrder.record result order w.now), []) := by
  simp only [Task.step, slaveMessageStep, hreply.settle]

/-- The rows that a message is for are the original one and what has become of it. -/
theorem hasResult_of_id (hids : (orders.map CopyOrder.id).Nodup) {row order : CopyOrder}
    (hrow : row ∈ orders) (hresult : row.HasResult messages result) {row' : CopyOrder}
    (horder : order.Towards orders messages row') (hid : row'.id = result.copyId) : order = row := by
  refine Table.eq_of_key_eq hids horder.mem hrow ?_
  rw [← hresult.2, ← hid]
  exact (CopyOrder.id_of_core horder.core).symm

/-- The call's own step keeps the table on its way, and reads a row that is. -/
theorem Task.Reporting.step (hids : (orders.map CopyOrder.id).Nodup)
    (hone : CopyOrder.OneResult messages orders) (hreply : reply.Resolves) {task : Task}
    {next : List Task}
    (hshared : List.Forall₂ (CopyOrder.Towards orders messages) orders w.copyOrders)
    (htask : task.Reporting orders messages) (hmove : task.step reply w = (w', next)) :
    List.Forall₂ (CopyOrder.Towards orders messages) orders w'.copyOrders ∧
      ∀ t ∈ next, t.Reporting orders messages := by
  rcases htask.cases with ⟨slaveId, result, point, rfl⟩ | hbackground
  · cases point with
    | findOrder =>
        rw [findOrder_step hreply] at hmove
        obtain ⟨rfl, rfl⟩ := Prod.mk.inj hmove
        refine ⟨hshared, fun t ht => ?_⟩
        split at ht
        · simp at ht
        · rename_i order hfound
          split_ifs at ht with hslave
          · obtain ⟨row, hrow, htowards⟩ := Table.exists_of_mem_right hshared (Table.lookup_mem hfound)
            have hrowId : row.id = result.copyId :=
              (CopyOrder.id_of_core htowards.core).symm.trans (Table.lookup_key hfound)
            have hrowSlave : row.slaveId = slaveId :=
              (CopyOrder.slaveId_of_core htowards.core).symm.trans hslave
            rw [List.mem_singleton.mp ht]
            exact ⟨row, hrow, hrowSlave, ⟨hrowSlave ▸ htask, hrowId.symm⟩, htowards⟩
          · simp at ht
    | record order =>
        rw [record_step hreply] at hmove
        obtain ⟨rfl, rfl⟩ := Prod.mk.inj hmove
        obtain ⟨row, hrow, -, hresult, hread⟩ := htask
        refine ⟨?_, by simp⟩
        refine Table.forall₂_update hshared fun other order' hother hid => ?_
        obtain rfl := hasResult_of_id hids hrow hresult hother hid
        exact ⟨hother.mem, .inr ⟨result, hresult, hread.record hone hresult hother _⟩⟩
  · obtain ⟨horders, -, hnext⟩ := (Task.step_sound hmove).aside hbackground
    exact ⟨horders ▸ hshared, fun t ht => (hnext t ht).reporting⟩

/-- What arrives starts the handling of a message, if anything. -/
theorem Stimulus.reporting {c : Config} {stimulus : Stimulus}
    (h : ForexCopy.Reporting messages c (.arrive stimulus)) {t : Task}
    (ht : t ∈ (stimulus.apply w).2) : t.Reporting orders messages := by
  obtain ⟨hmessages, -, htrades⟩ := h
  have hmessage : ∀ slaveId message, (slaveId, message) ∈ messages →
      t ∈ handleSlaveMessage slaveId message → t.Reporting orders messages := by
    intro slaveId message hmem hstarted
    cases message with
    | none => simp [handleSlaveMessage] at hstarted
    | some result =>
        rw [handleSlaveMessage, List.mem_singleton] at hstarted
        exact hstarted ▸ hmem
  cases stimulus with
  | slaveMessage slaveId connectorId message =>
      rcases List.mem_cons.mp ht with rfl | hstarted
      · trivial
      · exact hmessage slaveId message (hmessages _ rfl) hstarted
  | executionResult slaveId connectorId body =>
      cases body with
      | none => simp [apply] at ht
      | some result =>
          rcases List.mem_cons.mp ht with rfl | hstarted
          · trivial
          · exact hmessage slaveId (some result) (hmessages _ rfl) hstarted
  | masterEvent | poll => exact absurd rfl htrades
  | ingest masterId payload =>
      simp only [apply, ingestTradeEvent] at ht
      split_ifs at ht
      · obtain rfl := List.mem_singleton.mp ht
        trivial
      · simp at ht
  | heartbeat | connect =>
      obtain rfl := List.mem_singleton.mp ht
      trivial
  | expireKey | sweepOfflineConnectors | patchSlave | upsertSymbolMapping | deleteSymbolMapping
  | disconnect | tick | rearrange => simp [apply] at ht

theorem recording_preserved (hids : (orders.map CopyOrder.id).Nodup)
    (hone : CopyOrder.OneResult messages orders) :
    Preserved (restrict Backend.step (ForexCopy.Reporting messages))
      (recording orders messages).Holds := by
  intro c a c' hc hstep
  obtain ⟨hok, hstep⟩ := restrict_eq_some.mp hstep
  cases a with
  | resume i reply =>
      refine Outline.Holds.resume Task.step hc hstep ?_ fun _ _ _ _ _ _ _ _ h => h
      intro task w' next _ hmove hshared htask
      exact htask.step hids hone (hok.2.1 reply rfl) hshared hmove
  | arrive stimulus =>
      obtain rfl := Option.some.inj hstep
      refine Outline.Holds.arrive ?_ hc.2 fun t ht => stimulus.reporting hok ht
      change List.Forall₂ _ _ (stimulus.apply c.shared).1.copyOrders
      rw [(stimulus.apply_frame c.shared).1]
      exact hc.1

/-! ### No result is lost -/

/-- The result of a row is being handled, or has been recorded. -/
def Config.Covers (row : CopyOrder) (result : ExecutionResult) (c : Config) : Prop :=
  (∃ point, Task.message row.slaveId result point ∈ c.tasks) ∨
    ∃ row' ∈ c.shared.copyOrders, CopyOrder.Recorded result row row'

/-- The handling of a result ends with the row recorded. -/
theorem covers_own_step (hids : (orders.map CopyOrder.id).Nodup)
    (hone : CopyOrder.OneResult messages orders) (hreply : reply.Resolves)
    (hshared : List.Forall₂ (CopyOrder.Towards orders messages) orders w.copyOrders)
    (hunique : (w.copyOrders.map CopyOrder.id).Nodup) {row : CopyOrder} (hrow : row ∈ orders)
    (hresult : row.HasResult messages result) {point : MessagePoint} {next : List Task}
    (htask : (Task.message row.slaveId result point).Reporting orders messages)
    (hmove : (Task.message row.slaveId result point).step reply w = (w', next)) :
    (∃ point, Task.message row.slaveId result point ∈ next) ∨
      ∃ row' ∈ w'.copyOrders, CopyOrder.Recorded result row row' := by
  obtain ⟨order, horder, htowards⟩ := Table.exists_of_mem_left hshared hrow
  have hid : order.id = result.copyId := (CopyOrder.id_of_core htowards.core).trans hresult.2.symm
  have hslave : order.slaveId = row.slaveId := CopyOrder.slaveId_of_core htowards.core
  cases point with
  | findOrder =>
      rw [findOrder_step hreply, Table.lookup_of_mem hunique horder hid] at hmove
      obtain ⟨rfl, rfl⟩ := Prod.mk.inj hmove
      exact .inl ⟨.record order, by simp [hslave]⟩
  | record read =>
      rw [record_step hreply] at hmove
      obtain ⟨rfl, rfl⟩ := Prod.mk.inj hmove
      obtain ⟨other, hother, -, hotherResult, hread⟩ := htask
      obtain rfl := Table.eq_of_key_eq hids hother hrow (hotherResult.2.symm.trans hresult.2)
      exact .inr ⟨_, Table.mem_update_of_eq horder hid, hread.record hone hresult htowards _⟩

/-- Nothing takes a recorded result back. -/
theorem recorded_step (hids : (orders.map CopyOrder.id).Nodup)
    (hone : CopyOrder.OneResult messages orders) (hreply : reply.Resolves) {row : CopyOrder}
    (hrow : row ∈ orders) (hresult : row.HasResult messages result) {task : Task} {next : List Task}
    (htask : task.Reporting orders messages) (hmove : task.step reply w = (w', next))
    (hrecorded : ∃ row' ∈ w.copyOrders, CopyOrder.Recorded result row row') :
    ∃ row' ∈ w'.copyOrders, CopyOrder.Recorded result row row' := by
  obtain ⟨row', hrow', hrecorded⟩ := hrecorded
  rcases htask.cases with ⟨slaveId, other, point, rfl⟩ | hbackground
  · cases point with
    | findOrder =>
        rw [findOrder_step hreply] at hmove
        obtain ⟨rfl, -⟩ := Prod.mk.inj hmove
        exact ⟨row', hrow', hrecorded⟩
    | record read =>
        rw [record_step hreply] at hmove
        obtain ⟨rfl, -⟩ := Prod.mk.inj hmove
        obtain ⟨order, horder, -, horderResult, hread⟩ := htask
        by_cases hid : row'.id = other.copyId
        · obtain rfl := Table.eq_of_key_eq hids horder hrow
            (horderResult.2.symm.trans (hid.symm.trans hrecorded.id))
          obtain rfl := hone order hrow _ _ horderResult hresult
          exact ⟨_, Table.mem_update_of_eq hrow' hid,
            hread.record hone hresult ⟨hrow, .inr ⟨_, hresult, hrecorded⟩⟩ _⟩
        · exact ⟨row', Table.mem_update_of_ne hrow' hid, hrecorded⟩
  · exact ⟨row', ((Task.step_sound hmove).aside hbackground).1 ▸ hrow', hrecorded⟩

theorem ids_of_towards (h : List.Forall₂ (CopyOrder.Towards orders messages) orders w.copyOrders)
    (hids : (orders.map CopyOrder.id).Nodup) : (w.copyOrders.map CopyOrder.id).Nodup := by
  have hsame : orders.map CopyOrder.id = w.copyOrders.map CopyOrder.id := by
    rw [← List.forall₂_eq_eq_eq, List.forall₂_map_left_iff, List.forall₂_map_right_iff]
    exact h.imp fun row row' htowards => (CopyOrder.id_of_core htowards.core).symm
  exact hsame ▸ hids

theorem covers_step (hids : (orders.map CopyOrder.id).Nodup)
    (hone : CopyOrder.OneResult messages orders) {c c' : Config} {a : Action}
    (hc : (recording orders messages).Holds c) (hok : ForexCopy.Reporting messages c a)
    (hstep : Backend.step c a = some c') {row : CopyOrder} (hrow : row ∈ orders)
    (hresult : row.HasResult messages result) (hcovers : c.Covers row result) :
    c'.Covers row result := by
  cases a with
  | resume i reply =>
      have hreply : reply.Resolves := hok.2.1 reply rfl
      obtain ⟨before, task, after, w', next, hget, htasks, hmove, rfl⟩ := resume_cases Task.step hstep
      have htask := hc.2 task (List.mem_of_getElem? hget)
      rcases hcovers with ⟨point, hmem⟩ | hrecorded
      · rw [htasks, List.mem_append, List.mem_cons] at hmem
        rcases hmem with hbefore | rfl | hafter
        · exact .inl ⟨point, List.mem_append_left _ hbefore⟩
        · refine (covers_own_step hids hone hreply hc.1 (ids_of_towards hc.1 hids) hrow hresult htask
            hmove).imp_left ?_
          exact fun ⟨point', hnext⟩ =>
            ⟨point', List.mem_append_right _ (List.mem_append_left _ hnext)⟩
        · exact .inl ⟨point, List.mem_append_right _ (List.mem_append_right _ hafter)⟩
      · exact .inr (recorded_step hids hone hreply hrow hresult htask hmove hrecorded)
  | arrive stimulus =>
      obtain rfl := Option.some.inj hstep
      refine hcovers.imp (fun ⟨point, hmem⟩ => ⟨point, List.mem_append_left _ hmem⟩) ?_
      rintro ⟨row', hrow', hrecorded⟩
      exact ⟨row', (stimulus.apply_frame c.shared).1 ▸ hrow', hrecorded⟩

/-- A result that arrives is being handled. -/
theorem covers_of_report {c c' : Config} {a : Action} (hstep : Backend.step c a = some c')
    {row : CopyOrder} (hreport : a.report = some (row.slaveId, some result)) : c'.Covers row result := by
  cases a with
  | resume i reply => cases hreport
  | arrive stimulus =>
      obtain rfl := Option.some.inj hstep
      refine .inl ⟨.findOrder, List.mem_append_right _ ?_⟩
      cases stimulus with
      | slaveMessage slaveId connectorId message =>
          obtain ⟨rfl, rfl⟩ := Prod.mk.inj (Option.some.inj hreport)
          exact List.mem_cons_of_mem _ (List.mem_singleton_self _)
      | executionResult slaveId connectorId body =>
          obtain ⟨rfl, rfl⟩ := Prod.mk.inj (Option.some.inj hreport)
          exact List.mem_cons_of_mem _ (List.mem_singleton_self _)
      | _ => cases hreport

end

/-! ### Whole runs -/

section

variable {messages : List (Uuid × Option ExecutionResult)} {w : World} {actions : List Action}
  {c : Config}

theorem recording_start (w : World) : (recording w.copyOrders messages).Holds ⟨w, []⟩ :=
  ⟨List.forall₂_same.mpr fun _ hrow => ⟨hrow, .inl rfl⟩, by simp⟩

theorem covers_of_reported (hids : (w.copyOrders.map CopyOrder.id).Nodup)
    (hone : CopyOrder.OneResult messages w.copyOrders)
    (hrun : Backend.run (Reporting messages) ⟨w, []⟩ actions = some c) {row : CopyOrder}
    (hrow : row ∈ w.copyOrders) {result : ExecutionResult} (hresult : row.HasResult messages result)
    (harrived : ∃ a ∈ actions, a.report = some (row.slaveId, some result)) : c.Covers row result := by
  refine (follow_history (P := fun actions (c : Config) => (recording w.copyOrders messages).Holds c ∧
    ((∃ a ∈ actions, a.report = some (row.slaveId, some result)) → c.Covers row result))
    ⟨recording_start w, by simp⟩ ?_ hrun).2 harrived
  rintro before mid a mid' - ⟨hholds, hcovers⟩ hstep
  have hholds' := recording_preserved hids hone hholds hstep
  obtain ⟨hok, hstep⟩ := restrict_eq_some.mp hstep
  refine ⟨hholds', ?_⟩
  rintro ⟨b, hb, hreport⟩
  rcases List.mem_append.mp hb with hbefore | hlast
  · exact covers_step hids hone hholds hok hstep hrow hresult (hcovers ⟨b, hbefore, hreport⟩)
  · obtain rfl := List.mem_singleton.mp hlast
    exact covers_of_report hstep hreport

/-- Where everything has been reported, each row is settled. -/
theorem settles_of_reported (hids : (w.copyOrders.map CopyOrder.id).Nodup)
    (hone : CopyOrder.OneResult messages w.copyOrders)
    (hrun : Backend.run (Reporting messages) ⟨w, []⟩ actions = some c)
    (hreported : c.Reported messages actions) :
    List.Forall₂ (CopyOrder.Settles messages) w.copyOrders c.shared.copyOrders := by
  have hholds := (recording_preserved hids hone).follow (recording_start w) hrun
  have hunique := ids_of_towards hholds.1 hids
  have hmem := (List.forall₂_and_left _ _).mpr
    ⟨fun row' (hrow' : row' ∈ c.shared.copyOrders) => hrow', hholds.1.flip⟩
  refine hmem.flip.imp fun row row' ⟨hrow', htowards⟩ =>
    .of_recorded (fun result hresult => ?_) fun hnone => ?_
  · rcases covers_of_reported hids hone hrun htowards.mem hresult (hreported.1 _ hresult.1) with
      ⟨point, htask⟩ | ⟨recorded, hrecordedMem, hrecorded⟩
    · exact (hreported.2 _ htask).elim
    · have hid : recorded.id = row'.id :=
        hrecorded.id.trans (CopyOrder.id_of_core htowards.core).symm
      exact Table.eq_of_key_eq hunique hrecordedMem hrow' hid ▸ hrecorded
  · refine htowards.progress.resolve_right ?_
    rintro ⟨result, hresult, -⟩
    exact hnone result hresult

theorem undated_eq_of_settles {orders rows rows' : List CopyOrder}
    (h : List.Forall₂ (CopyOrder.Settles messages) orders rows)
    (h' : List.Forall₂ (CopyOrder.Settles messages) orders rows') :
    rows.map CopyOrder.undated = rows'.map CopyOrder.undated := by
  induction h generalizing rows' with
  | nil =>
      cases h'
      rfl
  | @cons order row _ _ hrow _ ih =>
      cases h' with
      | @cons _ row' _ _ hrow' hrest =>
          have hsame : row.undated = row'.undated := by
            by_cases hresult : ∃ result, order.HasResult messages result
            · obtain ⟨result, hresult⟩ := hresult
              exact (hrow.recorded result hresult).undated_eq (hrow'.recorded result hresult)
            · have hnone : ∀ result, ¬order.HasResult messages result := not_exists.mp hresult
              rw [hrow.unchanged hnone, hrow'.unchanged hnone]
          rw [List.map_cons, List.map_cons, hsame, ih hrest]

/-- Whatever the order, the repetitions and the interleaving: each row comes to have its result, if it
has one, and is otherwise as it was; so any two runs leave the same table, up to the time of recording. -/
theorem recorded_in_any_order (w : World) (messages : List (Uuid × Option ExecutionResult))
    (actions : List Action) (c : Config) (hids : (w.copyOrders.map CopyOrder.id).Nodup)
    (hone : CopyOrder.OneResult messages w.copyOrders)
    (hrun : Backend.run (Reporting messages) ⟨w, []⟩ actions = some c)
    (hreported : c.Reported messages actions) :
    List.Forall₂ (CopyOrder.Settles messages) w.copyOrders c.shared.copyOrders ∧
      ∀ actions' c', Backend.run (Reporting messages) ⟨w, []⟩ actions' = some c' →
        c'.Reported messages actions' →
        c'.shared.copyOrders.map CopyOrder.undated = c.shared.copyOrders.map CopyOrder.undated := by
  have hsettles := settles_of_reported hids hone hrun hreported
  exact ⟨hsettles, fun actions' c' hrun' hreported' =>
    undated_eq_of_settles (settles_of_reported hids hone hrun' hreported') hsettles⟩

end

namespace Sample

/-- A result, the same of a slave that it is not for, and a body that is none. -/
def resultMessages : List (Uuid × Option ExecutionResult) :=
  [(5, some (executed 1 "71")), (4, some (executed 1 "72")), (5, none)]

def repeated : List Action :=
  reported 1 "71" ++ [.arrive (.slaveMessage 4 9 (some (executed 1 "72")))] ++ settle 3 ++
    [.arrive (.executionResult 5 9 none)] ++ reported 1 "71"

end Sample

open Sample in
theorem repeated_result_settles :
    ∃ c, Backend.run (Reporting resultMessages) (queued mt5Slave openEvent) repeated = some c ∧
      List.Forall₂ (CopyOrder.Settles resultMessages) (queued mt5Slave openEvent).shared.copyOrders
        c.shared.copyOrders := by
  have hends : ∃ c, Backend.run (Reporting resultMessages) (queued mt5Slave openEvent) repeated =
      some c ∧ c.tasks = [] := by
    decide +kernel
  obtain ⟨c, hrun, hdone⟩ := hends
  have hone : CopyOrder.OneResult resultMessages (queued mt5Slave openEvent).shared.copyOrders := by
    intro row hrow result result' hresult hresult'
    obtain rfl := List.mem_singleton.mp hrow
    have hown : ∀ result, ((5 : Uuid), some result) ∈ resultMessages →
        result = executed 1 "71" := by
      simp [resultMessages]
    rw [hown result hresult.1, hown result' hresult'.1]
  have hreported : c.Reported resultMessages repeated := ⟨by decide +kernel, by simp [hdone]⟩
  exact ⟨c, hrun,
    (recorded_in_any_order _ resultMessages repeated c (by decide) hone hrun hreported).1⟩

end ForexCopy
