import ForexCopy.Dashboard.TradesPage
import ForexCopy.Proof.Grounded
import ForexCopy.Proof.Slaves

/-!
# What the broadcasts tell

A write of the status of a copy order and the broadcast about it come from the same call, so as long as
no write is lost and the broadcasts about one order are made in the order of the writes, the latest
broadcast about an order tells its status. The one broadcast that no write goes with is the one for an
order that waits to be polled: it may come when the order has been picked up.
-/

namespace ForexCopy

open Machine Pool

/-- The broadcast shows the columns of the row that are never written. -/
structure CopyOrderBroadcast.Names (broadcast : CopyOrderBroadcast) (order : CopyOrder) : Prop where
  copyId : order.id = broadcast.copyId
  masterId : order.masterId = broadcast.masterId
  slaveId : order.slaveId = broadcast.slaveId
  masterTicket : order.masterTicket = broadcast.masterTicket
  type : order.type = broadcast.type

theorem CopyOrderBroadcast.Names.of_core {broadcast : CopyOrderBroadcast} {order : CopyOrder}
    (h : broadcast.Names order.core) : broadcast.Names order :=
  ⟨h.copyId, h.masterId, h.slaveId, h.masterTicket, h.type⟩

theorem CopyOrderBroadcast.Names.core {broadcast : CopyOrderBroadcast} {order : CopyOrder}
    (h : broadcast.Names order) : broadcast.Names order.core :=
  ⟨h.copyId, h.masterId, h.slaveId, h.masterTicket, h.type⟩

/-- What is broadcast beside what is written in a step. -/
inductive World.Told (platformOf : Uuid → String) (w w' : World) : Option CopyOrderBroadcast → Prop
  | quiet (h : w'.copyOrders = w.copyOrders) : Told platformOf w w' none
  /-- The order of an MT4 slave waits to be polled. -/
  | waiting {broadcast : CopyOrderBroadcast} (hstatus : broadcast.status = .pending)
      (hplatform : platformOf broadcast.slaveId = "MT4")
      (hnames : ∃ core ∈ w.cores, broadcast.Names core) (h : w'.copyOrders = w.copyOrders) :
      Told platformOf w w' (some broadcast)
  | insert {order : CopyOrder} (hid : order.id = w.nextCopyId) (hstatus : order.status = .pending)
      (h : w'.copyOrders = w.copyOrders ++ [order]) : Told platformOf w w' none
  | refuse {order : CopyOrder} {broadcast : CopyOrderBroadcast} (hid : order.id = w.nextCopyId)
      (hnames : broadcast.Names order) (hstatus : broadcast.status = order.status)
      (h : w'.copyOrders = w.copyOrders ++ [order]) : Told platformOf w w' (some broadcast)
  | write {copyId : Uuid} {change : CopyOrder → CopyOrder} {broadcast : CopyOrderBroadcast}
      (hid : broadcast.copyId = copyId) (hnames : ∃ core ∈ w.cores, broadcast.Names core)
      (hcore : KeepsCore change) (hstatus : ∀ row, (change row).status = broadcast.status)
      (h : w'.copyOrders = Table.update CopyOrder.id copyId change w.copyOrders) :
      Told platformOf w w' (some broadcast)

/-- What is told in a step is about a row that is there after it. -/
theorem World.Told.names {platformOf : Uuid → String} {w w' : World}
    {told : Option CopyOrderBroadcast} (h : World.Told platformOf w w' told) (hbefore : w.Before w')
    {broadcast : CopyOrderBroadcast} (htold : broadcast ∈ told) :
    ∃ core ∈ w'.cores, broadcast.Names core := by
  cases h with
  | quiet | insert => cases htold
  | waiting _ _ hnames | write _ hnames =>
      obtain rfl := Option.some.inj htold
      obtain ⟨core, hcore, hmatch⟩ := hnames
      exact ⟨core, hbefore.mem_cores hcore, hmatch⟩
  | refuse _ hnames _ horders =>
      obtain rfl := Option.some.inj htold
      exact ⟨_, World.core_mem_cores (by rw [horders]; simp), hnames.core⟩

namespace Task

variable {platformOf : Uuid → String} {reply : Reply} {w w' : World} {task : Task}
  {next : List Task} {locals : List CopyLocals}

/-- The calls that do not broadcast, whatever they wait for. -/
def Silent : Task → Prop
  | .copy _ (.failOrder _ _) | .copy _ (.findConnector _) | .copy _ (.markOffline _)
  | .copy _ (.markSent _ _) | .message _ _ (.record _) | .poll _ (.markFailed _)
  | .poll _ (.markSent _) => False
  | _ => True

theorem Silent.resolvedBroadcast (h : task.Silent) : task.resolvedBroadcast w locals = none := by
  unfold Silent at h
  unfold Task.resolvedBroadcast
  split at h <;> simp_all

theorem broadcast_of_resolves (h : reply.Resolves) :
    task.broadcast reply w locals = task.resolvedBroadcast w locals :=
  if_pos h

theorem broadcast_rejected : task.broadcast .rejected w locals = none := by
  unfold Task.broadcast
  rw [if_neg (by simp [Reply.Resolves])]

theorem Silent.told (h : task.Silent) (hstep : Task.Step reply w task w' next) :
    World.Told platformOf w w' (task.broadcast reply w locals) := by
  have hbroadcast : task.broadcast reply w locals = none := by
    unfold Task.broadcast
    split_ifs
    · exact h.resolvedBroadcast
    · rfl
  rw [hbroadcast]
  cases hstep with
  | background _ _ hsame => exact .quiet hsame.copyOrders
  | insert run resolvedSymbol slaveTicket volume => exact .insert rfl rfl rfl
  | push run resolvedSymbol slaveTicket volume => exact .insert rfl rfl rfl
  | refuse | markOffline | markSent | record | pollFailed | respond | respondLost => cases h
  | _ => exact .quiet rfl

/-- A call whose write is rejected has neither written nor broadcast. -/
theorem told_rejected (h : ¬task.Silent) (hstep : task.step .rejected w = (w', next)) :
    World.Told platformOf w w' (task.broadcast .rejected w locals) := by
  have hsame : w' = w := by
    obtain rfl : (task.step .rejected w).1 = w' := congrArg Prod.fst hstep
    unfold Silent at h
    split at h
    · simp only [Task.step, copyToSlaveStep]
      split <;> rfl
    all_goals first | rfl | exact absurd trivial h
  rw [broadcast_rejected, hsame]
  exact .quiet rfl

theorem copy_told {run : CopyRun} {point : CopyPoint} (hreply : reply.Resolves)
    (hslave : run.slave.platform = platformOf run.slave.id)
    (htask : (Task.copy run point).Grounded w) (hloud : ¬(Task.copy run point).Silent)
    (hstep : (Task.copy run point).step reply w = (w', next)) :
    World.Told platformOf w w' ((Task.copy run point).resolvedBroadcast w locals) := by
  obtain rfl : ((Task.copy run point).step reply w).1 = w' := congrArg Prod.fst hstep
  cases point with
  | failOrder reason requestedVolume =>
      by_cases hkey : (run.tradeEventId, run.slave.id) ∈ w.copyOrders.map CopyOrder.dispatchKey
      · have hnone : w.createOrder (run.failedOrder w.nextCopyId reason requestedVolume) = none :=
          if_pos hkey
        simp only [Task.step, copyToSlaveStep, resolvedBroadcast, hnone]
        exact .quiet rfl
      · have hcreated : w.createOrder (run.failedOrder w.nextCopyId reason requestedVolume) =
            some (w.insertOrder (run.failedOrder w.nextCopyId reason requestedVolume)) :=
          if_neg hkey
        simp only [Task.step, copyToSlaveStep, resolvedBroadcast, hcreated, hreply.settle]
        exact .refuse rfl ⟨rfl, rfl, rfl, rfl, rfl⟩ rfl rfl
  | findConnector copyId =>
      simp only [Task.step, copyToSlaveStep, resolvedBroadcast, hreply.query]
      obtain ⟨hplatform, volume, hcore⟩ := htask
      cases w.hasOnlineConnector run.slave.id with
      | true =>
          exact .waiting rfl (hslave.symm.trans hplatform) ⟨_, hcore, rfl, rfl, rfl, rfl, rfl⟩ rfl
      | false => exact .quiet rfl
  | markOffline copyId =>
      simp only [Task.step, copyToSlaveStep, resolvedBroadcast, hreply.settle]
      obtain ⟨volume, hcore⟩ := htask
      exact .write rfl ⟨_, hcore, rfl, rfl, rfl, rfl, rfl⟩ (keepsCore_markFailed _) (fun _ => rfl)
        rfl
  | markSent copyId sent =>
      simp only [Task.step, copyToSlaveStep, resolvedBroadcast, hreply.settle]
      obtain ⟨-, volume, hcore⟩ := htask
      refine .write rfl ⟨_, hcore, rfl, rfl, rfl, rfl, rfl⟩
        (keepsCore_ite (keepsCore_markSent _) (keepsCore_markFailed _)) (fun _ => ?_) rfl
      cases sent <;> rfl
  | _ => exact absurd trivial hloud

theorem message_told {slaveId : Uuid} {result : ExecutionResult} {order : CopyOrder}
    (hreply : reply.Resolves) (htask : (Task.message slaveId result (.record order)).Grounded w)
    (hstep : (Task.message slaveId result (.record order)).step reply w = (w', next)) :
    World.Told platformOf w w'
      ((Task.message slaveId result (.record order)).resolvedBroadcast w locals) := by
  obtain rfl : _ = w' := congrArg Prod.fst hstep
  obtain ⟨hcore, hslave, hid⟩ := htask
  simp only [Task.step, slaveMessageStep, hreply.settle, resolvedBroadcast]
  exact .write hid ⟨order.core, hcore, rfl, rfl, hslave, rfl, rfl⟩ (keepsCore_record _ _ _)
    (fun _ => rfl) rfl

theorem poll_told {slaveId : Uuid} {point : PollPoint} (hreply : reply.Resolves) (hw : w.Sound)
    (htask : (Task.poll slaveId point).Grounded w) (hloud : ¬(Task.poll slaveId point).Silent)
    (hstep : (Task.poll slaveId point).step reply w = (w', next)) :
    World.Told platformOf w w' ((Task.poll slaveId point).resolvedBroadcast w locals) := by
  obtain rfl : ((Task.poll slaveId point).step reply w).1 = w' := congrArg Prod.fst hstep
  cases point with
  | markFailed order =>
      simp only [Task.step, pendingInstructionStep, resolvedBroadcast, hreply.settle]
      exact .write rfl ⟨order.core, htask.1, rfl, rfl, htask.2, rfl, rfl⟩ (keepsCore_markFailed _)
        (fun _ => rfl) rfl
  | markSent instruction =>
      obtain ⟨core, hcore, hid, hslave, -⟩ := htask
      obtain ⟨row, hrow, rfl⟩ := World.exists_of_mem_cores hcore
      have hlookup : Table.lookup CopyOrder.id instruction.copyId w.copyOrders = some row :=
        Table.lookup_of_mem hw.ids hrow hid
      simp only [resolvedBroadcast, hlookup, Option.map_some]
      rcases hreply with rfl | rfl <;>
        exact .write hid ⟨row.core, hcore, rfl, rfl, hslave, rfl, rfl⟩ (keepsCore_markSent _)
          (fun _ => rfl) rfl
  | _ => exact absurd trivial hloud

theorem told_of_resolves (hreply : reply.Resolves) (hw : w.Sound) (htask : task.Grounded w)
    (hslaves : task.HoldsSlaves fun slave => slave.platform = platformOf slave.id)
    (hloud : ¬task.Silent) (hstep : task.step reply w = (w', next)) :
    World.Told platformOf w w' (task.broadcast reply w locals) := by
  rw [broadcast_of_resolves hreply]
  cases task with
  | copy run point => exact copy_told hreply hslaves htask hloud hstep
  | message slaveId result point =>
      cases point with
      | findOrder => exact absurd trivial hloud
      | record order => exact message_told hreply htask hstep
  | poll slaveId point => exact poll_told hreply hw htask hloud hstep
  | ingest | persist | heartbeat | masterEvent => exact absurd trivial hloud

/-- Unless a write is lost, a call broadcasts what it has written. -/
theorem told (hlost : reply ≠ .lost) (hw : w.Sound) (htask : task.Grounded w)
    (hslaves : task.HoldsSlaves fun slave => slave.platform = platformOf slave.id)
    (hstep : task.step reply w = (w', next)) : World.Told platformOf w w' (task.broadcast reply w locals) := by
  by_cases hsilent : task.Silent
  · exact hsilent.told (Task.step_sound hstep)
  cases reply with
  | lost => exact absurd rfl hlost
  | rejected => exact told_rejected hsilent hstep
  | ok => exact told_of_resolves (.inl rfl) hw htask hslaves hsilent hstep
  | swapped => exact told_of_resolves (.inr rfl) hw htask hslaves hsilent hstep

end Task

/-! ### The latest broadcast -/

/-- The broadcast tells the status of the order, or that the order of an MT4 slave waits. -/
def CopyOrderBroadcast.Tells (platformOf : Uuid → String) (broadcast : CopyOrderBroadcast)
    (order : CopyOrder) : Prop :=
  broadcast.status = order.status ∨
    broadcast.status = .pending ∧ platformOf order.slaveId = "MT4"

/-- Each broadcast is about a copy order, the latest about each tells its status, and an order that no
broadcast is about is as it was created or as it was `before`. -/
structure World.ToldBy (platformOf : Uuid → String) (before : List CopyOrder) (w : World)
    (feed : List CopyOrderBroadcast) : Prop where
  names : ∀ broadcast ∈ feed, ∃ core ∈ w.cores, broadcast.Names core
  latest : ∀ order ∈ w.copyOrders, ∀ broadcast,
    ChangeFeed.latest CopyOrderBroadcast.copyId order.id feed = some broadcast →
      broadcast.Tells platformOf order
  untold : ∀ order ∈ w.copyOrders,
    ChangeFeed.latest CopyOrderBroadcast.copyId order.id feed = none →
      order.status = .pending ∨ order ∈ before

namespace World.ToldBy

variable {platformOf : Uuid → String} {before : List CopyOrder} {w w' : World}
  {feed : List CopyOrderBroadcast}

theorem latest_nextCopyId (h : w.ToldBy platformOf before feed) :
    ChangeFeed.latest CopyOrderBroadcast.copyId w.nextCopyId feed = none := by
  refine ChangeFeed.latest_eq_none.mpr fun broadcast hbroadcast hid => ?_
  obtain ⟨core, hcore, hnames⟩ := h.names broadcast hbroadcast
  exact World.ne_nextCopyId hcore (hnames.copyId.trans hid)

theorem of_copyOrders (h : w.ToldBy platformOf before feed) (horders : w'.copyOrders = w.copyOrders) :
    w'.ToldBy platformOf before feed where
  names := by
    have hcores : w'.cores = w.cores := congrArg (List.map CopyOrder.core) horders
    exact hcores ▸ h.names
  latest := horders ▸ h.latest
  untold := horders ▸ h.untold

theorem insert (h : w.ToldBy platformOf before feed) {order : CopyOrder} (hid : order.id = w.nextCopyId)
    (hpending : order.status = .pending) (horders : w'.copyOrders = w.copyOrders ++ [order]) :
    w'.ToldBy platformOf before feed where
  names broadcast hbroadcast := by
    obtain ⟨core, hcore, hnames⟩ := h.names broadcast hbroadcast
    have hcores : w'.cores = w.cores ++ [order.core] := by
      unfold World.cores
      rw [horders, List.map_append, List.map_singleton]
    exact ⟨core, hcores ▸ List.mem_append_left _ hcore, hnames⟩
  latest row hrow broadcast hlatest := by
    rw [horders, List.mem_append, List.mem_singleton] at hrow
    rcases hrow with hold | rfl
    · exact h.latest row hold broadcast hlatest
    · rw [hid, h.latest_nextCopyId] at hlatest
      cases hlatest
  untold row hrow hnone := by
    rw [horders, List.mem_append, List.mem_singleton] at hrow
    rcases hrow with hold | rfl
    · exact h.untold row hold hnone
    · exact .inl hpending

/-- A broadcast about a row that tells its status may be added. -/
theorem broadcast (h : w.ToldBy platformOf before feed) {broadcast : CopyOrderBroadcast}
    (hnames : ∃ core ∈ w.cores, broadcast.Names core)
    (htells : ∀ order ∈ w.copyOrders, order.id = broadcast.copyId →
      broadcast.Tells platformOf order) : w.ToldBy platformOf before (feed ++ [broadcast]) where
  names other hother := by
    rw [List.mem_append, List.mem_singleton] at hother
    rcases hother with hold | rfl
    · exact h.names other hold
    · exact hnames
  latest order horder other hlatest := by
    rw [ChangeFeed.latest_concat] at hlatest
    split_ifs at hlatest with hid
    · obtain rfl := Option.some.inj hlatest
      exact htells order horder hid.symm
    · exact h.latest order horder other hlatest
  untold order horder hnone := by
    rw [ChangeFeed.latest_concat] at hnone
    split_ifs at hnone
    exact h.untold order horder hnone

/-- A row that is inserted with a status and broadcast with it. -/
theorem refuse (h : w.ToldBy platformOf before feed) {order : CopyOrder}
    {broadcast : CopyOrderBroadcast} (hid : order.id = w.nextCopyId)
    (hnames : broadcast.Names order) (hstatus : broadcast.status = order.status)
    (horders : w'.copyOrders = w.copyOrders ++ [order]) :
    w'.ToldBy platformOf before (feed ++ [broadcast]) where
  names other hother := by
    have hcores : w'.cores = w.cores ++ [order.core] := by
      unfold World.cores
      rw [horders, List.map_append, List.map_singleton]
    rw [hcores]
    rw [List.mem_append, List.mem_singleton] at hother
    rcases hother with hold | rfl
    · obtain ⟨core, hcore, hmatch⟩ := h.names other hold
      exact ⟨core, List.mem_append_left _ hcore, hmatch⟩
    · exact ⟨order.core, by simp, hnames.core⟩
  latest row hrow other hlatest := by
    rw [horders, List.mem_append, List.mem_singleton] at hrow
    rw [ChangeFeed.latest_concat, ← hnames.copyId] at hlatest
    rcases hrow with hold | rfl
    · rw [if_neg (by rw [hid]; exact (World.ne_nextCopyId_of_mem hold).symm)] at hlatest
      exact h.latest row hold other hlatest
    · rw [if_pos rfl] at hlatest
      obtain rfl := Option.some.inj hlatest
      exact .inl hstatus
  untold row hrow hnone := by
    rw [horders, List.mem_append, List.mem_singleton] at hrow
    rw [ChangeFeed.latest_concat, ← hnames.copyId] at hnone
    rcases hrow with hold | rfl
    · rw [if_neg (by rw [hid]; exact (World.ne_nextCopyId_of_mem hold).symm)] at hnone
      exact h.untold row hold hnone
    · simp at hnone

/-- A write and the broadcast about it. -/
theorem write (h : w.ToldBy platformOf before feed) {copyId : Uuid} {change : CopyOrder → CopyOrder}
    {broadcast : CopyOrderBroadcast} (hid : broadcast.copyId = copyId)
    (hnames : ∃ core ∈ w.cores, broadcast.Names core) (hcore : KeepsCore change)
    (hstatus : ∀ row, (change row).status = broadcast.status)
    (horders : w'.copyOrders = Table.update CopyOrder.id copyId change w.copyOrders) :
    w'.ToldBy platformOf before (feed ++ [broadcast]) where
  names other hother := by
    have hcores : w'.cores = w.cores := by
      unfold World.cores
      rw [horders]
      exact Table.map_update w.copyOrders hcore
    rw [hcores]
    rw [List.mem_append, List.mem_singleton] at hother
    rcases hother with hold | rfl
    · exact h.names other hold
    · exact hnames
  latest order horder other hlatest := by
    rw [horders, Table.mem_update] at horder
    rw [ChangeFeed.latest_concat, hid] at hlatest
    obtain ⟨old, hold, ⟨hkey, rfl⟩ | ⟨hkey, rfl⟩⟩ := horder
    · rw [hcore.id, if_pos hkey.symm] at hlatest
      obtain rfl := Option.some.inj hlatest
      exact .inl (hstatus old).symm
    · rw [if_neg (Ne.symm hkey)] at hlatest
      exact h.latest order hold other hlatest
  untold order horder hnone := by
    rw [horders, Table.mem_update] at horder
    rw [ChangeFeed.latest_concat, hid] at hnone
    split_ifs at hnone with hkey
    obtain ⟨old, hold, ⟨hsame, rfl⟩ | ⟨-, rfl⟩⟩ := horder
    · exact absurd (hsame.symm.trans (hcore.id old).symm) hkey
    · exact h.untold order hold hnone

/-- What is written and what is broadcast stay together. -/
theorem extend {told : Option CopyOrderBroadcast} (h : w.ToldBy platformOf before feed) (hw : w.Sound)
    (htold : World.Told platformOf w w' told) : w'.ToldBy platformOf before (feed ++ told.toList) := by
  cases htold with
  | quiet horders => simpa using h.of_copyOrders horders
  | @waiting broadcast hstatus hplatform hnames horders =>
      refine (h.broadcast hnames fun order horder hid => .inr ⟨hstatus, ?_⟩).of_copyOrders horders
      obtain ⟨core, hcore, hmatch⟩ := hnames
      have hrow : order.core = core := hw.core_eq hcore horder (hid.trans hmatch.copyId.symm)
      have hslave : order.slaveId = broadcast.slaveId :=
        (congrArg CopyOrder.slaveId hrow).trans hmatch.slaveId
      rw [hslave]
      exact hplatform
  | insert hid hpending horders => simpa using h.insert hid hpending horders
  | refuse hid hnames hstatus horders => exact h.refuse hid hnames hstatus horders
  | write hid hnames hcore hstatus horders => exact h.write hid hnames hcore hstatus horders

/-- A broadcast may come before others that are about other orders. -/
theorem advance {front back : List CopyOrderBroadcast} {broadcast : CopyOrderBroadcast}
    (h : w.ToldBy platformOf before (feed ++ (front ++ broadcast :: back)))
    (hother : ∀ earlier ∈ front, earlier.copyId ≠ broadcast.copyId) :
    w.ToldBy platformOf before (feed ++ [broadcast] ++ (front ++ back)) where
  names other hmem := h.names other (by simp only [List.mem_append, List.mem_cons] at hmem ⊢; tauto)
  latest order horder other hlatest := by
    rw [ChangeFeed.latest_advance feed back hother] at hlatest
    exact h.latest order horder other hlatest
  untold order horder hnone := by
    rw [ChangeFeed.latest_advance feed back hother] at hnone
    exact h.untold order horder hnone

end World.ToldBy

/-! ### Runs -/

/-- No write is lost, and the broadcasts about one order are made in the order of the writes. -/
def LiveTrades.InOrder (s : LiveTrades) : LiveAction → Prop
  | .backend action => action.reply ≠ some .lost
  | .announce i => ∀ broadcast ∈ s.due[i]?, ∀ earlier ∈ s.due.take i,
      earlier.copyId ≠ broadcast.copyId
  | _ => True

instance (s : LiveTrades) : (a : LiveAction) → Decidable (s.InOrder a)
  | .backend action => inferInstanceAs (Decidable (action.reply ≠ some .lost))
  | .announce i => inferInstanceAs (Decidable (∀ broadcast ∈ s.due[i]?, ∀ earlier ∈ s.due.take i,
      earlier.copyId ≠ broadcast.copyId))
  | .connect | .advance _ _ | .closed _ | .open | .onclose | .onmessage | .serve | .loadInitial
  | .loadFails => inferInstanceAs (Decidable True)

/-- What the latest broadcasts tell, made or still due, and what that rests on. -/
structure LiveTrades.Telling (platformOf : Uuid → String) (before : List CopyOrder)
    (s : LiveTrades) : Prop where
  grounded : grounded.Holds s.backend
  slaves : (slavesOutline fun slave => slave.platform = platformOf slave.id).Holds s.backend
  told : s.backend.shared.ToldBy platformOf before (s.broadcasts ++ s.due)

theorem platform_ofConfig (platformOf : Uuid → String) :
    OfConfig fun slave => slave.platform = platformOf slave.id := by
  intro a b hconfig ha
  have hid : a.id = b.id := by simpa [Slave.config] using congrArg Slave.id hconfig
  have hplatform : a.platform = b.platform := by
    simpa [Slave.config] using congrArg Slave.platform hconfig
  rwa [hid, hplatform] at ha

namespace LiveTrades

variable {platformOf : Uuid → String} {before : List CopyOrder} {s s' : LiveTrades} {a : LiveAction}

/-! ### What an action does -/

theorem announce_eq_some {i : ℕ} (h : s.announce i = some s') :
    ∃ broadcast, s.due[i]? = some broadcast ∧
      s.due = s.due.take i ++ broadcast :: s.due.drop (i + 1) ∧
      s' = { s with
        due := s.due.take i ++ s.due.drop (i + 1)
        broadcasts := s.broadcasts ++ [broadcast]
        gateway := s.gateway.broadcastToAdmins broadcast } := by
  obtain ⟨broadcast, hget, rfl⟩ := Option.map_eq_some_iff.mp h
  obtain ⟨hlt, rfl⟩ := List.getElem?_eq_some_iff.mp hget
  refine ⟨s.due[i], hget, ?_, by rw [List.eraseIdx_eq_take_drop_succ]⟩
  rw [List.getElem_cons_drop, List.take_append_drop]

/-- Only the backend writes and only a broadcast that is due is made. -/
theorem step_cases (h : s.step a = some s') :
    (∃ action, a = .backend action ∧ s.act action = some s') ∨
      (∃ i, a = .announce i ∧ s.announce i = some s') ∨
      (s'.backend = s.backend ∧ s'.due = s.due ∧ s'.broadcasts = s.broadcasts) := by
  cases a with
  | backend action => exact .inl ⟨action, rfl, h⟩
  | announce i => exact .inr (.inl ⟨i, rfl, h⟩)
  | connect =>
      obtain rfl := Option.some.inj h
      exact .inr (.inr ⟨rfl, rfl, rfl⟩)
  | advance | closed | loadInitial =>
      obtain ⟨_, -, rfl⟩ := Option.map_eq_some_iff.mp h
      exact .inr (.inr ⟨rfl, rfl, rfl⟩)
  | «open» | onclose | onmessage | serve | loadFails =>
      simp only [step] at h
      repeat' split at h
      all_goals cases h
      all_goals exact .inr (.inr ⟨rfl, rfl, rfl⟩)

/-- What an action of the backend leaves as it is. -/
theorem act_frame {action : Action} (hstep : s.act action = some s') :
    s'.broadcasts = s.broadcasts ∧ s'.gateway = s.gateway ∧ s'.page = s.page := by
  obtain ⟨backend, -, rfl⟩ := Option.map_eq_some_iff.mp hstep
  exact ⟨rfl, rfl, rfl⟩

/-- What an action of the backend makes due, unless it loses a write. -/
theorem act_told {action : Action} (hgrounded : grounded.Holds s.backend)
    (hslaves : (slavesOutline fun slave => slave.platform = platformOf slave.id).Holds s.backend)
    (hlost : action.reply ≠ some .lost) (hstep : s.act action = some s') :
    ∃ told, s'.due = s.due ++ told.toList ∧
      World.Told platformOf s.backend.shared s'.backend.shared told := by
  obtain ⟨backend, hbackend, rfl⟩ := Option.map_eq_some_iff.mp hstep
  refine ⟨_, rfl, ?_⟩
  cases action with
  | arrive stimulus =>
      obtain rfl := Option.some.inj hbackend
      exact .quiet (stimulus.apply_frame s.backend.shared).1
  | resume i reply =>
      obtain ⟨_, task, _, w', next, hget, _, hmove, rfl⟩ := resume_cases Task.step hbackend
      have hmem := List.mem_of_getElem? hget
      have htold : World.Told platformOf s.backend.shared w'
          (task.broadcast reply s.backend.shared s.locals) :=
        Task.told (fun heq => hlost (congrArg some heq)) hgrounded.1 (hgrounded.2 task hmem)
          (hslaves.2 task hmem) hmove
      simpa [resumed, hget] using htold

/-- A call whose write is lost does not get to its broadcast. -/
theorem act_lost {action : Action} (hlost : action.reply = some .lost)
    (hstep : s.act action = some s') : s'.due = s.due := by
  obtain ⟨backend, -, rfl⟩ := Option.map_eq_some_iff.mp hstep
  cases action with
  | arrive => cases hlost
  | resume i reply =>
      obtain rfl : reply = .lost := Option.some.inj hlost
      cases hget : s.backend.tasks[i]? <;> simp [resumed, hget, Task.broadcast, Reply.Resolves]

theorem act_backend {action : Action} (hstep : s.act action = some s') :
    Backend.step s.backend action = some s'.backend := by
  obtain ⟨backend, hbackend, rfl⟩ := Option.map_eq_some_iff.mp hstep
  exact hbackend

theorem slaves_act {action : Action}
    (hslaves : (slavesOutline fun slave => slave.platform = platformOf slave.id).Holds s.backend)
    (hstep : s.act action = some s') :
    (slavesOutline fun slave => slave.platform = platformOf slave.id).Holds s'.backend := by
  have hpreserved : Preserved (restrict Backend.step fun _ _ => True)
      (slavesOutline fun slave => slave.platform = platformOf slave.id).Holds :=
    slaves_preserved (platform_ofConfig platformOf) fun _ _ _ _ _ _ _ _ hplatform => hplatform
  exact hpreserved hslaves (restrict_eq_some.mpr ⟨trivial, act_backend hstep⟩)

theorem Telling.act {action : Action} (h : s.Telling platformOf before)
    (hlost : action.reply ≠ some .lost) (hstep : s.act action = some s') :
    s'.Telling platformOf before := by
  refine ⟨grounded_preserved h.grounded (act_backend hstep), slaves_act h.slaves hstep, ?_⟩
  obtain ⟨told, hdue, htold⟩ := act_told h.grounded h.slaves hlost hstep
  rw [hdue, (act_frame hstep).1, ← List.append_assoc]
  exact h.told.extend h.grounded.1 htold

theorem Telling.step (h : s.Telling platformOf before) (hok : s.InOrder a) (hstep : s.step a = some s') :
    s'.Telling platformOf before := by
  obtain ⟨action, rfl, hact⟩ | ⟨i, rfl, hannounce⟩ | ⟨hbackend, hdue, hbroadcasts⟩ :=
    step_cases hstep
  · exact h.act hok hact
  · obtain ⟨broadcast, hget, hdue, rfl⟩ := announce_eq_some hannounce
    refine ⟨h.grounded, h.slaves, ?_⟩
    have htold := h.told
    rw [hdue] at htold
    exact htold.advance fun earlier hearlier => hok broadcast hget earlier hearlier
  · exact ⟨hbackend ▸ h.grounded, hbackend ▸ h.slaves, by rw [hbackend, hdue, hbroadcasts]; exact h.told⟩

theorem telling_preserved : Preserved (restrict LiveTrades.step InOrder) (Telling platformOf before) :=
  fun _ _ _ h hstep => h.step (restrict_eq_some.mp hstep).1 (restrict_eq_some.mp hstep).2

end LiveTrades

/-- The platform of the slave with the identifier. -/
def World.platformOf (w : World) (slaveId : Uuid) : String :=
  ((Table.lookup Slave.id slaveId w.slaves).map Slave.platform).getD ""

theorem World.platformOf_mem {w : World} (hunique : (w.slaves.map Slave.id).Nodup) {slave : Slave}
    (h : slave ∈ w.slaves) : slave.platform = w.platformOf slave.id := by
  unfold World.platformOf
  rw [Table.lookup_of_mem hunique h rfl]
  rfl

theorem LiveTrades.telling_start {w : World} (hidle : Config.Idle ⟨w, []⟩)
    (hunique : (w.slaves.map Slave.id).Nodup) : (start w).Telling w.platformOf w.copyOrders where
  grounded := hidle.grounded
  slaves := ⟨fun _ hslave => World.platformOf_mem hunique hslave, by simp [start]⟩
  told := ⟨by simp [start], by simp [start], fun _ horder _ => .inr horder⟩

/-- Unless a write is lost, the latest broadcast about a copy order, made or due, shows the order and its
status, or the order of an MT4 slave as waiting; one that no broadcast is about has not moved. -/
theorem LiveTrades.broadcasts_tell_status {w : World} {s : LiveTrades} {actions : List LiveAction}
    (hidle : Config.Idle ⟨w, []⟩) (hunique : (w.slaves.map Slave.id).Nodup)
    (hrun : follow (restrict LiveTrades.step InOrder) (start w) actions = some s) {order : CopyOrder}
    (horder : order ∈ s.backend.shared.copyOrders) :
    (∀ broadcast,
      ChangeFeed.latest CopyOrderBroadcast.copyId order.id (s.broadcasts ++ s.due) = some broadcast →
        broadcast.Names order ∧ (broadcast.status = order.status ∨ broadcast.status = .pending ∧
          ∀ slave ∈ s.backend.shared.slaves, slave.id = order.slaveId → slave.platform = "MT4")) ∧
    (ChangeFeed.latest CopyOrderBroadcast.copyId order.id (s.broadcasts ++ s.due) = none →
      order.status = .pending ∨ order ∈ w.copyOrders) := by
  have htelling := telling_preserved.follow (telling_start hidle hunique) hrun
  refine ⟨fun broadcast hlatest => ?_, htelling.told.untold order horder⟩
  obtain ⟨hmem, hid⟩ := ChangeFeed.mem_of_latest hlatest
  obtain ⟨core, hcore, hnames⟩ := htelling.told.names broadcast hmem
  have hrow : order.core = core :=
    htelling.grounded.1.core_eq hcore horder (hid.symm.trans hnames.copyId.symm)
  refine ⟨(hrow ▸ hnames).of_core, ?_⟩
  refine (htelling.told.latest order horder broadcast hlatest).imp_right ?_
  rintro ⟨hpending, hplatform⟩
  refine ⟨hpending, fun slave hslave hslaveId => ?_⟩
  have hplatformOf : slave.platform = w.platformOf slave.id := htelling.slaves.1 slave hslave
  rw [hplatformOf, hslaveId, hplatform]

theorem Sample.trading_idle : Config.Idle ⟨Sample.trading, []⟩ :=
  ⟨⟨by decide, by decide, by decide, by decide⟩, rfl, rfl⟩

theorem LiveTrades.watched_broadcasts_tell :
    ∃ s, follow (restrict LiveTrades.step InOrder) (start Sample.trading) Sample.watched = some s ∧
      ∃ order ∈ s.backend.shared.copyOrders, ∃ broadcast ∈ s.broadcasts,
        order.status = .executed ∧ broadcast.Names order := by
  have hruns : ∃ s, follow (restrict LiveTrades.step InOrder) (start Sample.trading)
      Sample.watched = some s ∧ s.due = [] ∧ ∃ order ∈ s.backend.shared.copyOrders,
        order.status = .executed ∧
          (ChangeFeed.latest CopyOrderBroadcast.copyId order.id s.broadcasts).isSome := by
    decide +kernel
  obtain ⟨s, hrun, hdue, order, horder, hexecuted, hsome⟩ := hruns
  obtain ⟨broadcast, hlatest⟩ := Option.isSome_iff_exists.mp hsome
  have htells := (broadcasts_tell_status Sample.trading_idle (by decide) hrun horder).1 broadcast
    (by rw [hdue, List.append_nil]; exact hlatest)
  exact ⟨s, hrun, order, horder, broadcast, (ChangeFeed.mem_of_latest hlatest).1, hexecuted, htells.1⟩

end ForexCopy
