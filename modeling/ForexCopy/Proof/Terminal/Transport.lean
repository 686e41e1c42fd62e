import ForexCopy.Proof.Admission
import ForexCopy.Proof.Dispatch
import ForexCopy.Proof.Polling.Once
import ForexCopy.Proof.Polling.Pickup
import ForexCopy.Slave.Concurrent

/-!
# One transport, one delivery

A slave is either pushed to or polls, by its platform, and on neither transport is a copy order handed
over twice. So whatever the order of dispatches and polls, a copy order reaches its slave at most once.
-/

namespace ForexCopy

open Machine Pool

def World.deliveries (w : World) (slaveId copyId : Uuid) : ℕ :=
  w.sent.countP fun delivery => delivery.slaveId = slaveId ∧ delivery.instruction.copyId = copyId

/-- The slave, if it is that one, polls exactly when it is on MT4. -/
def Slave.UsesTransport (slaveId : Uuid) (transport : Transport) (slave : Slave) : Prop :=
  slave.id = slaveId → (slave.platform = "MT4" ↔ transport = .poll)

instance (slaveId : Uuid) (transport : Transport) (slave : Slave) :
    Decidable (slave.UsesTransport slaveId transport) :=
  inferInstanceAs (Decidable (_ → _))

def Task.OnTransport (slaveId : Uuid) (transport : Transport) : Task → Prop
  | .poll id _ => id = slaveId → transport = .poll
  | _ => True

def transportOutline (slaveId : Uuid) (transport : Transport) : Outline World Task where
  shared w := ∀ delivery ∈ w.sent, delivery.slaveId = slaveId → delivery.transport = transport
  task _ t := t.OnTransport slaveId transport

section

variable {slaveId : Uuid} {transport : Transport} {w w' : World}

theorem usesTransport_ofConfig : OfConfig (Slave.UsesTransport slaveId transport) := by
  intro a b hconfig h hid
  have hplatform : a.config.platform = b.config.platform := by rw [hconfig]
  have hsame : a.config.id = b.config.id := by rw [hconfig]
  have hiff := h (hsame.trans hid)
  rwa [show a.platform = b.platform from hplatform] at hiff

/-- On one transport a copy order is handed over at most once. -/
theorem World.deliveries_le_one
    (h : ∀ delivery ∈ w.sent, delivery.slaveId = slaveId → delivery.transport = transport)
    (hpushed : w.PushedOnce) {copyId : Uuid} (hresponses : w.responses copyId ≤ 1) :
    w.deliveries slaveId copyId ≤ 1 := by
  have hle : w.deliveries slaveId copyId ≤ w.sent.countP fun delivery =>
      delivery.transport = transport ∧ delivery.instruction.copyId = copyId := by
    refine List.countP_mono_left fun delivery hdelivery hboth => ?_
    simp only [decide_eq_true_eq] at hboth ⊢
    exact ⟨h delivery hdelivery hboth.1, hboth.2⟩
  cases transport with
  | poll => exact hle.trans hresponses
  | push =>
      have honce := List.nodup_iff_count_le_one.mp hpushed.pushes copyId
      rw [List.count_eq_countP, List.countP_map, World.pushes, List.countP_filter] at honce
      refine hle.trans (le_trans (List.countP_mono_left fun delivery _ hboth => ?_) honce)
      simp only [decide_eq_true_eq] at hboth
      simp [hboth.1, hboth.2]

theorem Stimulus.started {stimulus : Stimulus} {task : Task} (h : task ∈ (stimulus.apply w).2) :
    task.Background ∨ (∃ event, task = .masterEvent event .findEvent) ∨
      (∃ id result, stimulus.report = some (id, result) ∧ task = .message id result .findOrder) ∨
      ∃ id, stimulus.poller = some id ∧ task = .poll id .findOrder := by
  cases stimulus with
  | ingest masterId payload =>
      simp only [apply, ingestTradeEvent] at h
      split_ifs at h
      · obtain rfl := List.mem_singleton.mp h
        exact .inl trivial
      · simp at h
  | masterEvent event =>
      simp only [apply, handleMasterEvent] at h
      split_ifs at h
      · exact .inr (.inl ⟨event, List.mem_singleton.mp h⟩)
      · simp at h
  | slaveMessage id connectorId message =>
      cases message with
      | none =>
          obtain rfl := List.mem_singleton.mp h
          exact .inl trivial
      | some result =>
          rcases List.mem_cons.mp h with rfl | hmessage
          · exact .inl trivial
          · exact .inr (.inr (.inl ⟨id, result, rfl, List.mem_singleton.mp hmessage⟩))
  | executionResult id connectorId body =>
      cases body with
      | none => simp [apply] at h
      | some result =>
          rcases List.mem_cons.mp h with rfl | hmessage
          · exact .inl trivial
          · exact .inr (.inr (.inl ⟨id, result, rfl, List.mem_singleton.mp hmessage⟩))
  | poll id connectorId =>
      rcases List.mem_cons.mp h with rfl | hpoll
      · exact .inl trivial
      · exact .inr (.inr (.inr ⟨id, rfl, List.mem_singleton.mp hpoll⟩))
  | heartbeat | connect =>
      obtain rfl := List.mem_singleton.mp h
      exact .inl trivial
  | _ => simp [apply] at h

theorem Task.Step.onTransport {reply : Reply} {task : Task} {next : List Task}
    (hstep : Task.Step reply w task w' next)
    (hslaves : task.HoldsSlaves (Slave.UsesTransport slaveId transport))
    (hw : ∀ delivery ∈ w.sent, delivery.slaveId = slaveId → delivery.transport = transport)
    (htask : task.OnTransport slaveId transport) :
    (∀ delivery ∈ w'.sent, delivery.slaveId = slaveId → delivery.transport = transport) ∧
      ∀ t ∈ next, t.OnTransport slaveId transport := by
  cases hstep with
  | background _ hnext hsame =>
      refine ⟨hsame.sent ▸ hw, fun t ht => ?_⟩
      have hback := hnext t ht
      cases t <;> trivial
  | insert _ _ _ _ _ hnext =>
      refine ⟨hw, fun t ht => ?_⟩
      obtain ⟨rfl, -⟩ | rfl := hnext.mem ht
      · trivial
      · trivial
  | push run resolvedSymbol slaveTicket volume hkey hplatform =>
      refine ⟨fun delivery hdelivery hslave => ?_, by simp [OnTransport]⟩
      rcases List.mem_append.mp hdelivery with hold | hnew
      · exact hw delivery hold hslave
      · obtain rfl := List.mem_singleton.mp hnew
        cases transport with
        | push => rfl
        | poll => exact absurd ((hslaves hslave).mpr rfl) hplatform
  | pollRead =>
      refine ⟨hw, fun t ht => ?_⟩
      obtain rfl := List.mem_singleton.mp ht
      exact htask
  | respond id instruction =>
      refine ⟨fun delivery hdelivery hslave => ?_, by simp⟩
      rcases List.mem_append.mp hdelivery with hold | hnew
      · exact hw delivery hold hslave
      · obtain rfl := List.mem_singleton.mp hnew
        exact (htask hslave).symm
  | eventRead | fanOut | copyRead | messageRead => exact ⟨hw, by simp [OnTransport]⟩
  | _ => exact ⟨hw, by simp⟩

end

/-! ### The backend of one slave -/

/-- What the backend keeps for a slave on its transport while no poll chooses a row that another poll
is still working on. -/
structure Config.Serves (slaveId : Uuid) (transport : Transport) (c : Config) : Prop where
  grounded : grounded.Holds c
  admitted : admission.Holds c
  pushedOnce : c.shared.PushedOnce
  ledger : ∀ copyId, (pollLedger copyId).Holds c
  slaves : (slavesOutline (Slave.UsesTransport slaveId transport)).Holds c
  onTransport : (transportOutline slaveId transport).Holds c

theorem Config.Serves.step {slaveId : Uuid} {transport : Transport} {c c' : Config} {a : Action}
    (h : c.Serves slaveId transport) (hstep : Backend.step c a = some c') (hapart : PollsApart c a)
    (hpolls : ∀ stimulus ∈ a.stimulus, ∀ id ∈ stimulus.poller, id = slaveId → transport = .poll) :
    c'.Serves slaveId transport where
  grounded := grounded_preserved h.grounded hstep
  admitted := admission_preserved h.admitted hstep
  pushedOnce := (pushedOnce_preserved ⟨h.grounded, h.pushedOnce⟩ hstep).2
  ledger copyId :=
    (pollLedger_preserved copyId ⟨h.grounded, h.ledger copyId⟩
      (restrict_eq_some.mpr ⟨hapart, hstep⟩)).2
  slaves :=
    slaves_preserved usesTransport_ofConfig (fun _ _ _ _ _ _ _ _ huses => huses) h.slaves
      (restrict_eq_some.mpr ⟨hapart, hstep⟩)
  onTransport := by
    refine Backend.outline_step h.onTransport hstep ?_ ?_ fun _ _ _ _ hother => hother
    · intro _ reply task w' next _ hget hmove
      have hmem := List.mem_of_getElem? hget
      exact hmove.onTransport (h.slaves.2 task hmem) h.onTransport.1 (h.onTransport.2 task hmem)
    · rintro stimulus rfl
      have hsent := (stimulus.apply_frame c.shared).2.1
      refine ⟨fun delivery hdelivery => h.onTransport.1 delivery (hsent ▸ hdelivery), fun t ht => ?_⟩
      rcases Stimulus.started ht with hback | ⟨event, rfl⟩ | ⟨id, result, -, rfl⟩ |
        ⟨id, hpoller, rfl⟩
      · cases t <;> trivial
      · trivial
      · trivial
      · exact hpolls stimulus rfl id hpoller

theorem Config.Serves.deliveries {slaveId : Uuid} {transport : Transport} {c : Config}
    (h : c.Serves slaveId transport) (copyId : Uuid) : c.shared.deliveries slaveId copyId ≤ 1 := by
  refine World.deliveries_le_one h.onTransport.1 h.pushedOnce ?_
  obtain ⟨hsum, -⟩ := h.ledger copyId
  omega

end ForexCopy
