import ForexCopy.Proof.Portal.Isolation
import ForexCopy.Proof.Portal.Wiring

/-!
# Who is online

A connector's status is written by its heartbeats, one at a time, and by the sweep, which looks at all
connectors. Between them they keep it exact: a connector is online when it has sent a heartbeat that
the latest sweep did not find too old. For this a heartbeat has to be written before it is too old
itself, which one that is written at once is.
-/

namespace ForexCopy

open Machine Pool Table

/-- The portal, and the time of its latest sweep. -/
structure Swept where
  pool : Pool Portal Call
  sweptAt : Option DateTime := none
  deriving DecidableEq

/-- The bound of a sweep. -/
def PortalAction.sweeps : PortalAction → Option DateTime
  | .arrive (.backend (.sweepOfflineConnectors staleBefore)) => some staleBefore
  | _ => none

def Swept.step (hashToken : String → String) (c : Swept) (a : PortalAction) : Option Swept :=
  (Portal.step hashToken c.pool a).map fun pool =>
    { pool := pool, sweptAt := if a.sweeps.isSome then some c.pool.shared.world.now else c.sweptAt }

/-- A sweep goes by the current time, and what a heartbeat writes is the current time, or a time that
has passed for no longer than the threshold of `CONNECTOR_OFFLINE_THRESHOLD_SECONDS`. -/
def Timely (threshold : ℕ) (c : Swept) (a : PortalAction) : Prop :=
  (∀ staleBefore ∈ a.sweeps, staleBefore = c.pool.shared.world.now - threshold * 1000) ∧
    ∀ time ∈ a.beats c.pool, c.pool.shared.world.now ≤ time + threshold * 1000

instance (threshold : ℕ) (c : Swept) (a : PortalAction) : Decidable (Timely threshold c a) :=
  inferInstanceAs (Decidable (_ ∧ _))

/-- The connector has sent a heartbeat, and the latest sweep has not found it too old. -/
def Connector.Alive (threshold : ℕ) (sweptAt : Option DateTime) (connector : Connector) : Prop :=
  ∃ time, connector.lastHeartbeatAt = some time ∧ ∀ swept ∈ sweptAt, swept ≤ time + threshold * 1000

/-- Some connector of the slave is alive. -/
def Swept.SlaveAlive (threshold : ℕ) (c : Swept) (slaveId : Uuid) : Prop :=
  ∃ connector ∈ c.pool.shared.world.connectors,
    connector.slaveId = some slaveId ∧ connector.Alive threshold c.sweptAt

structure Swept.Exact (threshold : ℕ) (c : Swept) : Prop where
  statuses : ∀ connector ∈ c.pool.shared.world.connectors,
    connector.status = .online ↔ connector.Alive threshold c.sweptAt
  past : ∀ swept ∈ c.sweptAt, swept ≤ c.pool.shared.world.now

section

variable {threshold : ℕ} {sweptAt : Option DateTime} {connector : Connector} {w : World}

/-! ### The writers -/

theorem connectorRow_exact (id : Uuid) (owner : ConnectorOwner) :
    (Portal.connectorRow id owner).status = .online ↔
      (Portal.connectorRow id owner).Alive threshold sweptAt := by
  unfold Connector.Alive
  cases owner <;> simp [Portal.connectorRow]

theorem beat_exact {now time : DateTime} (hpast : ∀ swept ∈ sweptAt, swept ≤ now)
    (htimely : now ≤ time + threshold * 1000) :
    (connector.beat time).status = .online ↔ (connector.beat time).Alive threshold sweptAt := by
  exact iff_of_true rfl ⟨time, rfl, fun swept hswept => (hpast swept hswept).trans htimely⟩

/-- A sweep at `now` finds the same connectors alive as are online after it. -/
theorem sweep_exact (h : ∀ connector ∈ w.connectors,
      connector.status = .online ↔ connector.Alive threshold sweptAt)
    (hpast : ∀ swept ∈ sweptAt, swept ≤ w.now) {connector : Connector}
    (hconnector : connector ∈ (w.sweepOfflineConnectors (w.now - threshold * 1000)).connectors) :
    connector.status = .online ↔ connector.Alive threshold (some w.now) := by
  obtain ⟨before, hbefore, rfl⟩ := List.mem_map.mp hconnector
  have hexact := h before hbefore
  split_ifs with hstale
  · -- Found too old.
    obtain ⟨-, hold⟩ := hstale
    refine iff_of_false (by simp) ?_
    rintro ⟨time, htime, hswept⟩
    have hlt : time < w.now - threshold * 1000 := hold time htime
    have hle : w.now ≤ time + threshold * 1000 := hswept w.now rfl
    exact absurd (Nat.add_lt_of_lt_sub hlt) (Nat.not_lt.mpr hle)
  · constructor
    · intro honline
      obtain ⟨time, htime, -⟩ := hexact.mp honline
      refine ⟨time, htime, fun swept hswept => ?_⟩
      obtain rfl := Option.some.inj hswept
      by_contra hlt
      refine hstale ⟨honline, fun other hother => ?_⟩
      obtain rfl := Option.some.inj (htime.symm.trans hother)
      exact Nat.lt_sub_of_add_lt (Nat.lt_of_not_le hlt)
    · -- Alive now, it was alive for the sweep before.
      rintro ⟨time, htime, hswept⟩
      refine hexact.mpr ⟨time, htime, fun swept hsweptBefore => ?_⟩
      exact (hpast swept hsweptBefore).trans (hswept w.now rfl)

end

/-! ### Runs -/

section

variable {hashToken : String → String} {threshold : ℕ}

/-- A sweep is the backend's own, so it is in step with nothing else. -/
theorem PortalAction.sweeps_eq_some {a : PortalAction} {staleBefore : DateTime}
    (h : a.sweeps = some staleBefore) :
    a = .arrive (.backend (.sweepOfflineConnectors staleBefore)) := by
  cases a with
  | resume => cases h
  | arrive arrival =>
      cases arrival with
      | register | request | socketMessage | closeSocket | expireToken => cases h
      | backend stimulus =>
          cases stimulus with
          | sweepOfflineConnectors => rw [Option.some.inj h]
          | _ => cases h

theorem disconnect_rows (p : Portal) (session : Session) :
    (p.disconnect session).world.connectors = p.world.connectors ∧
      (p.disconnect session).world.now = p.world.now := by
  unfold Portal.disconnect
  dsimp only
  split_ifs <;> exact ⟨rfl, rfl⟩

/-- Between two sweeps, rows are added, and rewritten by heartbeats, while time goes on. -/
theorem Swept.Exact.rewired {c : Swept} {a : PortalAction} {pool : Pool Portal Call}
    (h : c.Exact threshold) (hsweeps : a.sweeps = none)
    (hbeat : ∀ time ∈ a.beats c.pool, c.pool.shared.world.now ≤ time + threshold * 1000)
    (hwires : a.Rewires c.pool pool.shared) :
    Swept.Exact threshold { pool := pool, sweptAt := c.sweptAt } := by
  have hkept (hconnectors : pool.shared.world.connectors = c.pool.shared.world.connectors)
      (hnow : c.pool.shared.world.now ≤ pool.shared.world.now) :
      Swept.Exact threshold { pool := pool, sweptAt := c.sweptAt } := by
    refine ⟨fun connector hconnector => h.statuses connector ?_,
      fun swept hswept => (h.past swept hswept).trans hnow⟩
    rw [← hconnectors]
    exact hconnector
  cases hwires with
  | same hwiring | connect _ _ _ hwiring =>
      exact hkept (congrArg Wiring.connectors hwiring) (congrArg Wiring.now hwiring).ge
  | disconnect session _ hwiring =>
      obtain ⟨hconnectors, hnow⟩ := disconnect_rows c.pool.shared session
      exact hkept ((congrArg Wiring.connectors hwiring).trans hconnectors)
        ((congrArg Wiring.now hwiring).trans hnow).ge
  | sweep staleBefore ha =>
      subst ha
      cases hsweeps
  | beat connectorId time hbeats hwiring =>
      have hconnectors : pool.shared.world.connectors =
          update Connector.id connectorId (Connector.beat time) c.pool.shared.world.connectors :=
        congrArg Wiring.connectors hwiring
      have hnow : pool.shared.world.now = c.pool.shared.world.now := congrArg Wiring.now hwiring
      refine ⟨fun connector hconnector => ?_, fun swept hswept => (h.past swept hswept).trans hnow.ge⟩
      rw [hconnectors] at hconnector
      obtain ⟨before, hbefore, ⟨-, rfl⟩ | ⟨-, rfl⟩⟩ := mem_update.mp hconnector
      · exact beat_exact h.past (hbeat time hbeats)
      · exact h.statuses connector hbefore
  | register id owner hwiring =>
      have hconnectors : pool.shared.world.connectors =
          c.pool.shared.world.connectors ++ [Portal.connectorRow id owner] :=
        congrArg Wiring.connectors hwiring
      have hnow : pool.shared.world.now = c.pool.shared.world.now := congrArg Wiring.now hwiring
      refine ⟨fun connector hconnector => ?_, fun swept hswept => (h.past swept hswept).trans hnow.ge⟩
      rw [hconnectors] at hconnector
      rcases List.mem_append.mp hconnector with hbefore | hadded
      · exact h.statuses connector hbefore
      · rw [List.mem_singleton.mp hadded]
        exact connectorRow_exact id owner
  | tick milliseconds hwiring =>
      have hnow : pool.shared.world.now = c.pool.shared.world.now + milliseconds :=
        congrArg Wiring.now hwiring
      exact hkept (congrArg Wiring.connectors hwiring) ((Nat.le_add_right _ _).trans hnow.ge)

theorem exact_preserved :
    Preserved (restrict (Swept.step hashToken) (Timely threshold)) (Swept.Exact threshold) := by
  intro c a c' h hstep
  obtain ⟨⟨hsweep, hbeat⟩, hstep⟩ := restrict_eq_some.mp hstep
  obtain ⟨pool, hpool, rfl⟩ := Option.map_eq_some_iff.mp hstep
  cases hsweeps : a.sweeps with
  | none => exact h.rewired hsweeps hbeat (Portal.step_rewires hpool)
  | some staleBefore =>
      obtain rfl := PortalAction.sweeps_eq_some hsweeps
      obtain rfl := hsweep staleBefore rfl
      obtain rfl : _ = pool := Option.some.inj hpool
      exact ⟨fun connector hconnector => sweep_exact h.statuses h.past hconnector,
        fun swept hswept => (Option.some.inj hswept).ge⟩

/-- `hasOnlineConnector`, by the heartbeats. -/
theorem Swept.Exact.hasOnlineConnector {c : Swept} (h : c.Exact threshold) (slaveId : Uuid) :
    c.pool.shared.world.hasOnlineConnector slaveId ↔ c.SlaveAlive threshold slaveId := by
  unfold World.hasOnlineConnector SlaveAlive
  rw [List.any_eq_true]
  refine exists_congr fun connector => and_congr_right fun hconnector => ?_
  rw [decide_eq_true_iff, h.statuses connector hconnector]

/-- An order that found no socket waits to be polled, or is about to be marked failed. -/
theorem Swept.Exact.findConnector {c : Swept} (h : c.Exact threshold) (run : CopyRun)
    (copyId : Uuid) :
    (copyToSlaveStep .ok c.pool.shared.world run (.findConnector copyId)).2 = [] ↔
      c.SlaveAlive threshold run.slave.id := by
  rw [← h.hasOnlineConnector]
  simp only [copyToSlaveStep, Reply.query, Reply.settle]
  cases c.pool.shared.world.hasOnlineConnector run.slave.id <;> simp

/-- In every run a connector is online exactly when it has sent a heartbeat that the latest sweep has not
found too old. So an order waits to be polled exactly when such a connector is the slave's. -/
theorem liveness_exact {pool : Pool Portal Call} {actions : List PortalAction} {c : Swept}
    (hempty : pool.shared.world.connectors = [])
    (hrun : follow (restrict (Swept.step hashToken) (Timely threshold)) { pool := pool } actions =
      some c) :
    (∀ connector ∈ c.pool.shared.world.connectors,
      connector.status = .online ↔ connector.Alive threshold c.sweptAt) ∧
    (∀ slaveId, c.pool.shared.world.hasOnlineConnector slaveId ↔ c.SlaveAlive threshold slaveId) ∧
    ∀ run copyId, (copyToSlaveStep .ok c.pool.shared.world run (.findConnector copyId)).2 = [] ↔
      c.SlaveAlive threshold run.slave.id := by
  have hstart : Swept.Exact threshold { pool := pool } := ⟨by simp [hempty], by simp⟩
  have hexact := exact_preserved.follow hstart hrun
  exact ⟨hexact.statuses, hexact.hasOnlineConnector, hexact.findConnector⟩

end

namespace Sample

def heartbeat : PortalAction :=
  .arrive (.request (some ("Bearer " ++ slaveToken)) (.heartbeat { known := some {} }))

/-- The slave's connector sends a heartbeat and is swept twenty seconds later; then it comes back. -/
def comesBack : List PortalAction :=
  .arrive (.register (.slave 5) slaveToken) :: heartbeat :: List.replicate 5 (.resume 0 .ok) ++
    [.arrive (.backend (.tick 20000)), .arrive (.backend (.sweepOfflineConnectors 5000))] ++
    heartbeat :: List.replicate 3 (.resume 0 .ok)

end Sample

open Sample in
theorem swept_connector_back : ∃ c,
    follow (restrict (Swept.step sha256) (Timely 15)) { pool := portal } comesBack = some c ∧
      c.sweptAt = some 20000 ∧ c.SlaveAlive 15 5 := by
  have hruns : ∃ c,
      follow (restrict (Swept.step sha256) (Timely 15)) { pool := portal } comesBack = some c ∧
        c.sweptAt = some 20000 ∧ c.pool.shared.world.hasOnlineConnector 5 := by
    decide +kernel
  obtain ⟨c, hrun, hswept, honline⟩ := hruns
  exact ⟨c, hrun, hswept, ((liveness_exact rfl hrun).2.1 5).mp honline⟩

end ForexCopy
