import ForexCopy.Backend.Gateway
import ForexCopy.Library.Machine

/-!
# The gateway talks to the newest socket

Whatever the order in which slaves connect again and close events of their older sockets arrive, the map
has the socket that was registered last for a slave, or no entry once that one is closed. So a slave is
connected exactly when its newest socket is open, and nothing that happens to an older socket or to
another slave's changes that.
-/

namespace ForexCopy

open Machine

namespace Gateway

/-- The socket that was registered last for the slave. -/
def newest (gateway : Gateway) (slaveId : Uuid) : Option ℕ :=
  ((gateway.registered.filter fun entry => entry.1 = slaveId).getLast?).map Prod.snd

structure Current (gateway : Gateway) : Prop where
  entry : ∀ slaveId, gateway.get slaveId = gateway.newest slaveId ∨
    gateway.get slaveId = none ∧
      ∀ socket ∈ gateway.newest slaveId, gateway.sockets[socket]? = some .closed
  once : (gateway.registered.map Prod.snd).Nodup
  known : ∀ entry ∈ gateway.registered, entry.2 < gateway.sockets.length

variable {gateway gateway' : Gateway} {slaveId other : Uuid} {socket : ℕ}

/-- The slave has registered a socket, and the newest one is open. -/
def NewestOpen (gateway : Gateway) (slaveId : Uuid) : Prop :=
  ∃ socket, gateway.newest slaveId = some socket ∧ gateway.IsOpen socket

/-! ### The operations -/

theorem get_register_self : (gateway.register slaveId socket).get slaveId = some socket := by
  unfold get register
  rw [Table.lookup_put_self, Option.map_some]

theorem get_register_of_ne (hne : other ≠ slaveId) :
    (gateway.register slaveId socket).get other = gateway.get other := by
  unfold get register
  rw [Table.lookup_put_of_ne hne]

theorem newest_register_self : (gateway.register slaveId socket).newest slaveId = some socket := by
  simp [newest, register]

theorem newest_register_of_ne (hne : other ≠ slaveId) :
    (gateway.register slaveId socket).newest other = gateway.newest other := by
  simp [newest, register, hne.symm]

/-- The listener takes the entry away only where it is its own socket's. -/
theorem get_closed : (gateway.closed slaveId socket).get other =
    if other = slaveId ∧ gateway.get slaveId = some socket then none else gateway.get other := by
  unfold closed
  by_cases hown : gateway.get slaveId = some socket
  · rw [if_pos hown]
    by_cases hother : other = slaveId
    · subst hother
      rw [if_pos ⟨rfl, hown⟩]
      unfold get
      rw [Table.lookup_filter_self, Option.map_none]
    · rw [if_neg fun h => hother h.1]
      unfold get
      rw [Table.lookup_filter_of_ne hother]
  · rw [if_neg hown, if_neg fun h => hown h.2]

theorem closed_sockets : (gateway.closed slaveId socket).sockets = gateway.sockets := by
  unfold closed
  split_ifs <;> rfl

theorem closed_registered : (gateway.closed slaveId socket).registered = gateway.registered := by
  unfold closed
  split_ifs <;> rfl

theorem newest_congr (h : gateway'.registered = gateway.registered) :
    gateway'.newest slaveId = gateway.newest slaveId := by
  unfold newest
  rw [h]

theorem mem_of_newest (h : gateway.newest slaveId = some socket) :
    (slaveId, socket) ∈ gateway.registered := by
  obtain ⟨entry, hlast, rfl⟩ := Option.map_eq_some_iff.mp h
  obtain ⟨hmem, hslave⟩ := List.mem_filter.mp (List.mem_of_getLast? hlast)
  obtain rfl : entry.1 = slaveId := by simpa using hslave
  exact hmem

theorem sendToSlave_frame (gateway : Gateway) (slaveId : Uuid) (payload : String) :
    (gateway.sendToSlave slaveId payload).1.sockets = gateway.sockets ∧
      (gateway.sendToSlave slaveId payload).1.connections = gateway.connections ∧
      (gateway.sendToSlave slaveId payload).1.registered = gateway.registered := by
  unfold sendToSlave
  split
  · exact ⟨rfl, rfl, rfl⟩
  · split_ifs <;> exact ⟨rfl, rfl, rfl⟩

/-! ### One step -/

theorem getElem?_upgrade {state : ReadyState} (h : gateway.sockets[socket]? = some state) :
    (gateway.sockets ++ [.open])[socket]? = some state := by
  rw [List.getElem?_append_left (List.getElem?_eq_some_iff.mp h).1, h]

/-- A closed socket stays closed. -/
theorem getElem?_advance {moved : ℕ} {before state : ReadyState}
    (hbefore : gateway.sockets[moved]? = some before) (hlt : before.toNumber < state.toNumber)
    (h : gateway.sockets[socket]? = some .closed) :
    (gateway.sockets.set moved state)[socket]? = some .closed := by
  have hne : moved ≠ socket := by
    rintro rfl
    obtain rfl := Option.some.inj (h.symm.trans hbefore)
    cases state <;> exact absurd hlt (by decide)
  rw [List.getElem?_set_ne hne, h]

theorem Current.upgrade (h : gateway.Current) :
    Current { gateway with sockets := gateway.sockets ++ [.open] } where
  entry slaveId := (h.entry slaveId).imp_right fun hgone =>
    ⟨hgone.1, fun socket hsocket => getElem?_upgrade (hgone.2 socket hsocket)⟩
  once := h.once
  known entry hentry := by
    have hlt := h.known entry hentry
    rw [List.length_append]
    omega

theorem Current.advance (h : gateway.Current) {moved : ℕ} {before state : ReadyState}
    (hbefore : gateway.sockets[moved]? = some before) (hlt : before.toNumber < state.toNumber) :
    Current { gateway with sockets := gateway.sockets.set moved state } where
  entry slaveId := (h.entry slaveId).imp_right fun hgone =>
    ⟨hgone.1, fun socket hsocket => getElem?_advance hbefore hlt (hgone.2 socket hsocket)⟩
  once := h.once
  known entry hentry := by
    rw [List.length_set]
    exact h.known entry hentry

theorem Current.register (h : gateway.Current) (hknown : socket < gateway.sockets.length)
    (hnew : socket ∉ gateway.registered.map Prod.snd) :
    (gateway.register slaveId socket).Current where
  entry other := by
    by_cases hother : other = slaveId
    · subst hother
      exact .inl (get_register_self.trans newest_register_self.symm)
    · rw [get_register_of_ne hother, newest_register_of_ne hother]
      exact h.entry other
  once := Table.nodup_append_of_notMem h.once hnew
  known entry hentry := by
    rcases List.mem_append.mp hentry with hold | hlast
    · exact h.known entry hold
    · obtain rfl := List.mem_singleton.mp hlast
      exact hknown

theorem Current.closed (h : gateway.Current) (hclosed : gateway.sockets[socket]? = some .closed) :
    (gateway.closed slaveId socket).Current where
  entry other := by
    rw [get_closed, newest_congr closed_registered, closed_sockets]
    by_cases hown : other = slaveId ∧ gateway.get slaveId = some socket
    · rw [if_pos hown]
      obtain ⟨rfl, hget⟩ := hown
      refine .inr ⟨rfl, fun newest hnewest => ?_⟩
      -- The entry that goes was the newest socket's.
      rcases h.entry other with hsame | ⟨hnone, -⟩
      · obtain rfl := Option.some.inj (hget.symm.trans (hsame.trans hnewest))
        exact hclosed
      · exact absurd (hget.symm.trans hnone) (by simp)
    · rw [if_neg hown]
      exact h.entry other
  once := by
    rw [closed_registered]
    exact h.once
  known entry hentry := by
    rw [closed_registered] at hentry
    rw [closed_sockets]
    exact h.known entry hentry

theorem Current.sendToSlave (h : gateway.Current) (payload : String) :
    (gateway.sendToSlave slaveId payload).1.Current := by
  obtain ⟨hsockets, hconnections, hregistered⟩ :=
    sendToSlave_frame gateway slaveId payload
  refine ⟨fun other => ?_, hregistered ▸ h.once, hregistered ▸ hsockets ▸ h.known⟩
  have hget : (gateway.sendToSlave slaveId payload).1.get other = gateway.get other := by
    unfold get
    rw [hconnections]
  rw [hget, newest_congr hregistered, hsockets]
  exact h.entry other

theorem current_preserved : Preserved Gateway.step Current := by
  intro gateway action gateway' h hstep
  cases action with
  | upgrade =>
      obtain rfl := Option.some.inj hstep
      exact h.upgrade
  | advance moved state =>
      obtain ⟨before, hbefore, hmove⟩ := Option.bind_eq_some_iff.mp hstep
      obtain ⟨hlt, rfl⟩ : before.toNumber < state.toNumber ∧ _ = gateway' := by simpa using hmove
      exact h.advance hbefore hlt
  | authenticated slaveId socket =>
      simp only [step, Option.ite_none_right_eq_some, Option.some.injEq] at hstep
      obtain ⟨⟨hknown, hnew⟩, rfl⟩ := hstep
      exact h.register hknown hnew
  | close slaveId socket =>
      simp only [step, Option.ite_none_right_eq_some, Option.some.injEq] at hstep
      obtain ⟨⟨-, hclosed⟩, rfl⟩ := hstep
      exact h.closed hclosed
  | send slaveId payload =>
      obtain rfl := Option.some.inj hstep
      exact h.sendToSlave payload

/-! ### What the slave's newest socket decides -/

theorem Current.isSlaveConnected_iff (h : gateway.Current) :
    gateway.isSlaveConnected slaveId ↔ gateway.NewestOpen slaveId := by
  unfold isSlaveConnected NewestOpen
  rcases h.entry slaveId with hsame | ⟨hnone, hclosed⟩
  · rw [hsame]
    cases gateway.newest slaveId <;> simp
  · rw [hnone]
    simp only [Bool.false_eq_true, false_iff, not_exists, not_and]
    intro socket hnewest hopen
    exact absurd (hopen.symm.trans (hclosed socket hnewest)) (by simp)

theorem Current.get_of_newestOpen (h : gateway.Current) (hnewest : gateway.newest slaveId = some socket)
    (hopen : gateway.IsOpen socket) : gateway.get slaveId = some socket := by
  rcases h.entry slaveId with hsame | ⟨-, hclosed⟩
  · rw [hsame, hnewest]
  · exact absurd (hopen.symm.trans (hclosed socket hnewest)) (by simp)

theorem Current.sendToSlave_open (h : gateway.Current) (hnewest : gateway.newest slaveId = some socket)
    (hopen : gateway.IsOpen socket) (payload : String) :
    gateway.sendToSlave slaveId payload =
      ({ gateway with written := gateway.written ++ [(socket, payload)] }, true) := by
  unfold Gateway.sendToSlave
  simp only [h.get_of_newestOpen hnewest hopen, if_pos hopen]

theorem Current.sendToSlave_refused (h : gateway.Current) (hclosed : ¬gateway.NewestOpen slaveId)
    (payload : String) : gateway.sendToSlave slaveId payload = (gateway, false) := by
  unfold Gateway.sendToSlave
  cases hget : gateway.get slaveId with
  | none => rfl
  | some socket =>
      have hnewest : gateway.newest slaveId = some socket := by
        rcases h.entry slaveId with hsame | ⟨hnone, -⟩
        · rw [← hsame, hget]
        · exact absurd (hget.symm.trans hnone) (by simp)
      exact if_neg fun hopen => hclosed ⟨socket, hnewest, hopen⟩

/-- A socket is registered for one slave only. -/
theorem Current.newest_ne (h : gateway.Current) (hmem : (other, socket) ∈ gateway.registered)
    (hne : other ≠ slaveId) : gateway.newest slaveId ≠ some socket := fun hnewest =>
  hne (congrArg Prod.fst (Table.eq_of_key_eq h.once hmem (mem_of_newest hnewest) rfl))

end Gateway

/-- The socket that an action happens to. -/
def GatewayAction.socket : GatewayAction → Option ℕ
  | .advance socket _ | .authenticated _ socket | .close _ socket => some socket
  | .upgrade | .send _ _ => none

namespace Gateway

variable {gateway gateway' : Gateway} {slaveId : Uuid} {action : GatewayAction}

/-- What happens to another socket leaves the newest one of the slave as it is. -/
theorem Current.step_frame (h : gateway.Current) (hstep : gateway.step action = some gateway')
    (hregister : ∀ socket, action ≠ .authenticated slaveId socket)
    (hother : ∀ socket ∈ action.socket, gateway.newest slaveId ≠ some socket) :
    gateway'.newest slaveId = gateway.newest slaveId ∧
      ∀ socket ∈ gateway.newest slaveId, gateway'.sockets[socket]? = gateway.sockets[socket]? := by
  cases action with
  | upgrade =>
      obtain rfl := Option.some.inj hstep
      refine ⟨rfl, fun socket hnewest => List.getElem?_append_left ?_⟩
      exact h.known _ (mem_of_newest hnewest)
  | advance moved state =>
      obtain ⟨before, hbefore, hmove⟩ := Option.bind_eq_some_iff.mp hstep
      obtain ⟨hlt, rfl⟩ : before.toNumber < state.toNumber ∧ _ = gateway' := by simpa using hmove
      refine ⟨rfl, fun socket hnewest => List.getElem?_set_ne ?_⟩
      rintro rfl
      exact hother moved rfl hnewest
  | authenticated other socket =>
      simp only [step, Option.ite_none_right_eq_some, Option.some.injEq] at hstep
      obtain ⟨-, rfl⟩ := hstep
      have hne : slaveId ≠ other := by
        rintro rfl
        exact hregister socket rfl
      exact ⟨newest_register_of_ne hne, fun _ _ => rfl⟩
  | close other socket =>
      simp only [step, Option.ite_none_right_eq_some, Option.some.injEq] at hstep
      obtain ⟨-, rfl⟩ := hstep
      exact ⟨newest_congr closed_registered, fun _ _ => by rw [closed_sockets]⟩
  | send other payload =>
      obtain rfl := Option.some.inj hstep
      obtain ⟨hsockets, -, hregistered⟩ :=
        sendToSlave_frame gateway other payload
      exact ⟨newest_congr hregistered, fun _ _ => by rw [hsockets]⟩

theorem newestOpen_congr (hnewest : gateway'.newest slaveId = gateway.newest slaveId)
    (hsockets : ∀ socket ∈ gateway.newest slaveId,
      gateway'.sockets[socket]? = gateway.sockets[socket]?) :
    gateway'.NewestOpen slaveId ↔ gateway.NewestOpen slaveId := by
  unfold NewestOpen IsOpen
  rw [hnewest]
  refine exists_congr fun socket => and_congr_right fun hsocket => ?_
  rw [hsockets socket hsocket]

/-- In every run a slave is connected exactly when it has registered a socket and the newest one is open;
an instruction goes to that socket, or is refused; and what happens to another socket of the slave, or
to another slave's, changes neither. -/
theorem newest_socket_served {actions : List GatewayAction} {gateway : Gateway}
    (hrun : follow step {} actions = some gateway) (slaveId : Uuid) :
    (gateway.isSlaveConnected slaveId ↔ gateway.NewestOpen slaveId) ∧
    (∀ socket payload, gateway.newest slaveId = some socket → gateway.IsOpen socket →
      gateway.sendToSlave slaveId payload =
        ({ gateway with written := gateway.written ++ [(socket, payload)] }, true)) ∧
    (¬gateway.NewestOpen slaveId → ∀ payload,
      gateway.sendToSlave slaveId payload = (gateway, false)) ∧
    (∀ other socket, (other, socket) ∈ gateway.registered → other ≠ slaveId →
      gateway.newest slaveId ≠ some socket) ∧
    ∀ action gateway', gateway.step action = some gateway' →
      (∀ socket, action ≠ .authenticated slaveId socket) →
      (∀ socket ∈ action.socket, gateway.newest slaveId ≠ some socket) →
      gateway'.newest slaveId = gateway.newest slaveId ∧
        gateway'.isSlaveConnected slaveId = gateway.isSlaveConnected slaveId := by
  have hstart : Current {} := ⟨fun _ => .inl rfl, List.nodup_nil, by simp⟩
  have hcurrent := current_preserved.follow hstart hrun
  refine ⟨hcurrent.isSlaveConnected_iff, fun socket payload hnewest hopen =>
    hcurrent.sendToSlave_open hnewest hopen payload, hcurrent.sendToSlave_refused,
    fun other socket => hcurrent.newest_ne, fun action gateway' hstep hregister hother => ?_⟩
  obtain ⟨hnewest, hsockets⟩ := hcurrent.step_frame hstep hregister hother
  refine ⟨hnewest, Bool.eq_iff_iff.mpr ?_⟩
  rw [hcurrent.isSlaveConnected_iff, (current_preserved hcurrent hstep).isSlaveConnected_iff,
    newestOpen_congr hnewest hsockets]

end Gateway

namespace Sample

/-- Slave 5 connects again while its first socket is still closing. -/
def reconnects : List GatewayAction :=
  [.upgrade, .authenticated 5 0, .advance 0 .closing, .upgrade, .authenticated 5 1,
    .advance 0 .closed]

end Sample

open Sample in
/-- The late close event of the first socket does not disconnect the second. -/
theorem Gateway.late_close_harmless : ∃ gateway gateway',
    follow Gateway.step {} reconnects = some gateway ∧
      gateway.step (.close 5 0) = some gateway' ∧ gateway'.isSlaveConnected 5 ∧
      gateway'.isSlaveConnected 5 = gateway.isSlaveConnected 5 := by
  have hruns : ∃ gateway gateway', follow Gateway.step {} reconnects = some gateway ∧
      gateway.step (.close 5 0) = some gateway' ∧ gateway'.isSlaveConnected 5 ∧
      gateway.newest 5 ≠ some 0 :=
    ⟨_, _, rfl, rfl, by decide, by decide⟩
  obtain ⟨gateway, gateway', hrun, hstep, hconnected, hnewest⟩ := hruns
  refine ⟨gateway, gateway', hrun, hstep, hconnected, ?_⟩
  refine ((newest_socket_served hrun 5).2.2.2.2 _ _ hstep (by simp) ?_).2
  intro socket hsocket
  obtain rfl := Option.some.inj hsocket
  exact hnewest

end ForexCopy
