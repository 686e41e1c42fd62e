import ForexCopy.Proof.Gateway
import ForexCopy.Proof.Portal.Wiring

/-!
# The sockets of the portal

For the copy engine a slave is connected or not, and the portal lets a socket close and its close event
arrive in one step. Every run of the portal is a run of the gateway in which each session has its own
socket, so that the slaves that are connected are those whose newest socket is open.
-/

namespace ForexCopy

open Machine Pool Table

/-- The gateway has an open socket for each session, and the entries of the portal. -/
structure Wiring.Plays (w : Wiring) (gateway : Gateway) (socket : ℕ → ℕ) : Prop where
  current : gateway.Current
  ids : (w.sessions.map Session.id).Nodup
  sockets : ∀ session ∈ w.sessions, gateway.IsOpen (socket session.id) ∧
    (session.slaveId, socket session.id) ∈ gateway.registered
  distinct : ∀ session ∈ w.sessions, ∀ other ∈ w.sessions,
    socket session.id = socket other.id → session.id = other.id
  slaves : (w.connections.map Prod.fst).Nodup
  owned : ∀ entry ∈ w.connections, ∃ session ∈ w.sessions,
    (session.slaveId, session.id) = entry
  entries : gateway.connections = w.connections.map fun entry => (entry.1, socket entry.2)
  connected : ∀ slaveId, slaveId ∈ w.connected ↔ slaveId ∈ w.connections.map Prod.fst

section

variable {w w' : Wiring} {gateway : Gateway} {socket : ℕ → ℕ}

theorem Wiring.Plays.of_eq (h : w.Plays gateway socket) (hsessions : w'.sessions = w.sessions)
    (hconnections : w'.connections = w.connections) (hconnected : w'.connected = w.connected) :
    w'.Plays gateway socket := by
  obtain ⟨current, ids, sockets, distinct, slaves, owned, entries, connected⟩ := h
  rw [← hsessions] at ids sockets distinct owned
  rw [← hconnections] at slaves owned entries connected
  rw [← hconnected] at connected
  exact ⟨current, ids, sockets, distinct, slaves, owned, entries, connected⟩

theorem Wiring.Plays.keys (h : w.Plays gateway socket) :
    gateway.connections.map Prod.fst = w.connections.map Prod.fst := by
  rw [h.entries, List.map_map]
  rfl

theorem Wiring.Plays.get (h : w.Plays gateway socket) {entry : Uuid × ℕ}
    (hentry : entry ∈ w.connections) : gateway.get entry.1 = some (socket entry.2) := by
  have hmem : (entry.1, socket entry.2) ∈ gateway.connections := by
    rw [h.entries]
    exact List.mem_map_of_mem hentry
  unfold Gateway.get
  rw [lookup_of_mem (h.keys ▸ h.slaves) hmem rfl, Option.map_some]

theorem Wiring.Plays.mem_of_get (h : w.Plays gateway socket) {slaveId : Uuid} {n : ℕ}
    (hget : gateway.get slaveId = some n) :
    ∃ entry ∈ w.connections, entry.1 = slaveId ∧ socket entry.2 = n := by
  obtain ⟨found, hfound, rfl⟩ := Option.map_eq_some_iff.mp hget
  have hmem := lookup_mem hfound
  rw [h.entries] at hmem
  obtain ⟨entry, hentry, rfl⟩ := List.mem_map.mp hmem
  have hkey : (entry.1, socket entry.2).1 = slaveId := lookup_key hfound
  exact ⟨entry, hentry, hkey, rfl⟩

/-- The slaves that are connected have entries with open sockets. -/
theorem Wiring.Plays.isSlaveConnected (h : w.Plays gateway socket) (slaveId : Uuid) :
    gateway.isSlaveConnected slaveId ↔ slaveId ∈ w.connected := by
  rw [h.connected, List.mem_map]
  unfold Gateway.isSlaveConnected
  constructor
  · intro hconnected
    cases hget : gateway.get slaveId with
    | none => simp [hget] at hconnected
    | some n =>
        obtain ⟨entry, hentry, hslave, -⟩ := h.mem_of_get hget
        exact ⟨entry, hentry, hslave⟩
  · rintro ⟨entry, hentry, rfl⟩
    obtain ⟨session, hsession, rfl⟩ := h.owned entry hentry
    rw [h.get hentry]
    simpa using (h.sockets session hsession).1

/-! ### Sockets that come and go -/

theorem Wiring.Plays.upgrade (h : w.Plays gateway socket) (slaveId : Uuid) :
    follow Gateway.step gateway [.upgrade, .authenticated slaveId gateway.sockets.length] =
      some (Gateway.register { gateway with sockets := gateway.sockets ++ [.open] } slaveId
        gateway.sockets.length) := by
  have hknown : gateway.sockets.length < (gateway.sockets ++ [ReadyState.open]).length := by simp
  have hnew : gateway.sockets.length ∉ gateway.registered.map Prod.snd := by
    intro hmem
    obtain ⟨entry, hentry, hlength⟩ := List.mem_map.mp hmem
    exact absurd (h.current.known entry hentry) (by rw [hlength]; exact Nat.lt_irrefl _)
  simp only [follow_cons, follow_nil, Gateway.step, Option.bind_some]
  rw [if_pos ⟨hknown, hnew⟩, Option.bind_some]

/-- The new session has the gateway's next socket. -/
def nextSocket (gateway : Gateway) (socket : ℕ → ℕ) (id : ℕ) : ℕ → ℕ :=
  Function.update socket id gateway.sockets.length

section

variable {session : Session} (hid : session.id ∉ w.sessions.map Session.id)

theorem nextSocket_self : nextSocket gateway socket session.id session.id = gateway.sockets.length :=
  Function.update_self _ _ _

include hid

theorem nextSocket_of_mem {other : Session} (hother : other ∈ w.sessions) :
    nextSocket gateway socket session.id other.id = socket other.id := by
  refine Function.update_of_ne ?_ _ _
  intro heq
  exact hid (heq ▸ List.mem_map_of_mem hother)

theorem Wiring.Plays.sockets_connect (h : w.Plays gateway socket) {other : Session}
    (hother : other ∈ w.sessions ++ [session]) :
    (gateway.sockets ++ [.open])[nextSocket gateway socket session.id other.id]? =
        some ReadyState.open ∧
      (other.slaveId, nextSocket gateway socket session.id other.id) ∈
        gateway.registered ++ [(session.slaveId, gateway.sockets.length)] := by
  rcases List.mem_append.mp hother with hold | hnew
  · obtain ⟨hopen, hregistered⟩ := h.sockets other hold
    rw [nextSocket_of_mem hid hold]
    exact ⟨Gateway.getElem?_upgrade hopen, List.mem_append_left _ hregistered⟩
  · obtain rfl := List.mem_singleton.mp hnew
    rw [nextSocket_self]
    exact ⟨List.getElem?_concat_length, List.mem_append_right _ (List.mem_singleton.mpr rfl)⟩

/-- No session has had the next socket. -/
theorem Wiring.Plays.distinct_connect (h : w.Plays gateway socket) {first second : Session}
    (hfirst : first ∈ w.sessions ++ [session]) (hsecond : second ∈ w.sessions ++ [session])
    (heq : nextSocket gateway socket session.id first.id =
      nextSocket gateway socket session.id second.id) : first.id = second.id := by
  have hlt : ∀ other ∈ w.sessions, socket other.id < gateway.sockets.length := fun other hother =>
    (List.getElem?_eq_some_iff.mp (h.sockets other hother).1).1
  rcases List.mem_append.mp hfirst with hfirst | hfirst <;>
    rcases List.mem_append.mp hsecond with hsecond | hsecond
  · rw [nextSocket_of_mem hid hfirst, nextSocket_of_mem hid hsecond] at heq
    exact h.distinct first hfirst second hsecond heq
  · rw [List.mem_singleton.mp hsecond, nextSocket_self, nextSocket_of_mem hid hfirst] at heq
    exact absurd heq (hlt first hfirst).ne
  · rw [List.mem_singleton.mp hfirst, nextSocket_self, nextSocket_of_mem hid hsecond] at heq
    exact absurd heq.symm (hlt second hsecond).ne
  · rw [List.mem_singleton.mp hfirst, List.mem_singleton.mp hsecond]

theorem Wiring.Plays.entries_connect (h : w.Plays gateway socket) :
    put session.slaveId gateway.sockets.length gateway.connections =
      (put session.slaveId session.id w.connections).map fun entry =>
        (entry.1, nextSocket gateway socket session.id entry.2) := by
  have hkept : (w.connections.filter fun entry => entry.1 ≠ session.slaveId).map
      (fun entry => (entry.1, socket entry.2)) =
      (w.connections.filter fun entry => entry.1 ≠ session.slaveId).map fun entry =>
        (entry.1, nextSocket gateway socket session.id entry.2) := by
    refine List.map_congr_left fun entry hentry => ?_
    obtain ⟨owner, howner, rfl⟩ := h.owned entry (List.mem_of_mem_filter hentry)
    rw [nextSocket_of_mem hid howner]
  rw [h.entries, put, List.filter_map, put, List.map_append, List.map_singleton, nextSocket_self,
    ← hkept]
  rfl

end

/-- The socket of a slave that connects takes the place of its older one. -/
theorem Wiring.Plays.connect {p : Portal} (h : p.wiring.Plays gateway socket)
    (token : String) (connectorId slaveId : Uuid) :
    ∃ actions gateway' socket', follow Gateway.step gateway actions = some gateway' ∧
      (p.connect token connectorId slaveId).wiring.Plays gateway' socket' := by
  have hfollow := h.upgrade slaveId
  have hid : Session.id ⟨fresh (p.sessions.map Session.id), token, slaveId, connectorId⟩ ∉
      p.wiring.sessions.map Session.id := fresh_notMem _
  refine ⟨_, _, _, hfollow, ⟨Gateway.current_preserved.follow h.current hfollow,
    nodup_append_of_notMem h.ids hid, fun other => h.sockets_connect hid,
    fun first hfirst second => h.distinct_connect hid hfirst, ?_, ?_, h.entries_connect hid, ?_⟩⟩
  · change ((put slaveId _ p.connections).map Prod.fst).Nodup
    rw [keys_put]
    exact (h.slaves.filter _).append (List.nodup_singleton _) (by simp [List.Disjoint])
  · intro entry hentry
    rcases mem_put hentry with hold | rfl
    · obtain ⟨owner, howner, heq⟩ := h.owned entry hold
      exact ⟨owner, List.mem_append_left _ howner, heq⟩
    · exact ⟨_, List.mem_append_right _ (List.mem_singleton.mpr rfl), rfl⟩
  · intro other
    change other ∈ slaveId :: p.world.connections.filter (· ≠ slaveId) ↔
      other ∈ (put slaveId _ p.connections).map Prod.fst
    rw [keys_put, List.mem_append, List.mem_singleton, List.mem_cons, List.mem_filter, List.mem_filter]
    have hother := h.connected other
    exact or_comm.trans (or_congr_left (and_congr_left' hother))

/-- The entry of the slave is the session's where the gateway's is its socket. -/
theorem Wiring.Plays.get_iff (h : w.Plays gateway socket) {session : Session}
    (hsession : session ∈ w.sessions) :
    gateway.get session.slaveId = some (socket session.id) ↔
      (session.slaveId, session.id) ∈ w.connections := by
  constructor
  · intro hget
    obtain ⟨⟨slaveId, id⟩, hentry, rfl, hsocket⟩ := h.mem_of_get hget
    obtain ⟨owner, howner, heq⟩ := h.owned _ hentry
    obtain ⟨-, rfl⟩ := Prod.mk.inj heq
    rw [← h.distinct owner howner session hsession hsocket]
    exact hentry
  · intro hentry
    exact h.get hentry

theorem Wiring.Plays.shut (h : w.Plays gateway socket) {session : Session}
    (hsession : session ∈ w.sessions) :
    follow Gateway.step gateway
        [.advance (socket session.id) .closed, .close session.slaveId (socket session.id)] =
      some (Gateway.closed { gateway with sockets := gateway.sockets.set (socket session.id) .closed }
        session.slaveId (socket session.id)) := by
  obtain ⟨hopen, hregistered⟩ := h.sockets session hsession
  have hlt := (List.getElem?_eq_some_iff.mp hopen).1
  have hset : (gateway.sockets.set (socket session.id) .closed)[socket session.id]? =
      some ReadyState.closed := List.getElem?_set_self hlt
  have hcontains : gateway.registered.contains (session.slaveId, socket session.id) = true := by
    simpa using hregistered
  have hmove : (ReadyState.open).toNumber < (ReadyState.closed).toNumber := by decide
  simp only [follow_cons, follow_nil, Gateway.step]
  rw [show gateway.sockets[socket session.id]? = some ReadyState.open from hopen, Option.bind_some,
    if_pos hmove, Option.bind_some]
  dsimp only
  rw [if_pos ⟨hcontains, hset⟩, Option.bind_some]

/-- The other sessions, whatever becomes of the entry. -/
theorem Wiring.Plays.others (h : w.Plays gateway socket) {session : Session}
    (hsession : session ∈ w.sessions) {other : Session}
    (hother : other ∈ w.sessions.filter fun other => other.id ≠ session.id) :
    (gateway.sockets.set (socket session.id) .closed)[socket other.id]? = some ReadyState.open ∧
      (other.slaveId, socket other.id) ∈ gateway.registered := by
  obtain ⟨hmem, hne⟩ := List.mem_filter.mp hother
  have hne : socket session.id ≠ socket other.id := fun heq =>
    (decide_eq_true_iff.mp hne) (h.distinct session hsession other hmem heq).symm
  obtain ⟨hopen, hregistered⟩ := h.sockets other hmem
  rw [List.getElem?_set_ne hne]
  exact ⟨hopen, hregistered⟩

/-- An entry that is not the session's has an owner among the others. -/
theorem Wiring.Plays.owned_other (h : w.Plays gateway socket) {session : Session}
    (hsession : session ∈ w.sessions) {entry : Uuid × ℕ} (hentry : entry ∈ w.connections)
    (hne : entry ≠ (session.slaveId, session.id)) :
    ∃ owner ∈ w.sessions.filter fun other => other.id ≠ session.id,
      (owner.slaveId, owner.id) = entry := by
  obtain ⟨owner, howner, rfl⟩ := h.owned entry hentry
  refine ⟨owner, List.mem_filter.mpr ⟨howner, decide_eq_true ?_⟩, rfl⟩
  intro hid
  rw [eq_of_key_eq h.ids howner hsession hid] at hne
  exact hne rfl

/-- The socket of the session closes, and its close event takes the entry along that is its own. -/
theorem Wiring.Plays.disconnect {p : Portal} (h : p.wiring.Plays gateway socket) {session : Session}
    (hsession : session ∈ p.sessions) :
    ∃ actions gateway', follow Gateway.step gateway actions = some gateway' ∧
      (p.disconnect session).wiring.Plays gateway' socket := by
  have hfollow := h.shut hsession
  have hcurrent := Gateway.current_preserved.follow h.current hfollow
  have hids : ((p.sessions.filter fun other => other.id ≠ session.id).map Session.id).Nodup :=
    h.ids.sublist (List.filter_sublist.map _)
  have hdistinct : ∀ first ∈ p.sessions.filter fun other => other.id ≠ session.id,
      ∀ second ∈ p.sessions.filter fun other => other.id ≠ session.id,
        socket first.id = socket second.id → first.id = second.id := fun first hfirst second hsecond =>
    h.distinct first (List.mem_of_mem_filter hfirst) second (List.mem_of_mem_filter hsecond)
  refine ⟨_, _, hfollow, ?_⟩
  by_cases hentry : (session.slaveId, session.id) ∈ p.connections
  · -- The entry is the session's and goes with it.
    have hget : Gateway.get { gateway with
        sockets := gateway.sockets.set (socket session.id) .closed } session.slaveId =
          some (socket session.id) := (h.get_iff hsession).mpr hentry
    rw [Gateway.closed, if_pos hget] at hcurrent ⊢
    rw [Portal.disconnect, if_pos hentry]
    refine ⟨hcurrent, hids, fun other => h.others hsession, hdistinct,
      h.slaves.sublist (List.filter_sublist.map _), fun entry hmem => ?_, ?_, fun other => ?_⟩
    · obtain ⟨hmem, hslave⟩ := List.mem_filter.mp hmem
      refine h.owned_other hsession hmem ?_
      rintro rfl
      simp at hslave
    · change gateway.connections.filter _ = _
      rw [h.entries, List.filter_map]
      rfl
    · have hother := h.connected other
      simp only [Portal.wiring, List.mem_filter, List.mem_map, decide_eq_true_iff] at hother ⊢
      rw [hother]
      constructor
      · rintro ⟨⟨entry, hmem, rfl⟩, hne⟩
        exact ⟨entry, ⟨hmem, hne⟩, rfl⟩
      · rintro ⟨entry, ⟨hmem, hne⟩, rfl⟩
        exact ⟨⟨entry, hmem, rfl⟩, hne⟩
  · -- Another socket has taken the slave's entry, or it had none.
    have hget : Gateway.get { gateway with
        sockets := gateway.sockets.set (socket session.id) .closed } session.slaveId ≠
          some (socket session.id) := fun hget => hentry ((h.get_iff hsession).mp hget)
    rw [Gateway.closed, if_neg hget] at hcurrent ⊢
    rw [Portal.disconnect, if_neg hentry]
    refine ⟨hcurrent, hids, fun other => h.others hsession, hdistinct, h.slaves,
      fun entry hmem => h.owned_other hsession hmem ?_, h.entries, h.connected⟩
    rintro rfl
    exact hentry hmem

end

/-! ### Runs -/

section

variable {hashToken : String → String} {c c' : Pool Portal Call} {actions : List PortalAction}

/-- A step of the portal is a run of the gateway. -/
theorem plays_step {a : PortalAction} {gateway : Gateway}
    (h : ∃ socket, c.shared.wiring.Plays gateway socket) (hstep : Portal.step hashToken c a = some c') :
    ∃ actions gateway', follow Gateway.step gateway actions = some gateway' ∧
      ∃ socket, c'.shared.wiring.Plays gateway' socket := by
  obtain ⟨socket, h⟩ := h
  have hkept (hsessions : c'.shared.sessions = c.shared.sessions)
      (hconnections : c'.shared.connections = c.shared.connections)
      (hconnected : c'.shared.world.connections = c.shared.world.connections) :
      ∃ actions gateway', follow Gateway.step gateway actions = some gateway' ∧
        ∃ socket, c'.shared.wiring.Plays gateway' socket :=
    ⟨[], gateway, rfl, socket, h.of_eq hsessions hconnections hconnected⟩
  cases Portal.step_rewires hstep with
  | same hwiring | beat _ _ _ hwiring | register _ _ hwiring | sweep _ _ hwiring | tick _ hwiring =>
      exact hkept (congrArg Wiring.sessions hwiring) (congrArg Wiring.connections hwiring)
        (congrArg Wiring.connected hwiring)
  | connect token connectorId slaveId hwiring =>
      obtain ⟨actions, gateway', socket', hfollow, hplays⟩ := h.connect token connectorId slaveId
      exact ⟨actions, gateway', hfollow, socket', hwiring ▸ hplays⟩
  | disconnect session hsession hwiring =>
      obtain ⟨actions, gateway', hfollow, hplays⟩ := h.disconnect hsession
      exact ⟨actions, gateway', hfollow, socket, hwiring ▸ hplays⟩

theorem plays_initial (hsessions : c.shared.sessions = []) (hconnections : c.shared.connections = [])
    (hconnected : c.shared.world.connections = []) :
    c.shared.wiring.Plays {} fun _ => 0 := by
  have hempty : Wiring.Plays ⟨[], 0, [], [], []⟩ {} fun _ => 0 :=
    ⟨⟨fun _ => .inl rfl, List.nodup_nil, by simp⟩, List.nodup_nil, by simp, by simp, List.nodup_nil,
      by simp, rfl, by simp⟩
  exact hempty.of_eq hsessions hconnections hconnected

/-- For the copy engine a slave is connected exactly when its newest socket is open: the gateway plays
every run of the portal. -/
theorem connected_newest (hsessions : c.shared.sessions = []) (hconnections : c.shared.connections = [])
    (hconnected : c.shared.world.connections = [])
    (hrun : follow (Portal.step hashToken) c actions = some c') :
    ∃ played gateway, follow Gateway.step {} played = some gateway ∧
      ∀ slaveId, c'.shared.world.isSlaveConnected slaveId = gateway.isSlaveConnected slaveId ∧
        (c'.shared.world.isSlaveConnected slaveId ↔ gateway.NewestOpen slaveId) := by
  obtain ⟨played, gateway, hplayed, socket, hplays⟩ := follow_simulates
    (R := fun c gateway => ∃ socket, c.shared.wiring.Plays gateway socket)
    (fun _ _ _ _ h hstep => plays_step h hstep)
    ⟨_, plays_initial hsessions hconnections hconnected⟩ hrun
  have hsame (slaveId : Uuid) :
      c'.shared.world.isSlaveConnected slaveId = gateway.isSlaveConnected slaveId := by
    rw [Bool.eq_iff_iff, hplays.isSlaveConnected]
    exact List.contains_iff_mem
  refine ⟨played, gateway, hplayed, fun slaveId => ⟨hsame slaveId, ?_⟩⟩
  rw [hsame]
  exact hplays.current.isSlaveConnected_iff

end

end ForexCopy
