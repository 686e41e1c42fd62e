import ForexCopy.Dashboard.TradesPage
import ForexCopy.Library.Machine

/-!
# What the dashboards are sent

A socket of a dashboard is sent the broadcasts from the moment it connects to the moment it is no longer
open, each once and in order.
-/

namespace ForexCopy

open Machine

/-- What was written to a socket, against the broadcasts made: from `before` on nothing is left out, and
to an open socket everything was written. -/
def LiveTrades.Follows (before : List CopyOrderBroadcast) (i : ℕ) (s : LiveTrades) : Prop :=
  ∃ socket missed, s.gateway.sockets[i]? = some socket ∧
    s.broadcasts = before ++ socket.written ++ missed ∧ ReadyState.open.toNumber ≤ socket.state.toNumber ∧
    (socket.state = .open → missed = [] ∧ i ∈ s.gateway.adminSockets)

namespace LiveTrades

variable {before : List CopyOrderBroadcast} {i : ℕ} {s s' : LiveTrades} {a : LiveAction}

theorem Follows.of_socket (h : s.Follows before i)
    (hsockets : s'.gateway.sockets[i]? = s.gateway.sockets[i]?) (hbroadcasts : s'.broadcasts = s.broadcasts)
    (hset : i ∈ s.gateway.adminSockets →
      (s.gateway.sockets[i]?).map AdminSocket.state = some .open → i ∈ s'.gateway.adminSockets) :
    s'.Follows before i := by
  obtain ⟨socket, missed, hget, hfeed, hstate, hopen⟩ := h
  refine ⟨socket, missed, hsockets.trans hget, hbroadcasts.trans hfeed, hstate, fun hsocket => ?_⟩
  obtain ⟨hmissed, hmem⟩ := hopen hsocket
  exact ⟨hmissed, hset hmem (by rw [hget, Option.map_some, hsocket])⟩

theorem Follows.announce {broadcast : CopyOrderBroadcast} (h : s.Follows before i)
    (hgateway : s'.gateway = s.gateway.broadcastToAdmins broadcast)
    (hbroadcasts : s'.broadcasts = s.broadcasts ++ [broadcast]) : s'.Follows before i := by
  obtain ⟨socket, missed, hget, hfeed, hstate, hopen⟩ := h
  have hsocket : s'.gateway.sockets[i]? = some
      (if i ∈ s.gateway.adminSockets ∧ socket.state = .open then
        { socket with written := socket.written ++ [broadcast] }
      else
        socket) := by
    rw [hgateway, AdminGateway.broadcastToAdmins, List.getElem?_mapIdx, hget, Option.map_some]
  have hset : s'.gateway.adminSockets = s.gateway.adminSockets := by rw [hgateway]; rfl
  by_cases hsend : socket.state = .open
  · obtain ⟨rfl, hmem⟩ := hopen hsend
    rw [if_pos ⟨hmem, hsend⟩] at hsocket
    exact ⟨_, [], hsocket, by simp [hbroadcasts, hfeed], hstate, fun _ => ⟨rfl, hset ▸ hmem⟩⟩
  · rw [if_neg fun h => hsend h.2] at hsocket
    exact ⟨socket, missed ++ [broadcast], hsocket, by simp [hbroadcasts, hfeed], hstate,
      fun hnow => absurd hnow hsend⟩

theorem Follows.register (h : s.Follows before i) (hgateway : s'.gateway = s.gateway.register)
    (hbroadcasts : s'.broadcasts = s.broadcasts) : s'.Follows before i := by
  obtain ⟨socket, _, hget, -⟩ := id h
  have hlt : i < s.gateway.sockets.length := (List.getElem?_eq_some_iff.mp hget).1
  refine h.of_socket ?_ hbroadcasts fun hmem _ => ?_
  · rw [hgateway]
    exact List.getElem?_append_left hlt
  · rw [hgateway]
    exact List.mem_append_left _ hmem

theorem Follows.advance {j : ℕ} {state : ReadyState} {gateway : AdminGateway} (h : s.Follows before i)
    (hadvance : s.gateway.advance j state = some gateway) :
    Follows before i { s with gateway := gateway } := by
  obtain ⟨old, hold, hmove⟩ := Option.bind_eq_some_iff.mp hadvance
  split_ifs at hmove with hlater
  obtain rfl := Option.some.inj hmove
  by_cases hij : j = i
  · subst hij
    obtain ⟨socket, missed, hget, hfeed, hstate, -⟩ := h
    obtain rfl : old = socket := Option.some.inj (hold.symm.trans hget)
    have hlt : j < s.gateway.sockets.length := (List.getElem?_eq_some_iff.mp hget).1
    refine ⟨{ old with state := state }, missed, by simp [hlt], hfeed, ?_, ?_⟩
    · exact hstate.trans hlater.le
    · rintro rfl
      exact absurd hlater (by omega)
  · exact h.of_socket (List.getElem?_set_ne hij) rfl fun hmem _ => hmem

theorem Follows.closed {j : ℕ} {gateway : AdminGateway} (h : s.Follows before i)
    (hclosed : s.gateway.closed j = some gateway) :
    Follows before i { s with gateway := gateway } := by
  obtain ⟨old, hold, hremove⟩ := Option.bind_eq_some_iff.mp hclosed
  split_ifs at hremove with hstate
  obtain rfl := Option.some.inj hremove
  refine h.of_socket rfl rfl fun hmem hopen => ?_
  have hij : i ≠ j := by
    rintro rfl
    rw [hold, Option.map_some, hstate] at hopen
    cases hopen
  exact List.mem_filter.mpr ⟨hmem, by simpa using hij⟩

theorem follows_preserved : Preserved LiveTrades.step (Follows before i) := by
  intro s a s' h hstep
  cases a with
  | backend action =>
      obtain ⟨_, -, rfl⟩ := Option.map_eq_some_iff.mp hstep
      exact h
  | announce =>
      obtain ⟨broadcast, -, rfl⟩ := Option.map_eq_some_iff.mp hstep
      exact h.announce rfl rfl
  | connect =>
      obtain rfl := Option.some.inj hstep
      exact h.register rfl rfl
  | advance =>
      obtain ⟨gateway, hadvance, rfl⟩ := Option.map_eq_some_iff.mp hstep
      exact h.advance hadvance
  | closed =>
      obtain ⟨gateway, hclosed, rfl⟩ := Option.map_eq_some_iff.mp hstep
      exact h.closed hclosed
  | «open» =>
      simp only [step] at hstep
      split at hstep
      · obtain rfl := Option.some.inj hstep
        exact h.register rfl rfl
      · cases hstep
  | loadInitial =>
      obtain ⟨_, -, rfl⟩ := Option.map_eq_some_iff.mp hstep
      exact h
  | onclose | onmessage | serve | loadFails =>
      simp only [step] at hstep
      repeat' split at hstep
      all_goals cases hstep
      all_goals exact h

theorem follows_connect (s : LiveTrades) (page : TradesPage) :
    Follows s.broadcasts s.gateway.sockets.length
      { s with gateway := s.gateway.register, page := page } :=
  ⟨{}, [], by simp [AdminGateway.register], by simp, le_rfl, fun _ => ⟨rfl, by simp [AdminGateway.register]⟩⟩

/-- From the moment it connects a dashboard is sent the broadcasts in order, none twice and none left
out, and as long as its socket is open every one that was made. -/
theorem broadcasts_reach_dashboard {connected : LiveTrades} {actions : List LiveAction}
    (hconnect : s.step a = some connected) (ha : a = .connect ∨ a = .open)
    (hrun : follow LiveTrades.step connected actions = some s') :
    s'.gateway.written s.gateway.sockets.length <+: s'.broadcasts.drop s.broadcasts.length ∧
      (s'.gateway.IsOpen s.gateway.sockets.length →
        s'.gateway.written s.gateway.sockets.length = s'.broadcasts.drop s.broadcasts.length) := by
  have hstart : connected.Follows s.broadcasts s.gateway.sockets.length := by
    rcases ha with rfl | rfl
    · obtain rfl := Option.some.inj hconnect
      exact follows_connect s s.page
    · simp only [step] at hconnect
      split at hconnect
      · obtain rfl := Option.some.inj hconnect
        exact follows_connect s _
      · cases hconnect
  obtain ⟨socket, missed, hget, hfeed, -, hopen⟩ := follows_preserved.follow hstart hrun
  have hdrop : s'.broadcasts.drop s.broadcasts.length = socket.written ++ missed := by
    rw [hfeed, List.append_assoc, List.drop_left]
  have hwritten : s'.gateway.written s.gateway.sockets.length = socket.written := by
    simp [AdminGateway.written, hget]
  rw [hdrop, hwritten]
  refine ⟨List.prefix_append _ _, fun hisOpen => ?_⟩
  unfold AdminGateway.IsOpen at hisOpen
  rw [hget, Option.map_some, Option.some.injEq] at hisOpen
  rw [(hopen hisOpen).1, List.append_nil]

theorem watched_broadcasts_reach :
    ∃ connected s, (start Sample.trading).step .open = some connected ∧
      follow LiveTrades.step connected (Sample.watched.drop 1) = some s ∧
      s.gateway.written (start Sample.trading).gateway.sockets.length <+:
        s.broadcasts.drop (start Sample.trading).broadcasts.length := by
  have hconnects : ∃ connected, (start Sample.trading).step .open = some connected ∧
      (follow LiveTrades.step connected (Sample.watched.drop 1)).isSome := by
    decide +kernel
  obtain ⟨connected, hconnect, hruns⟩ := hconnects
  obtain ⟨s, hrun⟩ := Option.isSome_iff_exists.mp hruns
  exact ⟨connected, s, hconnect, hrun, (broadcasts_reach_dashboard hconnect (.inr rfl) hrun).1⟩

end LiveTrades

end ForexCopy
