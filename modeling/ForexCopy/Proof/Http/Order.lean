import ForexCopy.Proof.Http.Accounts

/-!
# The order in which a master's events are accepted

A new event is posted at once, whatever waits in the array, and the array is gone through from its last
place to its first. So an event that had to wait can be overtaken by a later one of its own master
ticket. As long as that happens to none, the events of each ticket are accepted in the order in which
the EA has sent them.
-/

namespace ForexCopy

open Machine

/-- Where two events are of one master ticket, the first was handed over before the second. -/
def TicketOrder (handed : List TradeEventCall) (m n : ℕ) : Prop :=
  handed[m]?.map TradeEventCall.masterTicket = handed[n]?.map TradeEventCall.masterTicket → m < n

namespace HttpClient

/-- The numbers of the accepted events, in the order of their acceptance. -/
def accepted (client : HttpClient) : List ℕ :=
  (client.settled.filter fun done => done.2 = .accepted).map Prod.fst

/-- The accepted events of a ticket were accepted in the order in which they were handed over. -/
def AcceptedInOrder (client : HttpClient) : Prop :=
  client.accepted.Pairwise (TicketOrder client.handed)

/-- No request of the call is accepted while an earlier event of the same ticket waits. -/
def NotOvertaking (client : HttpClient) : HttpCall TradeEventCall → Prop
  | .init => True
  | .send jsonBody status _ => httpSettings.accepts status →
    ∀ waiting ∈ client.queue, waiting.jsonBody.masterTicket ≠ jsonBody.masterTicket
  | .processRetryQueue status tickCount =>
    ∀ i < client.queue.length, ∀ item ∈ client.queue[i]?, item.nextAttemptAtMs ≤ tickCount →
      httpSettings.accepts (status i) →
      ∀ earlier ∈ client.queue.take i, earlier.jsonBody.masterTicket ≠ item.jsonBody.masterTicket

instance (client : HttpClient) : ∀ call, Decidable (client.NotOvertaking call)
  | .init => inferInstanceAs (Decidable True)
  | .send _ _ _ => inferInstanceAs (Decidable (_ → _))
  | .processRetryQueue _ _ => inferInstanceAs (Decidable (∀ i < _, _))

variable {client : HttpClient}

/-- The accepted events and behind them those that wait. -/
def order (client : HttpClient) : List ℕ := client.accepted ++ client.queue.map RetryItem.number

/-- What waits has not been overtaken, so it may still be accepted. -/
structure InOrder (client : HttpClient) : Prop where
  accounted : client.Accounted httpSettings
  inOrder : client.order.Pairwise (TicketOrder client.handed)

theorem InOrder.tick (h : client.InOrder) (tickCount : ℕ) :
    InOrder { client with tickCount := tickCount } :=
  ⟨h.accounted.tick tickCount, h.inOrder⟩

theorem accepted_settle (client : HttpClient) (number : ℕ) (fate : HttpFate) :
    accepted (client.settle number fate) =
      client.accepted ++ if fate = .accepted then [number] else [] := by
  unfold accepted RetryClient.settle
  dsimp only
  rw [List.filter_append, List.map_append]
  congr 1
  split_ifs with hfate <;> simp [hfate]

theorem lt_handed_of_accepted (h : client.Accounted httpSettings) {number : ℕ}
    (hnumber : number ∈ client.accepted) : number < client.handed.length := by
  obtain ⟨⟨n, fate⟩, hdone, rfl⟩ := List.mem_map.mp hnumber
  exact h.custody.left_lt_issued (List.mem_of_mem_filter hdone)

theorem lt_handed_of_order (h : client.Accounted httpSettings) {number : ℕ}
    (hnumber : number ∈ client.order) : number < client.handed.length := by
  rcases List.mem_append.mp hnumber with haccepted | hwaiting
  · exact lt_handed_of_accepted h haccepted
  · exact h.custody.lt_issued hwaiting

/-- Another event at the end changes no ticket. -/
theorem order_handed (h : client.InOrder) (jsonBody : TradeEventCall) :
    client.order.Pairwise (TicketOrder (client.handed ++ [jsonBody])) := by
  refine List.Pairwise.imp_of_mem (fun {m n} hm hn hmn => ?_) h.inOrder
  unfold TicketOrder
  rw [List.getElem?_append_left (lt_handed_of_order h.accounted hm),
    List.getElem?_append_left (lt_handed_of_order h.accounted hn)]
  exact hmn

/-- An entry that is not accepted can go. -/
theorem pairwise_drop {handed : List TradeEventCall} {before waiting waiting' : List ℕ}
    (h : (before ++ waiting).Pairwise (TicketOrder handed)) (hsub : waiting'.Sublist waiting) :
    (before ++ waiting').Pairwise (TicketOrder handed) :=
  h.sublist (hsub.append_left before)

/-- An entry that no earlier one of its ticket waits for can be accepted. -/
theorem pairwise_accept {handed : List TradeEventCall} {before waiting : List ℕ} {i n : ℕ}
    (h : (before ++ waiting).Pairwise (TicketOrder handed)) (hsorted : waiting.Pairwise (· < ·))
    (hn : waiting[i]? = some n) (hfirst : ∀ m ∈ waiting.take i, TicketOrder handed n m) :
    ((before ++ [n]) ++ waiting.eraseIdx i).Pairwise (TicketOrder handed) := by
  obtain ⟨hlt, rfl⟩ := List.getElem?_eq_some_iff.mp hn
  have hsplit : waiting = waiting.take i ++ waiting[i] :: waiting.drop (i + 1) := by
    rw [List.getElem_cons_drop, List.take_append_drop]
  obtain ⟨hbefore, hwaiting, hcross⟩ := List.pairwise_append.mp h
  have hlater : ∀ m ∈ waiting.drop (i + 1), waiting[i] < m := by
    rw [hsplit, List.pairwise_append] at hsorted
    exact (List.pairwise_cons.mp hsorted.2.1).1
  rw [List.append_assoc, List.singleton_append]
  refine List.pairwise_append.mpr ⟨hbefore, List.pairwise_cons.mpr ⟨fun m hm => ?_, ?_⟩, ?_⟩
  · rw [List.eraseIdx_eq_take_drop_succ] at hm
    rcases List.mem_append.mp hm with hearlier | hbehind
    · exact hfirst m hearlier
    · exact fun _ => hlater m hbehind
  · exact hwaiting.sublist (List.eraseIdx_sublist _ _)
  · intro m hm k hk
    rcases List.mem_cons.mp hk with rfl | hrest
    · exact hcross m hm _ (List.getElem_mem hlt)
    · exact hcross m hm k (List.mem_of_mem_eraseIdx hrest)

theorem map_number_removeAt {queue : List (RetryItem TradeEventCall)} {i : ℕ}
    (h : i < queue.length) :
    (Compaction.removeAt queue i).map RetryItem.number = (queue.map RetryItem.number).eraseIdx i := by
  rw [Compaction.removeAt_eq_eraseIdx h, List.eraseIdx_map]

theorem InOrder.retryAt (h : client.InOrder) {status : ℕ → ℤ} {i : ℕ}
    (hfirst : ∀ item ∈ client.queue[i]?, item.nextAttemptAtMs ≤ client.tickCount →
      httpSettings.accepts (status i) →
      ∀ earlier ∈ client.queue.take i, earlier.jsonBody.masterTicket ≠ item.jsonBody.masterTicket) :
    InOrder (client.retryAt httpSettings status i) := by
  refine ⟨h.accounted.retryAt status i, ?_⟩
  have hinOrder := h.inOrder
  unfold RetryClient.retryAt
  split
  · exact hinOrder
  rename_i item hitem
  split
  · exact hinOrder
  rename_i hdue
  have hlt := (List.getElem?_eq_some_iff.mp hitem).1
  have hplace : (client.queue.map RetryItem.number)[i]? = some item.number := by
    rw [List.getElem?_map, hitem]
    rfl
  dsimp only
  split
  · rename_i haccepts
    unfold order
    rw [accepted_settle, if_pos rfl]
    change (client.accepted ++ [item.number] ++
      (Compaction.removeAt client.queue i).map RetryItem.number).Pairwise (TicketOrder client.handed)
    rw [map_number_removeAt hlt]
    refine pairwise_accept hinOrder h.accounted.custody.inOrder hplace fun m hm hsame => ?_
    -- An earlier event of the same ticket would be in front.
    rw [← List.map_take] at hm
    obtain ⟨earlier, hearlier, rfl⟩ := List.mem_map.mp hm
    have hbody := (h.accounted.waiting item (List.mem_of_getElem? hitem)).2.2.1
    have hbody' := (h.accounted.waiting earlier (List.mem_of_mem_take hearlier)).2.2.1
    rw [hbody, hbody'] at hsame
    exact absurd (Option.some.inj hsame).symm
      (hfirst item hitem (not_lt.mp hdue) haccepts earlier hearlier)
  · split
    · unfold order
      rw [accepted_settle, if_neg (by decide), List.append_nil]
      change (client.accepted ++
        (Compaction.removeAt client.queue i).map RetryItem.number).Pairwise (TicketOrder client.handed)
      rw [map_number_removeAt hlt]
      exact pairwise_drop hinOrder (List.eraseIdx_sublist _ _)
    · change (client.accepted ++
        (client.queue.set i _).map RetryItem.number).Pairwise (TicketOrder client.handed)
      rw [RetryClient.map_number_set hitem]
      · exact hinOrder
      · rfl

/-- A pass leaves the clock and the entries in front of its place as they are. -/
theorem retryAt_front (client : HttpClient) (status : ℕ → ℤ) (i : ℕ) :
    (client.retryAt httpSettings status i).tickCount = client.tickCount ∧
      (client.retryAt httpSettings status i).queue.take i = client.queue.take i := by
  unfold RetryClient.retryAt
  split
  · exact ⟨rfl, rfl⟩
  rename_i item hitem
  have hlt := (List.getElem?_eq_some_iff.mp hitem).1
  have hkept : (Compaction.removeAt client.queue i).take i = client.queue.take i := by
    rw [Compaction.removeAt_eq_eraseIdx hlt, List.eraseIdx_eq_take_drop_succ,
      List.take_append_of_le_length (by rw [List.length_take]; omega), List.take_take, min_self]
  split
  · exact ⟨rfl, rfl⟩
  dsimp only
  split
  · exact ⟨rfl, hkept⟩
  · split
    · exact ⟨rfl, hkept⟩
    · exact ⟨rfl, List.take_set_of_le (le_refl i)⟩

/-- The passes over the places below `n`, from the last to the first. -/
theorem InOrder.passes {status : ℕ → ℤ} (n : ℕ) {client : HttpClient} (h : client.InOrder)
    (hfirst : ∀ i < n, ∀ item ∈ client.queue[i]?, item.nextAttemptAtMs ≤ client.tickCount →
      httpSettings.accepts (status i) →
      ∀ earlier ∈ client.queue.take i, earlier.jsonBody.masterTicket ≠ item.jsonBody.masterTicket) :
    InOrder ((List.range n).foldr
      (fun i client => RetryClient.retryAt httpSettings status client i) client) := by
  induction n generalizing client with
  | zero => exact h
  | succ n ih =>
      obtain ⟨hclock, hfront⟩ := retryAt_front client status n
      rw [List.range_succ, List.foldr_append, List.foldr_cons, List.foldr_nil]
      refine ih (h.retryAt (hfirst n (Nat.lt_succ_self n))) fun i hi item hitem hdue => ?_
      have hitem' : item ∈ client.queue[i]? := by
        have hentry := congrArg (fun queue => queue[i]?) hfront
        simp only [List.getElem?_take, if_pos hi] at hentry
        rw [← hentry]
        exact hitem
      have htake : (client.retryAt httpSettings status n).queue.take i = client.queue.take i := by
        have hcut := congrArg (List.take i) hfront
        rwa [List.take_take, List.take_take, min_eq_left hi.le] at hcut
      rw [hclock] at hdue
      rw [htake]
      exact hfirst i (hi.trans (Nat.lt_succ_self n)) item hitem' hdue

/-- An eviction accepts nothing and reorders nothing. -/
theorem evict_order (client : HttpClient) :
    accepted (client.evict httpSettings) = client.accepted ∧
      ((client.evict httpSettings).queue.map RetryItem.number).Sublist
        (client.queue.map RetryItem.number) := by
  unfold RetryClient.evict
  split
  · exact ⟨rfl, List.Sublist.refl _⟩
  rename_i oldest rest hqueue
  split
  · rw [accepted_settle, if_neg (by decide), List.append_nil]
    refine ⟨rfl, List.Sublist.map _ ?_⟩
    change (Compaction.removeAt client.queue 0).Sublist client.queue
    rw [Compaction.removeAt_eq_eraseIdx (by rw [hqueue]; exact Nat.succ_pos _)]
    exact List.eraseIdx_sublist _ _
  · exact ⟨rfl, List.Sublist.refl _⟩

theorem InOrder.send (h : client.InOrder) (jsonBody : TradeEventCall) {status : ℤ}
    (hfirst : httpSettings.accepts status →
      ∀ waiting ∈ client.queue, waiting.jsonBody.masterTicket ≠ jsonBody.masterTicket) :
    InOrder (client.send httpSettings jsonBody status) := by
  refine ⟨h.accounted.send jsonBody status, ?_⟩
  have horder := order_handed h jsonBody
  have hnew : ∀ m ∈ client.order, TicketOrder (client.handed ++ [jsonBody]) m client.handed.length :=
    fun m hm _ => lt_handed_of_order h.accounted hm
  by_cases haccepts : httpSettings.accepts status
  · unfold RetryClient.send order
    rw [if_pos haccepts, accepted_settle, if_pos rfl]
    change (client.accepted ++ [client.handed.length] ++
      client.queue.map RetryItem.number).Pairwise (TicketOrder (client.handed ++ [jsonBody]))
    obtain ⟨hbefore, hwaiting, hcross⟩ := List.pairwise_append.mp horder
    rw [List.append_assoc, List.singleton_append]
    refine List.pairwise_append.mpr ⟨hbefore, List.pairwise_cons.mpr ⟨fun n hn hsame => ?_, hwaiting⟩,
      fun m hm n hn => ?_⟩
    · obtain ⟨waiting, hmem, rfl⟩ := List.mem_map.mp hn
      have hbody := (h.accounted.waiting waiting hmem).2.2.1
      rw [RetryClient.getElem?_handed hbody, List.getElem?_concat_length] at hsame
      exact absurd (Option.some.inj hsame).symm (hfirst haccepts waiting hmem)
    · rcases List.mem_cons.mp hn with rfl | hrest
      · exact hnew m (List.mem_append_left _ hm)
      · exact hcross m hm n hrest
  · obtain ⟨haccepted, hsub⟩ := evict_order client
    rw [RetryClient.send_refused client jsonBody haccepts]
    change (accepted (client.evict httpSettings) ++ ((client.evict httpSettings).queue ++
      [RetryItem.mk client.handed.length jsonBody 1 _]).map RetryItem.number).Pairwise
        (TicketOrder (client.handed ++ [jsonBody]))
    rw [haccepted, List.map_append, List.map_singleton, ← List.append_assoc]
    refine List.pairwise_append.mpr ⟨pairwise_drop horder hsub, List.pairwise_singleton _ _,
      fun m hm n hn => ?_⟩
    rw [List.mem_singleton.mp hn]
    exact hnew m ((hsub.append_left client.accepted).subset hm)

theorem inOrder_preserved : Preserved (restrict HttpClient.step NotOvertaking) InOrder := by
  intro client call client' h hstep
  obtain ⟨hfirst, hstep⟩ := restrict_eq_some.mp hstep
  unfold HttpClient.step RetryClient.step at hstep
  cases call with
  | init =>
      obtain rfl := Option.some.inj hstep
      refine ⟨h.accounted.init, ?_⟩
      have haccepted : accepted client.init = client.accepted := by
        simp [accepted, RetryClient.init]
      change (accepted client.init ++ []).Pairwise (TicketOrder client.handed)
      rw [haccepted]
      exact pairwise_drop h.inOrder (List.nil_sublist _)
  | send jsonBody status tickCount =>
      simp only [Option.ite_none_right_eq_some, Option.some.injEq] at hstep
      obtain ⟨-, rfl⟩ := hstep
      exact (h.tick tickCount).send jsonBody hfirst
  | processRetryQueue status tickCount =>
      simp only [Option.ite_none_right_eq_some, Option.some.injEq] at hstep
      obtain ⟨-, rfl⟩ := hstep
      exact (h.tick tickCount).passes _ hfirst

/-- While no event is accepted in front of an earlier one of its ticket that waits, the events of each
ticket are accepted in their order. -/
theorem accepted_in_order (calls : List (HttpCall TradeEventCall)) (client : HttpClient)
    (hrun : follow (restrict HttpClient.step NotOvertaking) {} calls = some client) :
    client.AcceptedInOrder :=
  (List.pairwise_append.mp
    (inOrder_preserved.follow ⟨RetryClient.Accounted.empty, List.Pairwise.nil⟩ hrun).inOrder).1

namespace Sample

def opened : TradeEventCall := ⟨"OPEN-7-1001", .open, "EURUSD", some .buy, 1, 11 / 10, 0, 0, "1001"⟩

def closed : TradeEventCall := ⟨"CLOSE-7-1001", .close, "EURUSD", some .buy, 1, 12 / 10, 0, 0, "1001"⟩

end Sample

/-- The OPEN has got through before the position is closed. -/
theorem retried_open_first : AcceptedInOrder
    { tickCount := 4000, handed := [Sample.opened, Sample.closed],
      posts := [⟨0, Sample.opened, -1⟩, ⟨0, Sample.opened, 202⟩, ⟨1, Sample.closed, 202⟩],
      settled := [(0, .accepted), (1, .accepted)] } :=
  accepted_in_order
    [.send Sample.opened (-1) 0, .processRetryQueue (fun _ => 202) 3000, .send Sample.closed 202 4000] _
    (by decide +kernel)

/-- An OPEN that had to wait is overtaken by a CLOSE that is posted at once, and by one that waits
behind it. -/
theorem close_overtakes_open :
    (∃ client, follow HttpClient.step {} [.send Sample.opened (-1) 0, .send Sample.closed 202 1000,
        .processRetryQueue (fun _ => 202) 3000] = some client ∧
      client.handed = [Sample.opened, Sample.closed] ∧ client.accepted = [1, 0] ∧
      ¬client.AcceptedInOrder) ∧
    ∃ client, follow HttpClient.step {} [.send Sample.opened (-1) 0, .send Sample.closed (-1) 1000,
        .processRetryQueue (fun _ => 202) 4000] = some client ∧
      client.handed = [Sample.opened, Sample.closed] ∧ client.accepted = [1, 0] ∧
      ¬client.AcceptedInOrder := by
  refine ⟨⟨_, rfl, rfl, by decide, ?_⟩, ⟨_, rfl, rfl, by decide, ?_⟩⟩
  all_goals
    intro h
    have hpair := (List.pairwise_cons.mp h).1 0 (List.mem_singleton_self 0)
    exact absurd (hpair rfl) (by decide)

end HttpClient

end ForexCopy
