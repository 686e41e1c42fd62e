import ForexCopy.Proof.Dashboard.Broadcasts
import ForexCopy.Proof.Dashboard.Sockets

/-!
# The page follows the database

Whatever the page has still to be told about an order, a row that nothing more is on its way for shows
the order as the database has it. The argument starts with the load: the response is a snapshot, and
what was broadcast after it, or is due, reaches the page later on its socket.
-/

namespace ForexCopy

open Machine

/-! ### The rows at any time -/

/-- The rows the page shows, or will show once the response to its request is there. -/
def TradesPage.coming (page : TradesPage) : List TradeRow :=
  match page.load with
  | .requested => []
  | .answered rows => rows
  | .settled => page.rows

/-- No copy order has two rows, and the page stays bounded. -/
structure TradesPage.Tidy (page : TradesPage) : Prop where
  ids : (page.rows.map TradeRow.id).Nodup
  length : page.rows.length ≤ MAX_ROWS
  answer : ∀ rows, page.load = .answered rows →
    (rows.map TradeRow.id).Nodup ∧ rows.length ≤ MAX_ROWS

theorem length_listCopyOrders_le (w : World) (masterId slaveId : Option Uuid) (limit : Option ℕ) :
    (w.listCopyOrders masterId slaveId limit).length ≤ rowsToTake limit := by
  unfold World.listCopyOrders
  rw [List.length_map, List.length_take]
  exact Nat.min_le_left _ _

theorem nodup_listCopyOrders {w : World} (h : (w.copyOrders.map CopyOrder.id).Nodup)
    (masterId slaveId : Option Uuid) (limit : Option ℕ) :
    ((w.listCopyOrders masterId slaveId limit).map TradeRow.id).Nodup := by
  unfold World.listCopyOrders
  rw [List.map_map]
  refine (List.Nodup.sublist ?_ (List.nodup_reverse.mpr h))
  rw [← List.map_reverse]
  refine List.Sublist.map CopyOrder.id ((List.take_sublist _ _).trans ?_)
  exact List.reverse_sublist.mpr List.filter_sublist

theorem mem_listCopyOrders {w : World} {masterId slaveId : Option Uuid} {limit : Option ℕ}
    {row : TradeRow} (h : row ∈ w.listCopyOrders masterId slaveId limit) :
    ∃ order ∈ w.copyOrders, row = order.tradeRow w := by
  obtain ⟨order, horder, rfl⟩ := List.mem_map.mp h
  have hwanted := List.mem_of_mem_take horder
  exact ⟨order, (List.mem_filter.mp (List.mem_reverse.mp hwanted)).1, rfl⟩

theorem TradesPage.Tidy.onEvent {page : TradesPage} (h : page.Tidy) (event : CopyOrderBroadcast) :
    (page.onEvent event).Tidy where
  ids := ChangeFeed.nodup_upsert (fun _ => rfl) h.ids
  length := ChangeFeed.length_upsert_le h.length
  answer := h.answer

/-! ### The page's socket -/

namespace LiveTrades

/-- The page's socket is open and its messages are the last of the broadcasts. -/
structure Connected (s : LiveTrades) (i : ℕ) (socket : AdminSocket) : Prop where
  get : s.gateway.sockets[i]? = some socket
  isOpen : socket.state = .open
  member : i ∈ s.gateway.adminSockets
  feed : socket.written <:+ s.broadcasts
  received : s.page.received ≤ socket.written.length

variable {s s' : LiveTrades} {i : ℕ} {socket : AdminSocket} {broadcast : CopyOrderBroadcast}

theorem Connected.incoming (h : s.Connected i socket) (hpage : s.page.socket = some i) :
    s.incoming = socket.written.drop s.page.received := by
  simp [LiveTrades.incoming, hpage, AdminGateway.written, h.get]

theorem Connected.register (h : s.Connected i socket) :
    Connected { s with gateway := s.gateway.register } i socket where
  get := by
    have hlt := (List.getElem?_eq_some_iff.mp h.get).1
    exact (List.getElem?_append_left hlt).trans h.get
  isOpen := h.isOpen
  member := List.mem_append_left _ h.member
  feed := h.feed
  received := h.received

theorem Connected.advance {j : ℕ} {state : ReadyState} {gateway : AdminGateway}
    (h : s.Connected i socket) (hne : i ≠ j) (hadvance : s.gateway.advance j state = some gateway) :
    Connected { s with gateway := gateway } i socket := by
  obtain ⟨old, -, hmove⟩ := Option.bind_eq_some_iff.mp hadvance
  split_ifs at hmove
  obtain rfl := Option.some.inj hmove
  exact ⟨(List.getElem?_set_ne hne.symm).trans h.get, h.isOpen, h.member, h.feed, h.received⟩

theorem Connected.closed {j : ℕ} {gateway : AdminGateway} (h : s.Connected i socket)
    (hclosed : s.gateway.closed j = some gateway) :
    Connected { s with gateway := gateway } i socket := by
  obtain ⟨old, hold, hremove⟩ := Option.bind_eq_some_iff.mp hclosed
  split_ifs at hremove with hstate
  obtain rfl := Option.some.inj hremove
  have hij : i ≠ j := by
    rintro rfl
    obtain rfl : old = socket := Option.some.inj (hold.symm.trans h.get)
    cases hstate.symm.trans h.isOpen
  exact ⟨h.get, h.isOpen, List.mem_filter.mpr ⟨h.member, by simpa using hij⟩, h.feed, h.received⟩

theorem Connected.announce (h : s.Connected i socket)
    (hgateway : s'.gateway = s.gateway.broadcastToAdmins broadcast)
    (hbroadcasts : s'.broadcasts = s.broadcasts ++ [broadcast]) (hpage : s'.page = s.page) :
    Connected s' i { socket with written := socket.written ++ [broadcast] } where
  get := by
    rw [hgateway, AdminGateway.broadcastToAdmins, List.getElem?_mapIdx, h.get, Option.map_some,
      if_pos ⟨h.member, h.isOpen⟩]
  isOpen := h.isOpen
  member := by
    rw [hgateway]
    exact h.member
  feed := by
    obtain ⟨front, hfront⟩ := h.feed
    exact ⟨front, by rw [hbroadcasts, ← hfront, List.append_assoc]⟩
  received := by
    rw [hpage, List.length_append]
    exact h.received.trans (Nat.le_add_right _ _)

theorem connected_new (s : LiveTrades) (page : TradesPage) (hpage : page.received = 0) :
    Connected { s with gateway := s.gateway.register, page := page } s.gateway.sockets.length {} where
  get := by simp [AdminGateway.register]
  isOpen := rfl
  member := by simp [AdminGateway.register]
  feed := List.nil_suffix
  received := hpage.le

end LiveTrades

/-! ### What a row shows -/

/-- The row shows the columns of the order that are never written. -/
structure TradeRow.Of (row : TradeRow) (order : CopyOrder) : Prop where
  id : row.id = order.id
  masterId : row.masterId = order.masterId
  slaveId : row.slaveId = order.slaveId
  masterTicket : row.masterTicket = order.masterTicket
  type : row.type = order.type

theorem TradeRow.Of.of_core {row : TradeRow} {order order' : CopyOrder} (h : row.Of order)
    (hcore : order'.core = order.core) : row.Of order' where
  id := h.id.trans (CopyOrder.id_of_core hcore).symm
  masterId := h.masterId.trans (congrArg CopyOrder.masterId hcore).symm
  slaveId := h.slaveId.trans (CopyOrder.slaveId_of_core hcore).symm
  masterTicket := h.masterTicket.trans (CopyOrder.masterTicket_of_core hcore).symm
  type := h.type.trans (CopyOrder.type_of_core hcore).symm

/-- The row shows the status of the order, or that the order of an MT4 slave waits. -/
def TradeRow.Tells (platformOf : Uuid → String) (row : TradeRow) (order : CopyOrder) : Prop :=
  row.status = order.status ∨ row.status = .pending ∧ platformOf order.slaveId = "MT4"

/-- The row is of an order in the table, and unless something about it is ahead it shows its status. -/
def World.Shows (platformOf : Uuid → String) (w : World) (ahead : List CopyOrderBroadcast)
    (row : TradeRow) : Prop :=
  ∃ order ∈ w.copyOrders, row.Of order ∧
    (ChangeFeed.latest CopyOrderBroadcast.copyId row.id ahead = none → row.Tells platformOf order)

section

variable {platformOf : Uuid → String} {w w' : World} {ahead ahead' : List CopyOrderBroadcast}
  {row : TradeRow}

theorem World.Shows.of_latest (h : w.Shows platformOf ahead row)
    (hlatest : ChangeFeed.latest CopyOrderBroadcast.copyId row.id ahead' =
      ChangeFeed.latest CopyOrderBroadcast.copyId row.id ahead) : w.Shows platformOf ahead' row := by
  obtain ⟨order, horder, hof, htells⟩ := h
  exact ⟨order, horder, hof, fun hnone => htells (hlatest ▸ hnone)⟩

/-- A write that is not broadcast with the order's name leaves its row alone. -/
theorem World.Told.unchanged {told : Option CopyOrderBroadcast}
    (h : World.Told platformOf w w' told) {order : CopyOrder} (horder : order ∈ w.copyOrders)
    (hother : ∀ broadcast ∈ told, broadcast.copyId ≠ order.id) : order ∈ w'.copyOrders := by
  cases h with
  | quiet h | waiting _ _ _ h => exact h ▸ horder
  | insert _ _ h | refuse _ _ _ h =>
      rw [h]
      exact List.mem_append_left _ horder
  | write hid _ _ _ h =>
      rw [h]
      exact Table.mem_update_of_ne horder fun hkey => hother _ rfl (hid.trans hkey.symm)

/-- A row that a call leaves is one that waits, or was there before, or the call broadcasts about it. -/
theorem World.Told.covers {told : Option CopyOrderBroadcast} (h : World.Told platformOf w w' told)
    {order : CopyOrder} (horder : order ∈ w'.copyOrders) :
    order.status = .pending ∨ order ∈ w.copyOrders ∨
      ∃ broadcast ∈ told, broadcast.copyId = order.id := by
  cases h with
  | quiet h | waiting _ _ _ h => exact .inr (.inl (h ▸ horder))
  | insert _ hpending h =>
      rw [h, List.mem_append, List.mem_singleton] at horder
      rcases horder with hold | rfl
      · exact .inr (.inl hold)
      · exact .inl hpending
  | refuse _ hnames _ h =>
      rw [h, List.mem_append, List.mem_singleton] at horder
      rcases horder with hold | rfl
      · exact .inr (.inl hold)
      · exact .inr (.inr ⟨_, rfl, hnames.copyId.symm⟩)
  | write hid _ hcore _ h =>
      rw [h, Table.mem_update] at horder
      obtain ⟨old, hold, ⟨hkey, rfl⟩ | ⟨-, rfl⟩⟩ := horder
      · exact .inr (.inr ⟨_, rfl, hid.trans (hkey.symm.trans (hcore.id old).symm)⟩)
      · exact .inr (.inl hold)

theorem World.Shows.extend {told : Option CopyOrderBroadcast} (h : w.Shows platformOf ahead row)
    (hbefore : w.Before w') (htold : World.Told platformOf w w' told) :
    w'.Shows platformOf (ahead ++ told.toList) row := by
  obtain ⟨order, horder, hof, htells⟩ := h
  by_cases hother : ∀ broadcast ∈ told, broadcast.copyId ≠ order.id
  · refine ⟨order, htold.unchanged horder hother, hof, fun hnone => htells ?_⟩
    rw [ChangeFeed.latest_append, Option.or_eq_none_iff] at hnone
    exact hnone.2
  · simp only [not_forall, not_not] at hother
    obtain ⟨broadcast, rfl, hid⟩ := hother
    obtain ⟨order', horder', hcore⟩ :=
      World.exists_of_mem_cores (hbefore.mem_cores (World.core_mem_cores horder))
    refine ⟨order', horder', hof.of_core hcore, fun hnone => ?_⟩
    rw [Option.toList_some, ChangeFeed.latest_concat, if_pos (hid.trans hof.id.symm)] at hnone
    cases hnone

end

namespace LiveTrades

/-! ### The invariant -/

/-- What is still to reach the page, in the order in which it will. -/
def ahead (s : LiveTrades) : List CopyOrderBroadcast := s.incoming ++ s.due

/-- The conditions under which the page follows the database: besides the order of the broadcasts, the
page is connected when its request is served and stays so, and no message is handled before the response
has come. -/
def Undisturbed (s : LiveTrades) (a : LiveAction) : Prop :=
  s.InOrder a ∧
    match a with
    | .serve => s.page.socket.isSome
    | .onmessage => s.page.load = .settled
    | .advance i _ => s.page.socket ≠ some i
    | _ => True

instance (s : LiveTrades) (a : LiveAction) : Decidable (s.Undisturbed a) :=
  match a with
  | .serve => inferInstanceAs (Decidable (_ ∧ s.page.socket.isSome))
  | .onmessage => inferInstanceAs (Decidable (_ ∧ s.page.load = .settled))
  | .advance i _ => inferInstanceAs (Decidable (_ ∧ s.page.socket ≠ some i))
  | .backend _ | .announce _ | .connect | .closed _ | .open | .onclose | .loadInitial | .loadFails =>
    inferInstanceAs (Decidable (_ ∧ True))

structure Current (platformOf : Uuid → String) (before : List CopyOrder) (s : LiveTrades) : Prop where
  telling : s.Telling platformOf before
  tidy : s.page.Tidy
  connected : ∀ i ∈ s.page.socket, ∃ socket, s.Connected i socket
  unconnected : s.page.socket = none → s.page.coming = []
  waiting : s.page.load ≠ .settled → s.page.rows = []
  shows : ∀ row ∈ s.page.coming, s.backend.shared.Shows platformOf s.ahead row

variable {platformOf : Uuid → String} {before : List CopyOrder} {s s' : LiveTrades}

/-- What is ahead are the last of the broadcasts, made or due. -/
theorem Current.ahead_suffix (h : s.Current platformOf before) :
    s.ahead <:+ s.broadcasts ++ s.due := by
  cases hsocket : s.page.socket with
  | none =>
      unfold ahead incoming
      rw [hsocket]
      exact List.suffix_append _ _
  | some i =>
      obtain ⟨socket, hconnected⟩ := h.connected i hsocket
      unfold ahead
      rw [hconnected.incoming hsocket]
      obtain ⟨front, hfront⟩ := (List.drop_suffix _ _).trans hconnected.feed
      exact ⟨front, by rw [← hfront, List.append_assoc]⟩

theorem Connected.ahead {i : ℕ} {socket : AdminSocket} (h : s.Connected i socket)
    (hsocket : s.page.socket = some i) :
    s.ahead = socket.written.drop s.page.received ++ s.due := by
  unfold LiveTrades.ahead
  rw [h.incoming hsocket]

theorem ahead_unconnected (h : s.page.socket = none) : s.ahead = s.due := by
  unfold ahead incoming
  rw [h]
  rfl

theorem Current.ahead_gateway {gateway : AdminGateway} (h : s.Current platformOf before)
    (hkept : ∀ i socket, s.page.socket = some i → s.Connected i socket →
      Connected { s with gateway := gateway } i socket) :
    ahead { s with gateway := gateway } = s.ahead := by
  cases hsocket : s.page.socket with
  | none =>
      have hdue : ahead { s with gateway := gateway } = s.due := ahead_unconnected hsocket
      exact hdue.trans (ahead_unconnected hsocket).symm
  | some i =>
      obtain ⟨socket, hconnected⟩ := h.connected i hsocket
      exact ((hkept i socket hsocket hconnected).ahead hsocket).trans (hconnected.ahead hsocket).symm

/-- A change of the gateway that keeps the page's socket changes nothing for the page. -/
theorem Current.of_gateway {gateway : AdminGateway} (h : s.Current platformOf before)
    (hkept : ∀ i socket, s.page.socket = some i → s.Connected i socket →
      Connected { s with gateway := gateway } i socket) :
    Current platformOf before { s with gateway := gateway } := by
  refine ⟨⟨h.telling.grounded, h.telling.slaves, h.telling.told⟩, h.tidy, fun i hi => ?_,
    h.unconnected, h.waiting, fun row hrow => ?_⟩
  · obtain ⟨socket, hconnected⟩ := h.connected i hi
    exact ⟨socket, hkept i socket hi hconnected⟩
  · rw [h.ahead_gateway hkept]
    exact h.shows row hrow

theorem ahead_act {told : Option CopyOrderBroadcast} (hdue : s'.due = s.due ++ told.toList)
    (hgateway : s'.gateway = s.gateway) (hpage : s'.page = s.page) :
    s'.ahead = s.ahead ++ told.toList := by
  have hincoming : s'.incoming = s.incoming := by
    unfold incoming
    rw [hgateway, hpage]
  unfold ahead
  rw [hincoming, hdue, List.append_assoc]

theorem Current.act {action : Action} (h : s.Current platformOf before)
    (hlost : action.reply ≠ some .lost) (hstep : s.act action = some s') :
    s'.Current platformOf before := by
  obtain ⟨told, hdue, htold⟩ := act_told h.telling.grounded h.telling.slaves hlost hstep
  obtain ⟨hbroadcasts, hgateway, hpage⟩ := act_frame hstep
  refine ⟨h.telling.act hlost hstep, hpage ▸ h.tidy, fun i hi => ?_, hpage ▸ h.unconnected,
    hpage ▸ h.waiting, fun row hrow => ?_⟩
  · obtain ⟨socket, hconnected⟩ := h.connected i (hpage ▸ hi)
    exact ⟨socket, hgateway ▸ hconnected.get, hconnected.isOpen, hgateway ▸ hconnected.member,
      hbroadcasts ▸ hconnected.feed, hpage ▸ hconnected.received⟩
  · rw [ahead_act hdue hgateway hpage]
    exact (h.shows row (hpage ▸ hrow)).extend (Backend.step_before (act_backend hstep)) htold

theorem Current.announce {i : ℕ} (h : s.Current platformOf before) (hok : s.InOrder (.announce i))
    (hstep : s.announce i = some s') : s'.Current platformOf before := by
  have htelling : s'.Telling platformOf before := h.telling.step (a := .announce i) hok hstep
  obtain ⟨broadcast, hget, hdue, rfl⟩ := announce_eq_some hstep
  have hother : ∀ earlier ∈ s.due.take i, earlier.copyId ≠ broadcast.copyId := hok broadcast hget
  cases hsocket : s.page.socket with
  | none =>
      have hcoming := h.unconnected hsocket
      refine ⟨htelling, h.tidy, ?_, h.unconnected, h.waiting, ?_⟩
      · simp [hsocket]
      · simp [hcoming]
  | some j =>
      obtain ⟨socket, hconnected⟩ := h.connected j hsocket
      have hnew : Connected
          { s with
            due := s.due.take i ++ s.due.drop (i + 1)
            broadcasts := s.broadcasts ++ [broadcast]
            gateway := s.gateway.broadcastToAdmins broadcast }
          j { socket with written := socket.written ++ [broadcast] } :=
        hconnected.announce rfl rfl rfl
      refine ⟨htelling, h.tidy, ?_, h.unconnected, h.waiting, fun row hrow => ?_⟩
      · intro k hk
        obtain rfl : j = k := Option.some.inj (hsocket.symm.trans hk)
        exact ⟨_, hnew⟩
      · refine (h.shows row hrow).of_latest ?_
        rw [hnew.ahead hsocket, hconnected.ahead hsocket, List.drop_append_of_le_length hconnected.received,
          ChangeFeed.latest_advance _ _ hother, ← hdue]

/-- The row of a message is right unless more about its order is ahead: then the message was the latest
of all. -/
theorem Current.merged {event : CopyOrderBroadcast} {rest : List CopyOrderBroadcast}
    (h : s.Current platformOf before) (hahead : s.ahead = event :: rest) (old : Option TradeRow) :
    s.backend.shared.Shows platformOf rest (TradeRow.merged event old) := by
  obtain ⟨front, hfront⟩ := h.ahead_suffix
  have hmem : event ∈ s.broadcasts ++ s.due := by
    rw [← hfront, hahead]
    simp
  obtain ⟨core, hcore, hnames⟩ := h.telling.told.names event hmem
  obtain ⟨order, horder, rfl⟩ := World.exists_of_mem_cores hcore
  have hof := hnames.of_core
  refine ⟨order, horder, ⟨hof.copyId.symm, hof.masterId.symm, hof.slaveId.symm, hof.masterTicket.symm,
    hof.type.symm⟩, fun hnone => ?_⟩
  refine h.telling.told.latest order horder event ?_
  have hid : (TradeRow.merged event old).id = order.id := hof.copyId.symm
  rw [hid] at hnone
  rw [← hfront, hahead, ChangeFeed.latest_append, ChangeFeed.latest_cons, hnone, if_pos hof.copyId.symm]
  rfl

/-- A message that is there was written to the page's socket, and so was the rest. -/
theorem Current.message {event : CopyOrderBroadcast} {rest : List CopyOrderBroadcast}
    (h : s.Current platformOf before) (hincoming : s.incoming = event :: rest) :
    ∃ i socket, s.page.socket = some i ∧ s.Connected i socket ∧
      s.page.received < socket.written.length ∧ socket.written.drop (s.page.received + 1) = rest := by
  cases hsocket : s.page.socket with
  | none =>
      unfold LiveTrades.incoming at hincoming
      rw [hsocket] at hincoming
      cases hincoming
  | some i =>
      obtain ⟨socket, hconnected⟩ := h.connected i hsocket
      rw [hconnected.incoming hsocket] at hincoming
      refine ⟨i, socket, rfl, hconnected, ?_, ?_⟩
      · by_contra hge
        rw [List.drop_of_length_le (by omega)] at hincoming
        cases hincoming
      · rw [← List.drop_drop, hincoming]
        rfl

theorem Current.onmessage {event : CopyOrderBroadcast} {rest : List CopyOrderBroadcast}
    (h : s.Current platformOf before) (hload : s.page.load = .settled)
    (hincoming : s.incoming = event :: rest) :
    Current platformOf before
      { s with page := { s.page.onEvent event with received := s.page.received + 1 } } := by
  set s' : LiveTrades :=
    { s with page := { s.page.onEvent event with received := s.page.received + 1 } } with hs'
  obtain ⟨i, socket, hsocket, hconnected, hlt, hrest⟩ := h.message hincoming
  have hahead : s.ahead = event :: (rest ++ s.due) := by
    unfold ahead
    rw [hincoming, List.cons_append]
  have hnow : s'.Connected i socket :=
    ⟨hconnected.get, hconnected.isOpen, hconnected.member, hconnected.feed, hlt⟩
  have hahead' : s'.ahead = rest ++ s.due := by
    rw [hnow.ahead hsocket]
    exact congrArg (· ++ s.due) hrest
  refine ⟨⟨h.telling.grounded, h.telling.slaves, h.telling.told⟩,
    ⟨(h.tidy.onEvent event).ids, (h.tidy.onEvent event).length, (h.tidy.onEvent event).answer⟩,
    fun j hj => ?_, fun hnone => ?_, fun hwaiting => absurd hload hwaiting, fun row hrow => ?_⟩
  · obtain rfl : i = j := Option.some.inj (hsocket.symm.trans hj)
    exact ⟨socket, hnow⟩
  · cases hsocket.symm.trans hnone
  · have hrows : s'.page.coming = (s.page.onEvent event).rows := by
      simp [hs', TradesPage.coming, TradesPage.onEvent, hload]
    have hold : s.page.coming = s.page.rows := by simp [TradesPage.coming, hload]
    rw [hrows] at hrow
    rw [hahead']
    obtain ⟨old, rfl⟩ | ⟨hmem, hne⟩ := ChangeFeed.mem_upsert h.tidy.ids hrow
    · exact h.merged hahead old
    · refine (h.shows row (hold ▸ hmem)).of_latest ?_
      rw [hahead, ChangeFeed.latest_cons, if_neg (Ne.symm hne), Option.or_none]

/-- The response is a snapshot: what it says of an order holds of the order as it is now. -/
theorem Current.serve (h : s.Current platformOf before) (hload : s.page.load = .requested)
    (hsocket : s.page.socket.isSome) :
    Current platformOf before
      { s with page := { s.page with
          load := .answered (s.backend.shared.listCopyOrders none none (some 100)) } } := by
  refine ⟨⟨h.telling.grounded, h.telling.slaves, h.telling.told⟩, ⟨h.tidy.ids, h.tidy.length, ?_⟩,
    fun i hi => ?_, fun hnone => ?_, fun _ => h.waiting (by simp [hload]), fun row hrow => ?_⟩
  · rintro rows hrows
    obtain rfl := PageLoad.answered.inj hrows
    refine ⟨nodup_listCopyOrders h.telling.grounded.1.ids _ _ _, ?_⟩
    exact (length_listCopyOrders_le _ _ _ _).trans (by decide)
  · obtain ⟨socket, hconnected⟩ := h.connected i hi
    exact ⟨socket, hconnected.get, hconnected.isOpen, hconnected.member, hconnected.feed,
      hconnected.received⟩
  · rw [show s.page.socket = none from hnone] at hsocket
    cases hsocket
  · obtain ⟨order, horder, rfl⟩ := mem_listCopyOrders hrow
    exact ⟨order, horder, ⟨rfl, rfl, rfl, rfl, rfl⟩, fun _ => .inl rfl⟩

/-- When the request is settled the page shows no row that it was not going to show. -/
theorem Current.of_coming {page : TradesPage} (h : s.Current platformOf before) (htidy : page.Tidy)
    (hload : page.load = .settled) (hsocket : page.socket = s.page.socket)
    (hreceived : page.received = s.page.received) (hrows : page.rows ⊆ s.page.coming) :
    Current platformOf before { s with page := page } := by
  have hcoming : page.coming = page.rows := by simp [TradesPage.coming, hload]
  refine ⟨⟨h.telling.grounded, h.telling.slaves, h.telling.told⟩, htidy, fun i hi => ?_, fun hnone => ?_,
    fun hwaiting => absurd hload hwaiting, fun row hrow => ?_⟩
  · obtain ⟨socket, hconnected⟩ := h.connected i (hsocket ▸ hi)
    exact ⟨socket, hconnected.get, hconnected.isOpen, hconnected.member, hconnected.feed,
      hreceived ▸ hconnected.received⟩
  · rw [h.unconnected (hsocket ▸ hnone)] at hrows
    exact hcoming.trans (List.subset_nil.mp hrows)
  · have hahead : ahead { s with page := page } = s.ahead := by
      simp [ahead, incoming, hsocket, hreceived]
    rw [hahead]
    exact h.shows row (hrows (hcoming ▸ hrow))

theorem Current.loadInitial {page : TradesPage} (h : s.Current platformOf before)
    (hpage : s.page.loadInitial = some page) : Current platformOf before { s with page := page } := by
  unfold TradesPage.loadInitial at hpage
  split at hpage
  · rename_i rows hload
    obtain rfl := Option.some.inj hpage
    obtain ⟨hids, hlength⟩ := h.tidy.answer rows hload
    refine h.of_coming ⟨hids, hlength, fun _ hrows => by cases hrows⟩ rfl rfl rfl ?_
    simp [TradesPage.coming, hload]
  · cases hpage
  · cases hpage

theorem Current.loadFails (h : s.Current platformOf before) (hload : s.page.load ≠ .settled) :
    Current platformOf before { s with page := { s.page with load := .settled } } := by
  refine h.of_coming ⟨h.tidy.ids, h.tidy.length, fun _ hrows => by cases hrows⟩ rfl rfl rfl ?_
  rw [h.waiting hload]
  exact List.nil_subset _

theorem Current.open (h : s.Current platformOf before) (hsocket : s.page.socket = none) :
    Current platformOf before
      { s with
        gateway := s.gateway.register
        page := { s.page with socket := some s.gateway.sockets.length, received := 0 } } := by
  set page : TradesPage :=
    { s.page with socket := some s.gateway.sockets.length, received := 0 } with hpage
  have hcoming : page.coming = [] := h.unconnected hsocket
  refine ⟨⟨h.telling.grounded, h.telling.slaves, h.telling.told⟩,
    ⟨h.tidy.ids, h.tidy.length, h.tidy.answer⟩, fun i hi => ?_, fun _ => hcoming, h.waiting,
    fun row hrow => ?_⟩
  · obtain rfl := Option.some.inj hi
    exact ⟨{}, connected_new s page rfl⟩
  · cases (hcoming ▸ hrow : row ∈ [])

theorem Current.step {a : LiveAction} (h : s.Current platformOf before) (hok : s.Undisturbed a)
    (hstep : s.step a = some s') : s'.Current platformOf before := by
  cases a with
  | backend action => exact h.act hok.1 hstep
  | announce i => exact h.announce hok.1 hstep
  | connect =>
      obtain rfl := Option.some.inj hstep
      exact h.of_gateway fun _ _ _ hconnected => hconnected.register
  | advance j state =>
      obtain ⟨gateway, hadvance, rfl⟩ := Option.map_eq_some_iff.mp hstep
      refine h.of_gateway fun i socket hi hconnected => hconnected.advance ?_ hadvance
      rintro rfl
      exact hok.2 hi
  | closed j =>
      obtain ⟨gateway, hclosed, rfl⟩ := Option.map_eq_some_iff.mp hstep
      exact h.of_gateway fun _ _ _ hconnected => hconnected.closed hclosed
  | «open» =>
      simp only [LiveTrades.step] at hstep
      split at hstep
      · rename_i hsocket
        obtain rfl := Option.some.inj hstep
        exact h.open hsocket
      · cases hstep
  | onclose =>
      simp only [LiveTrades.step] at hstep
      split at hstep
      · cases hstep
      · rename_i i hsocket
        -- The page's socket is open, so its close event does not come.
        obtain ⟨socket, hconnected⟩ := h.connected i hsocket
        rw [hconnected.get, Option.map_some, hconnected.isOpen] at hstep
        simp at hstep
  | onmessage =>
      simp only [LiveTrades.step] at hstep
      split at hstep
      · cases hstep
      · rename_i event rest hincoming
        obtain rfl := Option.some.inj hstep
        exact h.onmessage hok.2 hincoming
  | serve =>
      simp only [LiveTrades.step] at hstep
      split at hstep
      · rename_i hload
        obtain rfl := Option.some.inj hstep
        exact h.serve hload hok.2
      all_goals cases hstep
  | loadInitial =>
      obtain ⟨page, hpage, rfl⟩ := Option.map_eq_some_iff.mp hstep
      exact h.loadInitial hpage
  | loadFails =>
      simp only [LiveTrades.step] at hstep
      split at hstep
      · rename_i hload
        obtain rfl := Option.some.inj hstep
        exact h.loadFails (by simp [hload])
      · rename_i hload
        obtain rfl := Option.some.inj hstep
        exact h.loadFails (by simp [hload])
      · cases hstep

theorem current_preserved :
    Preserved (restrict LiveTrades.step Undisturbed) (Current platformOf before) :=
  fun _ _ _ h hstep => h.step (restrict_eq_some.mp hstep).1 (restrict_eq_some.mp hstep).2

theorem current_start {w : World} (hidle : Config.Idle ⟨w, []⟩)
    (hunique : (w.slaves.map Slave.id).Nodup) :
    (start w).Current w.platformOf w.copyOrders where
  telling := telling_start hidle hunique
  tidy := ⟨List.nodup_nil, Nat.zero_le _, fun _ hrows => by cases hrows⟩
  connected := by simp [start]
  unconnected := fun _ => rfl
  waiting := fun _ => rfl
  shows := by simp [start, TradesPage.coming]

theorem Current.row {w : World} (h : s.Current w.platformOf before) {row : TradeRow}
    (hrow : row ∈ s.page.rows) (hahead : ∀ broadcast ∈ s.ahead, broadcast.copyId ≠ row.id) :
    ∃ order ∈ s.backend.shared.copyOrders, row.Of order ∧
      (row.status = order.status ∨ row.status = .pending ∧
        ∀ slave ∈ s.backend.shared.slaves, slave.id = row.slaveId → slave.platform = "MT4") := by
  have hcoming : row ∈ s.page.coming := by
    by_cases hload : s.page.load = .settled
    · simpa [TradesPage.coming, hload] using hrow
    · rw [h.waiting hload] at hrow
      cases hrow
  obtain ⟨order, horder, hof, htells⟩ := h.shows row hcoming
  refine ⟨order, horder, hof, (htells (ChangeFeed.latest_eq_none.mpr hahead)).imp_right ?_⟩
  rintro ⟨hpending, hplatform⟩
  refine ⟨hpending, fun slave hslave hid => ?_⟩
  have hplatformOf : slave.platform = w.platformOf slave.id := h.telling.slaves.1 slave hslave
  rw [hplatformOf, hid, hof.slaveId, hplatform]

/-- A row of the page for which nothing is ahead shows its order as the database has it, but for the order
of an MT4 slave, which it may show as waiting. -/
theorem page_current {w : World} {actions : List LiveAction} (hidle : Config.Idle ⟨w, []⟩)
    (hunique : (w.slaves.map Slave.id).Nodup)
    (hrun : follow (restrict LiveTrades.step Undisturbed) (start w) actions = some s) {row : TradeRow}
    (hrow : row ∈ s.page.rows) (hahead : ∀ broadcast ∈ s.ahead, broadcast.copyId ≠ row.id) :
    ∃ order ∈ s.backend.shared.copyOrders, row.Of order ∧
      (row.status = order.status ∨ row.status = .pending ∧
        ∀ slave ∈ s.backend.shared.slaves, slave.id = row.slaveId → slave.platform = "MT4") :=
  (current_preserved.follow (current_start hidle hunique) hrun).row hrow hahead

theorem watched_page_current :
    ∃ s, follow (restrict LiveTrades.step Undisturbed) (start Sample.trading) Sample.watched = some s ∧
      ∃ row ∈ s.page.rows, row.status = .executed ∧
        ∃ order ∈ s.backend.shared.copyOrders, row.Of order ∧ order.status = .executed := by
  have hruns : ∃ s, follow (restrict LiveTrades.step Undisturbed) (start Sample.trading)
      Sample.watched = some s ∧ ∃ row ∈ s.page.rows, row.status = .executed ∧
        ∀ broadcast ∈ s.ahead, broadcast.copyId ≠ row.id := by
    decide +kernel
  obtain ⟨s, hrun, row, hrow, hexecuted, hahead⟩ := hruns
  obtain ⟨order, horder, hof, hsame | ⟨hpending, -⟩⟩ :=
    page_current Sample.trading_idle (by decide) hrun hrow hahead
  · exact ⟨s, hrun, row, hrow, hexecuted, order, horder, hof, hsame.symm.trans hexecuted⟩
  · cases hexecuted.symm.trans hpending

/-! ### No order is missing -/

/-- The page follows the database from a response that had every order. -/
def FullyLoaded (s : LiveTrades) (a : LiveAction) : Prop :=
  s.Undisturbed a ∧
    match a with
    | .serve => s.backend.shared.copyOrders.length ≤ DEFAULT_LIMIT
    | .loadFails => False
    | _ => True

instance (s : LiveTrades) (a : LiveAction) : Decidable (s.FullyLoaded a) :=
  match a with
  | .serve =>
    inferInstanceAs (Decidable (_ ∧ s.backend.shared.copyOrders.length ≤ DEFAULT_LIMIT))
  | .loadFails => inferInstanceAs (Decidable (_ ∧ False))
  | .backend _ | .announce _ | .connect | .advance _ _ | .closed _ | .open | .onclose | .onmessage
  | .loadInitial => inferInstanceAs (Decidable (_ ∧ True))

theorem current_fullyLoaded :
    Preserved (restrict LiveTrades.step FullyLoaded) (Current platformOf before) :=
  fun _ _ _ h hstep => h.step (restrict_eq_some.mp hstep).1.1 (restrict_eq_some.mp hstep).2

/-- An order that has got somewhere is on the page, or a broadcast about it is ahead. -/
structure Complete (s : LiveTrades) : Prop where
  socket : s.page.load ≠ .requested → s.page.socket.isSome
  covers : s.page.load ≠ .requested → s.page.coming.length < MAX_ROWS →
    ∀ order ∈ s.backend.shared.copyOrders, order.status = .pending ∨
      order.id ∈ s.page.coming.map TradeRow.id ∨
      ∃ broadcast ∈ s.ahead, broadcast.copyId = order.id

theorem Complete.act {action : Action} (h : s.Complete) (hcurrent : s.Current platformOf before)
    (hlost : action.reply ≠ some .lost) (hstep : s.act action = some s') : s'.Complete := by
  obtain ⟨told, hdue, htold⟩ :=
    act_told hcurrent.telling.grounded hcurrent.telling.slaves hlost hstep
  obtain ⟨-, hgateway, hpage⟩ := act_frame hstep
  refine ⟨hpage ▸ h.socket, fun hload hroom order horder => ?_⟩
  rw [hpage] at hload hroom ⊢
  rw [ahead_act hdue hgateway hpage]
  rcases htold.covers horder with hpending | hold | ⟨broadcast, hbroadcast, hid⟩
  · exact .inl hpending
  · refine (h.covers hload hroom order hold).imp_right (Or.imp_right ?_)
    rintro ⟨broadcast, hmem, hid⟩
    exact ⟨broadcast, List.mem_append_left _ hmem, hid⟩
  · exact .inr (.inr ⟨broadcast, List.mem_append_right _ (Option.mem_toList.mpr hbroadcast), hid⟩)

theorem Complete.announce {i : ℕ} (h : s.Complete) (hcurrent : s.Current platformOf before)
    (hstep : s.announce i = some s') : s'.Complete := by
  obtain ⟨broadcast, -, hdue, rfl⟩ := announce_eq_some hstep
  refine ⟨h.socket, fun hload hroom order horder => ?_⟩
  obtain ⟨j, hsocket⟩ := Option.isSome_iff_exists.mp (h.socket hload)
  obtain ⟨socket, hconnected⟩ := hcurrent.connected j hsocket
  have hnew : Connected
      { s with
        due := s.due.take i ++ s.due.drop (i + 1)
        broadcasts := s.broadcasts ++ [broadcast]
        gateway := s.gateway.broadcastToAdmins broadcast }
      j { socket with written := socket.written ++ [broadcast] } :=
    hconnected.announce rfl rfl rfl
  refine (h.covers hload hroom order horder).imp_right (Or.imp_right ?_)
  rintro ⟨other, hmem, hid⟩
  refine ⟨other, ?_, hid⟩
  rw [hnew.ahead hsocket, List.drop_append_of_le_length hconnected.received]
  rw [hconnected.ahead hsocket, hdue] at hmem
  simp only [List.mem_append, List.mem_cons, List.not_mem_nil, or_false] at hmem ⊢
  tauto

theorem Complete.of_gateway {gateway : AdminGateway} (h : s.Complete)
    (hahead : ahead { s with gateway := gateway } = s.ahead) :
    Complete { s with gateway := gateway } := by
  refine ⟨h.socket, fun hload hroom => ?_⟩
  rw [hahead]
  exact h.covers hload hroom

theorem Complete.onmessage {event : CopyOrderBroadcast} {rest : List CopyOrderBroadcast}
    (h : s.Complete) (hcurrent : s.Current platformOf before) (hload : s.page.load = .settled)
    (hincoming : s.incoming = event :: rest) :
    Complete { s with page := { s.page.onEvent event with received := s.page.received + 1 } } := by
  set s' : LiveTrades :=
    { s with page := { s.page.onEvent event with received := s.page.received + 1 } } with hs'
  have hrows : s'.page.coming = ChangeFeed.upsert TradeRow.id MAX_ROWS event.copyId
      (TradeRow.merged event) s.page.rows := by
    simp [hs', TradesPage.coming, TradesPage.onEvent, hload]
  have hold : s.page.coming = s.page.rows := by simp [TradesPage.coming, hload]
  have hrest : s'.incoming = rest := by
    obtain ⟨i, socket, hsocket, hconnected, hlt, hrest⟩ := hcurrent.message hincoming
    have hnow : s'.Connected i socket :=
      ⟨hconnected.get, hconnected.isOpen, hconnected.member, hconnected.feed, hlt⟩
    exact (hnow.incoming hsocket).trans hrest
  refine ⟨h.socket, fun _ hroom order horder => ?_⟩
  rw [hrows] at hroom ⊢
  have hmerged : ∀ old, (TradeRow.merged event old).id = event.copyId := fun _ => rfl
  have hbefore : s.page.coming.length < MAX_ROWS :=
    hold ▸ (ChangeFeed.length_le_upsert hcurrent.tidy.length).trans_lt hroom
  rcases h.covers (by simp [hload]) hbefore order horder with hpending | hshown | ⟨other, hmem, hid⟩
  · exact .inl hpending
  · exact .inr (.inl (ChangeFeed.keys_upsert hmerged hroom (.inr (hold ▸ hshown))))
  · unfold ahead at hmem ⊢
    rw [hincoming, List.cons_append, List.mem_cons] at hmem
    rcases hmem with rfl | hmem
    · exact .inr (.inl (ChangeFeed.keys_upsert hmerged hroom (.inl hid.symm)))
    · exact .inr (.inr ⟨other, by rw [hrest]; exact hmem, hid⟩)

/-- With no more orders than the page asks for, the response has them all. -/
theorem mem_listCopyOrders_all {w : World} (hlength : w.copyOrders.length ≤ DEFAULT_LIMIT)
    {order : CopyOrder} (horder : order ∈ w.copyOrders) :
    order.id ∈ (w.listCopyOrders none none (some 100)).map TradeRow.id := by
  have htake : w.copyOrders.reverse.length ≤ rowsToTake (some 100) := by
    rw [List.length_reverse]
    exact hlength.trans (by decide)
  have hlist : w.listCopyOrders none none (some 100) =
      w.copyOrders.reverse.map fun order => order.tradeRow w := by
    simp [World.listCopyOrders, List.take_of_length_le htake]
  rw [hlist]
  exact List.mem_map.mpr ⟨order.tradeRow w, List.mem_map_of_mem (List.mem_reverse.mpr horder), rfl⟩

theorem Complete.step {a : LiveAction} (h : s.Complete) (hcurrent : s.Current platformOf before)
    (hok : s.FullyLoaded a) (hstep : s.step a = some s') : s'.Complete := by
  cases a with
  | backend action => exact h.act hcurrent hok.1.1 hstep
  | announce i => exact h.announce hcurrent hstep
  | connect =>
      obtain rfl := Option.some.inj hstep
      exact h.of_gateway (hcurrent.ahead_gateway fun _ _ _ hconnected => hconnected.register)
  | advance j state =>
      obtain ⟨gateway, hadvance, rfl⟩ := Option.map_eq_some_iff.mp hstep
      refine h.of_gateway (hcurrent.ahead_gateway fun i socket hi hconnected =>
        hconnected.advance ?_ hadvance)
      rintro rfl
      exact hok.1.2 hi
  | closed j =>
      obtain ⟨gateway, hclosed, rfl⟩ := Option.map_eq_some_iff.mp hstep
      exact h.of_gateway (hcurrent.ahead_gateway fun _ _ _ hconnected => hconnected.closed hclosed)
  | «open» =>
      simp only [LiveTrades.step] at hstep
      split at hstep
      · rename_i hsocket
        obtain rfl := Option.some.inj hstep
        -- Without a socket the request has not been served yet.
        refine ⟨fun _ => rfl, fun hload => ?_⟩
        have hsome := h.socket hload
        rw [hsocket] at hsome
        cases hsome
      · cases hstep
  | onclose =>
      simp only [LiveTrades.step] at hstep
      split at hstep
      · cases hstep
      · rename_i i hsocket
        obtain ⟨socket, hconnected⟩ := hcurrent.connected i hsocket
        rw [hconnected.get, Option.map_some, hconnected.isOpen] at hstep
        simp at hstep
  | onmessage =>
      simp only [LiveTrades.step] at hstep
      split at hstep
      · cases hstep
      · rename_i event rest hincoming
        obtain rfl := Option.some.inj hstep
        exact h.onmessage hcurrent hok.1.2 hincoming
  | serve =>
      simp only [LiveTrades.step] at hstep
      split at hstep
      · obtain rfl := Option.some.inj hstep
        exact ⟨fun _ => hok.1.2, fun _ _ order horder =>
          .inr (.inl (mem_listCopyOrders_all hok.2 horder))⟩
      all_goals cases hstep
  | loadInitial =>
      obtain ⟨page, hpage, rfl⟩ := Option.map_eq_some_iff.mp hstep
      unfold TradesPage.loadInitial at hpage
      split at hpage
      · rename_i rows hload
        obtain rfl := Option.some.inj hpage
        have hwas : s.page.load ≠ .requested := by simp [hload]
        refine ⟨fun _ => h.socket hwas, fun _ hroom => ?_⟩
        have hcovers := h.covers hwas
        rw [show s.page.coming = rows by simp [TradesPage.coming, hload]] at hcovers
        exact hcovers hroom
      all_goals cases hpage
  | loadFails => exact absurd hok.2 id

theorem complete_preserved : Preserved (restrict LiveTrades.step FullyLoaded)
    fun s => s.Current platformOf before ∧ s.Complete :=
  current_fullyLoaded.and fun _ _ _ hcurrent h hstep =>
    h.step hcurrent (restrict_eq_some.mp hstep).1 (restrict_eq_some.mp hstep).2

/-- After a response with every order, and as long as the page has room, no order is missing that is
more than just created, once nothing about it is ahead. -/
theorem page_complete {w : World} {actions : List LiveAction} (hidle : Config.Idle ⟨w, []⟩)
    (hunique : (w.slaves.map Slave.id).Nodup)
    (hrun : follow (restrict LiveTrades.step FullyLoaded) (start w) actions = some s)
    (hload : s.page.load = .settled) (hroom : s.page.rows.length < MAX_ROWS) {order : CopyOrder}
    (horder : order ∈ s.backend.shared.copyOrders) (hstatus : order.status ≠ .pending)
    (hahead : ∀ broadcast ∈ s.ahead, broadcast.copyId ≠ order.id) :
    ∃ row ∈ s.page.rows, row.Of order ∧
      (row.status = order.status ∨ row.status = .pending ∧
        ∀ slave ∈ s.backend.shared.slaves, slave.id = row.slaveId → slave.platform = "MT4") := by
  have hstart : (start w).Complete :=
    ⟨fun hload => absurd rfl hload, fun hload => absurd rfl hload⟩
  obtain ⟨hcurrent, hcomplete⟩ := complete_preserved.follow ⟨current_start hidle hunique, hstart⟩ hrun
  have hcoming : s.page.coming = s.page.rows := by simp [TradesPage.coming, hload]
  rcases hcomplete.covers (by simp [hload]) (hcoming ▸ hroom) order horder with
    hpending | hshown | ⟨broadcast, hmem, hid⟩
  · exact absurd hpending hstatus
  · rw [hcoming, List.mem_map] at hshown
    obtain ⟨row, hrow, hid⟩ := hshown
    obtain ⟨other, hother, hof, hshows⟩ := hcurrent.row hrow fun broadcast hmem =>
      hid ▸ hahead broadcast hmem
    obtain rfl := Table.eq_of_key_eq hcurrent.telling.grounded.1.ids hother horder
      (hof.id.symm.trans hid)
    exact ⟨row, hrow, hof, hshows⟩
  · exact absurd hid (hahead broadcast hmem)

theorem watched_page_complete :
    ∃ s, follow (restrict LiveTrades.step FullyLoaded) (start Sample.trading) Sample.watched = some s ∧
      ∃ order ∈ s.backend.shared.copyOrders, order.status = .executed ∧
        ∃ row ∈ s.page.rows, row.Of order := by
  have hruns : ∃ s, follow (restrict LiveTrades.step FullyLoaded) (start Sample.trading)
      Sample.watched = some s ∧ s.page.load = .settled ∧ s.page.rows.length < MAX_ROWS ∧
        ∃ order ∈ s.backend.shared.copyOrders, order.status = .executed ∧
          ∀ broadcast ∈ s.ahead, broadcast.copyId ≠ order.id := by
    decide +kernel
  obtain ⟨s, hrun, hload, hroom, order, horder, hexecuted, hahead⟩ := hruns
  obtain ⟨row, hrow, hof, -⟩ := page_complete Sample.trading_idle (by decide) hrun hload hroom horder
    (by rw [hexecuted]; decide) hahead
  exact ⟨s, hrun, order, horder, hexecuted, row, hrow, hof⟩

end LiveTrades

end ForexCopy
