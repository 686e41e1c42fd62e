import ForexCopy.Library.Numerals
import ForexCopy.Master.Mt4Ea

/-!
# What a scan of the MT4 master finds

A scan finds a list of changes that depends only on the two pairs of snapshots, and it sends one event
for each. Of the events, all but the ids and the prices is the content of the changes; and in
snapshots without repeated tickets the changes of one order depend only on the entries of its ticket.
The proofs about the EA go through these three facts.
-/

namespace ForexCopy.Mt4

/-- One event for one order; the volume is that of a partial close. -/
structure Change where
  type : TradeEventType
  order : OrderSnapshot
  closedVolume : ℚ := 0
  deriving DecidableEq

def Change.ticket (change : Change) : ℕ := change.order.ticket

/-! ### The changes between two snapshots -/

/-- The change of an open order, from its entries in the two snapshots. -/
def openChange (previous current : Option OrderSnapshot) : List Change :=
  match previous, current with
  | none, none => []
  | none, some order => [⟨.open, order, 0⟩]
  | some prev, none => [⟨.close, prev, 0⟩]
  | some prev, some order =>
    if order.lots < prev.lots - tolerance then
      [⟨.partialClose, order, prev.lots - order.lots⟩]
    else if ¬DoubleEquals order.sl prev.sl ∨ ¬DoubleEquals order.tp prev.tp then
      [⟨.modify, order, 0⟩]
    else
      []

/-- The change of a pending order; `triggered` is its entry among the open ones. -/
def pendingChange (previous current triggered : Option OrderSnapshot) : List Change :=
  match previous, current with
  | none, none => []
  | none, some order => [⟨.pendingOpen, order, 0⟩]
  | some prev, none => if triggered = none then [⟨.pendingCancel, prev, 0⟩] else []
  | some prev, some order =>
    if ¬DoubleEquals order.openPrice prev.openPrice ∨ ¬DoubleEquals order.sl prev.sl ∨
        ¬DoubleEquals order.tp prev.tp then
      [⟨.pendingModify, order, 0⟩]
    else
      []

def openChanges (previous current : List OrderSnapshot) : List Change :=
  current.flatMap (fun order => openChange (findByTicket previous order.ticket) (some order)) ++
    previous.flatMap fun prev =>
      if findByTicket current prev.ticket = none then openChange (some prev) none else []

def pendingChanges (previous current currentOpen : List OrderSnapshot) : List Change :=
  current.flatMap (fun order =>
      pendingChange (findByTicket previous order.ticket) (some order) none) ++
    previous.flatMap fun prev =>
      if findByTicket current prev.ticket = none then
        pendingChange (some prev) none (findByTicket currentOpen prev.ticket)
      else
        []

/-- The changes a scan finds, in the order it sends them. -/
def MasterEa.changes (ea : MasterEa) (terminal : Terminal) : List Change :=
  openChanges ea.openSnapshot terminal.openOrders ++
    pendingChanges ea.pendingSnapshot terminal.pendingOrders terminal.openOrders

theorem ticket_of_mem_openChange {previous current : Option OrderSnapshot} {ticket : ℕ}
    (hprevious : ∀ order ∈ previous, order.ticket = ticket)
    (hcurrent : ∀ order ∈ current, order.ticket = ticket) {change : Change}
    (h : change ∈ openChange previous current) : change.ticket = ticket := by
  unfold openChange at h
  split at h
  · simp at h
  · rw [List.mem_singleton.mp h]
    exact hcurrent _ rfl
  · rw [List.mem_singleton.mp h]
    exact hprevious _ rfl
  · split_ifs at h
    · rw [List.mem_singleton.mp h]
      exact hcurrent _ rfl
    · rw [List.mem_singleton.mp h]
      exact hcurrent _ rfl
    · simp at h

theorem ticket_of_mem_pendingChange {previous current triggered : Option OrderSnapshot} {ticket : ℕ}
    (hprevious : ∀ order ∈ previous, order.ticket = ticket)
    (hcurrent : ∀ order ∈ current, order.ticket = ticket) {change : Change}
    (h : change ∈ pendingChange previous current triggered) : change.ticket = ticket := by
  unfold pendingChange at h
  split at h
  · simp at h
  · rw [List.mem_singleton.mp h]
    exact hcurrent _ rfl
  · split_ifs at h
    · rw [List.mem_singleton.mp h]
      exact hprevious _ rfl
    · simp at h
  · split_ifs at h
    · rw [List.mem_singleton.mp h]
      exact hcurrent _ rfl
    · simp at h

theorem ticket_of_findByTicket {snapshot : List OrderSnapshot} {ticket : ℕ} {order : OrderSnapshot}
    (h : order ∈ findByTicket snapshot ticket) : order.ticket = ticket :=
  Table.lookup_key h

section

variable {previous current : List OrderSnapshot}
  (hprevious : (previous.map OrderSnapshot.ticket).Nodup)
  (hcurrent : (current.map OrderSnapshot.ticket).Nodup)

include hprevious hcurrent

/-- A pass over each of two snapshots finds the changes of a ticket by its entries. -/
theorem passes_of_ticket {found gone : OrderSnapshot → List Change}
    (hfound : ∀ order, ∀ change ∈ found order, change.ticket = order.ticket)
    (hgone : ∀ prev, ∀ change ∈ gone prev, change.ticket = prev.ticket) (ticket : ℕ) :
    (current.flatMap found ++ previous.flatMap fun prev =>
        if findByTicket current prev.ticket = none then gone prev else []).filter
          (fun change => change.ticket = ticket) =
      match findByTicket previous ticket, findByTicket current ticket with
      | _, some order => found order
      | some prev, none => gone prev
      | none, none => [] := by
  have hvanished : ∀ prev, ∀ change ∈ (if findByTicket current prev.ticket = none then gone prev else []),
      change.ticket = prev.ticket := by
    intro prev change hchange
    split_ifs at hchange
    · exact hgone prev change hchange
    · cases hchange
  rw [List.filter_append, Table.filter_flatMap hcurrent hfound, Table.filter_flatMap hprevious hvanished]
  change ((findByTicket current ticket).map _).getD [] ++
    ((findByTicket previous ticket).map _).getD [] = _
  cases hcur : findByTicket current ticket with
  | none =>
      cases hprev : findByTicket previous ticket with
      | none => rfl
      | some prev => simp [ticket_of_findByTicket hprev, hcur]
  | some order =>
      cases hprev : findByTicket previous ticket with
      | none => simp
      | some prev => simp [ticket_of_findByTicket hprev, hcur]

theorem openChanges_of_ticket (ticket : ℕ) :
    (openChanges previous current).filter (fun change => change.ticket = ticket) =
      openChange (findByTicket previous ticket) (findByTicket current ticket) := by
  unfold openChanges
  rw [passes_of_ticket hprevious hcurrent
    (fun order change => ticket_of_mem_openChange (fun _ => ticket_of_findByTicket) (by simp))
    (fun prev change => ticket_of_mem_openChange (by simp) (by simp))]
  cases hcur : findByTicket current ticket with
  | none => cases findByTicket previous ticket <;> rfl
  | some order => simp only [ticket_of_findByTicket hcur]

theorem pendingChanges_of_ticket (currentOpen : List OrderSnapshot) (ticket : ℕ) :
    (pendingChanges previous current currentOpen).filter (fun change => change.ticket = ticket) =
      pendingChange (findByTicket previous ticket) (findByTicket current ticket)
        (findByTicket currentOpen ticket) := by
  unfold pendingChanges
  rw [passes_of_ticket hprevious hcurrent
    (fun order change => ticket_of_mem_pendingChange (fun _ => ticket_of_findByTicket) (by simp))
    (fun prev change => ticket_of_mem_pendingChange (by simp) (by simp))]
  cases hcur : findByTicket current ticket with
  | none =>
      cases hprev : findByTicket previous ticket with
      | none => rfl
      | some prev => simp only [ticket_of_findByTicket hprev]
  | some order =>
      simp only [ticket_of_findByTicket hcur]
      cases findByTicket previous ticket <;> rfl

end

/-! ### What the EA sends for them -/

namespace MasterEa

/-- Send the event of a change. -/
def report (terminal : Terminal) (ea : MasterEa) (change : Change) : MasterEa :=
  match change.type with
  | .open => ea.sendOpenEvent change.order
  | .close => ea.sendCloseEvent terminal change.order
  | .modify => ea.sendModifyEvent change.order
  | .partialClose => ea.sendPartialCloseEvent terminal change.order change.closedVolume
  | .pendingOpen => ea.sendPendingOpenEvent change.order
  | .pendingModify => ea.sendPendingModifyEvent change.order
  | .pendingCancel => ea.sendPendingCancelEvent change.order

theorem report_snapshots (terminal : Terminal) (ea : MasterEa) (change : Change) :
    (ea.report terminal change).openSnapshot = ea.openSnapshot ∧
      (ea.report terminal change).pendingSnapshot = ea.pendingSnapshot := by
  unfold report
  split <;> exact ⟨rfl, rfl⟩

theorem foldl_report_snapshots (terminal : Terminal) (ea : MasterEa) (changes : List Change) :
    (changes.foldl (report terminal) ea).openSnapshot = ea.openSnapshot ∧
      (changes.foldl (report terminal) ea).pendingSnapshot = ea.pendingSnapshot := by
  induction changes generalizing ea with
  | nil => exact ⟨rfl, rfl⟩
  | cons change rest ih =>
      rw [List.foldl_cons, (ih _).1, (ih _).2]
      exact report_snapshots terminal ea change

/-- A pass over an array reports what each element contributes, as long as that depends on nothing
but the snapshots. -/
theorem foldl_eq_report {terminal : Terminal} {f : MasterEa → OrderSnapshot → MasterEa}
    (contribution : List OrderSnapshot → List OrderSnapshot → OrderSnapshot → List Change)
    (hf : ∀ ea order, f ea order =
      (contribution ea.openSnapshot ea.pendingSnapshot order).foldl (report terminal) ea)
    (ea : MasterEa) (orders : List OrderSnapshot) :
    orders.foldl f ea =
      (orders.flatMap (contribution ea.openSnapshot ea.pendingSnapshot)).foldl (report terminal) ea := by
  induction orders generalizing ea with
  | nil => rfl
  | cons order rest ih =>
      obtain ⟨hopen, hpending⟩ := foldl_report_snapshots terminal ea
        (contribution ea.openSnapshot ea.pendingSnapshot order)
      rw [List.foldl_cons, hf, ih, hopen, hpending, List.flatMap_cons, List.foldl_append]

theorem detectOpen_eq (terminal : Terminal) (ea : MasterEa) (order : OrderSnapshot) :
    ea.detectOpen terminal order =
      (openChange (findByTicket ea.openSnapshot order.ticket) (some order)).foldl (report terminal) ea := by
  unfold detectOpen
  cases findByTicket ea.openSnapshot order.ticket with
  | none => rfl
  | some prev =>
      simp only [openChange]
      split_ifs <;> rfl

theorem detectClosed_eq (terminal : Terminal) (current : List OrderSnapshot) (ea : MasterEa)
    (prev : OrderSnapshot) :
    ea.detectClosed terminal current prev =
      (if findByTicket current prev.ticket = none then openChange (some prev) none else []).foldl
        (report terminal) ea := by
  unfold detectClosed
  split_ifs <;> rfl

theorem detectOpenChanges_eq (ea : MasterEa) (terminal : Terminal) (current : List OrderSnapshot) :
    ea.detectOpenChanges terminal current =
      (openChanges ea.openSnapshot current).foldl (report terminal) ea := by
  unfold detectOpenChanges openChanges
  rw [List.foldl_append,
    foldl_eq_report (fun snapshot _ order =>
      openChange (findByTicket snapshot order.ticket) (some order)) (detectOpen_eq terminal) ea current,
    foldl_eq_report (fun _ _ prev =>
      if findByTicket current prev.ticket = none then openChange (some prev) none else [])
      (detectClosed_eq terminal current) _ ea.openSnapshot]

theorem detectPending_eq (terminal : Terminal) (ea : MasterEa) (order : OrderSnapshot) :
    ea.detectPending order =
      (pendingChange (findByTicket ea.pendingSnapshot order.ticket) (some order) none).foldl
        (report terminal) ea := by
  unfold detectPending
  cases findByTicket ea.pendingSnapshot order.ticket with
  | none => rfl
  | some prev =>
      simp only [pendingChange]
      split_ifs <;> rfl

theorem detectCancelled_eq (terminal : Terminal) (current currentOpen : List OrderSnapshot)
    (ea : MasterEa) (prev : OrderSnapshot) :
    ea.detectCancelled current currentOpen prev =
      (if findByTicket current prev.ticket = none then
        pendingChange (some prev) none (findByTicket currentOpen prev.ticket)
      else
        []).foldl (report terminal) ea := by
  unfold detectCancelled
  simp only [pendingChange]
  split_ifs <;> first | rfl | contradiction

theorem detectPendingChanges_eq (ea : MasterEa) (terminal : Terminal)
    (current currentOpen : List OrderSnapshot) :
    ea.detectPendingChanges current currentOpen =
      (pendingChanges ea.pendingSnapshot current currentOpen).foldl (report terminal) ea := by
  unfold detectPendingChanges pendingChanges
  rw [List.foldl_append,
    foldl_eq_report (fun _ snapshot order =>
      pendingChange (findByTicket snapshot order.ticket) (some order) none)
      (detectPending_eq terminal) ea current,
    foldl_eq_report (fun _ _ prev =>
      if findByTicket current prev.ticket = none then
        pendingChange (some prev) none (findByTicket currentOpen prev.ticket)
      else
        []) (detectCancelled_eq terminal current currentOpen) _ ea.pendingSnapshot]

theorem scanAndDetect_eq (ea : MasterEa) (terminal : Terminal) :
    ea.scanAndDetect terminal =
      { (ea.changes terminal).foldl (report terminal) ea with
        openSnapshot := terminal.openOrders
        pendingSnapshot := terminal.pendingOrders } := by
  have hpending := (foldl_report_snapshots terminal ea
    (openChanges ea.openSnapshot terminal.openOrders)).2
  unfold scanAndDetect changes
  rw [List.foldl_append]
  dsimp only
  rw [detectOpenChanges_eq, detectPendingChanges_eq _ terminal, hpending]

end MasterEa

/-! ### The content of what is sent -/

end Mt4

/-- A call but for its id and its price. -/
def TradeEventCall.content (call : TradeEventCall) : TradeEventCall :=
  { call with eventId := "", price := 0 }

namespace Mt4

def Change.content (change : Change) : TradeEventCall where
  eventId := ""
  type := change.type
  symbol := change.order.symbol
  side := some (sideFromType change.order.type)
  volume :=
    match change.type with
    | .partialClose => change.closedVolume
    | .pendingCancel => 0
    | _ => change.order.lots
  price := 0
  sl := if change.type = .partialClose ∨ change.type = .close then 0 else change.order.sl
  tp := if change.type = .partialClose ∨ change.type = .close then 0 else change.order.tp
  masterTicket := toString change.ticket

/-- The contents for the text of a ticket are those of its changes. -/
theorem filter_content (changes : List Change) (ticket : ℕ) :
    (changes.map Change.content).filter (fun event => event.masterTicket = toString ticket) =
      (changes.filter fun change => change.ticket = ticket).map Change.content := by
  rw [List.filter_map]
  congr 2
  funext change
  exact decide_eq_decide.mpr ⟨Numeral.toString_nat_injective, congrArg toString⟩

namespace MasterEa

theorem report_sent (terminal : Terminal) (ea : MasterEa) (change : Change) :
    ∃ call, (ea.report terminal change).sent = ea.sent ++ [call] ∧ call.content = change.content := by
  obtain ⟨type, order, closedVolume⟩ := change
  cases type <;> exact ⟨_, rfl, rfl⟩

/-- What a later state of the EA has sent beyond an earlier one. -/
def sentSince (ea earlier : MasterEa) : List TradeEventCall := ea.sent.drop earlier.sent.length

theorem foldl_report_sent (terminal : Terminal) (ea : MasterEa) (changes : List Change) :
    (changes.foldl (report terminal) ea).sent =
        ea.sent ++ (changes.foldl (report terminal) ea).sentSince ea ∧
      ((changes.foldl (report terminal) ea).sentSince ea).map TradeEventCall.content =
        changes.map Change.content := by
  suffices h : ∃ calls, (changes.foldl (report terminal) ea).sent = ea.sent ++ calls ∧
      calls.map TradeEventCall.content = changes.map Change.content by
    obtain ⟨calls, hsent, hcontents⟩ := h
    have hsince : (changes.foldl (report terminal) ea).sentSince ea = calls := by
      unfold sentSince
      rw [hsent, List.drop_left]
    rw [hsince]
    exact ⟨hsent, hcontents⟩
  induction changes generalizing ea with
  | nil => exact ⟨[], by simp⟩
  | cons change rest ih =>
      obtain ⟨call, hsent, hcontent⟩ := report_sent terminal ea change
      obtain ⟨calls, hcalls, hcontents⟩ := ih (ea.report terminal change)
      refine ⟨call :: calls, ?_, by simp [hcontent, hcontents]⟩
      rw [List.foldl_cons, hcalls, hsent, List.append_assoc]
      rfl

theorem scanAndDetect_sent (ea : MasterEa) (terminal : Terminal) :
    (ea.scanAndDetect terminal).sent = ea.sent ++ (ea.scanAndDetect terminal).sentSince ea ∧
      ((ea.scanAndDetect terminal).sentSince ea).map TradeEventCall.content =
        (ea.changes terminal).map Change.content := by
  rw [scanAndDetect_eq]
  exact foldl_report_sent terminal ea (ea.changes terminal)

end MasterEa

end ForexCopy.Mt4
