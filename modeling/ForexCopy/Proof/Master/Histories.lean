import ForexCopy.Proof.Master.Changes

/-!
# Life histories of orders

The events of the MT4 master for one ticket, over a baseline and any number of scans. Both detectors
of a scan compare with the snapshots of the scan before, and in a pool without repeated tickets an
order is either open or pending: so an order that has left the pending ones was not open before, and
either it is now, which is an OPEN, or it is gone, which is a cancellation.
-/

namespace ForexCopy.Mt4

/-- No two orders of the pool have one ticket. -/
def Terminal.Distinct (terminal : Terminal) : Prop :=
  (terminal.orders.map OrderSnapshot.ticket).Nodup

instance (terminal : Terminal) : Decidable terminal.Distinct :=
  inferInstanceAs (Decidable (List.Nodup _))

def MasterEa.openTickets (ea : MasterEa) : List ℕ := ea.openSnapshot.map OrderSnapshot.ticket

def MasterEa.pendingTickets (ea : MasterEa) : List ℕ := ea.pendingSnapshot.map OrderSnapshot.ticket

/-- The types of the events for a ticket, in the order they were sent. -/
def typesFor (ticket : ℕ) (sent : List TradeEventCall) : List TradeEventType :=
  (sent.filter fun call => call.masterTicket = toString ticket).map TradeEventCall.type

/-- The OPEN and CLOSE events among them. -/
def lifeHistory (ticket : ℕ) (sent : List TradeEventCall) : List TradeEventType :=
  (typesFor ticket sent).filter fun type => type = .open ∨ type = .close

/-- OPEN and CLOSE in turn, beginning with CLOSE exactly if the order is open. -/
def Alternates : Bool → List TradeEventType → Prop
  | _, [] => True
  | isOpen, type :: rest => type = (if isOpen then .close else .open) ∧ Alternates (!isOpen) rest

/-- What one scan may send for a ticket, from what the EA held before and holds after it. -/
structure ScanWellFormed (ticket : ℕ) (before after : MasterEa) : Prop where
  changed_open : ∀ type ∈ typesFor ticket (after.sentSince before),
    type = .modify ∨ type = .partialClose →
      ticket ∈ before.openTickets ∧ ticket ∈ after.openTickets
  changed_once : (typesFor ticket (after.sentSince before)).count .modify +
    (typesFor ticket (after.sentSince before)).count .partialClose ≤ 1
  placed : (typesFor ticket (after.sentSince before)).count .pendingOpen =
    if ticket ∉ before.pendingTickets ∧ ticket ∈ after.pendingTickets then 1 else 0
  left : ticket ∈ before.pendingTickets → ticket ∉ after.pendingTickets →
    (typesFor ticket (after.sentSince before)).count .open +
        (typesFor ticket (after.sentSince before)).count .pendingCancel = 1 ∧
      (.open ∈ typesFor ticket (after.sentSince before) ↔ ticket ∈ after.openTickets)

/-! ### Snapshots of one pool -/

theorem Terminal.Distinct.openOrders {terminal : Terminal} (h : terminal.Distinct) :
    (terminal.openOrders.map OrderSnapshot.ticket).Nodup :=
  h.sublist (List.filter_sublist.map _)

theorem Terminal.Distinct.pendingOrders {terminal : Terminal} (h : terminal.Distinct) :
    (terminal.pendingOrders.map OrderSnapshot.ticket).Nodup :=
  h.sublist (List.filter_sublist.map _)

/-- An order is either open or pending. -/
theorem Terminal.Distinct.not_both {terminal : Terminal} (h : terminal.Distinct) {ticket : ℕ}
    (hopen : ticket ∈ terminal.openOrders.map OrderSnapshot.ticket)
    (hpending : ticket ∈ terminal.pendingOrders.map OrderSnapshot.ticket) : False := by
  obtain ⟨a, ha, haTicket⟩ := List.mem_map.mp hopen
  obtain ⟨b, hb, hbTicket⟩ := List.mem_map.mp hpending
  obtain ⟨ha, hmarket⟩ := List.mem_filter.mp ha
  obtain ⟨hb, hnot⟩ := List.mem_filter.mp hb
  have hsame := Table.eq_of_key_eq h ha hb (haTicket.trans hbTicket.symm)
  subst hsame
  simp only [decide_eq_true_eq] at hmarket hnot
  exact hnot.1 hmarket

theorem findByTicket_eq_none_iff {snapshot : List OrderSnapshot} {ticket : ℕ} :
    findByTicket snapshot ticket = none ↔ ticket ∉ snapshot.map OrderSnapshot.ticket := by
  simp [findByTicket, Table.lookup]

/-- The snapshots are those of one pool. -/
def MasterEa.Scanned (ea : MasterEa) (terminal : Terminal) : Prop :=
  ea.openSnapshot = terminal.openOrders ∧ ea.pendingSnapshot = terminal.pendingOrders

theorem MasterEa.scanAndDetect_scanned (ea : MasterEa) (terminal : Terminal) :
    (ea.scanAndDetect terminal).Scanned terminal := ⟨rfl, rfl⟩

/-! ### The events of one scan for one ticket -/

theorem typesFor_append (ticket : ℕ) (front back : List TradeEventCall) :
    typesFor ticket (front ++ back) = typesFor ticket front ++ typesFor ticket back := by
  simp [typesFor]

theorem lifeHistory_append (ticket : ℕ) (front back : List TradeEventCall) :
    lifeHistory ticket (front ++ back) = lifeHistory ticket front ++ lifeHistory ticket back := by
  simp [lifeHistory, typesFor_append]

theorem typesFor_eq {ticket : ℕ} {calls : List TradeEventCall} {changes : List Change}
    (h : calls.map TradeEventCall.content = changes.map Change.content) :
    typesFor ticket calls = (changes.filter fun change => change.ticket = ticket).map Change.type := by
  have hcalls : typesFor ticket calls = ((calls.map TradeEventCall.content).filter fun call =>
      call.masterTicket = toString ticket).map TradeEventCall.type := by
    rw [List.filter_map, List.map_map]
    rfl
  rw [hcalls, h, filter_content, List.map_map]
  rfl

theorem typesFor_scan {ea : MasterEa} {pool terminal : Terminal} (hpool : pool.Distinct)
    (hscanned : ea.Scanned pool) (hterminal : terminal.Distinct) (ticket : ℕ) :
    typesFor ticket ((ea.scanAndDetect terminal).sentSince ea) =
      (openChange (findByTicket pool.openOrders ticket)
        (findByTicket terminal.openOrders ticket)).map Change.type ++
      (pendingChange (findByTicket pool.pendingOrders ticket)
        (findByTicket terminal.pendingOrders ticket)
        (findByTicket terminal.openOrders ticket)).map Change.type := by
  rw [typesFor_eq (ea.scanAndDetect_sent terminal).2]
  unfold MasterEa.changes
  rw [List.filter_append, hscanned.1, hscanned.2,
    openChanges_of_ticket hpool.openOrders hterminal.openOrders,
    pendingChanges_of_ticket hpool.pendingOrders hterminal.pendingOrders, List.map_append]

/-! ### OPEN and CLOSE over a run -/

/-- Whether the order is open after these events. -/
def openAfter (isOpen : Bool) (history : List TradeEventType) : Bool :=
  history.getLast?.elim isOpen fun type => type = .open

theorem alternates_concat {isOpen : Bool} {history : List TradeEventType} {type : TradeEventType}
    (h : Alternates isOpen history)
    (htype : type = if openAfter isOpen history then .close else .open) :
    Alternates isOpen (history ++ [type]) := by
  induction history generalizing isOpen with
  | nil => exact ⟨htype, trivial⟩
  | cons first rest ih =>
      obtain ⟨hfirst, hrest⟩ := h
      refine ⟨hfirst, ih hrest ?_⟩
      cases rest with
      | nil =>
          rw [htype, hfirst]
          cases isOpen <;> rfl
      | cons second rest => exact htype

/-- The OPEN or CLOSE of a scan, from whether the order was and is open. -/
def turn (wasOpen isOpen : Bool) : List TradeEventType :=
  if wasOpen = isOpen then [] else [if isOpen then .open else .close]

theorem alternates_turn {isOpen : Bool} {history : List TradeEventType}
    (h : Alternates isOpen history) (now : Bool) :
    Alternates isOpen (history ++ turn (openAfter isOpen history) now) ∧
      openAfter isOpen (history ++ turn (openAfter isOpen history) now) = now := by
  unfold turn
  split_ifs with hsame hnow
  · rw [List.append_nil]
    exact ⟨h, hsame⟩
  · have hwas : openAfter isOpen history = false := by
      rw [hnow] at hsame
      simpa using hsame
    exact ⟨alternates_concat h (by rw [hwas]; rfl), by simp [openAfter, hnow]⟩
  · have hwas : openAfter isOpen history = true := by
      rw [Bool.not_eq_true] at hnow
      rw [hnow] at hsame
      simpa using hsame
    exact ⟨alternates_concat h (by rw [hwas]; rfl), by simpa [openAfter] using hnow⟩

theorem mem_tickets_iff {snapshot : List OrderSnapshot} {ticket : ℕ} :
    ticket ∈ snapshot.map OrderSnapshot.ticket ↔ (findByTicket snapshot ticket).isSome := by
  rw [Option.isSome_iff_ne_none, ne_eq, findByTicket_eq_none_iff, not_not]

theorem lifeHistory_scan {ea : MasterEa} {pool terminal : Terminal} (hpool : pool.Distinct)
    (hscanned : ea.Scanned pool) (hterminal : terminal.Distinct) (ticket : ℕ) :
    lifeHistory ticket ((ea.scanAndDetect terminal).sentSince ea) =
      turn (ticket ∈ ea.openTickets) (ticket ∈ (ea.scanAndDetect terminal).openTickets) := by
  unfold lifeHistory MasterEa.openTickets
  rw [typesFor_scan hpool hscanned hterminal, hscanned.1, (ea.scanAndDetect_scanned terminal).1,
    List.filter_append]
  simp only [mem_tickets_iff]
  have hpending : ∀ previous current triggered, ((pendingChange previous current triggered).map
      Change.type).filter (fun type => type = .open ∨ type = .close) = [] := by
    intro previous current triggered
    unfold pendingChange
    split
    · rfl
    · rfl
    · split_ifs <;> rfl
    · split_ifs <;> rfl
  rw [hpending, List.append_nil]
  cases findByTicket pool.openOrders ticket with
  | none => cases findByTicket terminal.openOrders ticket <;> rfl
  | some prev =>
      cases findByTicket terminal.openOrders ticket with
      | none => rfl
      | some order =>
          unfold openChange
          dsimp only
          split_ifs <;> rfl

/-- What holds after any number of scans. -/
structure MasterEa.Consistent (ea : MasterEa) (openAtStart : Bool) (ticket : ℕ) : Prop where
  scanned : ∃ pool : Terminal, pool.Distinct ∧ ea.Scanned pool
  alternates : Alternates openAtStart (lifeHistory ticket ea.sent)
  openAfter : openAfter openAtStart (lifeHistory ticket ea.sent) = decide (ticket ∈ ea.openTickets)

theorem MasterEa.Consistent.scan {ea : MasterEa} {openAtStart : Bool} {ticket : ℕ}
    (h : ea.Consistent openAtStart ticket) {terminal : Terminal} (hterminal : terminal.Distinct) :
    (ea.scanAndDetect terminal).Consistent openAtStart ticket := by
  obtain ⟨pool, hpool, hscanned⟩ := h.scanned
  have hhistory := lifeHistory_scan hpool hscanned hterminal ticket
  rw [← h.openAfter] at hhistory
  obtain ⟨halternates, hafter⟩ :=
    alternates_turn h.alternates (ticket ∈ (ea.scanAndDetect terminal).openTickets)
  rw [← hhistory, ← lifeHistory_append, ← (ea.scanAndDetect_sent terminal).1] at halternates hafter
  exact ⟨⟨terminal, hterminal, ea.scanAndDetect_scanned terminal⟩, halternates, hafter⟩

theorem MasterEa.consistent_onInit (accountLogin : ℕ) {baseline : Terminal}
    (hbaseline : baseline.Distinct) (ticket : ℕ) :
    (onInit accountLogin baseline).Consistent
      (ticket ∈ (onInit accountLogin baseline).openTickets) ticket :=
  ⟨⟨baseline, hbaseline, rfl, rfl⟩, trivial, rfl⟩

theorem MasterEa.Consistent.run {ea : MasterEa} {openAtStart : Bool} {ticket : ℕ}
    (h : ea.Consistent openAtStart ticket) {scans : List Terminal}
    (hscans : ∀ terminal ∈ scans, terminal.Distinct) :
    (scans.foldl MasterEa.scanAndDetect ea).Consistent openAtStart ticket := by
  induction scans generalizing ea with
  | nil => exact h
  | cons terminal rest ih =>
      exact ih (h.scan (hscans terminal List.mem_cons_self)) fun other hother =>
        hscans other (List.mem_cons_of_mem _ hother)

/-! ### What one scan may send -/

/-- The types a scan may send for an order, from whether the order was and is open. -/
def openTypes : Bool → Bool → List (List TradeEventType)
  | false, false => [[]]
  | false, true => [[.open]]
  | true, false => [[.close]]
  | true, true => [[], [.partialClose], [.modify]]

/-- Those from whether it was and is pending, and whether it is open. -/
def pendingTypes : Bool → Bool → Bool → List (List TradeEventType)
  | false, false, _ => [[]]
  | false, true, _ => [[.pendingOpen]]
  | true, false, true => [[]]
  | true, false, false => [[.pendingCancel]]
  | true, true, _ => [[], [.pendingModify]]

theorem openChange_types (previous current : Option OrderSnapshot) :
    (openChange previous current).map Change.type ∈ openTypes previous.isSome current.isSome := by
  cases previous with
  | none => cases current <;> exact List.mem_singleton_self _
  | some prev =>
      cases current with
      | none => exact List.mem_singleton_self _
      | some order =>
          unfold openChange
          dsimp only
          split_ifs <;> simp [openTypes]

theorem pendingChange_types (previous current triggered : Option OrderSnapshot) :
    (pendingChange previous current triggered).map Change.type ∈
      pendingTypes previous.isSome current.isSome triggered.isSome := by
  cases previous with
  | none => cases current <;> exact List.mem_singleton_self _
  | some prev =>
      cases current with
      | none => cases triggered <;> exact List.mem_singleton_self _
      | some order =>
          unfold pendingChange
          dsimp only
          split_ifs <;> simp [pendingTypes]

/-- The one row of the table that needs both detectors: an order that is no longer pending was not
open, so it is opened or cancelled. -/
theorem types_wellFormed : ∀ wasOpen isOpen wasPending isPending : Bool,
    ¬(wasOpen ∧ wasPending) → ¬(isOpen ∧ isPending) →
    ∀ opens ∈ openTypes wasOpen isOpen, ∀ pendings ∈ pendingTypes wasPending isPending isOpen,
      (∀ type ∈ opens ++ pendings, type = .modify ∨ type = .partialClose → wasOpen ∧ isOpen) ∧
      (opens ++ pendings).count .modify + (opens ++ pendings).count .partialClose ≤ 1 ∧
      (opens ++ pendings).count .pendingOpen = (if ¬wasPending ∧ isPending then 1 else 0) ∧
      (wasPending → ¬isPending →
        (opens ++ pendings).count .open + (opens ++ pendings).count .pendingCancel = 1 ∧
          (.open ∈ opens ++ pendings ↔ isOpen)) := by
  decide

theorem scanWellFormed {ea : MasterEa} {pool terminal : Terminal} (hpool : pool.Distinct)
    (hscanned : ea.Scanned pool) (hterminal : terminal.Distinct) (ticket : ℕ) :
    ScanWellFormed ticket ea (ea.scanAndDetect terminal) := by
  have hbefore : ¬(ticket ∈ ea.openTickets ∧ ticket ∈ ea.pendingTickets) := by
    unfold MasterEa.openTickets MasterEa.pendingTickets
    rw [hscanned.1, hscanned.2]
    exact fun h => hpool.not_both h.1 h.2
  have hafter : ¬(ticket ∈ (ea.scanAndDetect terminal).openTickets ∧
      ticket ∈ (ea.scanAndDetect terminal).pendingTickets) :=
    fun h => hterminal.not_both h.1 h.2
  have hopens := openChange_types (findByTicket ea.openSnapshot ticket)
    (findByTicket (ea.scanAndDetect terminal).openSnapshot ticket)
  have hpendings := pendingChange_types (findByTicket ea.pendingSnapshot ticket)
    (findByTicket (ea.scanAndDetect terminal).pendingSnapshot ticket)
    (findByTicket (ea.scanAndDetect terminal).openSnapshot ticket)
  have htypes := typesFor_scan hpool hscanned hterminal ticket
  rw [← hscanned.1, ← hscanned.2] at htypes
  unfold MasterEa.openTickets MasterEa.pendingTickets at hbefore hafter
  simp only [mem_tickets_iff] at hbefore hafter
  obtain ⟨hchanged, honce, hplaced, hleft⟩ :=
    types_wellFormed _ _ _ _ hbefore hafter _ hopens _ hpendings
  constructor <;>
    simp only [MasterEa.openTickets, MasterEa.pendingTickets, mem_tickets_iff, htypes]
  · exact hchanged
  · exact honce
  · exact hplaced
  · exact hleft

/-- Over a baseline and any scans: OPEN and CLOSE of a ticket alternate and end with what the EA
holds, and every further scan is well formed and takes over the orders of its pool. -/
theorem lifeHistories (accountLogin : ℕ) (baseline : Terminal) (scans : List Terminal)
    (hpools : ∀ terminal ∈ baseline :: scans, terminal.Distinct) (ticket : ℕ) :
    let started := MasterEa.onInit accountLogin baseline
    let ea := scans.foldl MasterEa.scanAndDetect started
    let history := lifeHistory ticket ea.sent
    started.Scanned baseline ∧ Alternates (ticket ∈ started.openTickets) history ∧
      (ticket ∈ ea.openTickets ↔ history.getLast? = some .open ∨
        (history = [] ∧ ticket ∈ started.openTickets)) ∧
      ∀ terminal : Terminal, terminal.Distinct →
        (ea.scanAndDetect terminal).Scanned terminal ∧
          ScanWellFormed ticket ea (ea.scanAndDetect terminal) := by
  intro started ea history
  have hstarted := MasterEa.consistent_onInit accountLogin (hpools baseline List.mem_cons_self) ticket
  have hrun : ea.Consistent (ticket ∈ started.openTickets) ticket :=
    hstarted.run fun terminal hmem => hpools terminal (List.mem_cons_of_mem _ hmem)
  obtain ⟨pool, hpool, hscanned⟩ := hrun.scanned
  refine ⟨⟨rfl, rfl⟩, hrun.alternates, ?_, fun terminal hterminal =>
    ⟨ea.scanAndDetect_scanned terminal, scanWellFormed hpool hscanned hterminal ticket⟩⟩
  have hafter := hrun.openAfter
  change openAfter _ history = _ at hafter
  unfold openAfter at hafter
  cases hlast : history.getLast? with
  | none =>
      rw [hlast, Option.elim_none, decide_eq_decide] at hafter
      simp [List.getLast?_eq_none_iff.mp hlast, hafter]
  | some type =>
      have hne : history ≠ [] := by
        rintro hnil
        simp [hnil] at hlast
      rw [hlast, Option.elim_some, decide_eq_decide] at hafter
      simp [hne, ← hafter]

namespace Sample

def pendingOrder : OrderSnapshot := ⟨1002, "EURUSD", .buyLimit, 1, 1, 0, 0⟩

/-- It has triggered. -/
def triggered : OrderSnapshot := { pendingOrder with type := .buy }

end Sample

open Mt4.Sample in
/-- An order that is pending at the start, triggers and is closed. -/
theorem lifeHistories_triggered :
    let ea := ([{ orders := [triggered] }, {}] : List Terminal).foldl MasterEa.scanAndDetect
      (MasterEa.onInit 7 { orders := [pendingOrder] })
    lifeHistory 1002 ea.sent = [.open, .close] ∧ Alternates false (lifeHistory 1002 ea.sent) ∧
      ea.openTickets = [] := by
  intro ea
  have h := lifeHistories 7 { orders := [pendingOrder] } [{ orders := [triggered] }, {}]
    (by decide +kernel) 1002
  exact ⟨by decide +kernel, h.2.1, by decide +kernel⟩

end ForexCopy.Mt4
