import ForexCopy.Backend.Ingest
import ForexCopy.Library.Numerals
import ForexCopy.Master.Mt5Ea
import ForexCopy.Proof.Master.Histories

/-!
# The ids of a master's events

An event id names the kind of the change, the account and the ticket, and for the kinds that can
recur a counter, which starts again at zero whenever the EA is attached. What a run of either EA
sends is therefore determined, as far as the ids go, by the changes it detects and the restarts
between them; and two ids are one exactly if two changes of one kind and ticket have no counter, or
have the same number since their restarts.
-/

namespace ForexCopy

/-- The kinds of changes that have a text of their own in the ids: on MT4 one for each type of event,
on MT5 one for each handler. -/
inductive ChangeKind
  | scanned (type : TradeEventType)
  | deal | order | orderDelete | position
  deriving DecidableEq

def ChangeKind.text : ChangeKind → String
  | .scanned .open => "OPEN"
  | .scanned .close => "CLOSE"
  | .scanned .modify => "MODIFY"
  | .scanned .partialClose => "PARTIAL"
  | .scanned .pendingOpen => "PENDING"
  | .scanned .pendingModify => "PENDINGMOD"
  | .scanned .pendingCancel => "PENDINGDEL"
  | .deal => "DEAL"
  | .order => "ORDER"
  | .orderDelete => "ORDERDEL"
  | .position => "POS"

/-- The kinds whose ids end in the counter. -/
def ChangeKind.counted : ChangeKind → Bool
  | .scanned .modify | .scanned .partialClose | .scanned .pendingModify | .order | .position => true
  | _ => false

/-- What a change is to its id. -/
@[ext] structure Subject where
  kind : ChangeKind
  ticket : ℕ
  deriving DecidableEq

inductive Happening
  | start
  | change (subject : Subject)
  deriving DecidableEq

/-- How many counted changes there were since the last start, after one more happening. -/
def Happening.count (n : ℕ) : Happening → ℕ
  | .start => 0
  | .change subject => if subject.kind.counted then n + 1 else n

/-- A change and how many counted changes there were up to it since the last start. -/
structure NumberedChange where
  subject : Subject
  number : ℕ
  deriving DecidableEq

def numbered : ℕ → List Happening → List NumberedChange
  | _, [] => []
  | n, .start :: rest => numbered (Happening.count n .start) rest
  | n, .change subject :: rest =>
    ⟨subject, Happening.count n (.change subject)⟩ ::
      numbered (Happening.count n (.change subject)) rest

def NumberedChange.eventId (accountLogin : ℕ) (change : NumberedChange) : String :=
  if change.subject.kind.counted then
    countedEventId change.subject.kind.text accountLogin change.subject.ticket
      (BitVec.ofNat 32 change.number)
  else
    ticketEventId change.subject.kind.text accountLogin change.subject.ticket

/-- Two changes are of different kinds or tickets, or their numbers differ as an `int` does. -/
def NumberedChange.Distinguishable (a b : NumberedChange) : Prop :=
  a.subject = b.subject → a.subject.kind.counted ∧ a.number % 2 ^ 32 ≠ b.number % 2 ^ 32

instance (a b : NumberedChange) : Decidable (a.Distinguishable b) :=
  inferInstanceAs (Decidable (_ → _))

/-! ### Ids determine what they name -/

theorem ChangeKind.dash_notMem_text (kind : ChangeKind) : '-' ∉ kind.text.toList := by
  rcases kind with type | _ | _ | _ | _
  · cases type <;> decide
  all_goals decide

theorem ChangeKind.text_injective {a b : ChangeKind} (h : a.text = b.text) : a = b := by
  rcases a with type | _ | _ | _ | _ <;> rcases b with type' | _ | _ | _ | _
  all_goals try cases type
  all_goals try cases type'
  all_goals first | rfl | exact absurd h (by decide)

/-- The characters of an id: fields joined by dashes, the counter among them or not. -/
theorem NumberedChange.toList_eventId (accountLogin : ℕ) (change : NumberedChange) :
    (change.eventId accountLogin).toList =
      change.subject.kind.text.toList ++ '-' :: ((toString accountLogin).toList ++
        '-' :: ((toString change.subject.ticket).toList ++
          if change.subject.kind.counted then
            '-' :: (toString (BitVec.ofNat 32 change.number).toInt).toList
          else
            [])) := by
  have hdash : ("-" : String).toList = ['-'] := rfl
  unfold eventId
  split_ifs
  · simp only [countedEventId, ticketEventId, String.toList_append, hdash, List.append_assoc,
      List.cons_append, List.nil_append]
  · simp only [ticketEventId, String.toList_append, hdash, List.append_assoc, List.cons_append,
      List.nil_append, List.append_nil]

theorem ofNat_eq_iff (m n : ℕ) :
    BitVec.ofNat 32 m = BitVec.ofNat 32 n ↔ m % 2 ^ 32 = n % 2 ^ 32 := by
  rw [← BitVec.toNat_inj, BitVec.toNat_ofNat, BitVec.toNat_ofNat]

theorem NumberedChange.eventId_eq_iff (accountLogin : ℕ) (a b : NumberedChange) :
    a.eventId accountLogin = b.eventId accountLogin ↔ ¬a.Distinguishable b := by
  unfold Distinguishable
  rw [Classical.not_imp, not_and, not_not]
  constructor
  · intro h
    have hchars := congrArg String.toList h
    rw [toList_eventId, toList_eventId] at hchars
    obtain ⟨htext, hrest⟩ := Numeral.append_dash_inj (ChangeKind.dash_notMem_text _)
      (ChangeKind.dash_notMem_text _) (.inr ⟨_, rfl⟩) (.inr ⟨_, rfl⟩) hchars
    have hkind := ChangeKind.text_injective (String.toList_inj.mp htext)
    injection hrest with _ hlogin
    injection List.append_cancel_left hlogin with _ hticket
    rw [hkind] at hticket
    have htail : ∀ number : ℕ, (if b.subject.kind.counted then
        '-' :: (toString (BitVec.ofNat 32 number).toInt).toList else []) = [] ∨
        ∃ rest, (if b.subject.kind.counted then
          '-' :: (toString (BitVec.ofNat 32 number).toInt).toList else []) = '-' :: rest := by
      intro number
      split_ifs
      · exact .inr ⟨_, rfl⟩
      · exact .inl rfl
    obtain ⟨hdigits, hnumber⟩ := Numeral.append_dash_inj (Numeral.dash_notMem _)
      (Numeral.dash_notMem _) (htail _) (htail _) hticket
    have hsame : a.subject.ticket = b.subject.ticket :=
      Numeral.toString_nat_injective (String.toList_inj.mp hdigits)
    refine ⟨Subject.ext hkind hsame, fun hcounted => ?_⟩
    rw [hkind] at hcounted
    rw [if_pos hcounted, if_pos hcounted] at hnumber
    injection hnumber with _ hint
    exact (ofNat_eq_iff _ _).mp
      (BitVec.toInt_inj.mp (Numeral.toString_int_injective (String.toList_inj.mp hint)))
  · rintro ⟨hsubject, hnumber⟩
    unfold eventId
    rw [← hsubject]
    split_ifs with hcounted
    · rw [(ofNat_eq_iff _ _).mpr (hnumber hcounted)]
    · rfl

theorem nodup_eventIds_iff (accountLogin : ℕ) (changes : List NumberedChange) :
    (changes.map (NumberedChange.eventId accountLogin)).Nodup ↔
      changes.Pairwise NumberedChange.Distinguishable := by
  unfold List.Nodup
  rw [List.pairwise_map]
  refine List.Pairwise.iff fun a b => ?_
  rw [ne_eq, NumberedChange.eventId_eq_iff, not_not]

/-! ### Numbering a run -/

/-- As much of an EA as its ids depend on. -/
structure IdState where
  accountLogin : ℕ
  eventSeq : BitVec 32
  eventIds : List String

def IdState.happen (s : IdState) : Happening → IdState
  | .start => { s with eventSeq := 0 }
  | .change subject =>
    if subject.kind.counted then
      { s with
        eventSeq := s.eventSeq + 1
        eventIds := s.eventIds ++
          [countedEventId subject.kind.text s.accountLogin subject.ticket (s.eventSeq + 1)] }
    else
      { s with
        eventIds := s.eventIds ++ [ticketEventId subject.kind.text s.accountLogin subject.ticket] }

/-- The counter is the number of the changes, as an `int`. -/
theorem IdState.eventIds_foldl_happen {s : IdState} {n : ℕ} (hseq : s.eventSeq = BitVec.ofNat 32 n)
    (happenings : List Happening) :
    (happenings.foldl happen s).eventIds =
      s.eventIds ++ (numbered n happenings).map (NumberedChange.eventId s.accountLogin) := by
  induction happenings generalizing s n with
  | nil => simp [numbered]
  | cons happening rest ih =>
      cases happening with
      | start => exact ih rfl
      | change subject =>
          have hnext : s.eventSeq + 1 = BitVec.ofNat 32 (n + 1) := by
            rw [hseq, BitVec.ofNat_add]
            rfl
          rw [List.foldl_cons, numbered, List.map_cons, ← List.singleton_append, ← List.append_assoc]
          by_cases hcounted : subject.kind.counted
          · simp only [happen, NumberedChange.eventId, Happening.count, hcounted, if_true, ← hnext]
            exact ih hnext
          · simp only [happen, NumberedChange.eventId, Happening.count, hcounted]
            exact ih hseq

theorem Happening.count_change_bounds (n : ℕ) (subject : Subject) :
    n ≤ count n (.change subject) ∧ count n (.change subject) ≤ n + 1 := by
  simp only [count]
  split_ifs <;> omega

/-- Without a restart the numbers grow, and grow strictly at the counted changes. -/
theorem number_bounds {n : ℕ} {happenings : List Happening} (hstart : .start ∉ happenings)
    {change : NumberedChange} (h : change ∈ numbered n happenings) :
    n ≤ change.number ∧ (change.subject.kind.counted → n < change.number) ∧
      change.number ≤ n + happenings.length ∧ .change change.subject ∈ happenings := by
  induction happenings generalizing n with
  | nil => simp [numbered] at h
  | cons happening rest ih =>
      cases happening with
      | start => exact absurd List.mem_cons_self hstart
      | change subject =>
          have hrest : Happening.start ∉ rest := fun hmem => hstart (List.mem_cons_of_mem _ hmem)
          have hnext := Happening.count_change_bounds n subject
          rw [numbered, List.mem_cons] at h
          rw [List.length_cons]
          rcases h with rfl | h
          · refine ⟨hnext.1, fun hcounted => ?_, by dsimp only; omega, List.mem_cons_self⟩
            simp only [Happening.count] at hcounted ⊢
            rw [if_pos hcounted]
            omega
          · obtain ⟨hle, hlt, hbound, hmem⟩ := ih hrest h
            exact ⟨by omega, fun hcounted => by have := hlt hcounted; omega, by omega,
              List.mem_cons_of_mem _ hmem⟩

theorem distinguishable_of_no_restart {n : ℕ} {happenings : List Happening}
    (hstart : .start ∉ happenings) (hbound : n + happenings.length < 2 ^ 32)
    (honce : ∀ subject : Subject, ¬subject.kind.counted → happenings.count (.change subject) ≤ 1) :
    (numbered n happenings).Pairwise NumberedChange.Distinguishable := by
  induction happenings generalizing n with
  | nil => exact List.Pairwise.nil
  | cons happening rest ih =>
      cases happening with
      | start => exact absurd List.mem_cons_self hstart
      | change subject =>
          have hrest : Happening.start ∉ rest := fun hmem => hstart (List.mem_cons_of_mem _ hmem)
          have hnext := Happening.count_change_bounds n subject
          rw [List.length_cons] at hbound
          refine List.Pairwise.cons (fun later hlater hsame => ?_) (ih hrest (by omega) fun other hother =>
            (List.count_le_count_cons).trans (honce other hother))
          obtain ⟨-, hlt, hle, hmem⟩ := number_bounds hrest hlater
          dsimp only at hsame ⊢
          rw [← hsame] at hlt hmem
          by_cases hcounted : subject.kind.counted
          · have := hlt hcounted
            exact ⟨hcounted, by omega⟩
          · have htwice := honce subject hcounted
            rw [List.count_cons_self] at htwice
            have := List.count_pos_iff.mpr hmem
            omega

namespace Mt4

def MasterEa.idState (ea : MasterEa) : IdState :=
  ⟨ea.accountLogin, ea.eventSeq, ea.sent.map TradeEventCall.eventId⟩

def Change.happening (change : Change) : Happening := .change ⟨.scanned change.type, change.ticket⟩

/-- The changes from one pool to another. -/
def changesBetween (previous current : Terminal) : List Change :=
  openChanges previous.openOrders current.openOrders ++
    pendingChanges previous.pendingOrders current.pendingOrders current.openOrders

/-- The changes and restarts of a run, from the pool of its last scan. -/
def happenings (last : Terminal) : List Signal → List Happening
  | [] => []
  | .timer terminal :: rest =>
    (changesBetween last terminal).map Change.happening ++ happenings terminal rest
  | .restart terminal :: rest => .start :: happenings terminal rest

namespace MasterEa

theorem report_idState (terminal : Terminal) (ea : MasterEa) (change : Change) :
    (ea.report terminal change).idState = ea.idState.happen change.happening := by
  obtain ⟨type, order, closedVolume⟩ := change
  unfold idState
  cases type <;> exact congrArg (IdState.mk _ _) List.map_append

theorem foldl_report_idState (terminal : Terminal) (ea : MasterEa) (changes : List Change) :
    (changes.foldl (report terminal) ea).idState =
      (changes.map Change.happening).foldl IdState.happen ea.idState := by
  induction changes generalizing ea with
  | nil => rfl
  | cons change rest ih =>
      rw [List.foldl_cons, ih, report_idState]
      rfl

theorem run_idState {ea : MasterEa} {last : Terminal} (hscanned : ea.Scanned last)
    (signals : List Signal) :
    (signals.foldl handle ea).idState = (happenings last signals).foldl IdState.happen ea.idState := by
  induction signals generalizing ea last with
  | nil => rfl
  | cons signal rest ih =>
      cases signal with
      | timer terminal =>
          have hchanges : ea.changes terminal = changesBetween last terminal := by
            rw [changes, hscanned.1, hscanned.2, changesBetween]
          have hscan := foldl_report_idState terminal ea (ea.changes terminal)
          rw [hchanges] at hscan
          rw [List.foldl_cons, handle, ih (ea.scanAndDetect_scanned terminal), happenings,
            List.foldl_append, ← hscan, ← hchanges, scanAndDetect_eq]
          rfl
      | restart terminal =>
          have hrestarted : (ea.restart terminal).Scanned terminal := ⟨rfl, rfl⟩
          exact ih hrestarted

end MasterEa

end Mt4

namespace Mt5

def MasterEa.idState (ea : MasterEa) : IdState :=
  ⟨ea.accountLogin, ea.eventSeq, ea.sent.map TradeEventCall.eventId⟩

/-- What a transaction is to the ids; nothing for one that the EA does not report. -/
def happening (terminal : Terminal) : Transaction → List Happening
  | .dealAdd deal =>
    if (terminal.deal deal).type = .other ∨ (terminal.deal deal).entry = .inOut then []
    else [.change ⟨.deal, deal⟩]
  | .orderAdd order | .orderUpdate order =>
    if ∃ found ∈ Table.lookup Order.ticket order terminal.orders, found.type.IsPending then
      [.change ⟨.order, order⟩]
    else []
  | .orderDelete order => [.change ⟨.orderDelete, order⟩]
  | .position position =>
    if (terminal.position position).isSome then [.change ⟨.position, position⟩] else []
  | .other => []

def happenings : List Signal → List Happening
  | [] => []
  | .transaction terminal transaction :: rest => happening terminal transaction ++ happenings rest
  | .restart :: rest => .start :: happenings rest

namespace MasterEa

theorem sendTradeEvent_idState (ea : MasterEa) (call : TradeEventCall) :
    (ea.sendTradeEvent call).idState =
      { ea.idState with eventIds := ea.idState.eventIds ++ [call.eventId] } :=
  congrArg (IdState.mk _ _) List.map_append

theorem handleDealAdd_idState (ea : MasterEa) (terminal : Terminal) (deal : ℕ) :
    (ea.handleDealAdd terminal deal).idState =
      (happening terminal (.dealAdd deal)).foldl IdState.happen ea.idState := by
  unfold handleDealAdd happening
  dsimp only
  generalize terminal.deal deal = found
  obtain ⟨ticket, type, entry, symbol, volume, price, positionId⟩ := found
  cases type <;> cases entry <;> first | rfl | exact sendTradeEvent_idState ea _

theorem handleOrderAddOrUpdate_idState (ea : MasterEa) (terminal : Terminal) (order : ℕ)
    (eventType : TradeEventType) :
    (ea.handleOrderAddOrUpdate terminal order eventType).idState =
      (happening terminal (.orderAdd order)).foldl IdState.happen ea.idState := by
  unfold handleOrderAddOrUpdate happening
  dsimp only
  cases Table.lookup Order.ticket order terminal.orders with
  | none => simp
  | some found =>
      by_cases hpending : found.type.IsPending
      · simp only [hpending, not_true, if_false, Option.mem_some_iff, exists_eq_left', if_true]
        exact sendTradeEvent_idState _ _
      · simp [hpending]

theorem onTradeTransaction_idState (ea : MasterEa) (terminal : Terminal) (transaction : Transaction) :
    (ea.onTradeTransaction terminal transaction).idState =
      (happening terminal transaction).foldl IdState.happen ea.idState := by
  cases transaction with
  | dealAdd deal => exact ea.handleDealAdd_idState terminal deal
  | orderAdd order => exact ea.handleOrderAddOrUpdate_idState terminal order _
  | orderUpdate order => exact ea.handleOrderAddOrUpdate_idState terminal order _
  | orderDelete order =>
      change (ea.handleOrderDelete terminal order).idState = _
      unfold handleOrderDelete
      cases Table.lookup Order.ticket order terminal.historyOrders <;>
        exact sendTradeEvent_idState ea _
  | position position =>
      change (ea.handlePositionModify terminal position).idState = _
      unfold handlePositionModify happening
      dsimp only
      cases terminal.position position with
      | none => rfl
      | some found => exact sendTradeEvent_idState _ _
  | other => rfl

theorem run_idState (ea : MasterEa) (signals : List Signal) :
    (signals.foldl handle ea).idState = (happenings signals).foldl IdState.happen ea.idState := by
  induction signals generalizing ea with
  | nil => rfl
  | cons signal rest ih =>
      rw [List.foldl_cons, ih]
      cases signal with
      | transaction terminal transaction =>
          rw [handle, onTradeTransaction_idState, happenings, List.foldl_append]
      | restart => rfl

end MasterEa

end Mt5

/-! ### Runs of either EA -/

/-- A run of one master EA on one account, with the restarts among its signals. -/
inductive MasterRun
  | mt4 (accountLogin : ℕ) (baseline : Mt4.Terminal) (signals : List Mt4.Signal)
  | mt5 (accountLogin : ℕ) (signals : List Mt5.Signal)

namespace MasterRun

def sent : MasterRun → List TradeEventCall
  | .mt4 accountLogin baseline signals =>
    (signals.foldl Mt4.MasterEa.handle (Mt4.MasterEa.onInit accountLogin baseline)).sent
  | .mt5 accountLogin signals =>
    (signals.foldl Mt5.MasterEa.handle (Mt5.MasterEa.onInit accountLogin)).sent

def accountLogin : MasterRun → ℕ
  | .mt4 accountLogin _ _ => accountLogin
  | .mt5 accountLogin _ => accountLogin

def happenings : MasterRun → List Happening
  | .mt4 _ baseline signals => Mt4.happenings baseline signals
  | .mt5 _ signals => Mt5.happenings signals

/-- The detected changes, each with its number since the last start of the EA. -/
def changes (run : MasterRun) : List NumberedChange := numbered 0 run.happenings

theorem eventIds_sent (run : MasterRun) :
    run.sent.map TradeEventCall.eventId = run.changes.map (NumberedChange.eventId run.accountLogin) := by
  cases run with
  | mt4 accountLogin baseline signals =>
      have hscanned : (Mt4.MasterEa.onInit accountLogin baseline).Scanned baseline := ⟨rfl, rfl⟩
      have hrun := congrArg IdState.eventIds (Mt4.MasterEa.run_idState hscanned signals)
      rw [IdState.eventIds_foldl_happen (n := 0) rfl] at hrun
      exact hrun
  | mt5 accountLogin signals =>
      have hrun := congrArg IdState.eventIds
        ((Mt5.MasterEa.onInit accountLogin).run_idState signals)
      rw [IdState.eventIds_foldl_happen (n := 0) rfl] at hrun
      exact hrun

/-- Where the backend has seen nothing but earlier events of the run, the next one is taken as new:
ingest does not answer that it is a duplicate, and the insert is not refused. -/
def TakenAsNew (run : MasterRun) : Prop :=
  ∀ earlier call later, run.sent = earlier ++ call :: later → ∀ w : World,
    (∀ key ∈ w.idempotencyKeys, key ∈ earlier.map TradeEventCall.eventId) →
    (∀ row ∈ w.tradeEvents, row.eventId ∈ earlier.map TradeEventCall.eventId) →
    ∀ event : NormalizedTradeEvent, event.toTradeEventPayload = call.payload →
      (∀ reply, ∀ answer ∈ (ingestStep reply w event .setKey).1.answers,
        answer ∈ w.answers ∨ answer.status ≠ .duplicateIgnored) ∧
      (w.createTradeEvent (event.row w.nextTradeEventId)).isSome

theorem takenAsNew_of_nodup {run : MasterRun} (h : (run.sent.map TradeEventCall.eventId).Nodup) :
    run.TakenAsNew := by
  intro earlier call later hsent w hkeys hrows event hevent
  have hnew : call.eventId ∉ earlier.map TradeEventCall.eventId := by
    rw [hsent, List.map_append, List.map_cons] at h
    intro hmem
    exact (List.nodup_append.mp h).2.2 _ hmem _ List.mem_cons_self rfl
  have hid : event.eventId = call.eventId := congrArg TradeEventPayload.eventId hevent
  have hkey : event.eventId ∉ w.idempotencyKeys := fun hmem => hnew (hid ▸ hkeys _ hmem)
  constructor
  · intro reply answer hanswer
    unfold ingestStep at hanswer
    dsimp only at hanswer
    rw [if_neg hkey] at hanswer
    cases reply with
    | ok | swapped => exact .inl hanswer
    | rejected | lost =>
        rcases List.mem_append.mp hanswer with hold | hnew
        · exact .inl hold
        · exact .inr (by simp [List.mem_singleton.mp hnew])
  · have hrow : (event.row w.nextTradeEventId).eventId ∉ w.tradeEvents.map TradeEvent.eventId := by
      intro hmem
      obtain ⟨row, hrow, hrowId⟩ := List.mem_map.mp hmem
      have hsame : row.eventId = call.eventId := hrowId.trans hid
      exact hnew (hsame ▸ hrows row hrow)
    rw [World.createTradeEvent, if_neg hrow]
    rfl

theorem nodup_eventIds_sent_iff (run : MasterRun) :
    (run.sent.map TradeEventCall.eventId).Nodup ↔
      run.changes.Pairwise NumberedChange.Distinguishable := by
  rw [eventIds_sent, nodup_eventIds_iff]

/-- No two changes are reported under one id exactly if any two of them are distinguishable: a kind
of change that has no counter happens once to a ticket, and one that has a counter does not happen
twice to a ticket with as many counted changes since the restart before. -/
theorem eventIds_unique_iff (run : MasterRun) :
    ((run.sent.map TradeEventCall.eventId).Nodup ∧ run.TakenAsNew) ↔
      run.changes.Pairwise NumberedChange.Distinguishable := by
  rw [← nodup_eventIds_sent_iff]
  exact ⟨fun h => h.1, fun h => ⟨h, takenAsNew_of_nodup h⟩⟩

/-- One attachment of the EA keeps all ids apart, as long as no change without a counter recurs. -/
theorem eventIds_unique_of_no_restart (run : MasterRun) (hstart : .start ∉ run.happenings)
    (hbound : run.happenings.length < 2 ^ 32)
    (honce : ∀ subject : Subject, ¬subject.kind.counted →
      run.happenings.count (.change subject) ≤ 1) :
    (run.sent.map TradeEventCall.eventId).Nodup ∧ run.TakenAsNew := by
  have hnodup := (nodup_eventIds_sent_iff run).mpr
    (distinguishable_of_no_restart hstart (by omega) honce)
  exact ⟨hnodup, takenAsNew_of_nodup hnodup⟩

end MasterRun

/-! ### A stop that is moved before and after a restart -/

namespace Sample

def stopMoved (sl : ℚ) : Mt4.Terminal := { orders := [{ Mt4.Sample.order with sl := sl }] }

/-- The stop of one order is moved, the EA is attached anew, and the stop is moved again. -/
def movedTwice : MasterRun :=
  .mt4 7 { orders := [Mt4.Sample.order] }
    [.timer (stopMoved 1), .restart (stopMoved 1), .timer (stopMoved (11 / 10))]

def secondMove : NormalizedTradeEvent where
  eventId := "MODIFY-7-1001-1"
  masterTicket := "1001"
  type := .modify
  symbol := "EURUSD"
  side := some .buy
  volume := some 2
  sl := some (11 / 10)
  masterId := 1
  valid := by decide +kernel

end Sample

open Sample in
/-- Both changes are sent under one id, and the second is taken for a duplicate of the first. -/
theorem restart_repeats_eventId :
    movedTwice.sent.map (fun call => (call.eventId, call.sl)) =
        [("MODIFY-7-1001-1", 1), ("MODIFY-7-1001-1", 11 / 10)] ∧
      ¬(movedTwice.sent.map TradeEventCall.eventId).Nodup ∧
      (movedTwice.sent.map TradeEventCall.payload)[1]? = some secondMove.toTradeEventPayload ∧
      (ingestStep .ok { idempotencyKeys := ["MODIFY-7-1001-1"] } secondMove .setKey).1.answers =
        [⟨1, "MODIFY-7-1001-1", .duplicateIgnored⟩] := by
  decide +kernel

end ForexCopy
