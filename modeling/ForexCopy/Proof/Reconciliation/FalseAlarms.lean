import ForexCopy.Library.Numerals
import ForexCopy.Proof.Reconciliation.Clean
import ForexCopy.Proof.Terminal.Given
import ForexCopy.Slave.Reconciled

/-!
# False alarms

A run compares a snapshot with copy orders that it reads later, and asks only how old the snapshot is.
A position that was opened or closed in between, or whose result was not yet recorded, is then reported
missing, not closed or unexpected at a slave that has done everything right. Nothing else does that: a
run raises no such finding where its copy orders tell what had happened when the heartbeat was sent.
-/

namespace ForexCopy

open Machine Pool

/-- The findings that a position is missing, or is there when it should not be. -/
def FindingType.onPresence (type : FindingType) : Prop :=
  type = .slavePositionMissing ∨ type = .slaveNotClosed ∨ type = .unexpectedSlavePosition

instance (type : FindingType) : Decidable type.onPresence :=
  inferInstanceAs (Decidable (_ ∨ _ ∨ _))

/-! ### Comments and comparisons -/

theorem extractCopyId_comment (copyId : Uuid) :
    extractCopyId (some ("copy:" ++ toString copyId)) = some (toString copyId) := by
  have hlines : ∀ c ∈ (toString copyId).toList, ¬isLineTerminator c := by
    intro c hc hline
    have hdigit := Numeral.isDigit_of_mem hc
    simp only [isLineTerminator, decide_eq_true_eq] at hline
    rcases hline with rfl | rfl | rfl | rfl <;> exact absurd hdigit (by decide)
  have htext : ("copy:" ++ toString copyId).toList =
      'c' :: 'o' :: 'p' :: 'y' :: ':' :: (toString copyId).toList := by
    rw [String.toList_append]
    rfl
  have hne : "copy:" ++ toString copyId ≠ "" := by
    intro h
    rw [h] at htext
    cases htext
  unfold extractCopyId
  rw [truthy_eq_some.mpr ⟨rfl, hne⟩, Option.bind_some, matchCopyComment, htext]
  have hall : (toString copyId).toList.all fun c => !isLineTerminator c := by simpa using hlines
  exact (if_pos ⟨Numeral.toList_ne_nil copyId, hall⟩).trans (congrArg some String.ofList_toList)

/-- What stands behind each of these findings. -/
theorem presence_cases {input : CompareStateInput} {finding : Finding}
    (h : finding ∈ compareState input) (hpresence : finding.type.onPresence) :
    (∃ copy ∈ input.openCopies, ∃ ticket, copy.slaveTicket = some ticket ∧
      ticket ∉ input.slavePositions.map SlavePositionInfo.ticket) ∨
    (∃ copy ∈ input.closedCopies, ∃ ticket, copy.slaveTicket = some ticket ∧
      ticket ∈ input.slavePositions.map SlavePositionInfo.ticket) ∨
    ∃ position ∈ input.slavePositions, ∀ copy ∈ input.openCopies,
      extractCopyId position.comment ≠ some copy.copyId := by
  unfold compareState at h
  simp only [List.mem_append, List.mem_flatMap] at h
  rcases h with (((⟨_, _, h⟩ | ⟨copy, hcopy, h⟩) | ⟨copy, hcopy, h⟩) | ⟨position, hposition, h⟩) |
    ⟨⟨copyId, positions⟩, -, h⟩
  · unfold CompareStateInput.missingCopies at h
    split_ifs at h
    · obtain rfl := List.mem_singleton.mp h
      simp [FindingType.onPresence] at hpresence
    · cases h
  · unfold CompareStateInput.openFindings at h
    split at h
    · cases h
    rename_i ticket hticket
    split at h
    · rename_i hnone
      refine .inl ⟨copy, hcopy, ticket, (truthy_eq_some.mp hticket).1, fun hmem => ?_⟩
      obtain ⟨position, hposition, hsame⟩ := List.mem_map.mp hmem
      exact mapGet_isNone_iff.mp (Option.isNone_iff_eq_none.mpr hnone) position hposition hsame
    · -- The position is there; only its volume and its stops are compared.
      unfold CompareStateInput.volumeMismatches CompareStateInput.sltpMismatches at h
      rcases List.mem_append.mp h with h | h <;> split at h <;> try cases h
      all_goals
        split_ifs at h
        · obtain rfl := List.mem_singleton.mp h
          simp [FindingType.onPresence] at hpresence
        · cases h
  · unfold CompareStateInput.closedFindings at h
    split at h
    · cases h
    rename_i ticket hticket
    split_ifs at h with hsome
    · obtain ⟨position, hfound⟩ := Option.isSome_iff_exists.mp hsome
      obtain ⟨hmem, hsame⟩ := mapGet_eq_some hfound
      exact .inr (.inl ⟨copy, hcopy, ticket, (truthy_eq_some.mp hticket).1,
        List.mem_map.mpr ⟨position, hmem, hsame⟩⟩)
    · cases h
  · refine .inr (.inr ⟨position, hposition, fun copy hcopy hcomment => ?_⟩)
    rw [CompareStateInput.unexpectedPositions_eq_nil_iff.mpr ⟨copy, hcopy, hcomment⟩] at h
    cases h
  · unfold CompareStateInput.duplicatePositions at h
    split_ifs at h
    · cases h
    · obtain ⟨position, -, rfl⟩ := List.mem_map.mp h
      simp [FindingType.onPresence] at hpresence

/-! ### What the copy orders tell -/

/-- The copy orders tell what had happened at the terminal: an OPEN is among them exactly if it had
been executed, and its master ticket has a CLOSE exactly if its position had been closed. -/
def Terminal.RecordedBy (terminal : Terminal) (opens closes : List CopyOrder) : Prop :=
  (∀ position ∈ terminal.opened, ∃ order ∈ opens, order.slaveTicket = some position.ticket) ∧
  ∀ order ∈ opens, ∀ ticket ∈ order.slaveTicket,
    ticket ∈ terminal.opened.map Position.ticket ∧
      (order.masterTicket ∈ closes.map CopyOrder.masterTicket ↔ ticket ∈ terminal.closed)

instance (terminal : Terminal) (opens closes : List CopyOrder) :
    Decidable (terminal.RecordedBy opens closes) :=
  inferInstanceAs (Decidable (_ ∧ ∀ order ∈ opens, _))

/-- Whatever else the run reads, it finds no position missing or out of place. -/
def PairScan.Quiet (scan : PairScan) (positions : CopyOrderPositions) : Prop :=
  ∀ env expected, ∀ finding ∈ compareState (scan.input env positions expected),
    ¬finding.type.onPresence

namespace SlaveLink

/-- The rows are of the slave and the type, and the terminal bears out their tickets. -/
def Knows (slaveId : Uuid) (type : TradeEventType) (link : SlaveLink) (rows : List CopyOrder) : Prop :=
  ∀ order ∈ rows, order.core ∈ link.backend.shared.cores ∧ order.slaveId = slaveId ∧
    order.type = type ∧ (link.sources slaveId).Row order

variable {slaveId : Uuid} {type : TradeEventType} {link link' : SlaveLink} {opens closes : List CopyOrder}

theorem Given.knows_executed (h : link.Given slaveId) (type : TradeEventType) :
    link.Knows slaveId type (link.backend.shared.findExecuted slaveId type) := by
  intro order horder
  obtain ⟨hmem, hslave, htype, -⟩ := World.mem_findExecuted.mp horder
  exact ⟨World.core_mem_cores hmem, hslave, htype, h.tickets.1.rows order hmem⟩

theorem Knows.mono {rows : List CopyOrder} (h : link.Knows slaveId type rows)
    (hcores : link.backend.shared.cores ⊆ link'.backend.shared.cores)
    (hbefore : link.connector.terminal.Before link'.connector.terminal) :
    link'.Knows slaveId type rows := by
  intro order horder
  obtain ⟨hcore, hslave, htype, hrow⟩ := h order horder
  exact ⟨hcores hcore, hslave, htype, hrow.mono (terminalSources_within hcores hbefore)⟩

theorem step_grows {transport : Transport} {a : LinkAction}
    (hstep : link.step slaveId transport a = some link') :
    link.backend.shared.cores ⊆ link'.backend.shared.cores ∧
      link.connector.terminal.Before link'.connector.terminal := by
  cases a with
  | backend action =>
      obtain ⟨backend, hbackend, rfl⟩ := Option.map_eq_some_iff.mp hstep
      exact ⟨(Backend.step_before hbackend).cores.subset, .refl _⟩
  | execute i outcome =>
      obtain ⟨connector, hexecute, rfl⟩ := Option.map_eq_some_iff.mp hstep
      obtain ⟨instruction, terminal, result, -, hterminal, rfl⟩ :=
        SlaveConnector.execute_cases hexecute
      exact ⟨List.Subset.refl _, (Terminal.execute_executed hterminal).before.1⟩
  | report i connectorId =>
      obtain ⟨result, hget, hreport⟩ := Option.bind_eq_some_iff.mp hstep
      obtain ⟨backend, hbackend, rfl⟩ := Option.map_eq_some_iff.mp hreport
      exact ⟨(Backend.step_before hbackend).cores.subset, .refl _⟩

/-- Copy orders that tell what had happened when a snapshot was taken agree with the snapshot. -/
theorem Given.quiet (h : link.Given slaveId) {terminal : Terminal}
    (hbefore : terminal.Before link.connector.terminal) {scan : PairScan}
    (hshows : terminal.Shows scan.slavePositions) (hopens : link.Knows slaveId .open opens)
    (hcloses : link.Knows slaveId .close closes) (hrecorded : terminal.RecordedBy opens closes) :
    scan.Quiet (copyOrderPositions opens closes) := by
  intro env expected finding hfinding hpresence
  have htickets : scan.slavePositions.map SlavePositionInfo.ticket =
      terminal.positions.map Position.ticket := by
    have := congrArg (List.map Prod.fst) hshows
    simpa [List.map_map, Function.comp_def] using this
  rcases presence_cases hfinding hpresence with ⟨copy, hcopy, ticket, hticket, hmissing⟩ |
    ⟨copy, hcopy, ticket, hticket, hthere⟩ | ⟨info, hinfo, hunnamed⟩
  · -- The position of an open copy had been opened and not closed.
    simp only [PairScan.input, copyOrderPositions, List.map_map, List.mem_map] at hcopy
    obtain ⟨order, horder, rfl⟩ := hcopy
    obtain ⟨hopen, hnone⟩ := mem_stillOpen.mp horder
    obtain ⟨hopened, hiff⟩ := hrecorded.2 order hopen ticket hticket
    obtain ⟨position, hposition, rfl⟩ := List.mem_map.mp hopened
    refine hmissing (htickets ▸ List.mem_map_of_mem (Terminal.mem_positions.mpr ⟨hposition, ?_⟩))
    intro hclosed
    obtain ⟨close, hclose, hsame⟩ := List.mem_map.mp (hiff.mpr hclosed)
    exact hnone close hclose hsame
  · -- A CLOSE carries the ticket of an OPEN of its master ticket.
    simp only [PairScan.input, copyOrderPositions, List.map_map, List.mem_map] at hcopy
    obtain ⟨close, hclose, rfl⟩ := hcopy
    obtain ⟨position, hposition, rfl⟩ := List.mem_map.mp (htickets ▸ hthere)
    obtain ⟨hopened, hopen⟩ := Terminal.mem_positions.mp hposition
    obtain ⟨order, horder, hsame⟩ := hrecorded.1 position hopened
    obtain ⟨hcore, hslave, htype, hrow⟩ := hopens order horder
    obtain ⟨hcloseCore, hcloseSlave, hcloseType, hcloseRow⟩ := hcloses close hclose
    obtain ⟨core, hcoreMem, -, -, hmaster, hgave⟩ :=
      h.opened_of_row hcloseCore hcloseSlave hcloseType hcloseRow hticket
    have hid := h.copyId_eq hgave (h.gave_of_row hcore hslave htype hrow hsame)
    obtain ⟨row, hrowMem, rfl⟩ := World.exists_of_mem_cores hcoreMem
    have hcores := h.grounded.1.core_eq hcore hrowMem hid
    refine hopen ((hrecorded.2 order horder _ hsame).2.mp (List.mem_map.mpr ⟨close, hclose, ?_⟩))
    rw [← hmaster, CopyOrder.core_masterTicket, CopyOrder.masterTicket_of_core hcores]
  · -- The comment names the open copy that the position was opened for.
    have hmem : (info.ticket, info.volume, info.comment) ∈ terminal.positions.map _ :=
      hshows ▸ List.mem_map_of_mem hinfo
    obtain ⟨position, hposition, hsame⟩ := List.mem_map.mp hmem
    simp only [Prod.mk.injEq] at hsame
    obtain ⟨-, -, hcomment⟩ := hsame
    obtain ⟨hopened, hopen⟩ := Terminal.mem_positions.mp hposition
    obtain ⟨order, horder, hticket⟩ := hrecorded.1 position hopened
    obtain ⟨hcore, hslave, htype, hrow⟩ := hopens order horder
    have hid : order.id = position.copyId :=
      h.copyId_eq (h.gave_of_row hcore hslave htype hrow hticket)
        ⟨position, hbefore.opened hopened, rfl, rfl⟩
    have hstill : order ∈ stillOpen opens closes := mem_stillOpen.mpr ⟨horder, fun close hclose hmaster =>
      hopen ((hrecorded.2 order horder _ hticket).2.mp (List.mem_map.mpr ⟨close, hclose, hmaster⟩))⟩
    refine hunnamed ⟨toString order.id, order.masterTicket, order.slaveTicket, _⟩
      (List.mem_map.mpr ⟨order.openInfo, List.mem_map_of_mem hstill, rfl⟩) ?_
    rw [← hcomment, extractCopyId_comment, hid]

end SlaveLink

/-! ### Runs of the engine -/

namespace Reconcile

/-- What a run is about to compare: a pair, its executed OPENs and its executed CLOSEs. -/
def comparing (books : Books) : Reconcile → Option (PairScan × List CopyOrder × List CopyOrder)
  | .pair _ scan (.readCloses opens) _ =>
    some (scan, opens, books.world.findExecuted scan.slaveId .close)
  | .pair _ scan (.readOpens closes) _ =>
    some (scan, books.world.findExecuted scan.slaveId .open, closes)
  | _ => none

/-- What a run that is at the slave has read. -/
def Knows (slaveId : Uuid) (link : SlaveLink) : Reconcile → Prop
  | .pair _ scan (.readCloses opens) _ => scan.slaveId = slaveId → link.Knows slaveId .open opens
  | .pair _ scan (.readOpens closes) _ => scan.slaveId = slaveId → link.Knows slaveId .close closes
  | .pair _ scan (.readExpected positions _ _ _) _ => scan.slaveId = slaveId → scan.Quiet positions
  | _ => True

end Reconcile

/-- No run has found a position of the slave missing or out of place. -/
def Books.Quiet (books : Books) (slaveId : Uuid) : Prop :=
  ∀ entry ∈ books.computed, entry.2.1 = slaveId → ∀ finding ∈ entry.2.2, ¬finding.type.onPresence

instance (books : Books) (slaveId : Uuid) : Decidable (books.Quiet slaveId) :=
  inferInstanceAs (Decidable (∀ entry ∈ books.computed, _))

def presenceOutline (slaveId : Uuid) (link : SlaveLink) : Outline Books Reconcile where
  shared books := books.world = link.backend.shared ∧ books.Quiet slaveId
  task _ task := task.Knows slaveId link

section

variable {env : ReconciliationEnv} {slaveId : Uuid} {link link' : SlaveLink} {books books' : Books}
  {reply : Reply} {next : List Reconcile}

theorem Reconcile.Knows.mono {task : Reconcile} (h : task.Knows slaveId link)
    (hcores : link.backend.shared.cores ⊆ link'.backend.shared.cores)
    (hbefore : link.connector.terminal.Before link'.connector.terminal) : task.Knows slaveId link' := by
  unfold Reconcile.Knows at h ⊢
  split
  · exact fun hslave => (h hslave).mono hcores hbefore
  · exact fun hslave => (h hslave).mono hcores hbefore
  · exact h
  · trivial

theorem Reconcile.knows_nextPair (now : DateTime) (rest : List ScannedPair) :
    ∀ t ∈ nextPair env now rest, t.Knows slaveId link := by
  induction rest with
  | nil => simp [nextPair]
  | cons head tail ih =>
      unfold nextPair
      split
      · exact ih
      · simp [Knows]

theorem Reconcile.knows_nextExpected (hbooks : (presenceOutline slaveId link).shared books)
    {now : DateTime} {scan : PairScan} {rest : List ScannedPair} {positions : CopyOrderPositions}
    {expected : List (String × Option ExpectedSlTp)} {remaining : List OpenCopyOrderInfo}
    (hquiet : scan.slaveId = slaveId → scan.Quiet positions)
    (h : nextExpected env books now scan rest positions expected remaining = (books', next)) :
    (presenceOutline slaveId link).shared books' ∧ ∀ t ∈ next, t.Knows slaveId link := by
  cases remaining with
  | cons info tail =>
      cases h
      exact ⟨hbooks, by simpa [Knows] using hquiet⟩
  | nil =>
      cases h
      refine ⟨⟨hbooks.1, fun entry hentry hslave => ?_⟩, by simp [Knows]⟩
      rcases List.mem_append.mp hentry with hold | hnew
      · exact hbooks.2 entry hold hslave
      · obtain rfl := List.mem_singleton.mp hnew
        exact hquiet hslave env expected

/-- A run goes on without such a finding if the comparison it makes gives none. -/
theorem Reconcile.knows_step {task : Reconcile} (hlink : link.Given slaveId)
    (hbooks : (presenceOutline slaveId link).shared books) (htask : task.Knows slaveId link)
    (hcompare : reply = .ok ∨ reply = .swapped → ∀ read ∈ task.comparing books,
      read.1.slaveId = slaveId → read.1.Quiet (copyOrderPositions read.2.1 read.2.2))
    (h : Reconcile.step env reply books task = (books', next)) :
    (presenceOutline slaveId link).shared books' ∧ ∀ t ∈ next, t.Knows slaveId link := by
  have hknown : ∀ type id, id = slaveId →
      link.Knows slaveId type (books.world.findExecuted id type) := by
    rintro type id rfl
    rw [hbooks.1]
    exact hlink.knows_executed type
  cases task with
  | findSlaves masterId slaveId =>
      cases reply <;> cases h
      · exact ⟨hbooks, knows_nextPair _ _⟩
      · exact ⟨hbooks, knows_nextPair _ _⟩
      · exact ⟨hbooks, by simp⟩
      · exact ⟨hbooks, by simp⟩
  | pair now scan point rest =>
      change pairStep env reply books now scan rest point = _ at h
      cases point with
      | readPositions =>
          cases reply <;> cases h
          · exact ⟨hbooks, by simpa [Knows] using hknown .open scan.slaveId⟩
          · exact ⟨hbooks, by simpa [Knows] using hknown .close scan.slaveId⟩
          · exact ⟨hbooks, by simp⟩
          · exact ⟨hbooks, by simp⟩
      | readCloses opens =>
          cases reply with
          | ok => exact knows_nextExpected hbooks (hcompare (.inl rfl) _ rfl) h
          | swapped => exact knows_nextExpected hbooks (hcompare (.inr rfl) _ rfl) h
          | rejected | lost =>
              cases h
              exact ⟨hbooks, by simp⟩
      | readOpens closes =>
          cases reply with
          | ok => exact knows_nextExpected hbooks (hcompare (.inl rfl) _ rfl) h
          | swapped => exact knows_nextExpected hbooks (hcompare (.inr rfl) _ rfl) h
          | rejected | lost =>
              cases h
              exact ⟨hbooks, by simp⟩
      | readExpected positions info remaining expected =>
          cases reply with
          | ok | swapped => exact knows_nextExpected hbooks htask h
          | rejected | lost =>
              cases h
              exact ⟨hbooks, by simp⟩
      | deleteMany findings =>
          have hdeleted : ∀ t ∈ (if findings = [] then nextPair env now rest
              else [.pair now scan (.createMany findings) rest]), t.Knows slaveId link := by
            split_ifs
            · exact knows_nextPair _ _
            · simp [Knows]
          cases reply <;> cases h
          · exact ⟨hbooks, hdeleted⟩
          · exact ⟨hbooks, hdeleted⟩
          · exact ⟨hbooks, by simp⟩
          · exact ⟨hbooks, by simp⟩
      | createMany findings =>
          cases reply <;> cases h
          · exact ⟨hbooks, knows_nextPair _ _⟩
          · exact ⟨hbooks, knows_nextPair _ _⟩
          · exact ⟨hbooks, by simp⟩
          · exact ⟨hbooks, by simp⟩

end

/-! ### Runs of the system -/

namespace ReconciledSlave

/-- The slave obeys, and the copy orders that a run compares with a snapshot of the slave tell what had
happened when its heartbeat was sent. -/
def ComparesInStep (slaveId : Uuid) (transport : Transport) (s : ReconciledSlave)
    (a : ReconciledAction) : Prop :=
  a.Obeys slaveId transport ∧
    ∀ task ∈ a.resolved s, ∀ read ∈ task.comparing s.reconciliation.shared,
      read.1.slaveId = slaveId → ∃ heartbeat ∈ s.heartbeats,
        heartbeat.snapshot.positions = read.1.slavePositions ∧
          heartbeat.terminal.RecordedBy read.2.1 read.2.2

instance (slaveId : Uuid) (transport : Transport) (s : ReconciledSlave) (a : ReconciledAction) :
    Decidable (ComparesInStep slaveId transport s a) :=
  inferInstanceAs (Decidable (_ ∧ ∀ task ∈ a.resolved s,
    ∀ read ∈ task.comparing s.reconciliation.shared, _))

structure Aware (slaveId : Uuid) (s : ReconciledSlave) : Prop where
  given : s.link.Given slaveId
  heartbeats : ∀ heartbeat ∈ s.heartbeats, heartbeat.terminal.Before s.link.connector.terminal ∧
    heartbeat.terminal.Shows heartbeat.snapshot.positions
  runs : (presenceOutline slaveId s.link).Holds s.reconciliation

variable {env : ReconciliationEnv} {slaveId : Uuid} {transport : Transport} {s s' : ReconciledSlave}

theorem Aware.link {a : LinkAction} {link : SlaveLink} (h : s.Aware slaveId)
    (hstep : s.link.step slaveId transport a = some link) (hobeys : a.Obeys slaveId transport) :
    ({ s with link := link }.withBooks
      { s.reconciliation.shared with world := link.backend.shared }).Aware slaveId := by
  obtain ⟨hcores, hbefore⟩ := SlaveLink.step_grows hstep
  refine ⟨SlaveLink.given_step h.given hstep hobeys, fun heartbeat hmem => ?_,
    ⟨rfl, h.runs.1.2⟩, fun task htask => (h.runs.2 task htask).mono hcores hbefore⟩
  obtain ⟨hearlier, hshows⟩ := h.heartbeats heartbeat hmem
  exact ⟨hearlier.trans hbefore, hshows⟩

theorem Aware.resumeRun (h : s.Aware slaveId) {i : ℕ} {reply : Reply} {reconciliation : Reconciliation}
    (hok : ComparesInStep slaveId transport s (.resumeRun i reply))
    (hstep : Reconciliation.step env s.reconciliation (.resume i reply) = some reconciliation) :
    { s with reconciliation := reconciliation }.Aware slaveId := by
  refine ⟨h.given, h.heartbeats, ?_⟩
  have hresume : s.reconciliation.resume (Reconcile.step env) i reply = some reconciliation := hstep
  refine h.runs.resume _ hresume ?_ fun _ _ _ _ _ _ _ _ hother => hother
  intro task books' next hget hmove hbooks htask
  refine Reconcile.knows_step h.given hbooks htask (fun hreply read hread hslave => ?_) hmove
  have hresolved : task ∈ (ReconciledAction.resumeRun i reply).resolved s := by
    rcases hreply with rfl | rfl <;> exact hget
  obtain ⟨heartbeat, hmem, hpositions, hrecorded⟩ := hok.2 task hresolved read hread hslave
  obtain ⟨hbefore, hshows⟩ := h.heartbeats heartbeat hmem
  have hexecuted : ∀ type, s.link.Knows slaveId type
      (s.reconciliation.shared.world.findExecuted read.1.slaveId type) := by
    intro type
    rw [hslave, hbooks.1]
    exact h.given.knows_executed type
  unfold Reconcile.comparing at hread
  split at hread
  · obtain rfl := Option.some.inj hread
    exact h.given.quiet hbefore (hpositions ▸ hshows) (htask hslave) (hexecuted .close) hrecorded
  · obtain rfl := Option.some.inj hread
    exact h.given.quiet hbefore (hpositions ▸ hshows) (hexecuted .open) (htask hslave) hrecorded
  · cases hread

theorem aware_preserved (env : ReconciliationEnv) (slaveId : Uuid) (transport : Transport) :
    Preserved (restrict (step env slaveId transport) (ComparesInStep slaveId transport))
      (Aware slaveId) := by
  intro s a s' h hstep
  obtain ⟨hok, hstep⟩ := restrict_eq_some.mp hstep
  cases a with
  | link action =>
      obtain ⟨link, hlink, rfl⟩ := Option.map_eq_some_iff.mp hstep
      exact h.link hlink (hok.1 action rfl)
  | heartbeat positions =>
      simp only [step] at hstep
      split_ifs at hstep with hshows
      obtain rfl := Option.some.inj hstep
      refine ⟨h.given, fun heartbeat hmem => ?_, h.runs⟩
      rcases List.mem_append.mp hmem with hold | hnew
      · exact h.heartbeats heartbeat hold
      · obtain rfl := List.mem_singleton.mp hnew
        exact ⟨.refl _, hshows⟩
  | store i =>
      obtain ⟨snapshot, -, rfl⟩ := Option.map_eq_some_iff.mp hstep
      exact ⟨h.given, h.heartbeats, h.runs.1, h.runs.2⟩
  | elsewhere masterSnapshots slaveSnapshots =>
      obtain rfl := Option.some.inj hstep
      exact ⟨h.given, h.heartbeats, h.runs.1, h.runs.2⟩
  | startRun masterId id =>
      simp only [step, Reconciliation.step, Option.map_some, Option.some.injEq] at hstep
      obtain rfl := hstep
      exact ⟨h.given, h.heartbeats,
        Outline.Holds.arrive h.runs.1 h.runs.2 (by simp [presenceOutline, Reconcile.Knows])⟩
  | resumeRun i reply =>
      obtain ⟨reconciliation, hresume, rfl⟩ := Option.map_eq_some_iff.mp hstep
      exact h.resumeRun hok hresume

/-- A slave that obeys is never reported to miss a position, to have failed to close one, or to hold an
unexpected one. -/
def NoFalseAlarms : Prop :=
  ∀ (env : ReconciliationEnv) (slaveId : Uuid) (transport : Transport) (link : SlaveLink)
    (actions : List ReconciledAction) (s : ReconciledSlave), link.Idle slaveId transport →
    follow (restrict (step env slaveId transport) fun _ a => a.Obeys slaveId transport) (start link)
      actions = some s →
    s.reconciliation.shared.Quiet slaveId

end ReconciledSlave

namespace Sample

def idleLink : SlaveLink := ⟨config mt5Slave [openEvent, closeEvent], {}⟩

/-- The copy is dispatched and pushed. -/
def copies (event : NormalizedTradeEvent) (n : ℕ) : List ReconciledAction :=
  (SlaveLink.Sample.copied event n).map .link

/-- A heartbeat that is stored at once. -/
def beats (positions : List SlavePositionInfo) : List ReconciledAction := [.heartbeat positions, .store 0]

def reconciles (n : ℕ) : List ReconciledAction :=
  .elsewhere [(1, ⟨[], 0⟩)] [] :: .startRun none none :: List.replicate n (.resumeRun 0 .ok)

/-- The slave reports no positions, and has opened one when the run starts. -/
def snapshotBeforeExecution : List ReconciledAction :=
  beats [] ++ copies openEvent 8 ++ SlaveLink.Sample.executes.map .link ++ reconciles 4

/-- The position is reported while its result is on the way. -/
def snapshotBeforeRecord : List ReconciledAction :=
  copies openEvent 8 ++ [.link (.execute 0 (.done "875421"))] ++
    beats [⟨"875421", "EURUSD", 1, none, none, some "copy:1"⟩] ++ reconciles 3

/-- The position is reported, and then its result is recorded. -/
def snapshotAfterRecord : List ReconciledAction :=
  copies openEvent 8 ++ [.link (.execute 0 (.done "875421"))] ++
    beats [⟨"875421", "EURUSD", 1, none, none, some "copy:1"⟩] ++
    (.link (.report 0 9) :: (settle 4).map fun action => .link (.backend action)) ++ reconciles 4

end Sample

namespace ReconciledSlave

open Sample in
/-- Snapshots that are fresh but older or newer than the copy orders raise alarms. -/
theorem fresh_snapshots_raise_alarms : ¬NoFalseAlarms ∧
    (∃ s, follow (restrict (step {} 5 .push) fun _ a => a.Obeys 5 .push) (start idleLink)
        snapshotBeforeExecution = some s ∧
      s.reconciliation.shared.computed.map (fun entry => entry.2.2.map Finding.type) =
        [[.slavePositionMissing]]) ∧
    ∃ s, follow (restrict (step {} 5 .push) fun _ a => a.Obeys 5 .push) (start idleLink)
        snapshotBeforeRecord = some s ∧
      s.reconciliation.shared.computed.map (fun entry => entry.2.2.map Finding.type) =
        [[.unexpectedSlavePosition]] := by
  refine ⟨fun h => ?_, by decide +kernel, by decide +kernel⟩
  have hruns : ∃ s, follow (restrict (step {} 5 .push) fun _ a => a.Obeys 5 .push) (start idleLink)
      snapshotBeforeExecution = some s ∧ ¬s.reconciliation.shared.Quiet 5 := by
    decide +kernel
  obtain ⟨s, hrun, halarm⟩ := hruns
  have hidle : idleLink.Idle 5 .push :=
    ⟨⟨⟨by decide, by decide, by decide, by decide⟩, rfl, rfl⟩, by decide, by decide, rfl⟩
  exact halarm (h {} 5 .push idleLink _ s hidle hrun)

/-- Runs that compare in step raise none. -/
theorem no_false_alarms_in_step (env : ReconciliationEnv) (slaveId : Uuid) (transport : Transport)
    (link : SlaveLink) (actions : List ReconciledAction) (s : ReconciledSlave)
    (hidle : link.Idle slaveId transport)
    (hrun : follow (restrict (step env slaveId transport) (ComparesInStep slaveId transport))
      (start link) actions = some s) :
    s.reconciliation.shared.Quiet slaveId := by
  have hstart : (start link).Aware slaveId :=
    ⟨hidle.given, by simp [start], ⟨rfl, by simp [start, Books.Quiet]⟩, by simp [start]⟩
  exact ((aware_preserved env slaveId transport).follow hstart hrun).runs.1.2

open Sample in
theorem snapshot_after_record_raises_none :
    ∃ s, follow (restrict (step {} 5 .push) (ComparesInStep 5 .push)) (start idleLink)
        snapshotAfterRecord = some s ∧
      s.reconciliation.shared.computed.length = 1 ∧ s.reconciliation.shared.Quiet 5 := by
  have hruns : ∃ s, follow (restrict (step {} 5 .push) (ComparesInStep 5 .push)) (start idleLink)
      snapshotAfterRecord = some s ∧ s.reconciliation.shared.computed.length = 1 := by
    decide +kernel
  obtain ⟨s, hrun, honce⟩ := hruns
  have hidle : idleLink.Idle 5 .push :=
    ⟨⟨⟨by decide, by decide, by decide, by decide⟩, rfl, rfl⟩, by decide, by decide, rfl⟩
  exact ⟨s, hrun, honce, no_false_alarms_in_step {} 5 .push idleLink _ s hidle hrun⟩

end ReconciledSlave

end ForexCopy
