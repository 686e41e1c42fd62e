import ForexCopy.Proof.Terminal.Evidence
import Mathlib.Data.List.Perm.Basic

/-!
# Orphaned copies

A CLOSE acts on the ticket of an OPEN that is recorded as executed. One that is dispatched before is
refused, and its position stays when the OPEN is executed after all. That is by design, and it is the
only way besides a slave that was offline: a CLOSE that was handed over has closed the position, and the
terminal opens no second one for the same copy order.
-/

namespace ForexCopy

open Machine

/-! ### Executions -/

theorem Terminal.Executed.before {terminal terminal' : Terminal} {instruction : CopyInstruction}
    {result : ExecutionResult} (h : terminal.Executed instruction terminal' result) :
    terminal.Before terminal' ∧ result.copyId = instruction.copyId := by
  cases h with
  | failed | modified => exact ⟨.refl terminal, rfl⟩
  | opened => exact ⟨⟨List.subset_append_left _ _, List.Subset.refl _⟩, rfl⟩
  | closed => exact ⟨⟨List.Subset.refl _, List.subset_cons_self _ _⟩, rfl⟩

theorem Terminal.Executed.opened_cases {terminal terminal' : Terminal}
    {instruction : CopyInstruction} {result : ExecutionResult}
    (h : terminal.Executed instruction terminal' result) :
    terminal'.opened = terminal.opened ∨ (instruction.action = .open ∧
      ∃ position, position.copyId = instruction.copyId ∧
        terminal'.opened = terminal.opened ++ [position]) := by
  cases h with
  | failed | modified | closed => exact .inl rfl
  | opened haction => exact .inr ⟨haction, _, rfl, rfl⟩

theorem Terminal.Executed.gave {terminal terminal' : Terminal} {instruction : CopyInstruction}
    {result : ExecutionResult} (h : terminal.Executed instruction terminal' result)
    (haction : instruction.action = .open) {ticket : String} (hticket : ticket ∈ result.slaveTicket) :
    terminal'.Gave instruction.copyId ticket := by
  cases h with
  | failed => cases hticket
  | opened =>
      obtain rfl := Option.some.inj hticket
      exact ⟨_, List.mem_append_right _ (List.mem_singleton_self _), rfl, rfl⟩
  | closed hother | modified _ hother =>
      rw [haction] at hother
      cases hother

theorem Terminal.close_done {terminal terminal' : Terminal} {instruction : CopyInstruction}
    {outcome : OrderOutcome} {result : ExecutionResult} {copyId : Uuid} {ticket : String}
    (h : terminal.execute instruction outcome = some (terminal', result)) (hdone : outcome.isDone)
    (haction : instruction.action = .close) (hticket : instruction.slaveTicket = some ticket)
    (hgave : terminal.Gave copyId ticket) : ticket ∈ terminal'.closed := by
  cases outcome with
  | refused => cases hdone
  | done =>
      simp only [execute, haction, onPosition, hticket, Option.some.injEq] at h
      split_ifs at h with hopen
      · obtain ⟨rfl, rfl⟩ := Prod.mk.inj h
        exact List.mem_cons_self
      · obtain ⟨rfl, rfl⟩ := Prod.mk.inj h
        obtain ⟨position, hposition, -, rfl⟩ := hgave
        by_contra hnot
        exact hopen (List.mem_map_of_mem (Terminal.mem_positions.mpr ⟨hposition, hnot⟩))

/-! ### What the slave receives and reports -/

/-- Whatever the slave has received was handed over to it. -/
theorem SlaveConnector.receive_delivered {connector : SlaveConnector} {slaveId : Uuid} {w w' : World}
    (h : ∀ instruction ∈ connector.instructions, ∃ delivery ∈ w.sent, delivery.slaveId = slaveId ∧
      delivery.instruction = instruction) (hbefore : w.Before w') :
    ∀ instruction ∈ (connector.receive slaveId w w').instructions, ∃ delivery ∈ w'.sent,
      delivery.slaveId = slaveId ∧ delivery.instruction = instruction := by
  obtain ⟨deliveries, hsent⟩ := hbefore.sent
  rw [connector.receive_eq hsent.symm, ← hsent]
  intro instruction hinstruction
  rcases List.mem_append.mp hinstruction with hold | hnew
  · obtain ⟨delivery, hdelivery, hrest⟩ := h instruction hold
    exact ⟨delivery, List.mem_append_left _ hdelivery, hrest⟩
  · obtain ⟨delivery, hdelivery, rfl⟩ := List.mem_map.mp hnew
    obtain ⟨hmem, hslave⟩ := List.mem_filter.mp hdelivery
    exact ⟨delivery, List.mem_append_right _ hmem, of_decide_eq_true hslave, rfl⟩

/-- Handing a report over gives nothing to the slave. -/
theorem Transport.reporting_arrives {transport : Transport} {slaveId connectorId : Uuid}
    {result : ExecutionResult} {c c' : Config}
    (hstep : Backend.step c (.arrive (transport.reporting slaveId connectorId result)) = some c') :
    (transport.reporting slaveId connectorId result).report = some (slaveId, result) ∧
      c'.shared.sent = c.shared.sent := by
  refine ⟨by cases transport <;> rfl, ?_⟩
  obtain rfl := Option.some.inj hstep
  exact ((transport.reporting slaveId connectorId result).apply_frame c.shared).2.1

/-- What the backend and the slave keep. Every position at the terminal is of an OPEN copy order, and
the slave has executed no instruction more often than it was handed over. -/
structure Sane (slaveId : Uuid) (transport : Transport) (c : Config) (connector : SlaveConnector) :
    Prop where
  serves : c.Serves slaveId transport
  evidence : (evidence slaveId connector.terminal).Holds c
  instructions : ∀ instruction ∈ connector.instructions, ∃ delivery ∈ c.shared.sent,
    delivery.slaveId = slaveId ∧ delivery.instruction = instruction
  results : ∀ result ∈ connector.results,
    result.Evident slaveId c.shared.cores connector.terminal
  positions : ∀ position ∈ connector.terminal.opened, ∃ core ∈ c.shared.cores,
    core.id = position.copyId ∧ core.type = .open
  once : ∀ copyId, (connector.terminal.opened.countP fun position => position.copyId = copyId) +
    (connector.instructions.countP fun instruction => instruction.copyId = copyId) ≤
      c.shared.deliveries slaveId copyId

namespace Sane

variable {slaveId : Uuid} {transport : Transport} {c c' : Config} {connector : SlaveConnector}

theorem backend (h : Sane slaveId transport c connector) {a : Action}
    (hstep : Backend.step c a = some c') (hserves : c'.Serves slaveId transport)
    (hevidence : (ForexCopy.evidence slaveId connector.terminal).Holds c') :
    Sane slaveId transport c' (connector.receive slaveId c.shared c'.shared) := by
  have hbefore := Backend.step_before hstep
  have hinstructions := SlaveConnector.receive_delivered h.instructions hbefore
  obtain ⟨deliveries, hsent⟩ := hbefore.sent
  rw [connector.receive_eq hsent.symm] at hinstructions ⊢
  refine ⟨hserves, hevidence, hinstructions, fun result hresult => ?_,
    fun position hposition => ?_, fun copyId => ?_⟩
  · exact (h.results result hresult).mono hbefore.cores.subset (.refl _)
  · obtain ⟨core, hcore, hrest⟩ := h.positions position hposition
    exact ⟨core, hbefore.mem_cores hcore, hrest⟩
  · have hcount : (deliveries.countP fun delivery =>
        delivery.slaveId = slaveId ∧ delivery.instruction.copyId = copyId) =
        ((deliveries.filter fun delivery => delivery.slaveId = slaveId).map
          Delivery.instruction).countP fun instruction => instruction.copyId = copyId := by
      rw [List.countP_map, List.countP_filter]
      refine List.countP_congr fun delivery _ => ?_
      simp [and_comm]
    have honce := h.once copyId
    unfold World.deliveries at honce ⊢
    rw [← hsent, List.countP_append, List.countP_append, hcount]
    dsimp only
    omega

theorem report (h : Sane slaveId transport c connector) {i : ℕ} {result : ExecutionResult}
    (hget : connector.results[i]? = some result) (connectorId : Uuid)
    (hstep : Backend.step c (.arrive (transport.reporting slaveId connectorId result)) = some c') :
    Sane slaveId transport c' { connector with results := connector.results.eraseIdx i } := by
  have hresult := h.results result (List.mem_of_getElem? hget)
  obtain ⟨hreport, hsent⟩ := Transport.reporting_arrives hstep
  have hserves : c'.Serves slaveId transport := by
    refine h.serves.step hstep (by simp [PollsApart, Action.resumed]) ?_
    rintro stimulus hstimulus id hpoller
    obtain rfl := Option.some.inj hstimulus
    cases transport <;> cases hpoller
  have hevidence : (ForexCopy.evidence slaveId connector.terminal).Holds c' := by
    refine evidence_step h.serves.grounded h.serves.admitted h.evidence hstep ?_
    rintro stimulus hstimulus report hmem -
    obtain rfl := Option.some.inj hstimulus
    obtain rfl := Option.some.inj (hreport.symm.trans hmem)
    exact hresult
  have hbackend := h.backend hstep hserves hevidence
  rw [connector.receive_same hsent] at hbackend
  exact ⟨hserves, hevidence, hbackend.instructions,
    fun result hmem => hbackend.results result (List.eraseIdx_subset hmem), hbackend.positions,
    hbackend.once⟩

theorem execute (h : Sane slaveId transport c connector) {i : ℕ} {outcome : OrderOutcome}
    (hdone : outcome.isDone) {connector' : SlaveConnector}
    (hexecute : connector.execute i outcome = some connector') :
    Sane slaveId transport c connector' := by
  obtain ⟨instruction, terminal, result, hget, hterminal, rfl⟩ := SlaveConnector.execute_cases hexecute
  have hexecuted := Terminal.execute_executed hterminal
  obtain ⟨hbefore, hcopy⟩ := hexecuted.before
  obtain ⟨hlt, rfl⟩ := List.getElem?_eq_some_iff.mp hget
  have hperm := List.getElem_cons_eraseIdx_perm hlt
  have hmem : connector.instructions[i] ∈ connector.instructions := List.getElem_mem hlt
  set instruction := connector.instructions[i]
  -- The instruction was handed over for a copy order of the slave.
  obtain ⟨delivery, hdelivery, hslave, hinstruction⟩ := h.instructions instruction hmem
  obtain ⟨core, hcore, hid, hcoreSlave, haction⟩ := h.serves.grounded.1.sent delivery hdelivery
  rw [hinstruction] at hid haction
  refine ⟨h.serves, evidence_mono h.evidence hbefore, ?_, ?_, ?_, ?_⟩
  · exact fun other hother => h.instructions other (List.eraseIdx_subset hother)
  · intro reported hreported
    rcases List.mem_append.mp hreported with hold | hnew
    · exact (h.results reported hold).mono (List.Subset.refl _) hbefore
    · obtain rfl := List.mem_singleton.mp hnew
      refine ⟨core, hcore, hid.trans hcopy.symm, hcoreSlave.trans hslave, fun hopen ticket hticket => ?_,
        fun hclose => ?_⟩
      · rw [hid]
        exact hexecuted.gave (haction.symm.trans hopen) hticket
      · -- What a CLOSE instruction names is a ticket of its master ticket.
        have hclosing := haction.symm.trans hclose
        have hnamed := h.evidence.1.sent delivery hdelivery hslave
        rw [hinstruction] at hnamed
        obtain ⟨named, hnamedMem, hnamedId, -, ticket, hticket, hopened⟩ := hnamed hclosing
        obtain ⟨order, horder, rfl⟩ := World.exists_of_mem_cores hnamedMem
        obtain rfl := h.serves.grounded.1.core_eq hcore horder (hnamedId.trans hid.symm)
        obtain ⟨_, _, _, _, _, hgave⟩ := id hopened
        exact ⟨ticket, hopened.mono (List.Subset.refl _) hbefore,
          Terminal.close_done hterminal hdone hclosing hticket hgave⟩
  · intro position hposition
    rcases hexecuted.opened_cases with hsame | ⟨hopening, new, hnewId, hnew⟩
    · exact h.positions position (hsame ▸ hposition)
    · rw [hnew, List.mem_append, List.mem_singleton] at hposition
      rcases hposition with hold | rfl
      · exact h.positions position hold
      · exact ⟨core, hcore, hid.trans hnewId.symm, haction.trans hopening⟩
  · intro copyId
    have honce := h.once copyId
    rw [← hperm.countP_eq, List.countP_cons] at honce
    dsimp only
    rcases hexecuted.opened_cases with hsame | ⟨-, new, hnewId, hnew⟩
    · rw [hsame]
      omega
    · rw [hnew, List.countP_append, List.countP_singleton, hnewId]
      omega

end Sane

/-! ### Runs -/

namespace SlaveLink

/-- The slave before a run: it has no copy orders and an empty terminal, the backend is idle, and the
slave's platform fits its transport. -/
structure Idle (slaveId : Uuid) (transport : Transport) (link : SlaveLink) : Prop where
  backend : Config.Idle link.backend
  orders : ∀ order ∈ link.backend.shared.copyOrders, order.slaveId ≠ slaveId
  platform : ∀ slave ∈ link.backend.shared.slaves, slave.UsesTransport slaveId transport
  connector : link.connector = {}

/-- The position was opened for a copy order of the slave and the master ticket. -/
def OpenedFor (slaveId : Uuid) (masterTicket : String) (link : SlaveLink) (position : Position) :
    Prop :=
  ∃ order ∈ link.backend.shared.copyOrders, order.id = position.copyId ∧ order.slaveId = slaveId ∧
    order.masterTicket = masterTicket

instance (slaveId : Uuid) (masterTicket : String) (link : SlaveLink) (position : Position) :
    Decidable (link.OpenedFor slaveId masterTicket position) :=
  inferInstanceAs (Decidable (∃ order ∈ link.backend.shared.copyOrders, _))

def OneOpenEvent (slaveId : Uuid) (masterTicket : String) (link : SlaveLink) : Prop :=
  ∀ a ∈ link.backend.shared.copyOrders, ∀ b ∈ link.backend.shared.copyOrders,
    a.slaveId = slaveId → b.slaveId = slaveId → a.type = .open → b.type = .open →
    a.masterTicket = masterTicket → b.masterTicket = masterTicket → a.tradeEventId = b.tradeEventId

instance (slaveId : Uuid) (masterTicket : String) (link : SlaveLink) :
    Decidable (link.OneOpenEvent slaveId masterTicket) :=
  inferInstanceAs (Decidable (∀ a ∈ link.backend.shared.copyOrders,
    ∀ b ∈ link.backend.shared.copyOrders, _))

theorem Idle.sane {slaveId : Uuid} {transport : Transport} {link : SlaveLink}
    (h : link.Idle slaveId transport) : Sane slaveId transport link.backend link.connector := by
  have hpushed : link.backend.shared.PushedOnce :=
    ⟨h.backend.keyed.eventIds, h.backend.keyed.tradeEventIds, by simp [World.pushes, h.backend.sent]⟩
  refine ⟨⟨h.backend.grounded, ?_, hpushed, ?_, ⟨h.platform, ?_⟩, ?_⟩, ⟨⟨?_, ?_⟩, ?_⟩, ?_, ?_, ?_, ?_⟩
  · exact ⟨trivial, by simp [h.backend.tasks]⟩
  · intro copyId
    unfold Pool.Ledger.Holds
    rw [h.backend.tasks]
    simp [pollLedger, World.responses, h.backend.sent]
  · simp [h.backend.tasks]
  · exact ⟨by simp [h.backend.sent, transportOutline], by simp [h.backend.tasks]⟩
  · exact fun order horder hslave => absurd hslave (h.orders order horder)
  · simp [h.backend.sent]
  · simp [h.backend.tasks]
  · simp [h.connector]
  · simp [h.connector]
  · simp [h.connector]
  · simp [h.connector]

/-- The slave obeys, and no poll chooses a row that another poll is still working on. -/
def ObeysApart (slaveId : Uuid) (transport : Transport) (link : SlaveLink) (a : LinkAction) : Prop :=
  a.Obeys slaveId transport ∧ ∀ action ∈ a.ofBackend, PollsApart link.backend action

instance (slaveId : Uuid) (transport : Transport) (link : SlaveLink) (a : LinkAction) :
    Decidable (ObeysApart slaveId transport link a) :=
  inferInstanceAs (Decidable (_ ∧ ∀ action ∈ a.ofBackend, PollsApart link.backend action))

theorem sane_preserved (slaveId : Uuid) (transport : Transport) :
    Preserved (restrict (step slaveId transport) (ObeysApart slaveId transport)) fun link =>
      Sane slaveId transport link.backend link.connector := by
  intro link a link' h hstep
  obtain ⟨⟨hobeys, hapart⟩, hstep⟩ := restrict_eq_some.mp hstep
  cases a with
  | backend action =>
      obtain ⟨backend, hbackend, rfl⟩ := Option.map_eq_some_iff.mp hstep
      have hserves := h.serves.step hbackend (hapart action rfl) (hobeys.polls action rfl)
      refine h.backend hbackend hserves ?_
      refine evidence_step h.serves.grounded h.serves.admitted h.evidence hbackend ?_
      intro stimulus hstimulus report hreport hslave
      exact absurd hslave (hobeys.reports action rfl stimulus hstimulus report hreport)
  | execute i outcome =>
      obtain ⟨connector, hexecute, rfl⟩ := Option.map_eq_some_iff.mp hstep
      exact h.execute (hobeys.done outcome rfl) hexecute
  | report i connectorId =>
      obtain ⟨result, hget, hreport⟩ := Option.bind_eq_some_iff.mp hstep
      obtain ⟨backend, hbackend, rfl⟩ := Option.map_eq_some_iff.mp hreport
      exact h.report hget connectorId hbackend

/-- An OPEN and a later CLOSE of the master ticket have been processed, none of its copy orders is
PENDING or SENT, and nothing is in flight. -/
structure Settled (slaveId : Uuid) (masterTicket : String) (link : SlaveLink) : Prop where
  processed : ∃ opening ∈ link.backend.shared.copyOrders, ∃ closing ∈ link.backend.shared.copyOrders,
    [opening, closing].Sublist link.backend.shared.copyOrders ∧
      opening.slaveId = slaveId ∧ closing.slaveId = slaveId ∧ opening.masterTicket = masterTicket ∧
      closing.masterTicket = masterTicket ∧ opening.type = .open ∧ closing.type = .close
  orders : ∀ order ∈ link.backend.shared.copyOrders, order.slaveId = slaveId →
    order.masterTicket = masterTicket → order.status ≠ .pending ∧ order.status ≠ .sent
  tasks : link.backend.tasks = []
  instructions : link.connector.instructions = []
  results : link.connector.results = []

/-- A slave that obeys holds no position for a master ticket that was closed, in whatever order the
calls, the executions and the reports fall. -/
def NoOrphans : Prop :=
  ∀ (slaveId : Uuid) (transport : Transport) (start link : SlaveLink) (actions : List LinkAction),
    start.Idle slaveId transport →
    follow (restrict (step slaveId transport) fun _ a => a.Obeys slaveId transport) start actions =
      some link →
    ∀ masterTicket, link.OneOpenEvent slaveId masterTicket → link.Settled slaveId masterTicket →
      ∀ position ∈ link.connector.terminal.positions,
        ¬link.OpenedFor slaveId masterTicket position

def Sample.copied (event : NormalizedTradeEvent) (n : ℕ) : List LinkAction :=
  (.arrive (.masterEvent event) :: Sample.settle n : List Action).map .backend

/-- The slave executes its first instruction, and the result is recorded. -/
def Sample.executes : List LinkAction :=
  [.execute 0 (.done "875421"), .report 0 9] ++ (Sample.settle 4).map .backend

/-- The CLOSE is dispatched while the OPEN is at the slave, and fails; then the OPEN is executed. -/
def Sample.closeOvertakesResult : List LinkAction :=
  Sample.copied Sample.openEvent 8 ++ Sample.copied Sample.closeEvent 6 ++ Sample.executes

theorem close_overtakes_result_orphans : ¬NoOrphans := by
  intro h
  have hruns : ∃ link, follow (restrict (step 5 .push) fun _ a => a.Obeys 5 .push)
      ⟨Sample.config Sample.mt5Slave [Sample.openEvent, Sample.closeEvent], {}⟩
      Sample.closeOvertakesResult = some link ∧ link.OneOpenEvent 5 "1001" ∧
      (∃ opening ∈ link.backend.shared.copyOrders, ∃ closing ∈ link.backend.shared.copyOrders,
        [opening, closing].Sublist link.backend.shared.copyOrders ∧
          opening.slaveId = 5 ∧ closing.slaveId = 5 ∧ opening.masterTicket = "1001" ∧
          closing.masterTicket = "1001" ∧ opening.type = .open ∧ closing.type = .close) ∧
      (∀ order ∈ link.backend.shared.copyOrders, order.slaveId = 5 → order.masterTicket = "1001" →
        order.status ≠ .pending ∧ order.status ≠ .sent) ∧
      link.backend.tasks = [] ∧ link.connector.instructions = [] ∧ link.connector.results = [] ∧
      ∃ position ∈ link.connector.terminal.positions, link.OpenedFor 5 "1001" position := by
    decide +kernel
  obtain ⟨link, hrun, honce, hprocessed, horders, htasks, hinstructions, hresults, position,
    hposition, hfor⟩ := hruns
  have hidle : Idle 5 .push
      ⟨Sample.config Sample.mt5Slave [Sample.openEvent, Sample.closeEvent], {}⟩ :=
    ⟨⟨⟨by decide, by decide, by decide, by decide⟩, rfl, rfl⟩, by decide, by decide, rfl⟩
  exact h 5 .push _ link _ hidle hrun "1001" honce
    ⟨hprocessed, horders, htasks, hinstructions, hresults⟩ position hposition hfor

/-- A slave that is offline when its CLOSE is dispatched keeps the position too. -/
example : ∃ link, follow (step 5 .push)
    ⟨Sample.config Sample.mt5Slave [Sample.openEvent, Sample.closeEvent], {}⟩
    (Sample.copied Sample.openEvent 8 ++ Sample.executes ++ [.backend (.arrive (.disconnect 5))] ++
      Sample.copied Sample.closeEvent 7) = some link ∧
    link.connector.terminal.positions.length = 1 ∧
    ∃ order ∈ link.backend.shared.copyOrders, order.type = .close ∧
      order.errorReason = some "SLAVE_OFFLINE" := by
  decide +kernel

/-- Once the CLOSE is neither PENDING nor SENT, the slave holds no position for the master ticket,
unless the CLOSE was never handed over. -/
theorem no_orphan_of_handed_over (slaveId : Uuid) (transport : Transport) (start link : SlaveLink)
    (actions : List LinkAction) (hstart : start.Idle slaveId transport)
    (hrun : follow (restrict (step slaveId transport) (ObeysApart slaveId transport)) start actions =
      some link)
    (masterTicket : String) (honce : link.OneOpenEvent slaveId masterTicket) (closing : CopyOrder)
    (hclosing : closing ∈ link.backend.shared.copyOrders) (hslave : closing.slaveId = slaveId)
    (htype : closing.type = .close) (hmaster : closing.masterTicket = masterTicket)
    (hpending : closing.status ≠ .pending) (hsent : closing.status ≠ .sent)
    (hhanded : ¬(closing.status = .failed ∧
      ∃ reason ∈ notHandedOver, closing.errorReason = some reason)) :
    ∀ position ∈ link.connector.terminal.positions,
      ¬link.OpenedFor slaveId masterTicket position := by
  have h := (sane_preserved slaveId transport).follow hstart.sane hrun
  have hsound := h.serves.grounded.1
  have hretired : link.connector.terminal.Retired slaveId link.backend.shared.cores
      closing.masterTicket := by
    rcases (h.evidence.1.rows closing hclosing hslave).closes htype with hp | hs | hf | hretired
    · exact absurd hp hpending
    · exact absurd hs hsent
    · exact absurd hf hhanded
    · exact hretired
  obtain ⟨ticket, ⟨core, hcore, hcoreSlave, hcoreType, hcoreMaster, closed, hclosed, hclosedId,
    rfl⟩, hticket⟩ := hretired
  rintro position hposition ⟨order, horder, hid, horderSlave, horderMaster⟩
  obtain ⟨hopened, hopen⟩ := Terminal.mem_positions.mp hposition
  -- Both positions are of the slave's only OPEN copy order for the master ticket.
  obtain ⟨opening, hopening, rfl⟩ := World.exists_of_mem_cores hcore
  have horderType : order.type = .open := by
    obtain ⟨core, hcore, hcoreId, htype⟩ := h.positions position hopened
    rw [← order.core_type, hsound.core_eq hcore horder (hid.trans hcoreId.symm), htype]
  have hevent := honce order horder opening hopening horderSlave hcoreSlave horderType hcoreType
    horderMaster (hcoreMaster.trans hmaster)
  have hrow : order = opening := Table.eq_of_key_eq hsound.keys horder hopening
    (Prod.ext hevent (horderSlave.trans hcoreSlave.symm))
  -- It was handed over once, so they are one position.
  have hcount : (link.connector.terminal.opened.countP fun p => p.copyId = closed.copyId) ≤ 1 :=
    (Nat.le_add_right _ _).trans ((h.once closed.copyId).trans (h.serves.deliveries _))
  have honly : position = closed := by
    refine Table.eq_of_countP_le_one hcount hopened hclosed ?_ (by simp)
    rw [decide_eq_true_eq, ← hid, hrow, hclosedId, CopyOrder.core_id]
  exact hopen (honly ▸ hticket)

/-- The CLOSE is dispatched when the OPEN has been recorded, and executed. -/
def Sample.closeFollowsResult : List LinkAction :=
  Sample.copied Sample.openEvent 8 ++ Sample.executes ++ Sample.copied Sample.closeEvent 7 ++
    Sample.executes

theorem close_follows_result_no_orphan :
    ∃ link, follow (restrict (step 5 .push) (ObeysApart 5 .push))
        ⟨Sample.config Sample.mt5Slave [Sample.openEvent, Sample.closeEvent], {}⟩
        Sample.closeFollowsResult = some link ∧
      ∀ position ∈ link.connector.terminal.positions, ¬link.OpenedFor 5 "1001" position := by
  have hruns : ∃ link, follow (restrict (step 5 .push) (ObeysApart 5 .push))
      ⟨Sample.config Sample.mt5Slave [Sample.openEvent, Sample.closeEvent], {}⟩
      Sample.closeFollowsResult = some link ∧ link.OneOpenEvent 5 "1001" ∧
      ∃ closing ∈ link.backend.shared.copyOrders, closing.slaveId = 5 ∧ closing.type = .close ∧
        closing.masterTicket = "1001" ∧ closing.status = .executed := by
    decide +kernel
  obtain ⟨link, hrun, honce, closing, hclosing, hslave, htype, hmaster, hstatus⟩ := hruns
  have hidle : Idle 5 .push
      ⟨Sample.config Sample.mt5Slave [Sample.openEvent, Sample.closeEvent], {}⟩ :=
    ⟨⟨⟨by decide, by decide, by decide, by decide⟩, rfl, rfl⟩, by decide, by decide, rfl⟩
  exact ⟨link, hrun, no_orphan_of_handed_over 5 .push _ link _ hidle hrun "1001" honce closing hclosing
    hslave htype hmaster (by simp [hstatus]) (by simp [hstatus]) (by simp [hstatus])⟩

end SlaveLink

end ForexCopy
