import ForexCopy.Proof.Dispatch
import ForexCopy.Proof.Service.Execution

/-!
# Instructions in turn

Through whatever reconnections, lost messages, partial fills and trades of others, the service answers
the instructions of a socket one by one and in their order, and the terminal has at most one position of
a copy order.
-/

namespace ForexCopy

open Machine

namespace Mt5Service.Terminal

/-- The copy orders that positions were opened for. -/
def copyIds (terminal : Terminal) : List Uuid :=
  terminal.openings.filterMap fun opening => opening.instruction.map CopyInstruction.copyId

theorem Change.openings {Owned : Opening → Prop} {terminal terminal' : Terminal}
    (h : terminal.Change Owned terminal') : terminal'.openings = terminal.openings ∨
      ∃ opening, Owned opening ∧ terminal'.openings = terminal.openings ++ [opening] := by
  cases h with
  | opened opening howned => exact .inr ⟨opening, howned, rfl⟩
  | same | removed | updated => exact .inl rfl

end Mt5Service.Terminal

theorem World.Before.sent_eq {w w' : World} (h : w.Before w') :
    w'.sent = w.sent ++ w.deliveriesSince w' := by
  obtain ⟨since, hsince⟩ := h.sent
  rw [World.deliveriesSince, ← hsince, List.drop_left]

namespace Mt5Link

variable {slaveId connectorId : Uuid} {link link' : Mt5Link}

theorem pushed_append (slaveId : Uuid) (front back : List Delivery) :
    pushed slaveId (front ++ back) = pushed slaveId front ++ pushed slaveId back := by
  simp [pushed]

theorem pushed_nodup {w : World} (h : w.PushedOnce) (slaveId : Uuid) :
    ((pushed slaveId w.sent).map CopyInstruction.copyId).Nodup := by
  refine h.pushes.sublist ?_
  rw [pushed, List.map_map, World.pushes]
  have hfilter : (w.sent.filter fun delivery =>
      delivery.transport = .push ∧ delivery.slaveId = slaveId).Sublist
        (w.sent.filter fun delivery => delivery.transport = .push) :=
    List.monotone_filter_right _ fun delivery hboth => by
      simp only [decide_eq_true_eq] at hboth ⊢
      exact hboth.1
  exact hfilter.map _

/-- The result is about the instruction. -/
def About (instruction : CopyInstruction) (result : ExecutionResult) : Prop :=
  result.copyId = instruction.copyId

structure Orderly (slaveId : Uuid) (link : Mt5Link) : Prop where
  grounded : grounded.Holds link.backend
  pushedOnce : link.backend.shared.PushedOnce
  serial : link.service.Serial About
  handed : link.service.requests.Subperm (pushed slaveId link.backend.shared.sent)
  opened : ∀ opening ∈ link.terminal.openings, ∀ instruction ∈ opening.instruction,
    instruction ∈ link.service.taken ∧ Mt5Service.OpenedBy instruction opening
  once : link.terminal.copyIds.Nodup
  working : ∀ socket instruction, link.service.phase = .working socket instruction →
    instruction ∈ link.service.taken ∧ instruction.copyId ∉ link.terminal.copyIds

namespace Orderly

theorem requests_nodup (h : link.Orderly slaveId) :
    (link.service.requests.map CopyInstruction.copyId).Nodup := by
  obtain ⟨handed, hperm, hsublist⟩ := h.handed
  have hnodup := (pushed_nodup h.pushedOnce slaveId).sublist (hsublist.map _)
  exact (hperm.map _).nodup_iff.mp hnodup

/-- The service goes on with what it has taken. -/
theorem goOn (h : link.Orderly slaveId) {service : Server CopyInstruction ExecutionResult}
    (hserial : service.Serial About) (hrequests : service.requests = link.service.requests)
    (htaken : service.taken = link.service.taken)
    (hphase : ∀ socket instruction, service.phase = .working socket instruction →
      link.service.phase = .working socket instruction) :
    Orderly slaveId { link with service := service } where
  grounded := h.grounded
  pushedOnce := h.pushedOnce
  serial := hserial
  handed := hrequests ▸ h.handed
  opened opening hopening instruction hinstruction := by
    rw [htaken]
    exact h.opened opening hopening instruction hinstruction
  once := h.once
  working socket instruction hworking := by
    rw [htaken]
    exact h.working socket instruction (hphase socket instruction hworking)

/-- An action of the backend and what it writes for the service. -/
theorem backend (h : link.Orderly slaveId) {a : Action} {c : Config}
    (hstep : Backend.step link.backend a = some c) {service : Server CopyInstruction ExecutionResult}
    (hserial : service.Serial About)
    (hrequests : service.requests.Subperm (link.service.requests ++
      pushed slaveId (link.backend.shared.deliveriesSince c.shared)))
    (htaken : service.taken = link.service.taken) (hphase : service.phase = link.service.phase)
    (registered : Option ℕ) :
    Orderly slaveId { link with backend := c, service := service, registered := registered } := by
  obtain ⟨hgrounded, hpushed⟩ := pushedOnce_preserved ⟨h.grounded, h.pushedOnce⟩ hstep
  refine ⟨hgrounded, hpushed, hserial, ?_, ?_, h.once, ?_⟩
  · rw [(Backend.step_before hstep).sent_eq, pushed_append]
    exact hrequests.trans ((List.subperm_append_right _).mpr h.handed)
  · intro opening hopening instruction hinstruction
    rw [htaken]
    exact h.opened opening hopening instruction hinstruction
  · intro socket instruction hworking
    rw [htaken]
    exact h.working socket instruction (hphase ▸ hworking)

/-- An action of the backend that writes nothing. -/
theorem silent (h : link.Orderly slaveId) {a : Action} {c : Config}
    (hstep : Backend.step link.backend a = some c) (registered : Option ℕ) :
    Orderly slaveId { link with backend := c, registered := registered } :=
  h.backend hstep h.serial (List.sublist_append_left _ _).subperm rfl rfl registered

theorem receive (h : link.Orderly slaveId) {service : Server CopyInstruction ExecutionResult}
    (htake : link.service.take = some service) : Orderly slaveId { link with service := service } := by
  obtain ⟨socket, instruction, hphase, hrequests, htaken⟩ := Server.take_cases htake
  have hnodup : (service.taken.map CopyInstruction.copyId).Nodup := by
    refine h.requests_nodup.sublist ?_
    rw [← hrequests]
    exact service.taken_sublist.map _
  rw [(htaken.map CopyInstruction.copyId).nodup_iff, List.map_append, List.nodup_append] at hnodup
  refine ⟨h.grounded, h.pushedOnce, h.serial.take htake, hrequests ▸ h.handed, ?_, h.once, ?_⟩
  · intro opening hopening other hother
    obtain ⟨hold, hopened⟩ := h.opened opening hopening other hother
    exact ⟨htaken.mem_iff.mpr (List.mem_append_left _ hold), hopened⟩
  · intro socket' instruction' hworking
    obtain ⟨-, rfl⟩ : socket = socket' ∧ instruction = instruction' := by
      simpa [hphase] using hworking
    refine ⟨htaken.mem_iff.mpr (List.mem_append_right _ (List.mem_singleton_self _)), fun hmem => ?_⟩
    obtain ⟨opening, hopening, hid⟩ := List.mem_filterMap.mp hmem
    obtain ⟨other, hother, hsame⟩ := Option.map_eq_some_iff.mp hid
    obtain ⟨hold, -⟩ := h.opened opening hopening other hother
    exact hnodup.2.2 _ (List.mem_map_of_mem hold) _ (by simp) hsame

/-- What the execution of the instruction in hand leads to. -/
theorem execute (h : link.Orderly slaveId) {socket : ℕ} {instruction : CopyInstruction}
    (hworking : link.service.phase = .working socket instruction)
    {terminal : Mt5Service.Terminal} {outcome : Except Mt5Service.Raised ExecutionResult}
    (hleads : Mt5Service.Leads link.terminal instruction terminal outcome)
    {service : Server CopyInstruction ExecutionResult}
    (hfinish : link.service.finish outcome.toOption = some service) :
    Orderly slaveId { link with service := service, terminal := terminal } := by
  have hsessions := Server.finish_same hfinish
  have hrequests : service.requests = link.service.requests := congrArg (List.flatMap _) hsessions
  have htaken : service.taken = link.service.taken := congrArg (List.flatMap _) hsessions
  obtain ⟨hmem, hfresh⟩ := h.working socket instruction hworking
  have hserial : service.Serial About := h.serial.finish hfinish fun _ other hother given hgiven => by
    obtain ⟨-, rfl⟩ : socket = _ ∧ instruction = other := by simpa [hworking] using hother
    exact (hleads.2 given hgiven).copyId
  refine ⟨h.grounded, h.pushedOnce, hserial, hrequests ▸ h.handed, ?_, ?_, ?_⟩
  · intro opening hopening other hother
    rw [htaken]
    rcases hleads.1.openings with hsame | ⟨opened, hopened, hnew⟩
    · exact h.opened opening (hsame ▸ hopening) other hother
    · rw [hnew] at hopening
      rcases List.mem_append.mp hopening with hold | hlast
      · exact h.opened opening hold other hother
      · obtain rfl := List.mem_singleton.mp hlast
        obtain rfl := Option.some.inj (hopened.owner.symm.trans hother)
        exact ⟨hmem, hopened⟩
  · rcases hleads.1.openings with hsame | ⟨opened, hopened, hnew⟩
    · rw [Mt5Service.Terminal.copyIds, hsame]
      exact h.once
    · rw [Mt5Service.Terminal.copyIds, hnew, List.filterMap_append]
      refine List.nodup_append.mpr ⟨h.once, by simp [hopened.owner], ?_⟩
      rintro id hid other hother rfl
      obtain rfl : id = instruction.copyId := by simpa [hopened.owner] using hother
      exact hfresh hid
  · intro socket' other hother
    exact absurd hother (Server.finish_idle hfinish socket' other)

theorem trade (h : link.Orderly slaveId) {trade : Mt5Service.Trade} {terminal : Mt5Service.Terminal}
    (htrade : link.terminal.trade trade = some terminal) :
    Orderly slaveId { link with terminal := terminal } := by
  rcases (Mt5Service.Terminal.trade_change htrade).openings with hsame | ⟨opened, hforeign, hnew⟩
  · have hids : terminal.copyIds = link.terminal.copyIds := congrArg (List.filterMap _) hsame
    exact ⟨h.grounded, h.pushedOnce, h.serial, h.handed,
      fun opening hopening => h.opened opening (hsame ▸ hopening), hids ▸ h.once, hids ▸ h.working⟩
  · have hids : terminal.copyIds = link.terminal.copyIds := by
      simp [Mt5Service.Terminal.copyIds, hnew, hforeign]
    refine ⟨h.grounded, h.pushedOnce, h.serial, h.handed, ?_, hids ▸ h.once, hids ▸ h.working⟩
    intro opening hopening instruction hinstruction
    rw [hnew] at hopening
    rcases List.mem_append.mp hopening with hold | hlast
    · exact h.opened opening hold instruction hinstruction
    · obtain rfl := List.mem_singleton.mp hlast
      rw [hforeign] at hinstruction
      cases hinstruction

end Orderly

theorem orderly_preserved (slaveId connectorId : Uuid) :
    Preserved (step slaveId connectorId) (Orderly slaveId) := by
  intro link a link' h hstep
  cases a with
  | backend action =>
      obtain ⟨c, hbackend, rfl⟩ := Option.map_eq_some_iff.mp hstep
      unfold write
      split
      · exact h.silent hbackend _
      · rename_i socket _
        exact h.backend hbackend (h.serial.write _ _) (Server.requests_write _ _)
          (h.serial.taken_write _ _) rfl _
  | connect =>
      obtain ⟨service, hopen, rfl⟩ := Option.map_eq_some_iff.mp hstep
      obtain ⟨hrequests, htaken, hphase⟩ := Server.open_same hopen
      exact h.goOn (h.serial.open hopen) hrequests htaken fun socket instruction hworking =>
        absurd hworking (hphase socket instruction)
  | register socket =>
      obtain ⟨-, hregister⟩ := Option.ite_none_right_eq_some.mp hstep
      obtain ⟨c, hbackend, rfl⟩ := Option.map_eq_some_iff.mp hregister
      exact h.silent hbackend _
  | closed socket =>
      simp only [step] at hstep
      split_ifs at hstep
      · obtain ⟨c, hbackend, rfl⟩ := Option.map_eq_some_iff.mp hstep
        exact h.silent hbackend _
      · obtain rfl := Option.some.inj hstep
        exact h
  | receive =>
      obtain ⟨service, htake, rfl⟩ := Option.map_eq_some_iff.mp hstep
      exact h.receive htake
  | execute platform =>
      simp only [step] at hstep
      split at hstep
      · rename_i socket instruction hworking
        obtain ⟨⟨terminal, outcome⟩, hhandle, hrest⟩ := Option.bind_eq_some_iff.mp hstep
        obtain ⟨service, hfinish, rfl⟩ := Option.map_eq_some_iff.mp hrest
        exact h.execute hworking (Mt5Service.handleInstruction_leads hhandle) hfinish
      · cases hstep
  | send =>
      obtain ⟨service, hreply, rfl⟩ := Option.map_eq_some_iff.mp hstep
      obtain ⟨hrequests, htaken, hphase⟩ := Server.reply_same hreply
      exact h.goOn (h.serial.reply hreply) hrequests htaken fun socket instruction hworking =>
        absurd hworking (hphase socket instruction)
  | leave =>
      obtain rfl := Option.some.inj hstep
      exact h.goOn h.serial.leave rfl rfl nofun
  | arrive socket =>
      obtain ⟨⟨result, service⟩, harrive, hrest⟩ := Option.bind_eq_some_iff.mp hstep
      obtain ⟨c, hbackend, rfl⟩ := Option.map_eq_some_iff.mp hrest
      obtain ⟨hrequests, htaken, hphase⟩ := Server.arrive_same harrive
      refine h.backend hbackend (h.serial.arrive harrive) ?_ htaken hphase link.registered
      exact hrequests ▸ (List.sublist_append_left _ _).subperm
  | trade trade =>
      obtain ⟨terminal, htrade, rfl⟩ := Option.map_eq_some_iff.mp hstep
      exact h.trade htrade

/-! ### Runs -/

/-- Nothing was sent yet, and the positions at the terminal are those of others. -/
structure Idle (link : Mt5Link) : Prop where
  backend : link.backend.Idle
  service : link.service = {}
  foreign : ∀ opening ∈ link.terminal.openings, opening.instruction = none

theorem Idle.orderly (h : link.Idle) : link.Orderly slaveId where
  grounded := h.backend.grounded
  pushedOnce := ⟨h.backend.keyed.eventIds, h.backend.keyed.tradeEventIds, by
    simp [World.pushes, h.backend.sent]⟩
  serial := h.service ▸ Server.serial_start
  handed := by
    rw [h.service]
    exact List.nil_subperm
  opened opening hopening instruction hinstruction := by
    rw [h.foreign opening hopening] at hinstruction
    cases hinstruction
  once := by
    have hnone : link.terminal.copyIds = [] :=
      List.filterMap_eq_nil_iff.mpr fun opening hopening => by rw [h.foreign opening hopening]; rfl
    rw [hnone]
    exact List.nodup_nil
  working socket instruction hworking := by
    rw [h.service] at hworking
    cases hworking

/-- How the service has served the slave. -/
structure Served (slaveId : Uuid) (link : Mt5Link) : Prop where
  /-- The results written to a socket are, in order, those of the first instructions written to it, and
  at most one more has been read. -/
  answers : ∀ session ∈ link.service.sessions,
    List.Forall₂ About (session.requests.take session.responses.length) session.responses ∧
      session.taken ≤ session.responses.length + 1
  /-- No instruction is written twice, be it to different sockets. -/
  requests : (link.service.requests.map CopyInstruction.copyId).Nodup ∧
    ∀ instruction ∈ link.service.requests, instruction ∈ pushed slaveId link.backend.shared.sent
  /-- A position of the service is that of an OPEN that it has read, and no other is of its copy order. -/
  positions : link.terminal.copyIds.Nodup ∧
    ∀ opening ∈ link.terminal.openings, ∀ instruction ∈ opening.instruction,
      instruction ∈ link.service.taken ∧ Mt5Service.OpenedBy instruction opening

/-- Whatever the backend, the network, the broker and other traders do, the service answers the
instructions of each socket in turn, and opens at most one position for a copy order. -/
theorem run_served (slaveId connectorId : Uuid) (start link : Mt5Link) (actions : List Mt5Action)
    (hstart : start.Idle) (hrun : follow (step slaveId connectorId) start actions = some link) :
    link.Served slaveId := by
  have h := (orderly_preserved slaveId connectorId).follow hstart.orderly hrun
  refine ⟨fun session hsession => ?_, ⟨h.requests_nodup, fun instruction hinstruction =>
    h.handed.subset hinstruction⟩, h.once, h.opened⟩
  obtain ⟨i, hget⟩ := List.mem_iff_getElem?.mp hsession
  obtain ⟨pending, hturn, hallows⟩ := h.serial i session hget
  have hone := hallows.length_le_one
  exact ⟨hturn.responses, by have := hturn.taken_eq; omega⟩

end Mt5Link

namespace Sample

def mt5Start : Mt5Link where
  backend :=
    let c := config mt5Slave [openEvent, closeEvent]
    { c with shared := { c.shared with connections := [] } }

/-- The oldest call runs on its own through `n` awaits. -/
def awaited (n : ℕ) : List Mt5Action := List.replicate n (.backend (.resume 0 .ok))

def carriedOut (order : ℕ) (price : ℚ) : Mt5Action :=
  .execute ⟨true, true, .done order price, ""⟩

/-- The service opens a position, loses its connection, and closes the position over the next one. -/
def reconnected : List Mt5Action :=
  [.connect, .register 0] ++ awaited 2 ++ .backend (.arrive (.masterEvent openEvent)) :: awaited 8 ++
    [.receive, carriedOut 875421 (11 / 10), .send, .arrive 0] ++ awaited 4 ++
    [.leave, .closed 0, .connect, .register 1] ++ awaited 2 ++
    .backend (.arrive (.masterEvent closeEvent)) :: awaited 7 ++
    [.receive, carriedOut 0 (109 / 100), .send, .arrive 1] ++ awaited 4

end Sample

open Sample Mt5Link in
theorem reconnected_served : mt5Start.Idle ∧ ∃ link, follow (step 5 9) mt5Start reconnected = some link ∧
    link.service.sessions.map (fun session => session.responses.length) = [1, 1] ∧ link.Served 5 := by
  have hidle : mt5Start.Idle := ⟨⟨⟨by decide, by decide, by decide, by decide⟩, rfl, rfl⟩, rfl, by decide⟩
  have hruns : ∃ link, follow (step 5 9) mt5Start reconnected = some link ∧
      link.service.sessions.map (fun session => session.responses.length) = [1, 1] := by
    decide +kernel
  obtain ⟨link, hrun, hanswered⟩ := hruns
  exact ⟨hidle, link, hrun, hanswered, run_served 5 9 mt5Start link reconnected hidle hrun⟩

end ForexCopy
