import ForexCopy.Library.Numerals
import ForexCopy.Proof.Terminal.Evidence
import ForexCopy.Slave.Mt5Service

/-!
# What the service does with an instruction

Whatever the platform answers, an instruction leaves the log of the terminal as it is or adds the one
position of its copy order, and what is returned reports no more than has happened.
-/

namespace ForexCopy

theorem Python.int_toString (n : ℕ) : Python.int (toString n) = some (n : ℤ) := by
  have hdigit {c : Char} (hc : c ∈ (toString n).toList) : c.isDigit := Numeral.isDigit_of_mem hc
  have hblank {c : Char} (hc : c ∈ (toString n).toList) : ¬Python.isSpace c := by
    have hrange := hdigit hc
    simp only [Char.isDigit, Bool.and_eq_true, decide_eq_true_eq] at hrange
    have hlow : 48 ≤ c.toNat := hrange.1
    simp only [Python.isSpace, decide_eq_true_eq, not_or, not_and, not_le]
    exact ⟨by rintro rfl; simp at hlow, by omega, by omega⟩
  have hstart : (toString n).toList.dropWhile Python.isSpace = (toString n).toList :=
    List.dropWhile_eq_self_iff.mpr fun _ => hblank (List.getElem_mem _)
  have hend : (toString n).toList.rdropWhile Python.isSpace = (toString n).toList :=
    List.rdropWhile_eq_self_iff.mpr fun _ => hblank (List.getLast_mem _)
  have hsign {c : Char} (hc : c.isDigit = false) : (toString n).toList.head? ≠ some c :=
    fun hhead => by simp [hdigit (List.mem_of_mem_head? hhead)] at hc
  have hgroups : (toString n).toList.splitOn '_' = [(toString n).toList] :=
    List.splitOnP_eq_singleton fun c hc => by
      have hne : c ≠ '_' := by
        rintro rfl
        exact absurd (hdigit hc) (by decide)
      simpa using hne
  have hvalue : Nat.ofDigitChars 10 (toString n).toList 0 = n := by
    simp [Nat.toString_eq_repr, Nat.toList_repr]
  have hall : (toString n).toList.all Char.isDigit := List.all_eq_true.mpr fun c hc => hdigit hc
  unfold Python.int
  simp only [hstart, hend, hsign (c := '-') (by decide), hsign (c := '+') (by decide), or_self, if_false,
    hgroups, List.all_cons, List.all_nil, List.flatten_cons, List.flatten_nil, List.append_nil, hvalue,
    hall]
  simp

namespace Mt5Service

/-! ### The terminal -/

/-- The position that an OPEN instruction leads to. -/
structure OpenedBy (instruction : CopyInstruction) (opening : Opening) : Prop where
  action : instruction.action = .open
  owner : opening.instruction = some instruction
  symbol : opening.position.symbol = instruction.symbol
  side : instruction.side = some opening.position.type
  volume : ∃ volume ∈ instruction.volume, opening.position.volume ≤ volume
  comment : opening.position.comment = comment instruction

namespace Terminal

/-- What may happen at a terminal, where what is opened is as `Owned` says. -/
inductive Change (Owned : Opening → Prop) (terminal : Terminal) : Terminal → Prop
  | same : Change Owned terminal terminal
  | opened (opening : Opening) (howned : Owned opening)
      (hfresh : opening.position.ticket ∉ terminal.tickets) :
      Change Owned terminal ⟨terminal.positions ++ [opening.position], terminal.openings ++ [opening]⟩
  | removed (ticket : ℕ) : Change Owned terminal (terminal.remove ticket)
  | updated (ticket : ℕ) (volume sl tp : ℚ) :
      Change Owned terminal (terminal.update ticket volume sl tp)

variable {terminal terminal' : Terminal} {reply : BrokerReply}

theorem open_eq_some {opening : Opening} (h : terminal.open opening = some terminal') :
    opening.position.ticket ∉ terminal.tickets ∧
      terminal' = ⟨terminal.positions ++ [opening.position], terminal.openings ++ [opening]⟩ := by
  obtain ⟨hfresh, hopened⟩ := Option.ite_none_left_eq_some.mp h
  exact ⟨hfresh, (Option.some.inj hopened).symm⟩

theorem trade_change {trade : Trade} (h : terminal.trade trade = some terminal') :
    terminal.Change (fun opening => opening.instruction = none) terminal' := by
  cases trade with
  | opened position =>
      obtain ⟨hfresh, rfl⟩ := open_eq_some h
      exact .opened _ rfl hfresh
  | removed ticket =>
      obtain rfl := Option.some.inj h
      exact .removed ticket
  | updated ticket volume sl tp =>
      obtain rfl := Option.some.inj h
      exact .updated ticket volume sl tp

theorem positionsGet_eq_some {ticket : ℤ} {position : Position}
    (h : terminal.positionsGet ticket = some position) : (position.ticket : ℤ) = ticket :=
  @Table.lookup_key _ _ _ (fun position : Position => (position.ticket : ℤ)) _ _ _ h

theorem sendOpen_change {instruction : CopyInstruction} (haction : instruction.action = .open)
    {position : Position} (hsymbol : position.symbol = instruction.symbol)
    (hside : instruction.side = some position.type) (hvolume : instruction.volume = some position.volume)
    (hcomment : position.comment = Mt5Service.comment instruction)
    (h : terminal.sendOpen reply instruction position = some terminal') :
    terminal.Change (OpenedBy instruction) terminal' ∧ ∀ order price, reply = .done order price →
      ∃ opening ∈ terminal'.openings, OpenedBy instruction opening ∧ opening.position.ticket = order := by
  obtain ⟨dealt, hdealt, hsend⟩ := Option.bind_eq_some_iff.mp h
  have hle : dealt = 0 ∨ dealt ≤ position.volume := by
    cases reply with
    | done order price =>
        obtain ⟨-, hall⟩ := Option.ite_none_right_eq_some.mp hdealt
        exact .inr (Option.some.inj hall).ge
    | notDone comment order part =>
        obtain ⟨hpart, hsome⟩ := Option.ite_none_right_eq_some.mp hdealt
        obtain rfl := Option.some.inj hsome
        exact hpart.imp id And.right
  by_cases hzero : dealt = 0
  · rw [if_pos hzero] at hsend
    obtain rfl := Option.some.inj hsend
    refine ⟨.same, ?_⟩
    rintro order price rfl
    obtain ⟨hpos, hall⟩ := Option.ite_none_right_eq_some.mp hdealt
    rw [Option.some.inj hall, hzero] at hpos
    exact absurd hpos (lt_irrefl 0)
  · rw [if_neg hzero] at hsend
    obtain ⟨hfresh, rfl⟩ := open_eq_some hsend
    have hopened : OpenedBy instruction
        ⟨{ position with ticket := reply.order, volume := dealt }, some instruction⟩ :=
      ⟨haction, rfl, hsymbol, hside, ⟨_, hvolume, hle.resolve_left hzero⟩, hcomment⟩
    refine ⟨.opened _ hopened hfresh, ?_⟩
    rintro order price rfl
    exact ⟨_, List.mem_append_right _ (List.mem_singleton_self _), hopened, rfl⟩

theorem sendClose_change (Owned : Opening → Prop) {position : Position}
    (h : terminal.sendClose reply position = some terminal') :
    terminal.Change Owned terminal' ∧ ∀ order price, reply = .done order price →
      position.ticket ∉ terminal'.positions.map Position.ticket := by
  obtain ⟨dealt, hdealt, rfl⟩ := Option.map_eq_some_iff.mp h
  constructor
  · split_ifs
    · exact .same
    · exact .removed _
    · exact .updated _ _ _ _
  · rintro order price rfl
    obtain ⟨hpos, hall⟩ := Option.ite_none_right_eq_some.mp hdealt
    obtain rfl := Option.some.inj hall
    rw [if_neg hpos.ne', if_pos rfl]
    simp [remove]

theorem sendStops_change (Owned : Opening → Prop) {ticket : ℤ} {sl tp : ℚ}
    (h : terminal.sendStops reply ticket sl tp = some terminal') : terminal.Change Owned terminal' := by
  unfold sendStops at h
  split at h
  · obtain rfl := Option.some.inj h
    exact .updated _ _ _ _
  · cases h
  · obtain rfl := Option.some.inj h
    split_ifs
    · exact .same
    · exact .updated _ _ _ _
  · obtain rfl := Option.some.inj h
    exact .same

end Terminal

/-! ### Instructions -/

/-- What a result says has happened at the terminal. -/
structure Reports (instruction : CopyInstruction) (terminal : Terminal) (result : ExecutionResult) :
    Prop where
  copyId : result.copyId = instruction.copyId
  ticket : result.status = .executed → result.slaveTicket.isSome
  opened : instruction.action = .open → ∀ ticket ∈ result.slaveTicket, ∃ opening ∈ terminal.openings,
    OpenedBy instruction opening ∧ ticket = toString opening.position.ticket
  closed : instruction.action = .close → ∀ ticket ∈ result.slaveTicket, ∃ n : ℕ, ticket = toString n ∧
    instruction.slaveTicket.bind Python.int = some (n : ℤ) ∧
      n ∉ terminal.positions.map Position.ticket

theorem reports_failure (instruction : CopyInstruction) (terminal : Terminal) (reason : String) :
    Reports instruction terminal (failure instruction reason) where
  copyId := rfl
  ticket := nofun
  opened := nofun
  closed := nofun

section

variable {terminal terminal' : Terminal} {platform : Platform} {instruction : CopyInstruction}
  {outcome : Except Raised ExecutionResult}

/-- What an execution leads to. -/
def Leads (terminal : Terminal) (instruction : CopyInstruction) (terminal' : Terminal)
    (outcome : Except Raised ExecutionResult) : Prop :=
  terminal.Change (OpenedBy instruction) terminal' ∧
    ∀ result ∈ outcome.toOption, Reports instruction terminal' result

/-- A failure says nothing about what has happened. -/
theorem leads_failure (hchange : terminal.Change (OpenedBy instruction) terminal') (reason : String) :
    Leads terminal instruction terminal' (.ok (failure instruction reason)) := by
  refine ⟨hchange, ?_⟩
  rintro result ⟨⟩
  exact reports_failure _ _ _

theorem leads_raised (raised : Raised) : Leads terminal instruction terminal (.error raised) :=
  ⟨.same, nofun⟩

theorem executeOpen_leads (haction : instruction.action = .open)
    (h : executeOpen terminal platform instruction = some (terminal', outcome)) :
    Leads terminal instruction terminal' outcome := by
  unfold executeOpen at h
  split at h
  · obtain ⟨rfl, rfl⟩ := Prod.mk.inj (Option.some.inj h)
    exact leads_failure .same _
  split at h
  · obtain ⟨rfl, rfl⟩ := Prod.mk.inj (Option.some.inj h)
    exact leads_failure .same _
  · obtain ⟨rfl, rfl⟩ := Prod.mk.inj (Option.some.inj h)
    exact leads_raised _
  · obtain ⟨rfl, rfl⟩ := Prod.mk.inj (Option.some.inj h)
    exact leads_raised _
  · rename_i side volume htick hside hvolume
    obtain ⟨sent, hsend, hreturn⟩ := Option.map_eq_some_iff.mp h
    obtain ⟨hchange, hdone⟩ := Terminal.sendOpen_change haction rfl hside hvolume rfl hsend
    cases hreply : platform.reply with
    | done order price =>
        simp only [hreply] at hreturn
        obtain ⟨rfl, rfl⟩ := Prod.mk.inj hreturn
        refine ⟨hchange, ?_⟩
        rintro result ⟨⟩
        refine ⟨rfl, fun _ => rfl, ?_, fun hclose => ?_⟩
        · rintro - ticket ⟨⟩
          obtain ⟨opening, hopening, hopened, rfl⟩ := hdone order price hreply
          exact ⟨opening, hopening, hopened, rfl⟩
        · rw [haction] at hclose
          cases hclose
    | notDone comment order dealt =>
        simp only [hreply] at hreturn
        obtain ⟨rfl, rfl⟩ := Prod.mk.inj hreturn
        exact leads_failure hchange _

/-- The ticket is a number, and a position's is a natural one. -/
theorem toString_ticket {position : Position} {ticket : ℤ} (h : (position.ticket : ℤ) = ticket) :
    toString ticket = toString position.ticket := by
  rw [← h]
  rfl

theorem executeClose_leads (haction : instruction.action = .close)
    (h : executeClose terminal platform instruction = some (terminal', outcome)) :
    Leads terminal instruction terminal' outcome := by
  unfold executeClose at h
  split at h
  · obtain ⟨rfl, rfl⟩ := Prod.mk.inj (Option.some.inj h)
    exact leads_raised _
  rename_i text htext
  split at h
  · obtain ⟨rfl, rfl⟩ := Prod.mk.inj (Option.some.inj h)
    exact leads_raised _
  rename_i ticket hticket
  split at h
  · obtain ⟨rfl, rfl⟩ := Prod.mk.inj (Option.some.inj h)
    exact leads_failure .same _
  · obtain ⟨rfl, rfl⟩ := Prod.mk.inj (Option.some.inj h)
    exact leads_failure .same _
  · rename_i position hposition htick
    obtain ⟨sent, hsend, hreturn⟩ := Option.map_eq_some_iff.mp h
    obtain ⟨hchange, hdone⟩ := Terminal.sendClose_change (OpenedBy instruction) hsend
    have hnumber := Terminal.positionsGet_eq_some hposition
    cases hreply : platform.reply with
    | done order price =>
        simp only [hreply] at hreturn
        obtain ⟨rfl, rfl⟩ := Prod.mk.inj hreturn
        refine ⟨hchange, ?_⟩
        rintro result ⟨⟩
        refine ⟨rfl, fun _ => rfl, fun hopen => ?_, ?_⟩
        · rw [haction] at hopen
          cases hopen
        · rintro - ticketText ⟨⟩
          refine ⟨position.ticket, toString_ticket hnumber, ?_, hdone order price hreply⟩
          rw [htext, Option.bind_some, hticket, hnumber]
    | notDone comment order dealt =>
        simp only [hreply] at hreturn
        obtain ⟨rfl, rfl⟩ := Prod.mk.inj hreturn
        exact leads_failure hchange _

theorem executeModify_leads (haction : instruction.action = .modify)
    (h : executeModify terminal platform instruction = some (terminal', outcome)) :
    Leads terminal instruction terminal' outcome := by
  unfold executeModify at h
  split at h
  · obtain ⟨rfl, rfl⟩ := Prod.mk.inj (Option.some.inj h)
    exact leads_raised _
  split at h
  · obtain ⟨rfl, rfl⟩ := Prod.mk.inj (Option.some.inj h)
    exact leads_raised _
  · obtain ⟨sent, hsend, hreturn⟩ := Option.map_eq_some_iff.mp h
    have hchange := Terminal.sendStops_change (OpenedBy instruction) hsend
    cases hreply : platform.reply with
    | done order price =>
        simp only [hreply] at hreturn
        obtain ⟨rfl, rfl⟩ := Prod.mk.inj hreturn
        refine ⟨hchange, ?_⟩
        rintro result ⟨⟩
        refine ⟨rfl, fun _ => rfl, fun hopen => ?_, fun hclose => ?_⟩
        · rw [haction] at hopen
          cases hopen
        · rw [haction] at hclose
          cases hclose
    | notDone comment order dealt =>
        simp only [hreply] at hreturn
        obtain ⟨rfl, rfl⟩ := Prod.mk.inj hreturn
        exact leads_failure hchange _

theorem handleInstruction_leads
    (h : handleInstruction terminal platform instruction = some (terminal', outcome)) :
    Leads terminal instruction terminal' outcome := by
  unfold handleInstruction at h
  cases haction : instruction.action with
  | «open» =>
      simp only [haction] at h
      exact executeOpen_leads haction h
  | close =>
      simp only [haction] at h
      exact executeClose_leads haction h
  | modify =>
      simp only [haction] at h
      exact executeModify_leads haction h
  | partialClose | pendingOpen | pendingModify | pendingCancel =>
      simp only [haction] at h
      obtain ⟨rfl, rfl⟩ := Prod.mk.inj (Option.some.inj h)
      exact leads_failure .same _

end

end Mt5Service

end ForexCopy
