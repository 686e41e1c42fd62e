import ForexCopy.Proof.Master.Changes
import Mathlib.Tactic.Linarith

/-!
# Replaying what a scan sends

A receiver that knows the open orders of one scan applies the events of the next. It ends with the
orders of that scan exactly when no order was both partly closed and given new stops in between: the
test for new stops is the `else` branch of the test for a partial close, and the next comparison
starts from the new snapshot.
-/

namespace ForexCopy.Mt4

/-- What a receiver keeps of one open order. -/
structure Holding where
  lots : ℚ
  sl : ℚ
  tp : ℚ
  deriving DecidableEq

/-- The open orders by master ticket. -/
abbrev Book := String → Option Holding

def OrderSnapshot.holding (order : OrderSnapshot) : Holding := ⟨order.lots, order.sl, order.tp⟩

def bookOf (snapshot : List OrderSnapshot) : Book := fun masterTicket =>
  (Table.lookup (fun order => toString order.ticket) masterTicket snapshot).map OrderSnapshot.holding

/-- What an event does to the order it is about. -/
def effect (held : Option Holding) (event : TradeEventCall) : Option Holding :=
  match event.type with
  | .open => some ⟨event.volume, event.sl, event.tp⟩
  | .partialClose => held.map fun holding => { holding with lots := holding.lots - event.volume }
  | .modify => held.map fun holding => { holding with sl := event.sl, tp := event.tp }
  | .close => none
  | _ => held

def replay (book : Book) (event : TradeEventCall) : Book :=
  Function.update book event.masterTicket (effect (book event.masterTicket) event)

/-- Equal as far as the EA tells lots and prices apart. -/
def Holding.Agrees (a b : Holding) : Prop :=
  (¬a.lots < b.lots - tolerance ∧ ¬b.lots < a.lots - tolerance) ∧
    DoubleEquals a.sl b.sl ∧ DoubleEquals a.tp b.tp

instance (a b : Holding) : Decidable (a.Agrees b) := inferInstanceAs (Decidable (_ ∧ _))

def Agree (a b : Option Holding) : Prop :=
  (a = none ↔ b = none) ∧ ∀ x ∈ a, ∀ y ∈ b, x.Agrees y

instance (a b : Option Holding) : Decidable (Agree a b) :=
  inferInstanceAs (Decidable (_ ∧ _))

/-! ### One ticket at a time -/

theorem doubleEquals_refl (a : ℚ) : DoubleEquals a a := by
  simp [DoubleEquals, tolerance]

theorem doubleEquals_comm (a b : ℚ) : DoubleEquals a b ↔ DoubleEquals b a := by
  unfold DoubleEquals
  rw [abs_sub_comm]

theorem foldl_replay (book : Book) (events : List TradeEventCall) (masterTicket : String) :
    events.foldl replay book masterTicket =
      (events.filter fun event => event.masterTicket = masterTicket).foldl effect (book masterTicket) := by
  induction events generalizing book with
  | nil => rfl
  | cons event rest ih =>
      rw [List.foldl_cons, ih, List.filter_cons]
      by_cases hticket : event.masterTicket = masterTicket
      · simp [replay, hticket]
      · simp [replay, hticket, Function.update_of_ne (Ne.symm hticket)]

theorem foldl_effect_content (held : Option Holding) (events : List TradeEventCall) :
    (events.map TradeEventCall.content).foldl effect held = events.foldl effect held := by
  rw [List.foldl_map]
  rfl

theorem lookup_toString (snapshot : List OrderSnapshot) (ticket : ℕ) :
    Table.lookup (fun order => toString order.ticket) (toString ticket) snapshot =
      findByTicket snapshot ticket := by
  unfold findByTicket Table.lookup
  congr 1
  funext order
  exact decide_eq_decide.mpr ⟨Numeral.toString_nat_injective, congrArg toString⟩

theorem tolerance_pos : 0 < tolerance := by norm_num [tolerance]

theorem Holding.agrees_refl (a : Holding) : a.Agrees a := by
  have hsame : ¬a.lots < a.lots - tolerance := by
    have := tolerance_pos
    linarith
  exact ⟨⟨hsame, hsame⟩, doubleEquals_refl _, doubleEquals_refl _⟩

theorem agree_some_iff {a b : Holding} : Agree (some a) (some b) ↔ a.Agrees b := by
  simp [Agree]

/-- The round trip of an order that is open in both snapshots. -/
theorem agree_openChange_iff {prev order : OrderSnapshot} (hlots : order.lots ≤ prev.lots) :
    Agree (((openChange (some prev) (some order)).map Change.content).foldl effect
        (some prev.holding)) (some order.holding) ↔
      (order.lots < prev.lots - tolerance →
        DoubleEquals order.sl prev.sl ∧ DoubleEquals order.tp prev.tp) := by
  have hgrown : ¬prev.lots < order.lots - tolerance := by
    have := tolerance_pos
    linarith
  unfold openChange
  dsimp only
  split_ifs with hshrunk hmoved
  · have hclosed : prev.lots - (prev.lots - order.lots) = order.lots := by ring
    change Agree (some ⟨prev.lots - (prev.lots - order.lots), prev.sl, prev.tp⟩) _ ↔ _
    rw [agree_some_iff, hclosed, doubleEquals_comm order.sl, doubleEquals_comm order.tp]
    exact ⟨fun h _ => h.2, fun h => ⟨order.holding.agrees_refl.1, h hshrunk⟩⟩
  · change Agree (some ⟨prev.lots, order.sl, order.tp⟩) _ ↔ _
    rw [agree_some_iff]
    exact ⟨fun _ h => absurd h hshrunk,
      fun _ => ⟨⟨hgrown, hshrunk⟩, doubleEquals_refl _, doubleEquals_refl _⟩⟩
  · rw [not_or, not_not, not_not] at hmoved
    change Agree (some prev.holding) _ ↔ _
    rw [agree_some_iff]
    exact ⟨fun _ h => absurd h hshrunk, fun _ => ⟨⟨hgrown, hshrunk⟩,
      (doubleEquals_comm _ _).mp hmoved.1, (doubleEquals_comm _ _).mp hmoved.2⟩⟩

/-- What a receiver makes of one ticket, by the ticket's entries in the two snapshots. -/
theorem replay_detectOpenChanges (ea : MasterEa) (terminal : Terminal) {current : List OrderSnapshot}
    (hprevious : (ea.openSnapshot.map OrderSnapshot.ticket).Nodup)
    (hcurrent : (current.map OrderSnapshot.ticket).Nodup) (ticket : ℕ) :
    ((ea.detectOpenChanges terminal current).sentSince ea).foldl replay (bookOf ea.openSnapshot)
        (toString ticket) =
      ((openChange (findByTicket ea.openSnapshot ticket) (findByTicket current ticket)).map
        Change.content).foldl effect ((findByTicket ea.openSnapshot ticket).map OrderSnapshot.holding) := by
  have hsent := (MasterEa.foldl_report_sent terminal ea (openChanges ea.openSnapshot current)).2
  rw [← MasterEa.detectOpenChanges_eq] at hsent
  rw [foldl_replay, ← foldl_effect_content, ← openChanges_of_ticket hprevious hcurrent,
    ← filter_content, ← hsent, List.filter_map, bookOf, lookup_toString]
  rfl

/-- A text that is no ticket's has no events and no order. -/
theorem replay_detectOpenChanges_of_ne (ea : MasterEa) (terminal : Terminal)
    (current : List OrderSnapshot) {masterTicket : String}
    (h : ∀ ticket : ℕ, toString ticket ≠ masterTicket) :
    ((ea.detectOpenChanges terminal current).sentSince ea).foldl replay (bookOf ea.openSnapshot)
        masterTicket = none ∧ bookOf current masterTicket = none := by
  have hnone : ∀ snapshot : List OrderSnapshot, bookOf snapshot masterTicket = none := by
    intro snapshot
    have hfind : Table.lookup (fun order => toString order.ticket) masterTicket snapshot = none :=
      List.find?_eq_none.mpr fun order _ => by simpa using h order.ticket
    rw [bookOf, hfind]
    rfl
  have hsent := (MasterEa.foldl_report_sent terminal ea (openChanges ea.openSnapshot current)).2
  rw [← MasterEa.detectOpenChanges_eq] at hsent
  have hevents : ((ea.detectOpenChanges terminal current).sentSince ea).filter
      (fun event => event.masterTicket = masterTicket) = [] := by
    refine List.filter_eq_nil_iff.mpr fun event hevent => ?_
    have hmem : event.content ∈ (openChanges ea.openSnapshot current).map Change.content :=
      hsent ▸ List.mem_map_of_mem hevent
    obtain ⟨change, -, hchange⟩ := List.mem_map.mp hmem
    have hticket : event.masterTicket = toString change.ticket :=
      (congrArg TradeEventCall.masterTicket hchange).symm
    simpa [hticket] using h change.ticket
  rw [foldl_replay, hevents, hnone, hnone]
  exact ⟨rfl, rfl⟩

namespace Sample

/-- Half of it is closed, and its stop is set to the opening price. -/
def halved : OrderSnapshot := { order with lots := 1, sl := 11 / 10 }

def attached : MasterEa := MasterEa.onInit 7 { orders := [order] }

end Sample

end ForexCopy.Mt4
