import ForexCopy.Proof.Terminal.Alone
import Mathlib.Logic.Relation

/-!
# Push and poll give the same instruction

A push builds its instruction in memory; a poll rebuilds it from the PENDING row and its trade event,
that is from numbers that have been through the columns. Events come on the grid of their columns, so
what can be lost is the volume of an OPEN: rounding down to the lot step leaves eight digits after the
point, and the column keeps two. The reads of both calls may each see another state of the world.
-/

namespace ForexCopy

open Relation (ReflTransGen)

/-- The event holds the numbers a connector has printed, volumes with two digits after the point and
stops with five. -/
structure NormalizedTradeEvent.Printed (event : NormalizedTradeEvent) : Prop where
  volume : ∀ q ∈ event.volume, Binary64.IsNumber q ∧ Decimal.OnGrid 2 q
  sl : ∀ q ∈ event.sl, Binary64.IsNumber q ∧ Decimal.OnGrid 5 q
  tp : ∀ q ∈ event.tp, Binary64.IsNumber q ∧ Decimal.OnGrid 5 q

theorem Decimal.map_toNumber_ofNumber {scale : ℕ} {value : Option ℚ} (hscale : scale ≤ 324)
    (hnonneg : ∀ q ∈ value, 0 ≤ q) (h : ∀ q ∈ value, Binary64.IsNumber q ∧ Decimal.OnGrid scale q) :
    (value.map (Decimal.ofNumber scale)).map Decimal.toNumber = value := by
  cases value with
  | none => rfl
  | some q =>
      obtain ⟨hnumber, hgrid⟩ := h q rfl
      exact congrArg some ((Decimal.toNumber_ofNumber_iff (hnonneg q rfl) hnumber hscale).mpr hgrid)

/-! ### What a dispatch prepares -/

namespace CopyRun

/-- The reads of a run of `copyToSlave`, each in some state of the world, up to the insert. -/
def Prepares (run : CopyRun) (resolvedSymbol : String) (slaveTicket : Option String)
    (volume : Option ℚ) : Prop :=
  ReflTransGen (fun point point' => ∃ w, CopyRead w run point point') .resolveSymbol
    (.createOrder resolvedSymbol slaveTicket volume)

/-- Only the volume of an OPEN is sized. -/
def KeepsVolume (run : CopyRun) : CopyPoint → Prop
  | .createOrder _ _ volume => run.event.type ≠ .open → volume = run.event.volume
  | _ => True

variable {run : CopyRun} {w : World}

theorem keepsVolume_of_read {point point' : CopyPoint} (hread : CopyRead w run point point')
    (hadmitted : run.Admitted point) : run.KeepsVolume point' := by
  cases hread with
  | symbol =>
      unfold afterSymbol
      split_ifs
      · trivial
      · trivial
      · exact fun _ => rfl
  | ticket =>
      unfold afterTicket
      split
      · trivial
      · exact fun _ => rfl
  | opens | closes | offline => trivial
  | closesAfterOpens | opensAfterCloses =>
      have hopen : run.event.type = .open := hadmitted
      unfold afterPositions
      repeat' split
      all_goals simp [KeepsVolume, hopen]

theorem Prepares.found {resolvedSymbol : String} {slaveTicket : Option String} {volume : Option ℚ}
    (h : run.Prepares resolvedSymbol slaveTicket volume) (hcopyable : isCopyableEvent run.event) :
    run.Admitted (.createOrder resolvedSymbol slaveTicket volume) ∧
      run.KeepsVolume (.createOrder resolvedSymbol slaveTicket volume) := by
  have hpoints : ∀ point,
      ReflTransGen (fun point point' => ∃ w, CopyRead w run point point') .resolveSymbol point →
      run.Admitted point ∧ run.KeepsVolume point := by
    intro point hreads
    induction hreads with
    | refl => exact ⟨trivial, trivial⟩
    | tail _ hread ih =>
        obtain ⟨w, hread⟩ := hread
        exact ⟨hread.admitted hcopyable ih.1, keepsVolume_of_read hread ih.1⟩
  exact hpoints _ h

/-- A dispatch of an OPEN that runs on its own goes through these reads. -/
theorem Prepares.of_open {resolvedSymbol : String} {slaveTicket : Option String} {volume : Option ℚ}
    (hsymbol : run.afterSymbol (w.resolveSlaveSymbol run.slave.id run.event.symbol) =
      .readPositions resolvedSymbol)
    (hpositions : run.afterPositions resolvedSymbol (w.getOpenPositionsSummary run.slave.id) =
      .createOrder resolvedSymbol slaveTicket volume) :
    run.Prepares resolvedSymbol slaveTicket volume :=
  ((ReflTransGen.single ⟨w, hsymbol ▸ .symbol⟩).tail ⟨w, .opens resolvedSymbol⟩).tail
    ⟨w, hpositions ▸ .closesAfterOpens resolvedSymbol _⟩

/-- The volume calculated for an OPEN has at most two digits after the point. -/
def SizesStorable (run : CopyRun) : Prop :=
  run.event.type = .open → ∀ volume ∈ run.sized, Decimal.OnGrid 2 volume

/-- Only a calculated volume can be stored as another one. -/
theorem Prepares.stored_iff {resolvedSymbol : String} {slaveTicket : Option String}
    {volume : Option ℚ} (h : run.Prepares resolvedSymbol slaveTicket volume)
    (hcopyable : isCopyableEvent run.event) (hprinted : run.event.Printed) :
    (volume.map (Decimal.ofNumber 2)).map Decimal.toNumber = volume ↔ run.SizesStorable := by
  obtain ⟨⟨hopens, -⟩, hkeeps⟩ := h.found hcopyable
  by_cases htype : run.event.type = .open
  · obtain ⟨-, -, lots, rfl, hlots⟩ := hopens htype
    have hsized : run.sized = some lots := sized_eq_some.mpr hlots
    calc _ ↔ (Decimal.ofNumber 2 lots).toNumber = lots := Option.some_inj
      _ ↔ Decimal.OnGrid 2 lots := sized_stored_iff hsized
      _ ↔ run.SizesStorable := by
          unfold SizesStorable
          simp [htype, hsized]
  · obtain ⟨-, -, -, hpositive, -⟩ := run.event.valid
    have hvolume : volume = run.event.volume := hkeeps htype
    rw [hvolume, Decimal.map_toNumber_ofNumber (by norm_num) (fun q hq => (hpositive q hq).le)
      hprinted.volume]
    exact ⟨fun _ hopen => absurd hopen htype, fun _ => rfl⟩

/-! ### What a dispatch pushes -/

/-- The same copy to a slave that is the same but for its platform. -/
def onPlatform (run : CopyRun) (platform : String) : CopyRun :=
  { run with slave := { run.slave with platform := platform } }

theorem sent_createOrder_of_connected {platform : String} {reply : Reply} (hreply : reply.Resolves)
    (hplatform : platform ≠ "MT4") (hconnected : w.isSlaveConnected run.slave.id = true)
    (hunsent : run.Unsent w) (resolvedSymbol : String) (slaveTicket : Option String)
    (volume : Option ℚ) :
    (copyToSlaveStep reply w (run.onPlatform platform)
        (.createOrder resolvedSymbol slaveTicket volume)).1.sent =
      w.sent ++ [⟨.push, run.slave.id,
        run.instruction w.nextCopyId resolvedSymbol slaveTicket volume⟩] := by
  have hcreated : w.createOrder ((run.onPlatform platform).pendingOrder w.nextCopyId volume) =
      some (w.insertOrder (run.pendingOrder w.nextCopyId volume)) := if_neg hunsent
  have hdispatch : ((run.onPlatform platform).dispatch
      (w.insertOrder (run.pendingOrder w.nextCopyId volume)) w.nextCopyId resolvedSymbol slaveTicket
      volume).1.sent = w.sent ++ [⟨.push, run.slave.id,
        run.instruction w.nextCopyId resolvedSymbol slaveTicket volume⟩] := by
    have hinserted : (w.insertOrder (run.pendingOrder w.nextCopyId volume)).isSlaveConnected
        (run.onPlatform platform).slave.id = true := hconnected
    unfold dispatch World.sendToSlave
    rw [if_neg (show (run.onPlatform platform).slave.platform ≠ "MT4" from hplatform),
      if_pos hinserted, if_pos hinserted]
    rfl
  simp only [copyToSlaveStep, hcreated]
  rcases hreply with rfl | rfl <;> exact hdispatch

/-! ### What a poll rebuilds -/

/-- The lookups return what they have returned at dispatch. -/
structure AgreesAt (run : CopyRun) (resolvedSymbol : String) (slaveTicket : Option String)
    (w : World) : Prop where
  symbol : w.resolveSlaveSymbol run.slave.id run.event.symbol = resolvedSymbol
  ticket : run.event.type ≠ .open →
    findExecutedOpenSlaveTicket run.slave.id run.event.masterTicket w.copyOrders = slaveTicket

/-- The reads of a poll that has found the row, each in a state in which the lookups agree. -/
def Rebuilds (run : CopyRun) (resolvedSymbol : String) (slaveTicket : Option String)
    (order : CopyOrder) (tradeEvent : TradeEvent) (instruction : CopyInstruction) : Prop :=
  ReflTransGen (fun point point' => ∃ w, run.AgreesAt resolvedSymbol slaveTicket w ∧
    PollRead w run.slave.id point point') (pickUp order tradeEvent) (.markSent instruction)

variable {resolvedSymbol : String} {slaveTicket : Option String} {volume : Option ℚ}
  {copyId id : Uuid}

/-- Where a poll can be that has found the run's row. -/
def Rebuilding (run : CopyRun) (resolvedSymbol : String) (slaveTicket : Option String)
    (order : CopyOrder) (tradeEvent : TradeEvent) (point : PollPoint) : Prop :=
  (point = .findTicket order tradeEvent ∧ run.event.type ≠ .open) ∨
    point = .resolveSymbol order tradeEvent slaveTicket ∨
    point = .markSent (order.instruction tradeEvent resolvedSymbol slaveTicket)

theorem rebuilding_pickUp (hcopyable : isCopyableEvent run.event)
    (hopens : run.event.type = .open → slaveTicket = none) (tradeEvent : TradeEvent) :
    run.Rebuilding resolvedSymbol slaveTicket (run.pendingOrder copyId volume) tradeEvent
      (pickUp (run.pendingOrder copyId volume) tradeEvent) := by
  unfold pickUp
  split_ifs with hacts
  · refine .inl ⟨rfl, fun hopen => ?_⟩
    change run.event.type = .close ∨ run.event.type = .modify at hacts
    rw [hopen] at hacts
    rcases hacts with h | h <;> cases h
  · have hopen : run.event.type = .open := hcopyable.resolve_right hacts
    exact .inr (.inl (by rw [hopens hopen]))

theorem rebuilding_read {tradeEvent : TradeEvent} (hsymbol : tradeEvent.symbol = run.event.symbol)
    (hticket : run.event.type ≠ .open → truthy slaveTicket = slaveTicket ∧ slaveTicket ≠ none)
    (hagrees : run.AgreesAt resolvedSymbol slaveTicket w) {point point' : PollPoint}
    (h : run.Rebuilding resolvedSymbol slaveTicket (run.pendingOrder copyId volume) tradeEvent point)
    (hread : PollRead w run.slave.id point point') :
    run.Rebuilding resolvedSymbol slaveTicket (run.pendingOrder copyId volume) tradeEvent point' := by
  rcases h with ⟨rfl, htype⟩ | rfl | rfl
  · have hfound := hagrees.ticket htype
    obtain ⟨htruthy, hsome⟩ := hticket htype
    cases hread with
    | noTicket _ hnone =>
        change truthy (findExecutedOpenSlaveTicket _ run.event.masterTicket _) = none at hnone
        rw [hfound, htruthy] at hnone
        exact absurd hnone hsome
    | ticket _ hticket =>
        change truthy (findExecutedOpenSlaveTicket _ run.event.masterTicket _) = _ at hticket
        rw [hfound, htruthy] at hticket
        exact .inr (.inl (by rw [hticket]))
  · cases hread
    exact .inr (.inr (by rw [hsymbol, hagrees.symbol]))
  · cases hread

theorem Rebuilds.rebuilding {tradeEvent : TradeEvent} {instruction : CopyInstruction}
    (h : run.Rebuilds resolvedSymbol slaveTicket (run.pendingOrder copyId volume) tradeEvent instruction)
    (hcopyable : isCopyableEvent run.event) (hopens : run.event.type = .open → slaveTicket = none)
    (hticket : run.event.type ≠ .open → truthy slaveTicket = slaveTicket ∧ slaveTicket ≠ none)
    (hsymbol : tradeEvent.symbol = run.event.symbol) :
    run.Rebuilding resolvedSymbol slaveTicket (run.pendingOrder copyId volume) tradeEvent
      (.markSent instruction) := by
  have hpoints : ∀ point,
      ReflTransGen (fun point point' => ∃ w, run.AgreesAt resolvedSymbol slaveTicket w ∧
        PollRead w run.slave.id point point') (pickUp (run.pendingOrder copyId volume) tradeEvent) point →
      run.Rebuilding resolvedSymbol slaveTicket (run.pendingOrder copyId volume) tradeEvent point := by
    intro point hreads
    induction hreads with
    | refl => exact rebuilding_pickUp hcopyable hopens tradeEvent
    | tail _ hread ih =>
        obtain ⟨w, hagrees, hread⟩ := hread
        exact rebuilding_read hsymbol hticket hagrees ih hread
  exact hpoints _ h

/-- Of the fields of an instruction only the volume can be another one. -/
theorem rebuilt_iff (hprinted : run.event.Printed) :
    (run.pendingOrder copyId volume).instruction (run.event.row id) resolvedSymbol slaveTicket =
        run.instruction copyId resolvedSymbol slaveTicket volume ↔
      (volume.map (Decimal.ofNumber 2)).map Decimal.toNumber = volume := by
  obtain ⟨-, -, -, -, -, hslValid, htpValid⟩ := run.event.valid
  have hsl := Decimal.map_toNumber_ofNumber (by norm_num) hslValid hprinted.sl
  have htp := Decimal.map_toNumber_ofNumber (by norm_num) htpValid hprinted.tp
  simp only [CopyOrder.instruction, CopyRun.instruction, pendingOrder, order,
    NormalizedTradeEvent.row, hsl, htp, CopyInstruction.mk.injEq, true_and, and_true]

/-- A poll that finds the row on its own, in a state in which the lookups agree, hands the instruction
over. -/
theorem alone_responds {tradeEvent : TradeEvent} (hcopyable : isCopyableEvent run.event)
    (hopens : run.event.type = .open → slaveTicket = none)
    (hticket : run.event.type ≠ .open → truthy slaveTicket = slaveTicket ∧ slaveTicket ≠ none)
    (hsymbol : tradeEvent.symbol = run.event.symbol)
    (hagrees : run.AgreesAt resolvedSymbol slaveTicket w)
    (holdest : oldestPending run.slave.id w.copyOrders = some (run.pendingOrder copyId volume))
    (hevent : Table.lookup TradeEvent.id run.tradeEventId w.tradeEvents = some tradeEvent) :
    (w.alone [.poll run.slave.id .findOrder]).shared.sent = w.sent ++ [⟨.poll, run.slave.id,
      (run.pendingOrder copyId volume).instruction tradeEvent resolvedSymbol slaveTicket⟩] := by
  have hresolve : ∀ n, (Config.settle (n + 2) ⟨w, [.poll run.slave.id
      (.resolveSymbol (run.pendingOrder copyId volume) tradeEvent slaveTicket)]⟩).shared.sent =
      w.sent ++ [⟨.poll, run.slave.id,
        (run.pendingOrder copyId volume).instruction tradeEvent resolvedSymbol slaveTicket⟩] := by
    intro n
    rw [Config.settle_single]
    simp only [Task.step, pendingInstructionStep, Reply.query, Reply.settle, hsymbol, hagrees.symbol]
    rw [Config.settle_single]
    simp only [Task.step, pendingInstructionStep, Config.settle_nil, World.sent_respond,
      World.sent_updateOrder]
  have hrow : Table.lookup TradeEvent.id (run.pendingOrder copyId volume).tradeEventId w.tradeEvents =
      some tradeEvent := hevent
  unfold World.alone awaits
  rw [Config.settle_single]
  simp only [Task.step, pendingInstructionStep, holdest, hrow, Reply.query, Reply.settle]
  have hpickUp : run.Rebuilding resolvedSymbol slaveTicket (run.pendingOrder copyId volume) tradeEvent
      (pickUp (run.pendingOrder copyId volume) tradeEvent) :=
    rebuilding_pickUp hcopyable hopens tradeEvent
  rcases hpickUp with ⟨hpoint, htype⟩ | hpoint | hpoint
  · obtain ⟨htruthy, hsome⟩ := hticket htype
    obtain ⟨ticket, rfl⟩ := Option.ne_none_iff_exists'.mp hsome
    have hfound : truthy (findExecutedOpenSlaveTicket run.slave.id
        (run.pendingOrder copyId volume).masterTicket w.copyOrders) = some ticket :=
      (congrArg truthy (hagrees.ticket htype)).trans htruthy
    rw [hpoint, Config.settle_single]
    simp only [Task.step, pendingInstructionStep, hfound, Reply.query, Reply.settle]
    exact hresolve _
  · rw [hpoint]
    exact hresolve _
  · unfold pickUp at hpoint
    split at hpoint <;> cases hpoint

end CopyRun

/-- Every copy of a printed event to a slave with lots is handed over by a poll as it would be pushed. -/
def PollsAsPushed : Prop :=
  ∀ (run : CopyRun) (platform : String) (w w' : World) (id : Uuid) (resolvedSymbol : String)
    (slaveTicket : Option String) (volume : Option ℚ), isCopyableEvent run.event →
    run.event.Printed → 0 < run.slave.minLot.units ∧ 0 < run.slave.maxLot.units ∧
      0 < run.slave.lotStep.units →
    run.Prepares resolvedSymbol slaveTicket volume → platform ≠ "MT4" →
    w.isSlaveConnected run.slave.id = true → run.Unsent w →
    run.AgreesAt resolvedSymbol slaveTicket w' →
    oldestPending run.slave.id w'.copyOrders = some (run.pendingOrder w.nextCopyId volume) →
    Table.lookup TradeEvent.id run.tradeEventId w'.tradeEvents = some (run.event.row id) →
    ∀ pushed, (copyToSlaveStep .ok w (run.onPlatform platform)
        (.createOrder resolvedSymbol slaveTicket volume)).1.sent =
      w.sent ++ [⟨.push, run.slave.id, pushed⟩] →
      (w'.alone [.poll run.slave.id .findOrder]).shared.sent =
        w'.sent ++ [⟨.poll, run.slave.id, pushed⟩]

/-- An installation in which the run is about to insert its row, and the same with the row waiting. -/
def Sample.before (run : CopyRun) : World := (Sample.config run.slave [run.event]).shared

def Sample.waiting (run : CopyRun) (volume : Option ℚ) : World :=
  (Sample.before run).insertOrder (run.pendingOrder (Sample.before run).nextCopyId volume)

/-- An event of more than 64 million lots, copied one to one to a slave whose cap is 100 million. -/
def Sample.hugeOpenEvent : NormalizedTradeEvent where
  eventId := "OPEN-7-1004"
  masterTicket := "1004"
  type := .open
  symbol := "EURUSD"
  side := some .buy
  volume := some (6442938269 / 100)
  masterId := 1
  valid := by decide +kernel

def Sample.hugeRun : CopyRun :=
  ⟨{ Sample.mt4Slave with maxLot := ⟨10 ^ 10⟩ }, 0, Sample.hugeOpenEvent, ⟨none, none⟩⟩

/-- What the doubles make of its volume. -/
def Sample.hugeLots : ℚ := 6442938269000001 / 10 ^ 8

/-- 64429382.69000001 lots are pushed, and 64429382.69 are handed over. -/
theorem huge_volume_pushed_otherwise : ¬PollsAsPushed := by
  intro h
  have hprepares : Sample.hugeRun.Prepares "EURUSD" none (some Sample.hugeLots) :=
    .of_open (w := Sample.before Sample.hugeRun) (by decide +kernel) (by decide +kernel)
  have hprinted : Sample.hugeRun.event.Printed :=
    ⟨by decide +kernel, by decide +kernel, by decide +kernel⟩
  have hagrees : Sample.hugeRun.AgreesAt "EURUSD" none
      (Sample.waiting Sample.hugeRun (some Sample.hugeLots)) :=
    ⟨by decide +kernel, fun h => absurd rfl h⟩
  have hpolled := h Sample.hugeRun "MT5" (Sample.before Sample.hugeRun)
    (Sample.waiting Sample.hugeRun (some Sample.hugeLots)) 0 "EURUSD" none (some Sample.hugeLots)
    (by decide) hprinted (by decide) hprepares (by decide) (by decide) List.not_mem_nil hagrees
    (by decide +kernel) (by decide +kernel)
    (Sample.hugeRun.instruction 1 "EURUSD" none (some Sample.hugeLots)) (by decide +kernel)
  exact absurd hpolled (by decide +kernel)

/-- What a push sends is what a poll rebuilds, and what a poll hands over that comes when the lookups
agree, exactly when the volume of an OPEN has at most two digits after the point. Up to a cap of twenty
million lots a lot step sees to that. -/
theorem rebuilt_as_pushed (run : CopyRun) (platform : String) (w : World) (id : Uuid)
    (resolvedSymbol : String) (slaveTicket : Option String) (volume : Option ℚ)
    (hcopyable : isCopyableEvent run.event) (hprinted : run.event.Printed)
    (hprepares : run.Prepares resolvedSymbol slaveTicket volume) (hplatform : platform ≠ "MT4")
    (hconnected : w.isSlaveConnected run.slave.id = true) (hunsent : run.Unsent w) :
    (run.slave.lotStep.units ≠ 0 → run.slave.maxLot.value ≤ 20000000 → run.SizesStorable) ∧
    ∃ pushed,
      (∀ reply : Reply, reply.Resolves → (copyToSlaveStep reply w (run.onPlatform platform)
          (.createOrder resolvedSymbol slaveTicket volume)).1.sent =
        w.sent ++ [⟨.push, run.slave.id, pushed⟩]) ∧
      (∀ instruction, run.Rebuilds resolvedSymbol slaveTicket
          (run.pendingOrder w.nextCopyId volume) (run.event.row id) instruction →
        (instruction = pushed ↔ run.SizesStorable)) ∧
      ∀ w', run.AgreesAt resolvedSymbol slaveTicket w' →
        oldestPending run.slave.id w'.copyOrders = some (run.pendingOrder w.nextCopyId volume) →
        Table.lookup TradeEvent.id run.tradeEventId w'.tradeEvents = some (run.event.row id) →
        ((w'.alone [.poll run.slave.id .findOrder]).shared.sent =
          w'.sent ++ [⟨.poll, run.slave.id, pushed⟩] ↔ run.SizesStorable) := by
  obtain ⟨⟨hopens, hacts⟩, -⟩ := hprepares.found hcopyable
  have hnone : run.event.type = .open → slaveTicket = none := fun htype => (hopens htype).2.1
  have hticket : run.event.type ≠ .open → truthy slaveTicket = slaveTicket ∧ slaveTicket ≠ none := by
    intro htype
    obtain ⟨ticket, rfl, hne⟩ := hacts htype
    exact ⟨truthy_eq_some.mpr ⟨rfl, hne⟩, by simp⟩
  have hsame : (run.pendingOrder w.nextCopyId volume).instruction (run.event.row id) resolvedSymbol
      slaveTicket = run.instruction w.nextCopyId resolvedSymbol slaveTicket volume ↔
        run.SizesStorable :=
    (CopyRun.rebuilt_iff hprinted).trans (hprepares.stored_iff hcopyable hprinted)
  refine ⟨fun hstep hmax _ lots hlots => CopyRun.sized_onGrid hstep hmax hlots,
    run.instruction w.nextCopyId resolvedSymbol slaveTicket volume, fun reply hreply => ?_,
    fun instruction hrebuilds => ?_, fun w' hagrees holdest hevent => ?_⟩
  · exact CopyRun.sent_createOrder_of_connected hreply hplatform hconnected hunsent _ _ _
  · rcases hrebuilds.rebuilding hcopyable hnone hticket rfl with ⟨h, -⟩ | h | h
    · cases h
    · cases h
    · rw [PollPoint.markSent.inj h, hsame]
  · rw [CopyRun.alone_responds hcopyable hnone hticket rfl hagrees holdest hevent, ← hsame]
    constructor
    · intro hsent
      have hlast := List.append_cancel_left hsent
      injection hlast with hdelivery
      injection hdelivery
    · intro h
      rw [h]

/-- The first event as it is copied to the slave that polls. -/
def Sample.queuedRun : CopyRun := ⟨Sample.mt4Slave, 0, Sample.openEvent, ⟨none, none⟩⟩

theorem queued_rebuilt_as_pushed :
    ∃ pushed, (copyToSlaveStep .ok (Sample.before Sample.queuedRun) (Sample.queuedRun.onPlatform "MT5")
        (.createOrder "EURUSD" none (some 1))).1.sent = [⟨.push, 4, pushed⟩] ∧
      ((Sample.waiting Sample.queuedRun (some 1)).alone [.poll 4 .findOrder]).shared.sent =
        [⟨.poll, 4, pushed⟩] := by
  have hprepares : Sample.queuedRun.Prepares "EURUSD" none (some 1) :=
    .of_open (w := Sample.before Sample.queuedRun) (by decide +kernel) (by decide +kernel)
  have hprinted : Sample.queuedRun.event.Printed :=
    ⟨by decide +kernel, by decide +kernel, by decide +kernel⟩
  obtain ⟨hstorable, pushed, hpush, -, hpoll⟩ := rebuilt_as_pushed Sample.queuedRun "MT5"
    (Sample.before Sample.queuedRun) 0 "EURUSD" none (some 1) (by decide) hprinted hprepares (by decide)
    (by decide) List.not_mem_nil
  have hagrees : Sample.queuedRun.AgreesAt "EURUSD" none (Sample.waiting Sample.queuedRun (some 1)) :=
    ⟨by decide +kernel, fun h => absurd rfl h⟩
  have hsizes : Sample.queuedRun.SizesStorable := hstorable (by decide) (by decide +kernel)
  exact ⟨pushed, hpush .ok (.inl rfl),
    (hpoll _ hagrees (by decide +kernel) (by decide +kernel)).mpr hsizes⟩

end ForexCopy
