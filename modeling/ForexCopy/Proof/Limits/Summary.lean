import ForexCopy.Proof.Limits.Room

/-!
# The summary and the limits

What the slave is committed to includes what the summary counts, so limits that hold of the
commitments hold of the summary.
-/

namespace ForexCopy

open Machine Pool

/-- The summary is within the limits of the slave. -/
def OpenPositionsSummary.Within (summary : OpenPositionsSummary) (slave : Slave) : Prop :=
  (∀ maxPositions ∈ slave.maxPositions, summary.count ≤ maxPositions) ∧
    ∀ maxExposure ∈ slave.maxExposure, summary.totalVolume ≤ maxExposure.toNumber

instance (summary : OpenPositionsSummary) (slave : Slave) : Decidable (summary.Within slave) :=
  inferInstanceAs (Decidable (_ ∧ _))

/-- In whatever order the database returns the rows, the summary is within the limits. -/
def Config.WithinLimits (c : Config) (slave : Slave) : Prop :=
  ∀ orders, orders.Perm c.shared.copyOrders → (getOpenPositionsSummary slave.id orders).Within slave

/-! ### The summary is part of the commitments -/

theorem stillOpen_executedOrders (slaveId : Uuid) (orders : List CopyOrder) :
    stillOpen (executedOrders slaveId .open orders) (executedOrders slaveId .close orders) =
      orders.filter fun order =>
        (order.slaveId = slaveId ∧ order.type = .open ∧ order.status = .executed) ∧
          order.masterTicket ∉ (executedOrders slaveId .close orders).map CopyOrder.masterTicket := by
  unfold stillOpen
  rw [executedOrders.eq_def slaveId .open, List.filter_filter]
  refine List.filter_congr fun order _ => ?_
  simp only [Bool.decide_and, Bool.and_comm]

/-- The open copies are among the rows that commit the slave. -/
theorem stillOpen_subperm {c : Config} {orders : List CopyOrder}
    (horders : orders.Perm c.shared.copyOrders) (slaveId : Uuid) :
    ((stillOpen (executedOrders slaveId .open orders) (executedOrders slaveId .close orders)).map
      CopyOrder.requestedVolume).Subperm (c.committedVolumes slaveId) := by
  have hcommits : (stillOpen (executedOrders slaveId .open orders)
      (executedOrders slaveId .close orders)).Sublist (orders.filter (c.Commits slaveId)) := by
    rw [stillOpen_executedOrders]
    refine List.monotone_filter_right _ fun order hopen => ?_
    simp only [decide_eq_true_eq] at hopen ⊢
    obtain ⟨⟨hslave, htype, hexecuted⟩, hticket⟩ := hopen
    refine ⟨hslave, htype, .inl hexecuted, ?_⟩
    rintro ⟨close, hclose, hsame, -⟩
    obtain ⟨hmem, hclosed⟩ := mem_executedOrders.mp hclose
    exact hticket (List.mem_map.mpr
      ⟨close, mem_executedOrders.mpr ⟨horders.mem_iff.mpr hmem, hclosed⟩, hsame⟩)
  have hrows : ((orders.filter (c.Commits slaveId)).map CopyOrder.requestedVolume).Perm
      ((c.shared.copyOrders.filter (c.Commits slaveId)).map CopyOrder.requestedVolume) :=
    (horders.filter _).map _
  exact ((hcommits.map _).subperm.trans hrows.subperm).trans (List.sublist_append_left _ _).subperm

theorem within_of_hasRoomFor {c : Config} {slave : Slave}
    (h : slave.HasRoomFor (c.committedVolumes slave.id)) : c.WithinLimits slave := by
  intro orders horders
  have hopen := h.mono (stillOpen_subperm horders slave.id)
  constructor
  · intro maxPositions hmax
    simpa [getOpenPositionsSummary, openPositionsSummary, getCopyOrderPositions, copyOrderPositions]
      using hopen.positions maxPositions hmax
  · intro maxExposure hmax
    refine hopen.exposure maxExposure hmax _ (List.mem_permutations'.mpr (.of_eq ?_))
    simp only [getCopyOrderPositions, copyOrderPositions, List.map_map]
    rfl

/-! ### The invariant -/

def SameLimits (slave other : Slave) : Prop :=
  other.id = slave.id →
    other.maxPositions = slave.maxPositions ∧ other.maxExposure = slave.maxExposure

theorem ofConfig_sameLimits (slave : Slave) : OfConfig (SameLimits slave) := by
  intro a b hconfig h hid
  have hsame : a.config.id = b.config.id := congrArg _ hconfig
  have hpositions : a.config.maxPositions = b.config.maxPositions := congrArg _ hconfig
  have hexposure : a.config.maxExposure = b.config.maxExposure := congrArg _ hconfig
  obtain ⟨hbefore, hbefore'⟩ := h (hsame.trans hid)
  exact ⟨hpositions.symm.trans hbefore, hexposure.symm.trans hbefore'⟩

def Undisturbed (slaveId : Uuid) (c : Config) (a : Action) : Prop :=
  FixedLimits slaveId c a ∧ ReportsOnce slaveId c a

/-- And there is room for each OPEN that is admitted. -/
def UndisturbedWithRoom (slaveId : Uuid) (c : Config) (a : Action) : Prop :=
  Undisturbed slaveId c a ∧ HasRoom slaveId c a

instance (slaveId : Uuid) (c : Config) (a : Action) : Decidable (Undisturbed slaveId c a) :=
  inferInstanceAs (Decidable (_ ∧ _))

instance (slaveId : Uuid) (c : Config) (a : Action) : Decidable (UndisturbedWithRoom slaveId c a) :=
  inferInstanceAs (Decidable (_ ∧ _))

theorem Slave.HasRoomFor.of_sameLimits {slave other : Slave} {volumes : List (Option (Decimal 2))}
    (h : other.HasRoomFor volumes) (hlimits : SameLimits slave other) (hid : other.id = slave.id) :
    slave.HasRoomFor volumes := by
  obtain ⟨hpositions, hexposure⟩ := hlimits hid
  exact ⟨hpositions ▸ h.positions, hexposure ▸ h.exposure⟩

theorem limits_preserved (slave : Slave) :
    Preserved (restrict Backend.step (UndisturbedWithRoom slave.id)) fun c =>
      ((grounded.Holds c ∧ admission.Holds c) ∧ (slavesOutline (SameLimits slave)).Holds c) ∧
        slave.HasRoomFor (c.committedVolumes slave.id) := by
  have hslaves : Preserved (restrict Backend.step (UndisturbedWithRoom slave.id))
      (slavesOutline (SameLimits slave)).Holds := by
    refine slaves_preserved (ofConfig_sameLimits slave) fun c id input hok _ other hother hid h => ?_
    intro hsame
    obtain ⟨hpositions, hexposure⟩ := hok.1.1 (id, input) rfl (hid.symm.trans hsame) other hother hsame
    rw [hpositions, hexposure]
    exact h hsame
  have hgrounded : Preserved (restrict Backend.step (UndisturbedWithRoom slave.id)) grounded.Holds :=
    grounded_preserved.restrict
  have hadmission : Preserved (restrict Backend.step (UndisturbedWithRoom slave.id))
      admission.Holds := admission_preserved.restrict
  refine ((hgrounded.and fun _ _ _ _ h hstep => hadmission h hstep).and
    fun _ _ _ _ h hstep => hslaves h hstep).and fun c a c' hc h hstep => ?_
  obtain ⟨hok, hstep⟩ := restrict_eq_some.mp hstep
  obtain ⟨⟨hgrounded, hadmission⟩, hheld⟩ := hc
  rcases committedVolumes_step hgrounded hadmission hstep hok.1.2 with
    hfewer | ⟨i, reply, task, volume, rfl, hget, hadmits, hfewer⟩
  · exact h.mono hfewer
  · obtain ⟨run, point, summary, rfl, hown, hsummary, hsized, hpasses⟩ := hadmits
    have hroom := hok.2 _ hget _ rfl hown summary hsummary volume hsized hpasses
    exact (hroom.of_sameLimits (hheld.2 _ (List.mem_of_getElem? hget)) hown).mono hfewer

/-! ### Runs -/

def Action.openTicket : Action → Option String
  | .arrive (.masterEvent event) => if event.type = .open then some event.masterTicket else none
  | _ => none

/-- The limits of a slave hold in every run in which they stay as they are, the OPENs have distinct
tickets, and the slave reports once on each instruction. -/
def LimitsHold : Prop :=
  ∀ (slave : Slave) (start c : Config) (actions : List Action), start.Idle →
    slave ∈ start.shared.slaves → (∀ other ∈ start.shared.slaves, other.id = slave.id → other = slave) →
    start.WithinLimits slave → (actions.filterMap Action.openTicket).Nodup →
    Backend.run (Undisturbed slave.id) start actions = some c → c.WithinLimits slave

namespace Sample

def limitedSlave : Slave :=
  { id := 5, masterId := 1, maxPositions := some 1, maxExposure := some ⟨100⟩ }

def limited : Config := config limitedSlave [openEvent, otherOpenEvent]

/-- A second OPEN is checked before the result of the first is recorded. -/
def opensTogether : List Action :=
  .arrive (.masterEvent openEvent) :: settle 8 ++ .arrive (.masterEvent otherOpenEvent) :: settle 8 ++
    reported 1 "71" ++ reported 2 "72"

/-- The second OPEN comes after the result of the first. -/
def opensInTurn : List Action :=
  .arrive (.masterEvent openEvent) :: settle 8 ++ reported 1 "71" ++
    .arrive (.masterEvent otherOpenEvent) :: settle 7

end Sample

theorem opens_together_exceed_limit : ¬LimitsHold := by
  intro h
  have hruns : ∃ c, Backend.run (Undisturbed 5) Sample.limited Sample.opensTogether = some c ∧
      (getOpenPositionsSummary 5 c.shared.copyOrders).count = 2 := by
    decide +kernel
  obtain ⟨c, hrun, hcount⟩ := hruns
  have hidle : Sample.limited.Idle := ⟨⟨by decide, by decide, by decide, by decide⟩, rfl, rfl⟩
  have hstart : Sample.limited.WithinLimits Sample.limitedSlave := by
    intro orders horders
    obtain rfl := List.perm_nil.mp horders
    decide +kernel
  have hwithin := h Sample.limitedSlave _ c _ hidle (by decide) (by decide) hstart (by decide) hrun
  have hone : (getOpenPositionsSummary 5 c.shared.copyOrders).count ≤ 1 :=
    (hwithin _ (.refl _)).1 1 rfl
  omega

/-- The limits hold when, each time an OPEN passes the checks on what it has read, there is room for it
beside what the slave is committed to. -/
theorem limits_hold_with_room (slave : Slave) (start c : Config) (actions : List Action)
    (hstart : start.Idle) (hslave : ∀ other ∈ start.shared.slaves, other.id = slave.id → other = slave)
    (hinit : slave.HasRoomFor (start.committedVolumes slave.id))
    (hrun : Backend.run (UndisturbedWithRoom slave.id) start actions = some c) :
    c.WithinLimits slave := by
  have hadmission : admission.Holds start := ⟨trivial, by simp [hstart.tasks]⟩
  have hslaves : (slavesOutline (SameLimits slave)).Holds start := by
    refine ⟨fun other hother hid => ?_, by simp [hstart.tasks]⟩
    obtain rfl := hslave other hother hid
    exact ⟨rfl, rfl⟩
  exact within_of_hasRoomFor ((limits_preserved slave).follow
    ⟨⟨⟨hstart.grounded, hadmission⟩, hslaves⟩, hinit⟩ hrun).2

theorem opens_in_turn_within_limit :
    ∃ c, Backend.run (UndisturbedWithRoom 5) Sample.limited Sample.opensInTurn = some c ∧
      c.WithinLimits Sample.limitedSlave := by
  have hruns : (Backend.run (UndisturbedWithRoom 5) Sample.limited Sample.opensInTurn).isSome := by
    decide +kernel
  obtain ⟨c, hrun⟩ := Option.isSome_iff_exists.mp hruns
  have hidle : Sample.limited.Idle := ⟨⟨by decide, by decide, by decide, by decide⟩, rfl, rfl⟩
  exact ⟨c, hrun, limits_hold_with_room Sample.limitedSlave _ c _ hidle (by decide)
    (by decide +kernel) hrun⟩

end ForexCopy
