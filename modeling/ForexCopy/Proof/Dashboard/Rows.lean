import ForexCopy.Proof.Dashboard.TradesPage

/-!
# The rows of the page in any run

Whatever is lost, delayed or made out of order, and whenever sockets close and responses come: a row of
the page is of an order in the database, and no order has two.
-/

namespace ForexCopy

open Machine Pool

namespace LiveTrades

/-- Whatever a dashboard was told or will be told is about an order in the database. -/
structure Real (platformOf : Uuid → String) (s : LiveTrades) : Prop where
  grounded : grounded.Holds s.backend
  slaves : (slavesOutline fun slave => slave.platform = platformOf slave.id).Holds s.backend
  names : ∀ broadcast ∈ s.broadcasts ++ s.due, ∃ core ∈ s.backend.shared.cores, broadcast.Names core
  written : ∀ socket ∈ s.gateway.sockets, socket.written ⊆ s.broadcasts
  tidy : s.page.Tidy
  rows : ∀ row ∈ s.page.rows ++ s.page.coming, ∃ order ∈ s.backend.shared.copyOrders, row.Of order

variable {platformOf : Uuid → String} {s s' : LiveTrades} {a : LiveAction}

theorem Real.incoming (h : s.Real platformOf) : s.incoming ⊆ s.broadcasts := by
  unfold LiveTrades.incoming
  split
  · exact List.nil_subset _
  · rename_i i _
    intro broadcast hmem
    have hwritten := List.mem_of_mem_drop hmem
    unfold AdminGateway.written at hwritten
    cases hget : s.gateway.sockets[i]? with
    | none => simp [hget] at hwritten
    | some socket =>
        rw [hget] at hwritten
        exact h.written socket (List.mem_of_getElem? hget) hwritten

theorem Real.act {action : Action} (h : s.Real platformOf) (hstep : s.act action = some s') :
    s'.Real platformOf := by
  obtain ⟨hbroadcasts, hgateway, hpage⟩ := act_frame hstep
  have hbefore := Backend.step_before (act_backend hstep)
  refine ⟨grounded_preserved h.grounded (act_backend hstep), slaves_act h.slaves hstep,
    fun broadcast hmem => ?_, ?_, hpage ▸ h.tidy, fun row hrow => ?_⟩
  · have hold : broadcast ∈ s.broadcasts ++ s.due →
        ∃ core ∈ s'.backend.shared.cores, broadcast.Names core := fun hold => by
      obtain ⟨core, hcore, hnames⟩ := h.names broadcast hold
      exact ⟨core, hbefore.mem_cores hcore, hnames⟩
    by_cases hlost : action.reply = some .lost
    · rw [hbroadcasts, act_lost hlost hstep] at hmem
      exact hold hmem
    · obtain ⟨told, hdue, htold⟩ := act_told h.grounded h.slaves hlost hstep
      rw [hbroadcasts, hdue, ← List.append_assoc, List.mem_append] at hmem
      rcases hmem with hmem | hmem
      · exact hold hmem
      · exact htold.names hbefore (Option.mem_toList.mp hmem)
  · rw [hgateway, hbroadcasts]
    exact h.written
  · obtain ⟨order, horder, hof⟩ := h.rows row (hpage ▸ hrow)
    obtain ⟨order', horder', hcore⟩ :=
      World.exists_of_mem_cores (hbefore.mem_cores (World.core_mem_cores horder))
    exact ⟨order', horder', hof.of_core hcore⟩

theorem Real.announce {i : ℕ} (h : s.Real platformOf) (hstep : s.announce i = some s') :
    s'.Real platformOf := by
  obtain ⟨broadcast, -, hdue, rfl⟩ := announce_eq_some hstep
  refine ⟨h.grounded, h.slaves, fun other hmem => h.names other ?_, fun socket hsocket => ?_, h.tidy,
    h.rows⟩
  · rw [hdue]
    simp only [List.mem_append, List.mem_cons] at hmem ⊢
    tauto
  · obtain ⟨j, hj, rfl⟩ := List.mem_iff_getElem.mp hsocket
    simp only [AdminGateway.broadcastToAdmins, List.getElem_mapIdx]
    rw [AdminGateway.broadcastToAdmins, List.length_mapIdx] at hj
    have hwritten := h.written _ (List.getElem_mem hj)
    split_ifs
    · exact List.append_subset.mpr ⟨fun other hother => List.mem_append_left _ (hwritten hother),
        List.subset_append_right _ _⟩
    · exact fun other hother => List.mem_append_left _ (hwritten hother)

/-- A page with rows of orders in the database. -/
theorem Real.of_page {page : TradesPage} (h : s.Real platformOf) (htidy : page.Tidy)
    (hrows : ∀ row ∈ page.rows ++ page.coming,
      ∃ order ∈ s.backend.shared.copyOrders, row.Of order) :
    Real platformOf { s with page := page } :=
  ⟨h.grounded, h.slaves, h.names, h.written, htidy, hrows⟩

theorem Real.of_gateway {gateway : AdminGateway} (h : s.Real platformOf)
    (hwritten : ∀ socket ∈ gateway.sockets, socket.written ⊆ s.broadcasts) :
    Real platformOf { s with gateway := gateway } :=
  ⟨h.grounded, h.slaves, h.names, hwritten, h.tidy, h.rows⟩

theorem Real.register (h : s.Real platformOf) :
    Real platformOf { s with gateway := s.gateway.register } := by
  refine h.of_gateway fun socket hsocket => ?_
  rcases List.mem_append.mp hsocket with hold | hnew
  · exact h.written socket hold
  · obtain rfl := List.mem_singleton.mp hnew
    exact List.nil_subset _

theorem Real.onmessage {event : CopyOrderBroadcast} {rest : List CopyOrderBroadcast}
    (h : s.Real platformOf) (hincoming : s.incoming = event :: rest) :
    Real platformOf
      { s with page := { s.page.onEvent event with received := s.page.received + 1 } } := by
  have htidy := h.tidy.onEvent event
  refine h.of_page ⟨htidy.ids, htidy.length, htidy.answer⟩ fun row hrow => ?_
  have hmem : event ∈ s.broadcasts ++ s.due :=
    List.mem_append_left _ (h.incoming (hincoming ▸ List.mem_cons_self))
  obtain ⟨core, hcore, hnames⟩ := h.names event hmem
  obtain ⟨order, horder, rfl⟩ := World.exists_of_mem_cores hcore
  have hof := hnames.of_core
  have hshown : row ∈ (s.page.onEvent event).rows → ∃ order ∈ s.backend.shared.copyOrders,
      row.Of order := fun hshown => by
    obtain ⟨old, rfl⟩ | ⟨hold, -⟩ := ChangeFeed.mem_upsert h.tidy.ids hshown
    · exact ⟨order, horder, hof.copyId.symm, hof.masterId.symm, hof.slaveId.symm,
        hof.masterTicket.symm, hof.type.symm⟩
    · exact h.rows row (List.mem_append_left _ hold)
  rcases List.mem_append.mp hrow with hrow | hrow
  · exact hshown hrow
  · cases hload : s.page.load with
    | requested => simp [TradesPage.coming, TradesPage.onEvent, hload] at hrow
    | answered rows =>
        refine h.rows row (List.mem_append_right _ ?_)
        simpa [TradesPage.coming, TradesPage.onEvent, hload] using hrow
    | settled => exact hshown (by simpa [TradesPage.coming, TradesPage.onEvent, hload] using hrow)

theorem Real.serve (h : s.Real platformOf) :
    Real platformOf
      { s with page := { s.page with
          load := .answered (s.backend.shared.listCopyOrders none none (some 100)) } } := by
  refine h.of_page ⟨h.tidy.ids, h.tidy.length, ?_⟩ fun row hrow => ?_
  · rintro rows hrows
    obtain rfl := PageLoad.answered.inj hrows
    refine ⟨nodup_listCopyOrders h.grounded.1.ids _ _ _, ?_⟩
    exact (length_listCopyOrders_le _ _ _ _).trans (by decide)
  · rcases List.mem_append.mp hrow with hold | hanswer
    · exact h.rows row (List.mem_append_left _ hold)
    · obtain ⟨order, horder, rfl⟩ := mem_listCopyOrders hanswer
      exact ⟨order, horder, rfl, rfl, rfl, rfl, rfl⟩

/-- When the request is settled the page shows no row that it had not or was not going to have. -/
theorem Real.of_settled {page : TradesPage} (h : s.Real platformOf) (htidy : page.Tidy)
    (hload : page.load = .settled) (hrows : page.rows ⊆ s.page.rows ++ s.page.coming) :
    Real platformOf { s with page := page } := by
  refine h.of_page htidy fun row hrow => h.rows row (hrows ?_)
  simpa [TradesPage.coming, hload] using hrow

theorem Real.step (h : s.Real platformOf) (hstep : s.step a = some s') : s'.Real platformOf := by
  cases a with
  | backend action => exact h.act hstep
  | announce i => exact h.announce hstep
  | connect =>
      obtain rfl := Option.some.inj hstep
      exact h.register
  | advance j state =>
      obtain ⟨gateway, hadvance, rfl⟩ := Option.map_eq_some_iff.mp hstep
      obtain ⟨old, hold, hmove⟩ := Option.bind_eq_some_iff.mp hadvance
      split_ifs at hmove
      obtain rfl := Option.some.inj hmove
      refine h.of_gateway fun socket hsocket => ?_
      rcases List.mem_or_eq_of_mem_set hsocket with hmem | rfl
      · exact h.written socket hmem
      · exact h.written old (List.mem_of_getElem? hold)
  | closed j =>
      obtain ⟨gateway, hclosed, rfl⟩ := Option.map_eq_some_iff.mp hstep
      obtain ⟨old, -, hremove⟩ := Option.bind_eq_some_iff.mp hclosed
      split_ifs at hremove
      obtain rfl := Option.some.inj hremove
      exact h.of_gateway h.written
  | «open» =>
      simp only [LiveTrades.step] at hstep
      split at hstep
      · obtain rfl := Option.some.inj hstep
        exact h.register.of_page ⟨h.tidy.ids, h.tidy.length, h.tidy.answer⟩ h.rows
      · cases hstep
  | onclose =>
      simp only [LiveTrades.step] at hstep
      split at hstep
      · cases hstep
      · split_ifs at hstep
        obtain rfl := Option.some.inj hstep
        exact h.of_page ⟨h.tidy.ids, h.tidy.length, h.tidy.answer⟩ h.rows
  | onmessage =>
      simp only [LiveTrades.step] at hstep
      split at hstep
      · cases hstep
      · rename_i event rest hincoming
        obtain rfl := Option.some.inj hstep
        exact h.onmessage hincoming
  | serve =>
      simp only [LiveTrades.step] at hstep
      split at hstep
      · obtain rfl := Option.some.inj hstep
        exact h.serve
      all_goals cases hstep
  | loadInitial =>
      obtain ⟨page, hpage, rfl⟩ := Option.map_eq_some_iff.mp hstep
      unfold TradesPage.loadInitial at hpage
      split at hpage
      · rename_i rows hload
        obtain rfl := Option.some.inj hpage
        obtain ⟨hids, hlength⟩ := h.tidy.answer rows hload
        refine h.of_settled ⟨hids, hlength, fun _ hrows => by cases hrows⟩ rfl ?_
        simp [TradesPage.coming, hload]
      all_goals cases hpage
  | loadFails =>
      simp only [LiveTrades.step] at hstep
      have hsettled : Real platformOf { s with page := { s.page with load := .settled } } :=
        h.of_settled ⟨h.tidy.ids, h.tidy.length, fun _ hrows => by cases hrows⟩ rfl
          (List.subset_append_left _ _)
      split at hstep
      · exact Option.some.inj hstep ▸ hsettled
      · exact Option.some.inj hstep ▸ hsettled
      · cases hstep

theorem real_start {w : World} (hidle : Config.Idle ⟨w, []⟩) (hunique : (w.slaves.map Slave.id).Nodup) :
    (start w).Real w.platformOf where
  grounded := hidle.grounded
  slaves := (telling_start hidle hunique).slaves
  names := by simp [start]
  written := by simp [start]
  tidy := ⟨List.nodup_nil, Nat.zero_le _, fun _ hrows => by cases hrows⟩
  rows := by simp [start, TradesPage.coming]

/-- Whatever happens, the page has at most 200 rows, no two of one order, and each row shows the master,
the slave, the ticket and the type of an order in the database. -/
theorem page_rows_real {w : World} {actions : List LiveAction} (hidle : Config.Idle ⟨w, []⟩)
    (hunique : (w.slaves.map Slave.id).Nodup)
    (hrun : follow LiveTrades.step (start w) actions = some s) :
    s.page.rows.length ≤ MAX_ROWS ∧ (s.page.rows.map TradeRow.id).Nodup ∧
      ∀ row ∈ s.page.rows, ∃ order ∈ s.backend.shared.copyOrders, row.Of order := by
  have hpreserved : Preserved LiveTrades.step (Real w.platformOf) := fun _ _ _ h hstep => h.step hstep
  have hreal := hpreserved.follow (real_start hidle hunique) hrun
  exact ⟨hreal.tidy.length, hreal.tidy.ids, fun row hrow =>
    hreal.rows row (List.mem_append_left _ hrow)⟩

theorem watched_rows_real :
    ∃ s, follow LiveTrades.step (start Sample.trading) Sample.watched = some s ∧
      ∀ row ∈ s.page.rows, ∃ order ∈ s.backend.shared.copyOrders, row.Of order := by
  have hruns : (follow LiveTrades.step (start Sample.trading) Sample.watched).isSome := by
    decide +kernel
  obtain ⟨s, hrun⟩ := Option.isSome_iff_exists.mp hruns
  exact ⟨s, hrun, (page_rows_real Sample.trading_idle (by decide) hrun).2.2⟩

end LiveTrades

end ForexCopy
