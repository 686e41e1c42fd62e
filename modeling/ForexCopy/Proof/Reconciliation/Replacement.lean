import ForexCopy.Backend.Reconciliation
import ForexCopy.Library.Machine

/-!
# Replacing findings

A run replaces the findings of a pair in two statements that are no transaction. Two runs at the pair
can both delete before either inserts, and then the findings are there twice; and a run that fails
between its two statements leaves the pair without any. That is all that can go wrong: where no run
deletes while another has still to insert, and none fails in between, the rows of a pair are at all
times what one run has found, or what was there before all runs, or being replaced by one run.
-/

namespace ForexCopy

open Machine Pool

namespace Reconcile

/-- The pair a run is about to delete the findings of, and what it will insert. -/
def deleting : Reconcile → Option (PairScan × List Finding)
  | .pair _ scan (.deleteMany findings) _ => some (scan, findings)
  | _ => none

/-- The pair a run has deleted the findings of, and what it is about to insert. -/
def creating : Reconcile → Option (PairScan × List Finding)
  | .pair _ scan (.createMany findings) _ => some (scan, findings)
  | _ => none

/-- Whether the run has deleted the pair's findings and has its own still to insert. -/
def Replaces (masterId slaveId : Uuid) (task : Reconcile) : Prop :=
  ∃ entry ∈ task.creating, entry.1.masterId = masterId ∧ entry.1.slaveId = slaveId

instance (masterId slaveId : Uuid) (task : Reconcile) : Decidable (task.Replaces masterId slaveId) :=
  inferInstanceAs (Decidable (∃ entry ∈ task.creating, _))

end Reconcile

def ReconcileAction.resumed (c : Reconciliation) : ReconcileAction → Option Reconcile
  | .resume i _ => c.tasks[i]?
  | _ => none

def ReconcileAction.reply : ReconcileAction → Option Reply
  | .resume _ reply => some reply
  | _ => none

/-- No run that has findings deletes while another run has to insert its own for the pair, or fails
once it has deleted. -/
def ReplacedInTurn (c : Reconciliation) (a : ReconcileAction) : Prop :=
  (∀ task ∈ a.resumed c, ∀ entry ∈ task.deleting, entry.2 ≠ [] → a.reply ≠ some .rejected →
    a.reply ≠ some .lost ∧ ∀ other ∈ c.tasks, ¬other.Replaces entry.1.masterId entry.1.slaveId) ∧
  ∀ task ∈ a.resumed c, task.creating.isSome → a.reply ≠ some .rejected

instance (c : Reconciliation) (a : ReconcileAction) : Decidable (ReplacedInTurn c a) :=
  inferInstanceAs (Decidable ((∀ task ∈ a.resumed c, ∀ entry ∈ task.deleting, _) ∧
    ∀ task ∈ a.resumed c, _))

/-! ### What a step can do -/

/-- Reading, or ended. -/
def Reconcile.Reads (task : Reconcile) : Prop := task.deleting = none ∧ task.creating = none

inductive Reconcile.Step (books : Books) : Reply → Reconcile → Books → List Reconcile → Prop
  | read {reply task next} (htask : task.Reads) (hnext : ∀ t ∈ next, t.Reads) :
    Step books reply task books next
  | compare {reply task} (htask : task.Reads) (now scan findings rest) :
    Step books reply task (books.compute scan findings) [.pair now scan (.deleteMany findings) rest]
  | deleteRejected (now scan findings rest) :
    Step books .rejected (.pair now scan (.deleteMany findings) rest) books []
  | deleteLost (now scan findings rest) :
    Step books .lost (.pair now scan (.deleteMany findings) rest) (books.deleteFindings scan) []
  | deletedAll {reply next} (now scan rest) (hnext : ∀ t ∈ next, t.Reads) :
    Step books reply (.pair now scan (.deleteMany []) rest) (books.deleteFindings scan) next
  | deleted {reply} (hreply : reply ≠ .rejected) (now scan findings rest) (hne : findings ≠ []) :
    Step books reply (.pair now scan (.deleteMany findings) rest) (books.deleteFindings scan)
      [.pair now scan (.createMany findings) rest]
  | createRejected (now scan findings rest) :
    Step books .rejected (.pair now scan (.createMany findings) rest) books []
  | created {reply next} (now scan findings rest) (hnext : ∀ t ∈ next, t.Reads) :
    Step books reply (.pair now scan (.createMany findings) rest)
      (books.createFindings scan findings) next

namespace Reconcile

variable {env : ReconciliationEnv} {books books' : Books} {reply : Reply} {next : List Reconcile}

theorem nextPair_reads (now : DateTime) (rest : List ScannedPair) :
    ∀ t ∈ nextPair env now rest, t.Reads := by
  induction rest with
  | nil => simp [nextPair]
  | cons head tail ih =>
      unfold nextPair
      split
      · exact ih
      · intro t ht
        rw [List.mem_singleton.mp ht]
        exact ⟨rfl, rfl⟩

theorem nextExpected_sound {task : Reconcile} (htask : task.Reads) {now : DateTime} {scan : PairScan}
    {rest : List ScannedPair} {positions : CopyOrderPositions}
    {expected : List (String × Option ExpectedSlTp)} {remaining : List OpenCopyOrderInfo}
    (h : nextExpected env books now scan rest positions expected remaining = (books', next)) :
    Step books reply task books' next := by
  cases remaining with
  | nil =>
      cases h
      exact .compare htask _ _ _ _
  | cons info tail =>
      cases h
      refine .read htask fun t ht => ?_
      rw [List.mem_singleton.mp ht]
      exact ⟨rfl, rfl⟩

theorem step_sound {task : Reconcile} (h : step env reply books task = (books', next)) :
    Step books reply task books' next := by
  cases task with
  | findSlaves masterId slaveId =>
      have hreads : (Reconcile.findSlaves masterId slaveId).Reads := ⟨rfl, rfl⟩
      cases reply <;> cases h
      · exact .read hreads (nextPair_reads _ _)
      · exact .read hreads (nextPair_reads _ _)
      · exact .read hreads (by simp)
      · exact .read hreads (by simp)
  | pair now scan point rest =>
      change pairStep env reply books now scan rest point = _ at h
      cases point with
      | readPositions =>
          have hreads : (Reconcile.pair now scan .readPositions rest).Reads := ⟨rfl, rfl⟩
          cases reply <;> cases h
          · exact .read hreads (by simp [Reads, deleting, creating])
          · exact .read hreads (by simp [Reads, deleting, creating])
          · exact .read hreads (by simp)
          · exact .read hreads (by simp)
      | readCloses opens =>
          have hreads : (Reconcile.pair now scan (.readCloses opens) rest).Reads := ⟨rfl, rfl⟩
          cases reply with
          | ok | swapped => exact nextExpected_sound hreads h
          | rejected | lost =>
              cases h
              exact .read hreads (by simp)
      | readOpens closes =>
          have hreads : (Reconcile.pair now scan (.readOpens closes) rest).Reads := ⟨rfl, rfl⟩
          cases reply with
          | ok | swapped => exact nextExpected_sound hreads h
          | rejected | lost =>
              cases h
              exact .read hreads (by simp)
      | readExpected positions info remaining expected =>
          have hreads :
              (Reconcile.pair now scan (.readExpected positions info remaining expected) rest).Reads :=
            ⟨rfl, rfl⟩
          cases reply with
          | ok | swapped => exact nextExpected_sound hreads h
          | rejected | lost =>
              cases h
              exact .read hreads (by simp)
      | deleteMany findings =>
          cases reply with
          | ok | swapped =>
              cases h
              split_ifs with hnil
              · rw [hnil]
                exact .deletedAll now scan rest (nextPair_reads _ _)
              · exact .deleted (by simp) now scan findings rest hnil
          | rejected =>
              cases h
              exact .deleteRejected now scan findings rest
          | lost =>
              cases h
              exact .deleteLost now scan findings rest
      | createMany findings =>
          cases reply with
          | ok | swapped =>
              cases h
              exact .created now scan findings rest (nextPair_reads _ _)
          | rejected =>
              cases h
              exact .createRejected now scan findings rest
          | lost =>
              cases h
              exact .created now scan findings rest (by simp)

end Reconcile

namespace Books

variable (books : Books) (masterId slaveId : Uuid)

theorem findingsOf_deleteFindings (scan : PairScan) :
    (books.deleteFindings scan).findingsOf masterId slaveId =
      if scan.masterId = masterId ∧ scan.slaveId = slaveId then []
      else books.findingsOf masterId slaveId := by
  unfold findingsOf deleteFindings
  dsimp only
  rw [List.filter_filter]
  split_ifs with hsame
  · obtain ⟨rfl, rfl⟩ := hsame
    rw [List.map_eq_nil_iff, List.filter_eq_nil_iff]
    intro row _
    simp
  · congr 1
    refine List.filter_congr fun row _ => ?_
    by_cases hrow : row.masterId = masterId ∧ row.slaveId = slaveId
    · have hother : ¬(row.masterId = scan.masterId ∧ row.slaveId = scan.slaveId) := fun h =>
        hsame ⟨h.1.symm.trans hrow.1, h.2.symm.trans hrow.2⟩
      rw [decide_eq_true hrow, decide_eq_true hother]
      rfl
    · rw [decide_eq_false hrow]
      rfl

theorem findingsOf_createFindings (scan : PairScan) (findings : List Finding) :
    (books.createFindings scan findings).findingsOf masterId slaveId =
      books.findingsOf masterId slaveId ++
        if scan.masterId = masterId ∧ scan.slaveId = slaveId then findings else [] := by
  unfold findingsOf createFindings
  dsimp only
  rw [List.filter_append, List.map_append, List.filter_map]
  congr 1
  split_ifs with hsame
  · simp [Function.comp_def, hsame]
  · simp [Function.comp_def, hsame]

end Books

/-! ### What runs carry was found by them -/

/-- What a run is about to insert is what it has found. -/
def reconcileOutline : Outline Books Reconcile where
  shared _ := True
  task books task := ∀ entry, entry ∈ task.deleting ∨ entry ∈ task.creating →
    (entry.1.masterId, entry.1.slaveId, entry.2) ∈ books.computed

theorem Reconcile.Reads.carries {task : Reconcile} (h : task.Reads) (books : Books) :
    reconcileOutline.task books task := by
  rintro entry (hentry | hentry)
  · rw [h.1] at hentry
    cases hentry
  · rw [h.2] at hentry
    cases hentry

theorem Reconcile.Step.computed_subset {books books' : Books} {reply : Reply} {task : Reconcile}
    {next : List Reconcile} (h : Reconcile.Step books reply task books' next) :
    books.computed ⊆ books'.computed := by
  cases h with
  | compare => exact List.subset_append_left _ _
  | _ => exact fun _ hmem => hmem

theorem Reconcile.Step.carries {books books' : Books} {reply : Reply} {task : Reconcile}
    {next : List Reconcile} (h : Reconcile.Step books reply task books' next)
    (htask : reconcileOutline.task books task) : ∀ t ∈ next, reconcileOutline.task books' t := by
  cases h with
  | read _ hnext | deletedAll _ _ _ hnext | created _ _ _ _ hnext =>
      exact fun t ht => (hnext t ht).carries _
  | compare _ now scan findings rest =>
      intro t ht
      rw [List.mem_singleton.mp ht]
      rintro entry (hentry | hentry)
      · cases hentry
        exact List.mem_append_right _ (List.mem_singleton_self _)
      · cases hentry
  | deleted _ now scan findings rest =>
      intro t ht
      rw [List.mem_singleton.mp ht]
      rintro entry (hentry | hentry)
      · cases hentry
      · exact htask entry (.inl hentry)
  | deleteRejected | deleteLost | createRejected => simp

theorem reconcileOutline_preserved (env : ReconciliationEnv) :
    Preserved (Reconciliation.step env) reconcileOutline.Holds := by
  intro c a c' h hstep
  cases a with
  | resume i reply =>
      have hresume : c.resume (Reconcile.step env) i reply = some c' := hstep
      refine h.resume _ hresume ?_ ?_
      · exact fun task s' next _ hmove _ htask =>
          ⟨trivial, (Reconcile.step_sound hmove).carries htask⟩
      · exact fun task s' next _ hmove _ other _ hother entry hentry =>
          (Reconcile.step_sound hmove).computed_subset (hother entry hentry)
  | start masterId slaveId =>
      cases hstep
      exact Outline.Holds.arrive trivial h.2 (by
        intro task htask
        rw [List.mem_singleton.mp htask]
        exact Reconcile.Reads.carries ⟨rfl, rfl⟩ _)
  | change world masterSnapshots slaveSnapshots =>
      cases hstep
      exact Outline.Holds.arrive trivial h.2 (by simp)

/-! ### Accounting -/

/-- The rows of the pair are the ones before all runs, or what one run has found. -/
def Books.Settled (books : Books) (masterId slaveId : Uuid) (initial : List Finding) : Prop :=
  books.findingsOf masterId slaveId = initial ∨
    (masterId, slaveId, books.findingsOf masterId slaveId) ∈ books.computed

/-- At most one run has deleted the pair's findings, and while one has there are none. -/
def replaceLedger (masterId slaveId : Uuid) (initial : List Finding) : Ledger Books Reconcile ℕ where
  hold task := if task.Replaces masterId slaveId then 1 else 0
  balance books replacing :=
    (replacing = 0 ∧ books.Settled masterId slaveId initial) ∨
      (replacing = 1 ∧ books.findingsOf masterId slaveId = [])

section

variable {books books' : Books} {masterId slaveId : Uuid} {initial : List Finding}
  {task : Reconcile} {next : List Reconcile} {rest : ℕ}

theorem replaceLedger_hold_eq_zero (h : ¬task.Replaces masterId slaveId) :
    (replaceLedger masterId slaveId initial).hold task = 0 := if_neg h

theorem Reconcile.Reads.not_replaces (h : task.Reads) : ¬task.Replaces masterId slaveId := by
  rintro ⟨entry, hentry, -⟩
  rw [h.2] at hentry
  cases hentry

theorem Reconcile.not_replaces_deleteMany (now : DateTime) (scan : PairScan) (findings : List Finding)
    (rest : List ScannedPair) :
    ¬(Reconcile.pair now scan (.deleteMany findings) rest).Replaces masterId slaveId := by
  rintro ⟨entry, hentry, -⟩
  cases hentry

theorem Reconcile.replaces_createMany (now : DateTime) (scan : PairScan) (findings : List Finding)
    (rest : List ScannedPair) :
    (Reconcile.pair now scan (.createMany findings) rest).Replaces masterId slaveId ↔
      scan.masterId = masterId ∧ scan.slaveId = slaveId := by
  simp [Replaces, creating]

theorem replaceLedger_reads (hnext : ∀ t ∈ next, t.Reads) :
    total (replaceLedger masterId slaveId initial).hold next = 0 :=
  total_eq_zero fun t ht => replaceLedger_hold_eq_zero (hnext t ht).not_replaces

theorem replaceLedger_keep {held held' : ℕ}
    (h : (replaceLedger masterId slaveId initial).balance books held) (hheld : held' = held)
    (hfindings : books'.findingsOf masterId slaveId = books.findingsOf masterId slaveId)
    (hcomputed : books.computed ⊆ books'.computed) :
    (replaceLedger masterId slaveId initial).balance books' held' := by
  unfold replaceLedger Books.Settled at h ⊢
  dsimp only at h ⊢
  rw [hfindings, hheld]
  exact h.imp (And.imp_right (Or.imp_right fun hmem => hcomputed hmem)) id

/-- A run that has found nothing leaves nothing, or lets the one that replaces go on. -/
theorem replaceLedger_deleteAll {scan : PairScan} {findings : List Finding} {held : ℕ}
    (hcomputed : (scan.masterId, scan.slaveId, findings) ∈ books.computed) (hnil : findings = [])
    (h : (replaceLedger masterId slaveId initial).balance books held) :
    (replaceLedger masterId slaveId initial).balance (books.deleteFindings scan) held := by
  unfold replaceLedger Books.Settled at h ⊢
  dsimp only at h ⊢
  rw [Books.findingsOf_deleteFindings]
  split_ifs with hsame
  · obtain ⟨rfl, rfl⟩ := hsame
    rw [hnil] at hcomputed
    exact h.imp (fun hsettled => ⟨hsettled.1, .inr hcomputed⟩) fun hone => ⟨hone.1, rfl⟩
  · exact h

/-- Every step keeps the ledger: a run deletes while no other is replacing, and fails before that. -/
theorem Reconcile.Step.replaceLedger {reply : Reply}
    (hstep : Reconcile.Step books reply task books' next)
    (hcarries : reconcileOutline.task books task)
    (hdelete : ∀ entry ∈ task.deleting, entry.2 ≠ [] → reply ≠ .rejected →
      reply ≠ .lost ∧ (entry.1.masterId = masterId → entry.1.slaveId = slaveId → rest = 0))
    (hcreate : task.creating.isSome → reply ≠ .rejected)
    (h : (ForexCopy.replaceLedger masterId slaveId initial).balance books
      ((ForexCopy.replaceLedger masterId slaveId initial).hold task + rest)) :
    (ForexCopy.replaceLedger masterId slaveId initial).balance books'
      (total (ForexCopy.replaceLedger masterId slaveId initial).hold next + rest) := by
  cases hstep with
  | read htask hnext =>
      rw [replaceLedger_hold_eq_zero htask.not_replaces] at h
      rw [replaceLedger_reads hnext]
      exact h
  | compare htask now scan findings rest' =>
      rw [replaceLedger_hold_eq_zero htask.not_replaces] at h
      rw [total_cons, total_nil,
        replaceLedger_hold_eq_zero (Reconcile.not_replaces_deleteMany now scan findings rest')]
      have hgrows : books.computed ⊆ (books.compute scan findings).computed :=
        List.subset_append_left _ _
      exact replaceLedger_keep h (by omega) rfl hgrows
  | deleteRejected now scan findings rest' =>
      rw [replaceLedger_hold_eq_zero (Reconcile.not_replaces_deleteMany now scan findings rest')] at h
      exact h
  | deleteLost now scan findings rest' =>
      have hnil : findings = [] := by
        by_contra hne
        exact (hdelete (scan, findings) rfl hne (by simp)).1 rfl
      rw [replaceLedger_hold_eq_zero (Reconcile.not_replaces_deleteMany now scan findings rest')] at h
      exact replaceLedger_deleteAll (hcarries (scan, findings) (.inl rfl)) hnil h
  | deletedAll now scan rest' hnext =>
      rw [replaceLedger_hold_eq_zero (Reconcile.not_replaces_deleteMany now scan [] rest')] at h
      rw [replaceLedger_reads hnext]
      exact replaceLedger_deleteAll (hcarries (scan, []) (.inl rfl)) rfl h
  | deleted hreply now scan findings rest' hne =>
      obtain ⟨-, hfree⟩ := hdelete (scan, findings) rfl hne hreply
      rw [replaceLedger_hold_eq_zero
        (Reconcile.not_replaces_deleteMany now scan findings rest')] at h
      rw [total_cons, total_nil]
      by_cases hsame : scan.masterId = masterId ∧ scan.slaveId = slaveId
      · -- No other run replaces, and this one does from here on.
        refine .inr ⟨?_, ?_⟩
        · rw [hfree hsame.1 hsame.2]
          simp [ForexCopy.replaceLedger, Reconcile.replaces_createMany, hsame]
        · rw [Books.findingsOf_deleteFindings, if_pos hsame]
      · have hhold : (ForexCopy.replaceLedger masterId slaveId initial).hold
            (.pair now scan (.createMany findings) rest') = 0 :=
          replaceLedger_hold_eq_zero
            fun hreplaces => hsame ((Reconcile.replaces_createMany now scan findings rest').mp hreplaces)
        rw [hhold]
        refine replaceLedger_keep h (by omega) ?_ fun _ hmem => hmem
        rw [Books.findingsOf_deleteFindings, if_neg hsame]
  | createRejected => exact absurd rfl (hcreate rfl)
  | created now scan findings rest' hnext =>
      rw [replaceLedger_reads hnext]
      by_cases hsame : scan.masterId = masterId ∧ scan.slaveId = slaveId
      · -- This run is the one that replaces, so the pair has no rows yet.
        have hhold : (ForexCopy.replaceLedger masterId slaveId initial).hold
            (.pair now scan (.createMany findings) rest') = 1 :=
          if_pos ((Reconcile.replaces_createMany now scan findings rest').mpr hsame)
        rw [hhold] at h
        obtain ⟨hzero, -⟩ | ⟨hone, hempty⟩ := h
        · omega
        · have hrows : (books.createFindings scan findings).findingsOf masterId slaveId = findings := by
            rw [Books.findingsOf_createFindings, hempty, if_pos hsame, List.nil_append]
          refine .inl ⟨by omega, .inr ?_⟩
          rw [hrows]
          have hfound := hcarries (scan, findings) (.inr rfl)
          rw [hsame.1, hsame.2] at hfound
          exact hfound
      · rw [replaceLedger_hold_eq_zero fun hreplaces =>
          hsame ((Reconcile.replaces_createMany now scan findings rest').mp hreplaces)] at h
        refine replaceLedger_keep h rfl ?_ fun _ hmem => hmem
        rw [Books.findingsOf_createFindings, if_neg hsame, List.append_nil]

end

theorem replaceLedger_preserved (env : ReconciliationEnv) (masterId slaveId : Uuid)
    (initial : List Finding) :
    Preserved (restrict (Reconciliation.step env) ReplacedInTurn) fun c =>
      reconcileOutline.Holds c ∧ (replaceLedger masterId slaveId initial).Holds c := by
  refine (reconcileOutline_preserved env).restrict.and fun c a c' hc h hstep => ?_
  obtain ⟨hok, hstep⟩ := restrict_eq_some.mp hstep
  cases a with
  | resume i reply =>
      have hresume : c.resume (Reconcile.step env) i reply = some c' := hstep
      refine h.resume _ hresume fun task books' next hget hmove rest htotal hbalance => ?_
      refine (Reconcile.step_sound hmove).replaceLedger (hc.2 task (List.mem_of_getElem? hget)) ?_ ?_
        hbalance
      · intro entry hentry hne hreply
        obtain ⟨hlost, hfree⟩ := hok.1 task hget entry hentry hne fun heq => hreply (Option.some.inj heq)
        refine ⟨fun heq => hlost (congrArg some heq), ?_⟩
        rintro rfl rfl
        have hnone : total (replaceLedger entry.1.masterId entry.1.slaveId initial).hold c.tasks = 0 :=
          total_eq_zero fun other hother => replaceLedger_hold_eq_zero (hfree other hother)
        omega
      · exact fun hcreating heq => hok.2 task hget hcreating (congrArg some heq)
  | start masterId slaveId =>
      cases hstep
      exact Ledger.Holds.arrive h (by
        simp [replaceLedger, Reconcile.Replaces, Reconcile.creating])
  | change world masterSnapshots slaveSnapshots =>
      cases hstep
      exact Ledger.Holds.arrive h rfl

/-! ### Runs -/

/-- No run is active yet, so none has found anything. -/
def Reconciliation.quiet (books : Books) : Reconciliation := ⟨{ books with computed := [] }, []⟩

/-- Whenever no run is active, the rows of every pair are the ones before all runs, or what one run
has found for it. -/
def FindingsReplaced : Prop :=
  ∀ (env : ReconciliationEnv) (books : Books) (c : Reconciliation) (actions : List ReconcileAction),
    follow (Reconciliation.step env) (.quiet books) actions = some c → c.tasks = [] →
    ∀ masterId slaveId, c.shared.Settled masterId slaveId (books.findingsOf masterId slaveId)

namespace Sample

def missing : Finding where
  type := .missingCopy
  masterTicket := some "1001"
  details := .missing "EURUSD" 1

/-- The master has a position that is not copied, and both snapshots are fresh. -/
def drifted : Books where
  world := { slaves := [{ id := 5, masterId := 1 }] }
  masterSnapshots := [(1, ⟨[{ ticket := "1001", symbol := "EURUSD", volume := 1 }], 0⟩)]
  slaveSnapshots := [(5, ⟨[], 0⟩)]
  findings := [⟨1, 5, missing⟩]

/-- The timer's run and an administrator's, both of which delete before either inserts. -/
def overlapping : List ReconcileAction :=
  [.start none none, .start none (some 5)] ++ List.replicate 4 (.resume 0 .ok) ++
    List.replicate 4 (.resume 1 .ok) ++ [.resume 0 .ok, .resume 0 .ok]

/-- One run whose insert fails. -/
def failing : List ReconcileAction :=
  .start none none :: List.replicate 4 (.resume 0 .ok) ++ [.resume 0 .rejected]

end Sample

/-- Overlapping runs leave a finding twice, and a failing run leaves none. -/
theorem findings_mixed_and_lost : ¬FindingsReplaced ∧
    (∃ c, follow (Reconciliation.step {}) (.quiet Sample.drifted) Sample.overlapping = some c ∧
      c.tasks = [] ∧ c.shared.findingsOf 1 5 = [Sample.missing, Sample.missing]) ∧
    ∃ c, follow (Reconciliation.step {}) (.quiet Sample.drifted) Sample.failing = some c ∧
      c.tasks = [] ∧ c.shared.findingsOf 1 5 = [] := by
  have hruns : ∃ c, follow (Reconciliation.step {}) (.quiet Sample.drifted) Sample.overlapping = some c ∧
      c.tasks = [] ∧ c.shared.findingsOf 1 5 = [Sample.missing, Sample.missing] ∧
      c.shared.computed = [(1, 5, [Sample.missing]), (1, 5, [Sample.missing])] := by
    decide +kernel
  obtain ⟨c, hrun, hquiet, hrows, hcomputed⟩ := hruns
  refine ⟨fun h => ?_, ⟨c, hrun, hquiet, hrows⟩, by decide +kernel⟩
  rcases h {} Sample.drifted c _ hrun hquiet 1 5 with hinitial | hfound
  · rw [hrows] at hinitial
    exact absurd hinitial (by decide +kernel)
  · rw [hrows, hcomputed] at hfound
    exact absurd hfound (by decide +kernel)

/-- As long as runs replace in turn, no findings are mixed or lost. -/
theorem replaced_in_turn (env : ReconciliationEnv) (books : Books) (c : Reconciliation)
    (actions : List ReconcileAction)
    (hrun : follow (restrict (Reconciliation.step env) ReplacedInTurn) (.quiet books) actions = some c)
    (hquiet : c.tasks = []) (masterId slaveId : Uuid) :
    c.shared.Settled masterId slaveId (books.findingsOf masterId slaveId) := by
  have houtline : reconcileOutline.Holds (Reconciliation.quiet books) :=
    ⟨trivial, by simp [Reconciliation.quiet]⟩
  have hledger : (replaceLedger masterId slaveId (books.findingsOf masterId slaveId)).Holds
      (Reconciliation.quiet books) := .inl ⟨rfl, .inl rfl⟩
  obtain ⟨-, hend⟩ := (replaceLedger_preserved env masterId slaveId _).follow
    ⟨houtline, hledger⟩ hrun
  unfold Ledger.Holds at hend
  rw [hquiet] at hend
  rcases hend with ⟨-, hsettled⟩ | ⟨hone, -⟩
  · exact hsettled
  · exact absurd hone (by simp)

/-- Two runs, one after the other. -/
def Sample.successive : List ReconcileAction :=
  .start none none :: List.replicate 5 (.resume 0 .ok) ++
    .start none (some 5) :: List.replicate 5 (.resume 0 .ok)

theorem successive_runs_replace :
    ∃ c, follow (restrict (Reconciliation.step {}) ReplacedInTurn) (.quiet Sample.drifted)
        Sample.successive = some c ∧
      c.shared.Settled 1 5 (Sample.drifted.findingsOf 1 5) := by
  have hruns : ∃ c, follow (restrict (Reconciliation.step {}) ReplacedInTurn) (.quiet Sample.drifted)
      Sample.successive = some c ∧ c.tasks = [] := by
    decide +kernel
  obtain ⟨c, hrun, hquiet⟩ := hruns
  exact ⟨c, hrun, replaced_in_turn {} Sample.drifted c _ hrun hquiet 1 5⟩

end ForexCopy
