import Mathlib.Algebra.BigOperators.Group.List.Basic
import Mathlib.Algebra.Group.Nat.Defs
import Mathlib.Tactic.Abel

/-!
# Tasks that interleave at their awaits

A single-threaded event loop runs several asynchronous functions over one shared state. Between two
awaits a function runs alone, so a suspended call is a task waiting for one awaited operation, and
one scheduling step lets that operation settle: it changes the shared state, and the task is
replaced by what it waits for next together with the tasks it started, or by nothing once it ends.

Two rules carry the proofs about pools. `Outline` is the Owicki–Gries rule: an invariant of the
shared state and an assertion for every waiting task, each step correct for its own task and free of
interference with the others. `Ledger` is accounting: the shared state is in balance with what the
waiting tasks hold in total, and each step moves between the two what it takes from the task.
-/

/-- How an awaited operation settles. -/
inductive Reply
  /-- It resolves. -/
  | ok
  /-- It resolves; of two operations awaited together, the second one came first. -/
  | swapped
  /-- It rejects, and has had no effect. -/
  | rejected
  /-- It rejects although its effect took place. -/
  | lost
  deriving DecidableEq, Repr

/-- The shared state and the successors of a task whose operation takes `before` to `after`, when
a rejection ends the task. -/
def Reply.settle {σ τ : Type*} (reply : Reply) (before after : σ) (next : List τ) : σ × List τ :=
  match reply with
  | .ok | .swapped => (after, next)
  | .rejected => (before, [])
  | .lost => (after, [])

/-- The same for an operation that only reads. -/
def Reply.query {σ τ : Type*} (reply : Reply) (s : σ) (next : List τ) : σ × List τ :=
  reply.settle s s next

def Reply.Resolves (reply : Reply) : Prop := reply = .ok ∨ reply = .swapped

instance (reply : Reply) : Decidable reply.Resolves := inferInstanceAs (Decidable (_ ∨ _))

theorem Reply.Resolves.settle {σ τ : Type*} {reply : Reply} (h : reply.Resolves) (before after : σ)
    (next : List τ) : reply.settle before after next = (after, next) := by
  rcases h with rfl | rfl <;> rfl

theorem Reply.Resolves.query {σ τ : Type*} {reply : Reply} (h : reply.Resolves) (s : σ)
    (next : List τ) : reply.query s next = (s, next) :=
  h.settle s s next

/-- A shared state and the tasks waiting over it. -/
structure Pool (σ τ : Type*) where
  shared : σ
  tasks : List τ
  deriving DecidableEq

namespace Pool

variable {σ τ : Type*}

/-- Let the operation the task at position `i` waits for settle. -/
def resume (step : Reply → σ → τ → σ × List τ) (p : Pool σ τ) (i : ℕ) (reply : Reply) :
    Option (Pool σ τ) :=
  (p.tasks[i]?).map fun task =>
    let (shared, next) := step reply p.shared task
    ⟨shared, p.tasks.take i ++ (next ++ p.tasks.drop (i + 1))⟩

def arrive (p : Pool σ τ) (shared : σ) (started : List τ) : Pool σ τ :=
  ⟨shared, p.tasks ++ started⟩

/-- What a scheduling step does: one task steps and its successors take its place. -/
theorem resume_split (step : Reply → σ → τ → σ × List τ) {p p' : Pool σ τ} {i : ℕ} {reply : Reply}
    (h : p.resume step i reply = some p') :
    ∃ task s' next, p.tasks[i]? = some task ∧
      p.tasks = p.tasks.take i ++ task :: p.tasks.drop (i + 1) ∧
      step reply p.shared task = (s', next) ∧
      p' = ⟨s', p.tasks.take i ++ (next ++ p.tasks.drop (i + 1))⟩ := by
  obtain ⟨task, hget, hp'⟩ := Option.map_eq_some_iff.mp h
  obtain ⟨hlt, helem⟩ := List.getElem?_eq_some_iff.mp hget
  refine ⟨task, _, _, hget, ?_, rfl, hp'.symm⟩
  rw [← helem, List.getElem_cons_drop, List.take_append_drop]

theorem resume_eq (step : Reply → σ → τ → σ × List τ) {p p' : Pool σ τ} {i : ℕ} {reply : Reply}
    (h : p.resume step i reply = some p') {task : τ} {s' : σ} {next : List τ}
    (hget : p.tasks[i]? = some task) (hmove : step reply p.shared task = (s', next)) :
    p' = ⟨s', p.tasks.take i ++ (next ++ p.tasks.drop (i + 1))⟩ := by
  obtain ⟨task', s'', next', hget', -, hmove', hp'⟩ := resume_split step h
  obtain rfl := Option.some.inj (hget.symm.trans hget')
  obtain ⟨rfl, rfl⟩ := Prod.mk.inj (hmove.symm.trans hmove')
  exact hp'

theorem resume_cases (step : Reply → σ → τ → σ × List τ) {p p' : Pool σ τ} {i : ℕ} {reply : Reply}
    (h : p.resume step i reply = some p') :
    ∃ before task after s' next, p.tasks[i]? = some task ∧ p.tasks = before ++ task :: after ∧
      step reply p.shared task = (s', next) ∧ p' = ⟨s', before ++ (next ++ after)⟩ := by
  obtain ⟨task, s', next, hget, htasks, hmove, hp'⟩ := resume_split step h
  exact ⟨_, task, _, s', next, hget, htasks, hmove, hp'⟩

theorem resume_single (step : Reply → σ → τ → σ × List τ) {s : σ} {task : τ} {i : ℕ} {reply : Reply}
    {p' : Pool σ τ} (h : resume step ⟨s, [task]⟩ i reply = some p') :
    i = 0 ∧ p' = ⟨(step reply s task).1, (step reply s task).2⟩ := by
  obtain ⟨before, task', after, s', next, hget, htasks, hmove, rfl⟩ := resume_cases step h
  obtain ⟨rfl, hcons⟩ | ⟨-, ⟨⟩⟩ := List.append_eq_singleton_iff.mp htasks.symm
  obtain ⟨rfl, rfl⟩ := List.cons.inj hcons
  refine ⟨?_, by simp [hmove]⟩
  simpa using (List.getElem?_eq_some_iff.mp hget).1

/-- What holds of the shared state and of the watched tasks, of which there is at most one, survives a
step when the watched task keeps it and the others neither start a watched task nor break it. -/
theorem resume_watched (step : Reply → σ → τ → σ × List τ) {watch : τ → Bool}
    {P : σ → List τ → Prop} {p p' : Pool σ τ} {i : ℕ} {reply : Reply}
    (hone : (p.tasks.filter watch).length ≤ 1) (hstep : p.resume step i reply = some p')
    (own : ∀ task s' next, p.tasks[i]? = some task → watch task → p.tasks.filter watch = [task] →
      step reply p.shared task = (s', next) → P s' (next.filter watch))
    (other : ∀ task s' next, p.tasks[i]? = some task → ¬watch task →
      step reply p.shared task = (s', next) →
        next.filter watch = [] ∧ P s' (p.tasks.filter watch)) :
    P p'.shared (p'.tasks.filter watch) := by
  obtain ⟨before, task, after, s', next, hget, htasks, hmove, rfl⟩ := resume_cases step hstep
  simp only [List.filter_append]
  by_cases hwatch : watch task
  · have hsplit : p.tasks.filter watch = before.filter watch ++ task :: after.filter watch := by
      rw [htasks, List.filter_append, List.filter_cons_of_pos hwatch]
    rw [hsplit, List.length_append, List.length_cons] at hone
    have hbefore : before.filter watch = [] := List.length_eq_zero_iff.mp (by omega)
    have hafter : after.filter watch = [] := List.length_eq_zero_iff.mp (by omega)
    rw [hbefore, hafter, List.nil_append, List.append_nil]
    exact own task s' next hget hwatch (by rw [hsplit, hbefore, hafter, List.nil_append]) hmove
  · obtain ⟨hnext, hkept⟩ := other task s' next hget hwatch hmove
    rw [htasks, List.filter_append, List.filter_cons_of_neg hwatch] at hkept
    rw [hnext, List.nil_append]
    exact hkept

/-! ### Accounting -/

/-- The sum of what the waiting tasks hold. -/
def total {M : Type*} [AddCommMonoid M] (hold : τ → M) (tasks : List τ) : M :=
  (tasks.map hold).sum

section

variable {M : Type*} [AddCommMonoid M] (hold : τ → M)

@[simp] theorem total_nil : total hold [] = 0 := rfl

@[simp] theorem total_cons (task : τ) (tasks : List τ) :
    total hold (task :: tasks) = hold task + total hold tasks := by
  simp [total]

@[simp] theorem total_append (front back : List τ) :
    total hold (front ++ back) = total hold front + total hold back := by
  simp [total]

end

theorem le_total (hold : τ → ℕ) {task : τ} {tasks : List τ} (h : task ∈ tasks) :
    hold task ≤ total hold tasks := by
  induction tasks with
  | nil => simp at h
  | cons head rest ih =>
      rw [total_cons]
      rcases List.mem_cons.mp h with rfl | hrest
      · omega
      · have := ih hrest
        omega

theorem total_eq_zero {M : Type*} [AddCommMonoid M] {hold : τ → M} {tasks : List τ}
    (h : ∀ task ∈ tasks, hold task = 0) : total hold tasks = 0 := by
  induction tasks with
  | nil => rfl
  | cons head rest ih =>
      rw [total_cons, h head List.mem_cons_self, ih fun t ht => h t (List.mem_cons_of_mem _ ht),
        add_zero]

/-- What a task holds, and how the shared state must stand to the total. -/
structure Ledger (σ τ M : Type*) where
  hold : τ → M
  balance : σ → M → Prop

def Ledger.Holds {M : Type*} [AddCommMonoid M] (l : Ledger σ τ M) (p : Pool σ τ) : Prop :=
  l.balance p.shared (total l.hold p.tasks)

/-- A scheduling step keeps a ledger when it exchanges what its own task holds for what the
successors hold, whatever the others hold. -/
theorem Ledger.Holds.resume {M : Type*} [AddCommMonoid M] {l : Ledger σ τ M}
    (step : Reply → σ → τ → σ × List τ) {p p' : Pool σ τ} {i : ℕ} {reply : Reply} (h : l.Holds p)
    (hstep : p.resume step i reply = some p')
    (settle : ∀ task s' next, p.tasks[i]? = some task → step reply p.shared task = (s', next) →
      ∀ rest, total l.hold p.tasks = l.hold task + rest → l.balance p.shared (l.hold task + rest) →
        l.balance s' (total l.hold next + rest)) : l.Holds p' := by
  obtain ⟨before, task, after, s', next, hget, htasks, hmove, rfl⟩ := resume_cases step hstep
  have hsplit : total l.hold p.tasks =
      l.hold task + (total l.hold before + total l.hold after) := by
    rw [htasks, total_append, total_cons]
    abel
  have hjoin : total l.hold (before ++ (next ++ after)) =
      total l.hold next + (total l.hold before + total l.hold after) := by
    rw [total_append, total_append]
    abel
  unfold Holds at h ⊢
  rw [hsplit] at h
  exact hjoin ▸ settle task s' next hget hmove _ hsplit h

theorem Ledger.Holds.arrive {M : Type*} [AddCommMonoid M] {l : Ledger σ τ M} {p : Pool σ τ}
    {shared : σ} {started : List τ} (hshared : l.balance shared (total l.hold p.tasks))
    (hstarted : total l.hold started = 0) : l.Holds (p.arrive shared started) := by
  have htotal : total l.hold (p.tasks ++ started) = total l.hold p.tasks := by
    rw [total_append, hstarted, add_zero]
  unfold Holds Pool.arrive
  exact htotal ▸ hshared

/-! ### The Owicki–Gries rule -/

/-- A proof outline: what holds of the shared state, and what each waiting task may rely on. -/
structure Outline (σ τ : Type*) where
  shared : σ → Prop
  task : σ → τ → Prop

def Outline.Holds (o : Outline σ τ) (p : Pool σ τ) : Prop :=
  o.shared p.shared ∧ ∀ task ∈ p.tasks, o.task p.shared task

/-- A scheduling step keeps an outline when it is correct for its own task and does not interfere
with the others. -/
theorem Outline.Holds.resume {o : Outline σ τ} (step : Reply → σ → τ → σ × List τ)
    {p p' : Pool σ τ} {i : ℕ} {reply : Reply} (h : o.Holds p)
    (hstep : p.resume step i reply = some p')
    (correct : ∀ task s' next, p.tasks[i]? = some task → step reply p.shared task = (s', next) →
      o.shared p.shared → o.task p.shared task → o.shared s' ∧ ∀ t ∈ next, o.task s' t)
    (free : ∀ task s' next, p.tasks[i]? = some task → step reply p.shared task = (s', next) →
      o.shared p.shared → ∀ other ∈ p.tasks, o.task p.shared other → o.task s' other) :
    o.Holds p' := by
  obtain ⟨before, task, after, s', next, hget, htasks, hmove, rfl⟩ := resume_cases step hstep
  have hkept : ∀ other ∈ p.tasks, o.task s' other := fun other hother =>
    free task s' next hget hmove h.1 other hother (h.2 other hother)
  rw [htasks] at hkept
  obtain ⟨hshared, hnext⟩ := correct task s' next hget hmove h.1
    (h.2 task (List.mem_of_getElem? hget))
  refine ⟨hshared, fun t ht => ?_⟩
  simp only [List.mem_append, List.mem_cons] at ht hkept
  rcases ht with hbefore | hsucc | hafter
  · exact hkept t (.inl hbefore)
  · exact hnext t hsucc
  · exact hkept t (.inr (.inr hafter))

theorem Outline.Holds.arrive {o : Outline σ τ} {p : Pool σ τ} {shared : σ} {started : List τ}
    (hshared : o.shared shared) (hwaiting : ∀ task ∈ p.tasks, o.task shared task)
    (hstarted : ∀ task ∈ started, o.task shared task) : o.Holds (p.arrive shared started) :=
  ⟨hshared, fun task ht => (List.mem_append.mp ht).elim (hwaiting task) (hstarted task)⟩

end Pool
