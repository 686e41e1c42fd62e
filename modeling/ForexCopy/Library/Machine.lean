import Mathlib.Data.List.Induction

/-!
# Machines and their runs

A machine is a partial step function: what one action makes of a state, or nothing where the action
is not enabled. A run is the list of actions taken, so a property of every reachable state is a
property of every list of actions, and a run is also something to compute. Assumptions about the
environment are restrictions of the machine: `restrict` keeps the actions a condition permits.
-/

namespace Machine

variable {σ α : Type*}

/-- Where a list of actions leads, nothing as soon as one of them is not enabled. -/
def follow (step : σ → α → Option σ) : σ → List α → Option σ
  | s, [] => some s
  | s, a :: rest => (step s a).bind fun s' => follow step s' rest

/-- The machine that takes an action only where `ok` permits it. -/
def restrict (step : σ → α → Option σ) (ok : σ → α → Prop) [∀ s a, Decidable (ok s a)]
    (s : σ) (a : α) : Option σ :=
  if ok s a then step s a else none

section

variable {step : σ → α → Option σ}

@[simp] theorem follow_nil (s : σ) : follow step s [] = some s := rfl

@[simp] theorem follow_cons (s : σ) (a : α) (rest : List α) :
    follow step s (a :: rest) = (step s a).bind fun s' => follow step s' rest := rfl

theorem follow_append (s : σ) (front back : List α) :
    follow step s (front ++ back) = (follow step s front).bind fun mid => follow step mid back := by
  induction front generalizing s with
  | nil => rfl
  | cons a rest ih => simp only [List.cons_append, follow_cons, Option.bind_assoc, ih]

/-- The rule for an invariant that mentions the actions taken so far. -/
theorem follow_history {P : List α → σ → Prop} {s s' : σ} {actions : List α} (hs : P [] s)
    (hstep : ∀ before mid a mid', follow step s before = some mid → P before mid →
      step mid a = some mid' → P (before ++ [a]) mid')
    (hrun : follow step s actions = some s') : P actions s' := by
  induction actions using List.reverseRecOn generalizing s' with
  | nil =>
      simp only [follow_nil, Option.some.injEq] at hrun
      exact hrun ▸ hs
  | append_singleton before a ih =>
      rw [follow_append, Option.bind_eq_some_iff] at hrun
      obtain ⟨mid, hbefore, hlast⟩ := hrun
      simp only [follow_cons, follow_nil, Option.bind_fun_some] at hlast
      exact hstep before mid a s' hbefore (ih hbefore) hlast

theorem restrict_eq_some {ok : σ → α → Prop} [∀ s a, Decidable (ok s a)] {s s' : σ} {a : α} :
    restrict step ok s a = some s' ↔ ok s a ∧ step s a = some s' := by
  unfold restrict
  split
  · rename_i hok
    exact ⟨fun h => ⟨hok, h⟩, fun h => h.2⟩
  · rename_i hok
    exact ⟨fun h => by simp at h, fun h => absurd h.1 hok⟩

end

def Preserved (step : σ → α → Option σ) (Inv : σ → Prop) : Prop :=
  ∀ ⦃s : σ⦄ ⦃a : α⦄ ⦃s' : σ⦄, Inv s → step s a = some s' → Inv s'

section

variable {step : σ → α → Option σ} {Inv : σ → Prop}

/-- What no step breaks, no run breaks. -/
theorem Preserved.follow (h : Preserved step Inv) {s s' : σ} {actions : List α} (hs : Inv s)
    (hrun : Machine.follow step s actions = some s') : Inv s' := by
  induction actions generalizing s with
  | nil =>
      simp only [follow_nil, Option.some.injEq] at hrun
      exact hrun ▸ hs
  | cons a rest ih =>
      simp only [follow_cons, Option.bind_eq_some_iff] at hrun
      obtain ⟨mid, hstep, hrest⟩ := hrun
      exact ih (h hs hstep) hrest

/-- A run is no longer than a rank that every step lowers. -/
theorem Preserved.follow_length (h : Preserved step Inv) {rank : σ → ℕ}
    (hrank : ∀ ⦃s : σ⦄ ⦃a : α⦄ ⦃s' : σ⦄, Inv s → step s a = some s' → rank s' < rank s) {s s' : σ}
    {actions : List α} (hs : Inv s) (hrun : Machine.follow step s actions = some s') :
    actions.length + rank s' ≤ rank s := by
  induction actions generalizing s with
  | nil =>
      simp only [follow_nil, Option.some.injEq] at hrun
      simp [hrun]
  | cons a rest ih =>
      simp only [follow_cons, Option.bind_eq_some_iff] at hrun
      obtain ⟨mid, hstep, hrest⟩ := hrun
      have hlater := ih (h hs hstep) hrest
      have hlower := hrank hs hstep
      rw [List.length_cons]
      omega

/-- A second invariant whose step lemma may use a first one. -/
theorem Preserved.and {Other : σ → Prop} (h : Preserved step Inv)
    (hother : ∀ ⦃s : σ⦄ ⦃a : α⦄ ⦃s' : σ⦄, Inv s → Other s → step s a = some s' → Other s') :
    Preserved step fun s => Inv s ∧ Other s :=
  fun _ _ _ hs hstep => ⟨h hs.1 hstep, hother hs.1 hs.2 hstep⟩

theorem Preserved.restrict {ok : σ → α → Prop} [∀ s a, Decidable (ok s a)]
    (h : Preserved step Inv) : Preserved (Machine.restrict step ok) Inv :=
  fun _ _ _ hs hstep => h hs (restrict_eq_some.mp hstep).2

end

section

variable {τ β : Type*} {step : σ → α → Option σ} {play : τ → β → Option τ} {R : σ → τ → Prop}

/-- Where every step is a run of another machine, so is every run. -/
theorem follow_simulates
    (hstep : ∀ ⦃s a s' t⦄, R s t → step s a = some s' → ∃ actions t', follow play t actions = some t' ∧
      R s' t')
    {s s' : σ} {t : τ} {actions : List α} (h : R s t) (hrun : follow step s actions = some s') :
    ∃ actions t', follow play t actions = some t' ∧ R s' t' := by
  induction actions generalizing s t with
  | nil =>
      obtain rfl := Option.some.inj hrun
      exact ⟨[], t, rfl, h⟩
  | cons a rest ih =>
      rw [follow_cons, Option.bind_eq_some_iff] at hrun
      obtain ⟨mid, hfirst, hrest⟩ := hrun
      obtain ⟨front, middle, hfront, hmiddle⟩ := hstep h hfirst
      obtain ⟨back, last, hback, hlast⟩ := ih hmiddle hrest
      refine ⟨front ++ back, last, ?_, hlast⟩
      rw [follow_append, hfront, Option.bind_some, hback]

end

end Machine
