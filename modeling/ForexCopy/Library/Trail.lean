import Mathlib.Data.List.Induction
import Mathlib.Logic.Function.Basic

/-!
# Audit trails

A row gives a value to each of its columns. A change names some columns and carries their values before
it and after it. In a trail every change starts from the row that the changes before it have left: then
the changes lead from the first row to the last, and the old values lead all the way back.
-/

namespace Trail

variable {κ ν : Type*}

/-- The values of a row in the named columns. -/
def pick (columns : List κ) (row : κ → ν) : List (κ × ν) := columns.map fun column => (column, row column)

theorem map_fst_pick (columns : List κ) (row : κ → ν) : (pick columns row).map Prod.fst = columns := by
  rw [pick, List.map_map]
  exact List.map_id columns

structure Change (κ ν : Type*) where
  old : List (κ × ν)
  new : List (κ × ν)
  deriving DecidableEq

variable [DecidableEq κ]

/-- The row with the values written to their columns. -/
def overwrite (row : κ → ν) (values : List (κ × ν)) : κ → ν :=
  values.foldl (fun row entry => Function.update row entry.1 entry.2) row

/-- A row takes over the named columns of another one. -/
theorem overwrite_pick (columns : List κ) (row row' : κ → ν) (column : κ) :
    overwrite row (pick columns row') column = if column ∈ columns then row' column else row column := by
  induction columns generalizing row with
  | nil => rfl
  | cons head rest ih =>
      have hstep : overwrite row (pick (head :: rest) row') =
          overwrite (Function.update row head (row' head)) (pick rest row') := rfl
      rw [hstep, ih]
      by_cases hrest : column ∈ rest
      · rw [if_pos hrest, if_pos (List.mem_cons_of_mem _ hrest)]
      · by_cases hhead : column = head
        · rw [if_neg hrest, hhead, Function.update_self, if_pos List.mem_cons_self]
        · rw [if_neg hrest, Function.update_of_ne hhead, if_neg (by simp [hhead, hrest])]

/-- The row after the changes. -/
def replay (row : κ → ν) (changes : List (Change κ ν)) : κ → ν :=
  changes.foldl (fun row change => overwrite row change.new) row

/-- The row before the changes, the last of which is undone first. -/
def rewind (row : κ → ν) (changes : List (Change κ ν)) : κ → ν :=
  changes.foldr (fun change row => overwrite row change.old) row

@[simp] theorem replay_nil (row : κ → ν) : replay row [] = row := rfl

@[simp] theorem replay_append (row : κ → ν) (changes later : List (Change κ ν)) :
    replay row (changes ++ later) = replay (replay row changes) later :=
  List.foldl_append

/-- The change is one from the row to the other. -/
structure Change.Leads (change : Change κ ν) (row row' : κ → ν) : Prop where
  old : change.old = pick (change.old.map Prod.fst) row
  new : change.new = pick (change.old.map Prod.fst) row'
  kept : ∀ column ∉ change.old.map Prod.fst, row' column = row column

/-- Each of the changes starts from the row that the ones before it have left. -/
def Chained (row : κ → ν) (changes : List (Change κ ν)) : Prop :=
  ∀ before change after, changes = before ++ change :: after →
    change.Leads (replay row before) (replay row (before ++ [change]))

theorem Change.Leads.overwrite_new {change : Change κ ν} {row row' : κ → ν} (h : change.Leads row row') :
    overwrite row change.new = row' := by
  funext column
  rw [h.new, overwrite_pick]
  split_ifs with hnamed
  · rfl
  · exact (h.kept column hnamed).symm

theorem Change.Leads.overwrite_old {change : Change κ ν} {row row' : κ → ν} (h : change.Leads row row') :
    overwrite row' change.old = row := by
  funext column
  rw [h.old, overwrite_pick]
  split_ifs with hnamed
  · rfl
  · exact h.kept column hnamed

theorem chained_nil (row : κ → ν) : Chained row [] := by
  rintro before change after h
  simp at h

/-- A change that starts from the last row goes on with the trail. -/
theorem Chained.concat {row row' : κ → ν} {changes : List (Change κ ν)} (h : Chained row changes)
    {change : Change κ ν} (hleads : change.Leads (replay row changes) row') :
    Chained row (changes ++ [change]) ∧ replay row (changes ++ [change]) = row' := by
  have hlast : replay row (changes ++ [change]) = row' := by
    rw [replay_append]
    exact hleads.overwrite_new
  refine ⟨fun before other after hsplit => ?_, hlast⟩
  rcases List.eq_nil_or_concat after with rfl | ⟨middle, last, rfl⟩
  · obtain ⟨rfl, hsame⟩ := List.append_inj' hsplit rfl
    obtain rfl := List.singleton_inj.mp hsame
    rw [hlast]
    exact hleads
  · have hrest : changes ++ [change] = (before ++ other :: middle) ++ [last] := by
      rw [hsplit]
      simp
    obtain ⟨hbefore, -⟩ := List.append_inj' hrest rfl
    exact h before other middle hbefore

/-- The old values lead back from the last row to the first. -/
theorem Chained.rewind_replay {row : κ → ν} {changes : List (Change κ ν)} (h : Chained row changes) :
    rewind (replay row changes) changes = row := by
  induction changes using List.reverseRecOn with
  | nil => rfl
  | append_singleton before change ih =>
      have hlast := (h before change [] rfl).overwrite_old
      have hbefore : Chained row before := fun front other after hsplit =>
        h front other (after ++ [change]) (by rw [hsplit]; simp)
      have hrewind : rewind (replay row (before ++ [change])) (before ++ [change]) =
          rewind (overwrite (replay row (before ++ [change])) change.old) before := by
        simp [rewind]
      rw [hrewind, hlast, ih hbefore]

/-- Anywhere in between: the last row and the later changes tell the row at that moment. -/
theorem Chained.rewind_later {row : κ → ν} {before after : List (Change κ ν)}
    (h : Chained row (before ++ after)) :
    rewind (replay row (before ++ after)) after = replay row before := by
  have hafter : Chained (replay row before) after := by
    rintro front change rest rfl
    have hleads := h (before ++ front) change rest (by simp)
    rwa [replay_append, List.append_assoc, replay_append] at hleads
  rw [replay_append]
  exact hafter.rewind_replay

end Trail
