import Mathlib.Data.List.Basic

/-!
# Compacting an array in place

Removing the entry at a position of an array by moving every later entry one place down and giving up
the last place. The loop copies forwards, so no entry is overwritten before it has moved, and what
is left is the array without that entry. The same loop with its accesses checked meets no index
behind the end.
-/

namespace Compaction

variable {α : Type*}

/-- `xs[j] = xs[j + 1]`. -/
def copyDown (xs : List α) (j : ℕ) : List α :=
  match xs[j + 1]? with
  | none => xs
  | some x => xs.set j x

/-- `for (j = i; j < size - 1; j++) xs[j] = xs[j + 1]`, then the array loses its last place. -/
def removeAt (xs : List α) (i : ℕ) : List α :=
  ((List.range' i (xs.length - 1 - i)).foldl copyDown xs).take (xs.length - 1)

theorem getElem?_copyDown (xs : List α) {j : ℕ} (h : j + 1 < xs.length) (k : ℕ) :
    (copyDown xs j)[k]? = if k = j then xs[j + 1]? else xs[k]? := by
  unfold copyDown
  rw [List.getElem?_eq_getElem h]
  by_cases hk : k = j
  · subst k
    simp [Nat.lt_of_succ_lt h]
  · rw [if_neg hk]
    exact List.getElem?_set_ne (Ne.symm hk)

@[simp] theorem length_copyDown (xs : List α) (j : ℕ) : (copyDown xs j).length = xs.length := by
  unfold copyDown
  split
  · rfl
  · rw [List.length_set]

/-- After `n` passes the entries behind `i` have moved, up to the place the loop has reached. -/
theorem getElem?_shift (xs : List α) (i n : ℕ) (h : i + n < xs.length) :
    ((List.range' i n).foldl copyDown xs).length = xs.length ∧
      ∀ k, ((List.range' i n).foldl copyDown xs)[k]? =
        if i ≤ k ∧ k < i + n then xs[k + 1]? else xs[k]? := by
  induction n with
  | zero =>
      refine ⟨rfl, fun k => ?_⟩
      rw [if_neg (by omega)]
      rfl
  | succ n ih =>
      obtain ⟨hlength, hentries⟩ := ih (by omega)
      rw [List.range'_1_concat, List.foldl_append, List.foldl_cons, List.foldl_nil]
      refine ⟨by rw [length_copyDown, hlength], fun k => ?_⟩
      rw [getElem?_copyDown _ (by omega), hentries, hentries]
      by_cases hk : k = i + n
      · subst k
        rw [if_pos rfl, if_neg (by omega), if_pos (by omega)]
      · rw [if_neg hk]
        by_cases hmoved : i ≤ k ∧ k < i + n
        · rw [if_pos hmoved, if_pos (by omega)]
        · rw [if_neg hmoved, if_neg (by omega)]

/-- What is left is the array without the entry. -/
theorem removeAt_eq_eraseIdx {xs : List α} {i : ℕ} (h : i < xs.length) :
    removeAt xs i = xs.eraseIdx i := by
  obtain ⟨hlength, hentries⟩ := getElem?_shift xs i (xs.length - 1 - i) (by omega)
  apply List.ext_getElem?
  intro k
  unfold removeAt
  rw [List.getElem?_take, hentries, List.getElem?_eraseIdx]
  by_cases hk : k < xs.length - 1
  · rw [if_pos hk]
    by_cases hmoved : k < i
    · rw [if_neg (by omega), if_pos hmoved]
    · rw [if_pos (by omega), if_neg hmoved]
  · rw [if_neg hk]
    by_cases hmoved : k < i
    · omega
    · rw [if_neg hmoved, List.getElem?_eq_none (by omega)]

/-! ### Checked accesses -/

/-- `xs[i] = x`, nothing where the array has no such place. -/
def write (xs : List α) (i : ℕ) (x : α) : Option (List α) :=
  if i < xs.length then some (xs.set i x) else none

/-- `xs[j] = xs[j + 1]`, nothing where the array has one of the two places not. -/
def copyDownChecked (xs : List α) (j : ℕ) : Option (List α) :=
  (xs[j + 1]?).bind (write xs j)

/-- The loop of `removeAt` over an array that is taken to have `size` places. -/
def removeAtChecked (xs : List α) (size i : ℕ) : Option (List α) :=
  ((List.range' i (size - 1 - i)).foldlM copyDownChecked xs).map (List.take (size - 1))

theorem write_eq {xs : List α} {i : ℕ} (h : i < xs.length) (x : α) :
    write xs i x = some (xs.set i x) :=
  if_pos h

theorem copyDownChecked_eq {xs : List α} {j : ℕ} (h : j + 1 < xs.length) :
    copyDownChecked xs j = some (copyDown xs j) := by
  unfold copyDownChecked copyDown
  rw [List.getElem?_eq_getElem h, Option.bind_some, write_eq (Nat.lt_of_succ_lt h)]

theorem foldlM_copyDownChecked (xs : List α) (i n : ℕ) (h : i + n < xs.length) :
    (List.range' i n).foldlM copyDownChecked xs = some ((List.range' i n).foldl copyDown xs) := by
  induction n with
  | zero => rfl
  | succ n ih =>
      obtain ⟨hlength, -⟩ := getElem?_shift xs i n (by omega)
      have hnext : copyDownChecked ((List.range' i n).foldl copyDown xs) (i + n) =
          some (copyDown ((List.range' i n).foldl copyDown xs) (i + n)) :=
        copyDownChecked_eq (by omega)
      rw [List.range'_1_concat, List.foldlM_append, ih (by omega), List.foldl_append]
      simp [hnext]

/-- No access is behind the end, and what is left is the array without the entry. -/
theorem removeAtChecked_eq {xs : List α} {i : ℕ} (h : i < xs.length) :
    removeAtChecked xs xs.length i = some (xs.eraseIdx i) := by
  unfold removeAtChecked
  rw [foldlM_copyDownChecked xs i _ (by omega), Option.map_some, ← removeAt_eq_eraseIdx h, removeAt]

end Compaction
