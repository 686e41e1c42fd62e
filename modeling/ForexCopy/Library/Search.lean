import Mathlib.Data.List.Basic
import Mathlib.Data.List.Infix

/-!
# Searching and replacing in lists

The first occurrence of a list in another is found by what is not an occurrence: a front in which none
begins is passed over. For a word between quotes this is decided at the quotes, and there by the word
up to the next quote.
-/

namespace Search

variable {α : Type*} [DecidableEq α]

/-- Where `needle` occurs first. -/
def find (needle : List α) : List α → Option ℕ
  | [] => if needle = [] then some 0 else none
  | a :: rest =>
    if needle.isPrefixOf (a :: rest) then some 0 else (find needle rest).map (· + 1)

/-- The list with every occurrence of `needle` replaced, from the left and without overlaps, after the
next `skipped` elements, which belong to an occurrence that is replaced already. -/
def replaceFrom (needle replacement : List α) : ℕ → List α → List α
  | _, [] => []
  | skipped + 1, _ :: rest => replaceFrom needle replacement skipped rest
  | 0, a :: rest =>
    if needle ≠ [] ∧ needle.isPrefixOf (a :: rest) then
      replacement ++ replaceFrom needle replacement (needle.length - 1) rest
    else a :: replaceFrom needle replacement 0 rest

def replace (needle replacement : List α) (list : List α) : List α :=
  replaceFrom needle replacement 0 list

/-- A single element is replaced wherever it is. -/
theorem replace_singleton (a : α) (replacement list : List α) :
    replace [a] replacement list = list.flatMap fun b => if b = a then replacement else [b] := by
  unfold replace
  induction list with
  | nil => rfl
  | cons b rest ih =>
      rw [replaceFrom, List.flatMap_cons, ← ih]
      by_cases hb : b = a
      · subst hb
        simp
      · simp [hb, Ne.symm hb]

omit [DecidableEq α]

/-! ### Passing over a front -/

/-- No occurrence of `needle` begins in the front of a list. -/
def Skips (needle : List α) : List α → List α → Prop
  | [], _ => True
  | a :: front, rest => ¬needle <+: a :: (front ++ rest) ∧ Skips needle front rest

section

variable {needle front front' rest : List α}

theorem skips_append : Skips needle (front ++ front') rest ↔
    Skips needle front (front' ++ rest) ∧ Skips needle front' rest := by
  induction front with
  | nil => simp [Skips]
  | cons a front ih => simp [Skips, ih, and_assoc]

theorem skips_of_notMem {a : α} {others : List α} (h : a ∉ front) :
    Skips (a :: others) front rest := by
  induction front with
  | nil => trivial
  | cons b front ih =>
      obtain ⟨hne, hnot⟩ := List.ne_and_not_mem_of_not_mem_cons h
      exact ⟨fun hprefix => hne (List.cons_prefix_cons.mp hprefix).1, ih hnot⟩

theorem find_append [DecidableEq α] (h : Skips needle front rest) :
    find needle (front ++ rest) = (find needle rest).map (front.length + ·) := by
  induction front with
  | nil => simp
  | cons a front ih =>
      rw [List.cons_append, find, if_neg (mt List.isPrefixOf_iff_prefix.mp h.1), ih h.2,
        Option.map_map]
      refine congrArg (fun f => Option.map f (find needle rest)) (funext fun n => ?_)
      simp only [Function.comp_apply, List.length_cons]
      omega

theorem find_of_prefix [DecidableEq α] (h : needle <+: rest) : find needle rest = some 0 := by
  cases rest with
  | nil => simp [find, List.prefix_nil.mp h]
  | cons a rest => exact if_pos (List.isPrefixOf_iff_prefix.mpr h)

theorem find_of_skips [DecidableEq α] (hne : needle ≠ []) (h : Skips needle front []) :
    find needle front = none := by
  have hfind := find_append h
  rw [List.append_nil] at hfind
  simp [hfind, find, hne]

end

/-! ### Words between quotes -/

section

variable {q c : α} {word word' rest : List α}

/-- A quoted word that `c` follows. -/
def quoted (q c : α) (word : List α) : List α := q :: (word ++ [q, c])

/-- At a quote, a quoted word occurs where it is the word up to the next quote. -/
theorem quoted_prefix_iff (hword : q ∉ word) (hword' : q ∉ word') :
    quoted q c word <+: q :: (word' ++ q :: rest) ↔ word = word' ∧ rest.head? = some c := by
  unfold quoted
  rw [List.cons_prefix_cons]
  simp only [true_and]
  induction word generalizing word' with
  | nil =>
      cases word' with
      | nil => cases rest <;> simp [eq_comm]
      | cons b word' =>
          have hne : q ≠ b := (List.ne_and_not_mem_of_not_mem_cons hword').1
          simp [hne]
  | cons a word ih =>
      obtain ⟨hne, hword⟩ := List.ne_and_not_mem_of_not_mem_cons hword
      cases word' with
      | nil => simp [hne.symm]
      | cons b word' =>
          obtain ⟨-, hword'⟩ := List.ne_and_not_mem_of_not_mem_cons hword'
          rw [List.cons_append, List.cons_append, List.cons_prefix_cons, ih hword hword']
          simp [and_assoc]

/-- At a quote behind which something else begins than the word does. -/
theorem not_quoted_prefix (hword : word.head? ≠ rest.head?) (hne : word ≠ []) :
    ¬quoted q c word <+: q :: rest := by
  obtain ⟨a, word, rfl⟩ := List.exists_cons_of_ne_nil hne
  unfold quoted
  intro hprefix
  have htail := (List.cons_prefix_cons.mp hprefix).2
  cases rest with
  | nil => simp at htail
  | cons b rest => exact hword (by simp [(List.cons_prefix_cons.mp htail).1])

end

end Search
