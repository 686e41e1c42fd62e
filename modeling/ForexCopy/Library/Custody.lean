import Mathlib.Data.List.Basic
import Mathlib.Data.List.Nodup
import Mathlib.Data.List.Perm.Basic

/-!
# Custody of numbered items

A keeper numbers what is handed to it. An item is kept inside, behind those that came earlier, until it
leaves by some exit, and an item may leave at once. In sound custody every number that was issued is
inside or has left, once, and those inside stand in the order of their numbers.
-/

structure Custody (ε : Type*) where
  issued : ℕ
  inside : List ℕ
  left : List (ℕ × ε)

namespace Custody

variable {ε : Type*} {c : Custody ε}

structure Sound (c : Custody ε) : Prop where
  inOrder : c.inside.Pairwise (· < ·)
  complete : (List.range c.issued).Perm (c.inside ++ c.left.map Prod.fst)

/-- A new item is kept. -/
def enter (c : Custody ε) : Custody ε :=
  { c with issued := c.issued + 1, inside := c.inside ++ [c.issued] }

/-- A new item leaves at once. -/
def pass (c : Custody ε) (exit : ε) : Custody ε :=
  { c with issued := c.issued + 1, left := c.left ++ [(c.issued, exit)] }

/-- The item `n` at the place `i` leaves. -/
def leave (c : Custody ε) (i n : ℕ) (exit : ε) : Custody ε :=
  { c with inside := c.inside.eraseIdx i, left := c.left ++ [(n, exit)] }

/-- Everything leaves by one exit. -/
def clear (c : Custody ε) (exit : ε) : Custody ε :=
  { c with inside := [], left := c.left ++ c.inside.map fun n => (n, exit) }

theorem Sound.empty : Sound (⟨0, [], []⟩ : Custody ε) where
  inOrder := List.Pairwise.nil
  complete := List.Perm.refl _

namespace Sound

theorem nodup (h : c.Sound) : (c.inside ++ c.left.map Prod.fst).Nodup :=
  h.complete.nodup_iff.mp List.nodup_range

theorem lt_issued (h : c.Sound) {n : ℕ} (hn : n ∈ c.inside) : n < c.issued :=
  List.mem_range.mp (h.complete.mem_iff.mpr (List.mem_append_left _ hn))

theorem left_lt_issued (h : c.Sound) {n : ℕ} {exit : ε} (hn : (n, exit) ∈ c.left) : n < c.issued :=
  List.mem_range.mp
    (h.complete.mem_iff.mpr (List.mem_append_right _ (List.mem_map_of_mem (f := Prod.fst) hn)))

theorem not_left (h : c.Sound) {n : ℕ} (hn : n ∈ c.inside) (exit : ε) : (n, exit) ∉ c.left :=
  fun hleft => (List.nodup_append.mp h.nodup).2.2 n hn n (List.mem_map_of_mem hleft) rfl

theorem inside_or_left (h : c.Sound) {n : ℕ} (hn : n < c.issued) :
    n ∈ c.inside ∨ ∃ exit, (n, exit) ∈ c.left := by
  have hmem := h.complete.mem_iff.mp (List.mem_range.mpr hn)
  rw [List.mem_append] at hmem
  rcases hmem with hinside | hleft
  · exact .inl hinside
  · obtain ⟨⟨m, exit⟩, hm, rfl⟩ := List.mem_map.mp hleft
    exact .inr ⟨exit, hm⟩

theorem enter (h : c.Sound) : c.enter.Sound where
  inOrder := by
    refine List.pairwise_append.mpr ⟨h.inOrder, List.pairwise_singleton _ _, fun n hn m hm => ?_⟩
    rw [List.mem_singleton.mp hm]
    exact h.lt_issued hn
  complete := by
    unfold Custody.enter
    dsimp only
    rw [List.range_succ, List.append_assoc]
    refine (h.complete.append_right _).trans ?_
    rw [List.append_assoc]
    exact List.perm_append_comm.append_left _

theorem pass (h : c.Sound) (exit : ε) : (c.pass exit).Sound where
  inOrder := h.inOrder
  complete := by
    unfold Custody.pass
    dsimp only
    rw [List.range_succ, List.map_append, ← List.append_assoc]
    exact h.complete.append_right _

theorem leave (h : c.Sound) {i n : ℕ} (hn : c.inside[i]? = some n) (exit : ε) :
    (c.leave i n exit).Sound where
  inOrder := h.inOrder.sublist (List.eraseIdx_sublist _ _)
  complete := by
    obtain ⟨hlt, rfl⟩ := List.getElem?_eq_some_iff.mp hn
    have hsplit := List.getElem_cons_eraseIdx_perm hlt
    unfold Custody.leave
    dsimp only
    rw [List.map_append, List.map_singleton]
    refine h.complete.trans ((hsplit.symm.append_right _).trans ?_)
    rw [List.cons_append, ← List.append_assoc]
    exact (List.perm_append_singleton _ _).symm

theorem clear (h : c.Sound) (exit : ε) : (c.clear exit).Sound where
  inOrder := List.Pairwise.nil
  complete := by
    unfold Custody.clear
    dsimp only
    rw [List.map_append, List.map_map, List.nil_append]
    refine h.complete.trans (List.perm_append_comm.trans ?_)
    simp [Function.comp_def]

end Sound

end Custody
