import Mathlib.Data.Rat.Floor

/-!
# Numerals in texts

A decimal numeral determines its number and contains no dash, so a text that joins fields with
dashes determines them, whatever stands last.
-/

namespace Numeral

theorem isDigit_of_mem {n : ℕ} {c : Char} (h : c ∈ (toString n).toList) : c.isDigit := by
  rw [Nat.toString_eq_repr, Nat.toList_repr] at h
  exact Nat.isDigit_of_mem_toDigits (by decide) (by decide) h

theorem dash_notMem (n : ℕ) : '-' ∉ (toString n).toList :=
  fun h => absurd (isDigit_of_mem h) (by decide)

theorem toList_ne_nil (n : ℕ) : (toString n).toList ≠ [] := by
  rw [Nat.toString_eq_repr, Nat.toList_repr]
  exact Nat.toDigits_ne_nil

theorem toString_nat_injective {m n : ℕ} (h : toString m = toString n) : m = n := by
  have hdigits := congrArg (fun text : String => Nat.ofDigitChars 10 text.toList 0) h
  simpa [Nat.toString_eq_repr, Nat.toList_repr] using hdigits

/-- A negative numeral starts with a dash, which a natural number's has not. -/
theorem toString_negSucc_ne (m n : ℕ) : toString (Int.negSucc m) ≠ toString n := by
  intro h
  change "-" ++ Nat.repr (m + 1) = toString n at h
  exact dash_notMem n (by rw [← h]; simp)

theorem toString_int_injective {a b : ℤ} (h : toString a = toString b) : a = b := by
  cases a with
  | ofNat m =>
      cases b with
      | ofNat n => exact congrArg _ (toString_nat_injective h)
      | negSucc n => exact absurd h.symm (toString_negSucc_ne n m)
  | negSucc m =>
      cases b with
      | ofNat n => exact absurd h (toString_negSucc_ne m n)
      | negSucc n =>
          change "-" ++ Nat.repr (m + 1) = "-" ++ Nat.repr (n + 1) at h
          have hrepr : toString (m + 1) = toString (n + 1) := by simpa using h
          simpa using toString_nat_injective hrepr

/-- Two texts that are cut at their first dash have the same parts. -/
theorem append_dash_inj {a b r s : List Char} (ha : '-' ∉ a) (hb : '-' ∉ b)
    (hr : r = [] ∨ ∃ rest, r = '-' :: rest) (hs : s = [] ∨ ∃ rest, s = '-' :: rest)
    (h : a ++ r = b ++ s) : a = b ∧ r = s := by
  induction a generalizing b with
  | nil =>
      cases b with
      | nil => exact ⟨rfl, h⟩
      | cons c rest =>
          rcases hr with rfl | ⟨tail, rfl⟩
          · simp at h
          · injection h with hc
            exact absurd (hc ▸ List.mem_cons_self) hb
  | cons c rest ih =>
      cases b with
      | nil =>
          rcases hs with rfl | ⟨tail, rfl⟩
          · simp at h
          · injection h with hc
            exact absurd (hc ▸ List.mem_cons_self) ha
      | cons d rest' =>
          injection h with hc htail
          obtain ⟨hrest, htails⟩ := ih (fun hmem => ha (List.mem_cons_of_mem _ hmem))
            (fun hmem => hb (List.mem_cons_of_mem _ hmem)) htail
          exact ⟨by rw [hc, hrest], htails⟩

end Numeral
