import Mathlib.Data.Multiset.Bind
import Mathlib.Data.Multiset.Filter

/-!
# Entries in groups

What a pass over entries makes of them, as a multiset: the order in which it goes through them and the
groups it puts them into are gone.
-/

namespace Grouping

variable {α β κ : Type*}

/-- A pass that skips entries. -/
theorem bind_filter (entries : Multiset α) (p : α → Prop) [DecidablePred p] (f : α → Multiset β) :
    ((entries.filter p).bind f) = entries.bind fun entry => if p entry then f entry else 0 := by
  induction entries using Multiset.induction with
  | empty => rfl
  | cons entry rest ih =>
      rw [Multiset.cons_bind, ← ih]
      by_cases h : p entry
      · rw [if_pos h, Multiset.filter_cons_of_pos _ h, Multiset.cons_bind]
      · rw [if_neg h, Multiset.filter_cons_of_neg _ h, zero_add]

/-- A pass that makes one thing of some of the entries. -/
theorem bind_ite (entries : Multiset α) (p : α → Prop) [DecidablePred p] (f : α → β) :
    (entries.bind fun entry => if p entry then {f entry} else 0) = (entries.filter p).map f := by
  rw [← bind_filter, Multiset.bind_singleton]

/-- A pass over keys that has something to do for one of them. -/
theorem bind_key [DecidableEq κ] {keys : Multiset κ} (hkeys : keys.Nodup) {key : κ} (hkey : key ∈ keys)
    (f : κ → Multiset β) : (keys.bind fun k => if key = k then f k else 0) = f key := by
  have hrest : ∀ k ∈ keys.erase key, (if key = k then f k else 0) = 0 :=
    fun k hk => if_neg fun h => hkeys.notMem_erase (h ▸ hk)
  rw [← Multiset.cons_erase hkey, Multiset.cons_bind, if_pos rfl, Multiset.bind_congr hrest,
    Multiset.bind_zero, add_zero]

/-- Going through the groups of the entries is going through the entries that are in a group. -/
theorem bind_groups [DecidableEq κ] {keys : Multiset κ} (hkeys : keys.Nodup) (name : α → Option κ)
    {entries : Multiset α} (hnames : ∀ entry ∈ entries, ∀ key ∈ name entry, key ∈ keys)
    (f : κ → α → Multiset β) :
    (keys.bind fun key => (entries.filter fun entry => name entry = some key).bind (f key)) =
      entries.bind fun entry => (name entry).elim 0 fun key => f key entry := by
  simp only [bind_filter]
  rw [Multiset.bind_bind]
  refine Multiset.bind_congr fun entry hentry => ?_
  cases hname : name entry with
  | none => simp
  | some key =>
      simp only [Option.some.injEq, Option.elim_some]
      exact bind_key hkeys (hnames entry hentry key hname) fun k => f k entry

end Grouping
