import Mathlib.Data.Set.Insert

/-!
# Holdings

A record of what was opened and closed, each under a key. An opening brings an item that carries a
ticket, and a closing names one. What is held can be read off by matching closings to openings by key,
as the keeper of the record does, or by ticket, as the holder does. The two readings agree as long as
the record is coherent, and a coherent record stays so under the two operations.
-/

@[ext] structure Holdings (κ ι τ : Type*) where
  opened : Set (κ × ι)
  closed : Set (κ × τ)

namespace Holdings

variable {κ ι τ : Type*} {ticket : ι → τ} {h : Holdings κ ι τ}

/-- The items whose key has no closing. -/
def byKey (h : Holdings κ ι τ) : Set ι :=
  {item | ∃ key, (key, item) ∈ h.opened ∧ ∀ t, (key, t) ∉ h.closed}

/-- The items whose ticket no closing names. -/
def byTicket (ticket : ι → τ) (h : Holdings κ ι τ) : Set ι :=
  {item | (∃ key, (key, item) ∈ h.opened) ∧ ∀ key, (key, ticket item) ∉ h.closed}

/-- A key opens one item, no ticket is given out twice, and a closing names the ticket of the item its
key has opened. -/
structure Coherent (ticket : ι → τ) (h : Holdings κ ι τ) : Prop where
  once : ∀ ⦃key item item'⦄, (key, item) ∈ h.opened → (key, item') ∈ h.opened → item = item'
  tickets : ∀ ⦃key key' item item'⦄, (key, item) ∈ h.opened → (key', item') ∈ h.opened →
    ticket item = ticket item' → key = key'
  matched : ∀ ⦃key t⦄, (key, t) ∈ h.closed → ∃ item, (key, item) ∈ h.opened ∧ ticket item = t

theorem Coherent.empty : Coherent ticket (⟨∅, ∅⟩ : Holdings κ ι τ) where
  once _ _ _ hitem := hitem.elim
  tickets _ _ _ _ hitem := hitem.elim
  matched _ _ hclosed := hclosed.elim

/-- In a coherent record both readings give the same holdings. -/
theorem Coherent.byKey_eq_byTicket (hcoherent : h.Coherent ticket) : h.byKey = h.byTicket ticket := by
  ext item
  constructor
  · rintro ⟨key, hopened, hopen⟩
    refine ⟨⟨key, hopened⟩, fun key' hclosed => ?_⟩
    obtain ⟨item', hopened', hticket⟩ := hcoherent.matched hclosed
    obtain rfl := hcoherent.tickets hopened' hopened hticket
    exact hopen _ hclosed
  · rintro ⟨⟨key, hopened⟩, hopen⟩
    refine ⟨key, hopened, fun t hclosed => ?_⟩
    obtain ⟨item', hopened', rfl⟩ := hcoherent.matched hclosed
    obtain rfl := hcoherent.once hopened hopened'
    exact hopen key hclosed

theorem Coherent.open (hcoherent : h.Coherent ticket) {key : κ} {item : ι}
    (hkey : ∀ item', (key, item') ∉ h.opened)
    (hticket : ∀ key' item', (key', item') ∈ h.opened → ticket item' ≠ ticket item) :
    Coherent ticket ⟨insert (key, item) h.opened, h.closed⟩ where
  once key' a b := by
    rintro (ha | ha) (hb | hb)
    · exact (Prod.mk.inj ha).2.trans (Prod.mk.inj hb).2.symm
    · exact absurd hb ((Prod.mk.inj ha).1 ▸ hkey b)
    · exact absurd ha ((Prod.mk.inj hb).1 ▸ hkey a)
    · exact hcoherent.once ha hb
  tickets key' key'' a b := by
    rintro (ha | ha) (hb | hb) hsame
    · exact (Prod.mk.inj ha).1.trans (Prod.mk.inj hb).1.symm
    · exact absurd (hsame.symm.trans (congrArg ticket (Prod.mk.inj ha).2)) (hticket _ _ hb)
    · exact absurd (hsame.trans (congrArg ticket (Prod.mk.inj hb).2)) (hticket _ _ ha)
    · exact hcoherent.tickets ha hb hsame
  matched key' t hclosed := by
    obtain ⟨item', hopened, hsame⟩ := hcoherent.matched hclosed
    exact ⟨item', .inr hopened, hsame⟩

theorem Coherent.close (hcoherent : h.Coherent ticket) {key : κ} {item : ι}
    (hopened : (key, item) ∈ h.opened) :
    Coherent ticket ⟨h.opened, insert (key, ticket item) h.closed⟩ where
  once := hcoherent.once
  tickets := hcoherent.tickets
  matched key' t := by
    rintro (hnew | hclosed)
    · obtain ⟨rfl, rfl⟩ := Prod.mk.inj hnew
      exact ⟨item, hopened, rfl⟩
    · exact hcoherent.matched hclosed

end Holdings
