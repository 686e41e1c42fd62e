import Mathlib.Data.List.Nodup

/-!
# Tables with keys

A table is the list of its rows in the order they were created. A unique index is a key that no two
rows share; an insert that would break it is refused, and an update by key leaves every other row
alone. A generated identifier is one that no row has yet.
-/

namespace Table

variable {ρ κ : Type*}

theorem eq_of_key_eq {key : ρ → κ} {rows : List ρ} (hunique : (rows.map key).Nodup) {a b : ρ}
    (ha : a ∈ rows) (hb : b ∈ rows) (h : key a = key b) : a = b :=
  List.inj_on_of_nodup_map hunique ha hb h

theorem nodup_append_of_notMem {key : ρ → κ} {rows : List ρ} {row : ρ}
    (hunique : (rows.map key).Nodup) (hnew : key row ∉ rows.map key) :
    ((rows ++ [row]).map key).Nodup := by
  rw [List.map_append, List.map_cons, List.map_nil]
  refine List.nodup_append.mpr ⟨hunique, List.nodup_singleton _, ?_⟩
  rintro a ha b hb rfl
  rw [List.mem_singleton] at hb
  exact hnew (hb ▸ ha)

theorem length_filter_le_one {key : ρ → κ} {rows : List ρ} {p : ρ → Bool}
    (hunique : (rows.map key).Nodup)
    (hsame : ∀ a ∈ rows, ∀ b ∈ rows, p a → p b → key a = key b) : (rows.filter p).length ≤ 1 := by
  have hnodup : ((rows.filter p).map key).Nodup := hunique.sublist (List.filter_sublist.map key)
  match hfilter : rows.filter p with
  | [] => simp
  | [a] => simp
  | a :: b :: rest =>
      obtain ⟨ha, hpa⟩ := List.mem_filter.mp (hfilter ▸ List.mem_cons_self : a ∈ rows.filter p)
      obtain ⟨hb, hpb⟩ := List.mem_filter.mp
        (hfilter ▸ List.mem_cons_of_mem _ List.mem_cons_self : b ∈ rows.filter p)
      rw [hfilter] at hnodup
      simp [hsame a ha b hb hpa hpb] at hnodup

/-- Where a filter keeps at most one row, rows that it keeps are one row. -/
theorem eq_of_countP_le_one {rows : List ρ} {p : ρ → Bool} (h : rows.countP p ≤ 1) {a b : ρ}
    (ha : a ∈ rows) (hb : b ∈ rows) (hpa : p a) (hpb : p b) : a = b := by
  have ha' := List.mem_filter.mpr ⟨ha, hpa⟩
  have hb' := List.mem_filter.mpr ⟨hb, hpb⟩
  rw [List.countP_eq_length_filter] at h
  match hfilter : rows.filter p with
  | [] => simp [hfilter] at ha'
  | [row] =>
      rw [hfilter, List.mem_singleton] at ha' hb'
      rw [ha', hb']
  | _ :: _ :: _ => simp [hfilter] at h

/-- The rows in another order: for each row in turn, how many of the later ones come before it. -/
def arrange : List ℕ → List ρ → List ρ
  | place :: places, row :: rest => (arrange places rest).insertIdx (min place rest.length) row
  | _, rows => rows

theorem arrange_perm (places : List ℕ) (rows : List ρ) : (arrange places rows).Perm rows := by
  induction rows generalizing places with
  | nil => cases places <;> exact .refl _
  | cons row rest ih =>
      cases places with
      | nil => exact .refl _
      | cons place places =>
          have hplace : min place rest.length ≤ (arrange places rest).length := by
            rw [(ih places).length_eq]
            exact Nat.min_le_right _ _
          exact (List.perm_insertIdx row _ hplace).trans ((ih places).cons row)

@[simp] theorem mem_arrange {places : List ℕ} {rows : List ρ} {row : ρ} :
    row ∈ arrange places rows ↔ row ∈ rows :=
  (arrange_perm places rows).mem_iff

def tally (weight : ρ → ℕ) (rows : List ρ) : ℕ := rows.foldr (fun row sum => weight row + sum) 0

@[simp] theorem tally_nil (weight : ρ → ℕ) : tally weight [] = 0 := rfl

@[simp] theorem tally_cons (weight : ρ → ℕ) (row : ρ) (rest : List ρ) :
    tally weight (row :: rest) = weight row + tally weight rest := rfl

@[simp] theorem tally_append (weight : ρ → ℕ) (front back : List ρ) :
    tally weight (front ++ back) = tally weight front + tally weight back := by
  induction front with
  | nil => simp
  | cons row rest ih =>
      simp only [List.cons_append, tally_cons, ih]
      omega

theorem tally_map (weight : ρ → ℕ) {α : Type*} (f : α → ρ) (rows : List α) :
    tally weight (rows.map f) = tally (fun row => weight (f row)) rows := by
  simp [tally, List.foldr_map]

/-- The rows that are `row` are counted by a tally. -/
theorem tally_eq_count [DecidableEq ρ] [BEq ρ] [LawfulBEq ρ] (row : ρ) (rows : List ρ) :
    tally (fun other => if other = row then 1 else 0) rows = rows.count row := by
  induction rows with
  | nil => rfl
  | cons head rest ih =>
      rw [tally_cons, ih, List.count_cons, Nat.add_comm]
      simp only [beq_iff_eq]

theorem tally_le {weight weight' : ρ → ℕ} {rows : List ρ}
    (h : ∀ row ∈ rows, weight' row ≤ weight row) : tally weight' rows ≤ tally weight rows := by
  induction rows with
  | nil => exact Nat.le_refl _
  | cons row rest ih =>
      have hrow := h row List.mem_cons_self
      have hrest := ih fun r hr => h r (List.mem_cons_of_mem _ hr)
      rw [tally_cons, tally_cons]
      omega

theorem tally_filter (weight : ρ → ℕ) (p : ρ → Prop) [DecidablePred p] (rows : List ρ) :
    tally weight (rows.filter p) = tally (fun row => if p row then weight row else 0) rows := by
  induction rows with
  | nil => rfl
  | cons row rest ih =>
      rw [List.filter_cons]
      split_ifs with hrow <;> simp_all

variable [DecidableEq κ]

/-- The rows, with `change` applied to those whose key is `k`. -/
def update (key : ρ → κ) (k : κ) (change : ρ → ρ) (rows : List ρ) : List ρ :=
  rows.map fun row => if key row = k then change row else row

def lookup (key : ρ → κ) (k : κ) (rows : List ρ) : Option ρ :=
  rows.find? fun row => key row = k

/-- A table of two columns in which the entry of `k` is replaced, or added. -/
def put {α : Type*} (k : κ) (value : α) (entries : List (κ × α)) : List (κ × α) :=
  entries.filter (fun entry => entry.1 ≠ k) ++ [(k, value)]

/-- An identifier that is not among `used`. -/
def fresh (used : List ℕ) : ℕ :=
  used.foldr max 0 + 1

theorem lt_fresh {used : List ℕ} {n : ℕ} (h : n ∈ used) : n < fresh used := by
  induction used with
  | nil => simp at h
  | cons m rest ih =>
      simp only [fresh, List.foldr_cons] at ih ⊢
      rcases List.mem_cons.mp h with rfl | hrest
      · omega
      · have := ih hrest
        omega

theorem fresh_notMem (used : List ℕ) : fresh used ∉ used :=
  fun h => Nat.lt_irrefl _ (lt_fresh h)

theorem lookup_mem {key : ρ → κ} {k : κ} {rows : List ρ} {row : ρ}
    (h : lookup key k rows = some row) : row ∈ rows :=
  List.mem_of_find?_eq_some h

theorem lookup_key {key : ρ → κ} {k : κ} {rows : List ρ} {row : ρ}
    (h : lookup key k rows = some row) : key row = k := by
  simpa using List.find?_some h

theorem lookup_of_mem {key : ρ → κ} {rows : List ρ} (hunique : (rows.map key).Nodup) {row : ρ} {k : κ}
    (h : row ∈ rows) (hkey : key row = k) : lookup key k rows = some row := by
  cases hfound : lookup key k rows with
  | none => exact absurd (List.find?_eq_none.mp hfound row h) (by simp [hkey])
  | some found =>
      rw [eq_of_key_eq hunique (lookup_mem hfound) h ((lookup_key hfound).trans hkey.symm)]

theorem mem_put {α : Type*} {k : κ} {value : α} {entries : List (κ × α)} {entry : κ × α}
    (h : entry ∈ put k value entries) : entry ∈ entries ∨ entry = (k, value) := by
  rw [put, List.mem_append, List.mem_singleton] at h
  exact h.imp_left List.mem_of_mem_filter

theorem keys_put {α : Type*} (k : κ) (value : α) (entries : List (κ × α)) :
    (put k value entries).map Prod.fst =
      (entries.map Prod.fst).filter (fun other => other ≠ k) ++ [k] := by
  rw [put, List.map_append, List.filter_map]
  rfl

theorem lookup_filter_of_ne {α : Type*} {k other : κ} (hne : other ≠ k) (entries : List (κ × α)) :
    lookup Prod.fst other (entries.filter fun entry => entry.1 ≠ k) =
      lookup Prod.fst other entries := by
  unfold lookup
  rw [List.find?_filter]
  refine congrArg (fun p => entries.find? p) (funext fun entry => ?_)
  by_cases hother : entry.1 = other
  · simp [hother, hne]
  · simp [hother]

theorem lookup_put_of_ne {α : Type*} {k other : κ} (hne : other ≠ k) (value : α)
    (entries : List (κ × α)) :
    lookup Prod.fst other (put k value entries) = lookup Prod.fst other entries := by
  have hlast : (k, value).1 ≠ other := fun h => hne h.symm
  rw [← lookup_filter_of_ne hne entries]
  unfold lookup put
  rw [List.find?_append, List.find?_singleton, if_neg (by simpa using hlast), Option.or_none]

theorem lookup_filter_self {α : Type*} (k : κ) (entries : List (κ × α)) :
    lookup Prod.fst k (entries.filter fun entry => entry.1 ≠ k) = none := by
  unfold lookup
  rw [List.find?_eq_none]
  intro entry hentry
  simpa using (List.mem_filter.mp hentry).2

theorem lookup_put_self {α : Type*} (k : κ) (value : α) (entries : List (κ × α)) :
    lookup Prod.fst k (put k value entries) = some (k, value) := by
  have hnone := lookup_filter_self k entries
  unfold lookup put at *
  rw [List.find?_append, hnone]
  simp

/-- A row of columns that may be missing has the entries of those that are there. -/
theorem lookup_filterMap {α : Type*} {columns : List (κ × Option α)}
    (hunique : (columns.map Prod.fst).Nodup) {k : κ} {entry : Option α} (h : (k, entry) ∈ columns) :
    lookup Prod.fst k (columns.filterMap fun column => column.2.map fun value => (column.1, value)) =
      entry.map fun value => (k, value) := by
  set present := columns.filterMap fun column => column.2.map fun value => (column.1, value)
    with hpresent
  have hcolumn {value : α} : (k, value) ∈ present ↔ entry = some value := by
    rw [hpresent, List.mem_filterMap]
    constructor
    · rintro ⟨⟨k', entry'⟩, hmem, hvalue⟩
      obtain ⟨value', rfl, hpair⟩ := Option.map_eq_some_iff.mp hvalue
      cases hpair
      exact congrArg Prod.snd (eq_of_key_eq hunique h hmem rfl)
    · rintro rfl
      exact ⟨_, h, rfl⟩
  cases hlookup : lookup Prod.fst k present with
  | some row =>
      obtain ⟨k', value⟩ := row
      obtain rfl : k' = k := lookup_key hlookup
      rw [hcolumn.mp (lookup_mem hlookup), Option.map_some]
  | none =>
      cases hentry : entry with
      | none => rfl
      | some value =>
          have hnone := List.find?_eq_none.mp hlookup _ (hcolumn.mpr hentry)
          simp at hnone

theorem filter_eq_singleton {key : ρ → κ} {rows : List ρ} (hunique : (rows.map key).Nodup) {row : ρ}
    (hrow : row ∈ rows) : rows.filter (fun other => key other = key row) = [row] := by
  induction rows with
  | nil => simp at hrow
  | cons head rest ih =>
      rw [List.map_cons, List.nodup_cons] at hunique
      rcases List.mem_cons.mp hrow with rfl | hrest
      · have hnone : rest.filter (fun other => key other = key row) = [] :=
          List.filter_eq_nil_iff.mpr fun other hother => by
            have hne : key other ≠ key row := fun h => hunique.1 (h ▸ List.mem_map_of_mem hother)
            simpa using hne
        simp [hnone]
      · have hne : key head ≠ key row := fun h => hunique.1 (h ▸ List.mem_map_of_mem hrest)
        simpa [hne] using ih hunique.2 hrest

@[simp] theorem length_update (key : ρ → κ) (k : κ) (change : ρ → ρ) (rows : List ρ) :
    (update key k change rows).length = rows.length := by
  simp [update]

theorem mem_update {key : ρ → κ} {k : κ} {change : ρ → ρ} {rows : List ρ} {row : ρ} :
    row ∈ update key k change rows ↔
      ∃ old ∈ rows, (key old = k ∧ row = change old) ∨ (key old ≠ k ∧ row = old) := by
  unfold update
  rw [List.mem_map]
  constructor
  · rintro ⟨old, hold, hrow⟩
    by_cases hk : key old = k
    · exact ⟨old, hold, .inl ⟨hk, by rw [← hrow, if_pos hk]⟩⟩
    · exact ⟨old, hold, .inr ⟨hk, by rw [← hrow, if_neg hk]⟩⟩
  · rintro ⟨old, hold, ⟨hk, rfl⟩ | ⟨hk, rfl⟩⟩
    · exact ⟨old, hold, by rw [if_pos hk]⟩
    · exact ⟨row, hold, by rw [if_neg hk]⟩

theorem mem_update_row {key : ρ → κ} {k : κ} {change : ρ → ρ} {rows : List ρ}
    (hunique : (rows.map key).Nodup) {row : ρ} (hrow : row ∈ rows) (hkey : key row = k) {other : ρ} :
    other ∈ update key k change rows ↔ other = change row ∨ (other ∈ rows ∧ key other ≠ k) := by
  rw [mem_update]
  constructor
  · rintro ⟨old, hold, ⟨holdKey, rfl⟩ | ⟨hne, rfl⟩⟩
    · exact .inl (by rw [eq_of_key_eq hunique hold hrow (holdKey.trans hkey.symm)])
    · exact .inr ⟨hold, hne⟩
  · rintro (rfl | ⟨hother, hne⟩)
    · exact ⟨row, hrow, .inl ⟨hkey, rfl⟩⟩
    · exact ⟨other, hother, .inr ⟨hne, rfl⟩⟩

theorem mem_update_of_eq {key : ρ → κ} {k : κ} {change : ρ → ρ} {rows : List ρ} {row : ρ}
    (h : row ∈ rows) (hkey : key row = k) : change row ∈ update key k change rows :=
  mem_update.mpr ⟨row, h, .inl ⟨hkey, rfl⟩⟩

theorem mem_update_of_ne {key : ρ → κ} {k : κ} {change : ρ → ρ} {rows : List ρ} {row : ρ}
    (h : row ∈ rows) (hkey : key row ≠ k) : row ∈ update key k change rows :=
  mem_update.mpr ⟨row, h, .inr ⟨hkey, rfl⟩⟩

theorem lookup_update_self {key : ρ → κ} {k : κ} {change : ρ → ρ} (rows : List ρ)
    (hkey : ∀ row, key (change row) = key row) :
    lookup key k (update key k change rows) = (lookup key k rows).map change := by
  unfold lookup update
  induction rows with
  | nil => rfl
  | cons row rest ih =>
      by_cases hrow : key row = k
      · simp [hrow, hkey]
      · simpa [hrow] using ih

theorem lookup_update_of_ne {key : ρ → κ} {k other : κ} (hne : other ≠ k) {change : ρ → ρ} (rows : List ρ)
    (hkey : ∀ row, key (change row) = key row) :
    lookup key other (update key k change rows) = lookup key other rows := by
  unfold lookup update
  induction rows with
  | nil => rfl
  | cons row rest ih =>
      by_cases hrow : key row = k
      · have hother : ¬k = other := fun h => hne h.symm
        simpa [hrow, hkey, hother] using ih
      · simp only [List.map_cons, if_neg hrow, List.find?_cons]
        rw [ih]

theorem filter_update_of_notMem {key : ρ → κ} {k : κ} {change : ρ → ρ} {p : ρ → Bool}
    {rows : List ρ} (h : ∀ row ∈ rows, key row = k → p row = false ∧ p (change row) = false) :
    (update key k change rows).filter p = rows.filter p := by
  induction rows with
  | nil => rfl
  | cons row rest ih =>
      have hrest := ih fun r hr => h r (List.mem_cons_of_mem _ hr)
      unfold update at hrest ⊢
      rw [List.map_cons, List.filter_cons, List.filter_cons, hrest]
      split
      · rename_i hkey
        obtain ⟨hold, hnew⟩ := h row List.mem_cons_self hkey
        rw [hold, hnew]
        rfl
      · rfl

theorem filter_update {key : ρ → κ} {k : κ} {change : ρ → ρ} {p : ρ → Bool} (rows : List ρ)
    (h : ∀ row, p (change row) = p row) :
    (update key k change rows).filter p = update key k change (rows.filter p) := by
  unfold update
  rw [List.filter_map]
  refine congrArg _ (List.filter_congr fun row _ => ?_)
  simp only [Function.comp]
  split_ifs
  · exact h row
  · rfl

theorem update_append_last {key : ρ → κ} {k : κ} {change : ρ → ρ} {rows : List ρ} {row : ρ}
    (hold : ∀ other ∈ rows, key other ≠ k) (hkey : key row = k) :
    update key k change (rows ++ [row]) = rows ++ [change row] := by
  have hsame : ∀ other ∈ rows, (if key other = k then change other else other) = other :=
    fun other hother => if_neg (hold other hother)
  unfold update
  rw [List.map_append, List.map_congr_left hsame, List.map_id', List.map_singleton, if_pos hkey]

/-- An update does not add to a tally that it adds to at no row. -/
theorem tally_update_le {weight weight' : ρ → ℕ} {key : ρ → κ} {k : κ} {change : ρ → ρ}
    {rows : List ρ} (hchanged : ∀ row ∈ rows, key row = k → weight' (change row) ≤ weight row)
    (hkept : ∀ row ∈ rows, key row ≠ k → weight' row ≤ weight row) :
    tally weight' (update key k change rows) ≤ tally weight rows := by
  have hrows : tally weight' (update key k change rows) =
      tally (fun row => weight' (if key row = k then change row else row)) rows := by
    simp [tally, update, List.foldr_map]
  rw [hrows]
  refine tally_le fun row hrow => ?_
  split_ifs with hkey
  · exact hchanged row hrow hkey
  · exact hkept row hrow hkey

/-- Where each row contributes entries that carry its own key, the entries of one key are those of
its row. -/
theorem filter_flatMap {β : Type*} {key : ρ → κ} {rows : List ρ} (hunique : (rows.map key).Nodup)
    {f : ρ → List β} {g : β → κ} (hkey : ∀ row, ∀ entry ∈ f row, g entry = key row) (k : κ) :
    (rows.flatMap f).filter (fun entry => g entry = k) = ((lookup key k rows).map f).getD [] := by
  induction rows with
  | nil => rfl
  | cons row rest ih =>
      rw [List.map_cons, List.nodup_cons] at hunique
      rw [List.flatMap_cons, List.filter_append, ih hunique.2]
      by_cases hrow : key row = k
      · have hall : (f row).filter (fun entry => g entry = k) = f row :=
          List.filter_eq_self.mpr fun entry hentry => by simp [hkey row entry hentry, hrow]
        have hnone : lookup key k rest = none :=
          List.find?_eq_none.mpr fun other hother => by
            have hne : key other ≠ key row := fun h => hunique.1 (h ▸ List.mem_map_of_mem hother)
            simpa [hrow] using hne
        rw [hall, hnone]
        simp [lookup, hrow]
      · have hnil : (f row).filter (fun entry => g entry = k) = [] :=
          List.filter_eq_nil_iff.mpr fun entry hentry => by simp [hkey row entry hentry, hrow]
        rw [hnil]
        simp [lookup, hrow]

theorem map_update {β : Type*} {key : ρ → κ} {k : κ} {change : ρ → ρ} {f : ρ → β} (rows : List ρ)
    (h : ∀ row, f (change row) = f row) : (update key k change rows).map f = rows.map f := by
  unfold update
  rw [List.map_map]
  apply List.map_congr_left
  intro row _
  simp only [Function.comp]
  split
  · exact h row
  · rfl

/-! ### Tables row by row -/

section

variable {σ : Type*} {R : ρ → σ → Prop} {rows : List ρ} {rows' : List σ}

theorem exists_of_mem_left (h : List.Forall₂ R rows rows') {row : ρ} (hrow : row ∈ rows) :
    ∃ row' ∈ rows', R row row' := by
  induction h with
  | nil => simp at hrow
  | @cons head head' rest rest' hhead _ ih =>
      rcases List.mem_cons.mp hrow with rfl | hrest
      · exact ⟨head', List.mem_cons_self, hhead⟩
      · obtain ⟨row', hrow', hrel⟩ := ih hrest
        exact ⟨row', List.mem_cons_of_mem _ hrow', hrel⟩

theorem exists_of_mem_right (h : List.Forall₂ R rows rows') {row' : σ} (hrow : row' ∈ rows') :
    ∃ row ∈ rows, R row row' :=
  exists_of_mem_left h.flip hrow

/-- An update keeps a relation to another table that it keeps for the rows it changes. -/
theorem forall₂_update {key : σ → κ} {k : κ} {change : σ → σ}
    (h : List.Forall₂ R rows rows')
    (hchange : ∀ row row', R row row' → key row' = k → R row (change row')) :
    List.Forall₂ R rows (update key k change rows') := by
  unfold update
  refine List.forall₂_map_right_iff.mpr (h.imp fun row row' hrel => ?_)
  split_ifs with hkey
  · exact hchange row row' hrel hkey
  · exact hrel

end

/-! ### Frames -/

section

variable {φ : Type*} {own : ρ → Prop} {fixed : ρ → φ} {rows rows' : List ρ}

/-- The same rows in the same places, but for the rows of `own`, which keep their `fixed` part. -/
def ChangesOnly (own : ρ → Prop) (fixed : ρ → φ) (rows rows' : List ρ) : Prop :=
  List.Forall₂ (fun row row' => row' = row ∨ own row ∧ fixed row' = fixed row) rows rows'

theorem ChangesOnly.refl (rows : List ρ) : ChangesOnly own fixed rows rows :=
  List.forall₂_same.mpr fun _ _ => .inl rfl

theorem ChangesOnly.update {key : ρ → κ} {k : κ} {change : ρ → ρ}
    (hown : ∀ row ∈ rows, key row = k → own row) (hfixed : ∀ row, fixed (change row) = fixed row) :
    ChangesOnly own fixed rows (update key k change rows) := by
  unfold ChangesOnly Table.update
  refine List.forall₂_map_right_iff.mpr (List.forall₂_same.mpr fun row hrow => ?_)
  split_ifs with hkey
  · exact .inr ⟨hown row hrow hkey, hfixed row⟩
  · exact .inl rfl

theorem ChangesOnly.map_fixed (h : ChangesOnly own fixed rows rows') :
    rows'.map fixed = rows.map fixed := by
  induction h with
  | nil => rfl
  | cons hhead _ ih =>
      rw [List.map_cons, List.map_cons, ih]
      rcases hhead with rfl | ⟨-, hfixed⟩
      · rfl
      · rw [hfixed]

def AppendsOnly (own : ρ → Prop) (rows rows' : List ρ) : Prop :=
  ∃ new, rows' = rows ++ new ∧ ∀ row ∈ new, own row

theorem AppendsOnly.refl (rows : List ρ) : AppendsOnly own rows rows :=
  ⟨[], by simp, by simp⟩

theorem AppendsOnly.single {row : ρ} (h : own row) : AppendsOnly own rows (rows ++ [row]) :=
  ⟨[row], rfl, by simpa using h⟩

end

end Table
