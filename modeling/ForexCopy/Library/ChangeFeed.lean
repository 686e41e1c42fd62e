import Mathlib.Data.List.Nodup

/-!
# Feeds of changes and the lists that follow them

A store announces the changes of its entries one after another, and a reader keeps a bounded list of
entries that it brings up to date with each announcement. Of all announcements about one key only the
latest matters, so a reader that starts from a snapshot may begin anywhere before it and take
announcements about different keys in any order.
-/

namespace ChangeFeed

variable {ε ρ κ : Type*} [DecidableEq κ] {key : ε → κ} {k : κ}

/-! ### The latest announcement -/

/-- The last announcement about `k`. -/
def latest (key : ε → κ) (k : κ) (feed : List ε) : Option ε :=
  (feed.filter fun event => key event = k).getLast?

@[simp] theorem latest_nil : latest key k [] = none := rfl

theorem latest_append (front back : List ε) :
    latest key k (front ++ back) = (latest key k back).or (latest key k front) := by
  simp [latest, List.getLast?_append]

theorem latest_singleton (event : ε) :
    latest key k [event] = if key event = k then some event else none := by
  unfold latest
  split_ifs with hkey <;> simp [hkey]

theorem latest_cons (event : ε) (rest : List ε) :
    latest key k (event :: rest) =
      (latest key k rest).or (if key event = k then some event else none) := by
  rw [← List.singleton_append, latest_append, latest_singleton]

theorem latest_concat (feed : List ε) (event : ε) :
    latest key k (feed ++ [event]) = if key event = k then some event else latest key k feed := by
  rw [latest_append, latest_singleton]
  split_ifs <;> simp

theorem latest_eq_none {feed : List ε} : latest key k feed = none ↔ ∀ event ∈ feed, key event ≠ k := by
  simp [latest]

theorem mem_of_latest {feed : List ε} {event : ε} (h : latest key k feed = some event) :
    event ∈ feed ∧ key event = k := by
  simpa using List.mem_of_getLast? h

/-- An announcement may be made before others that are about other keys. -/
theorem latest_advance {front : List ε} {event : ε} (feed back : List ε)
    (hother : ∀ earlier ∈ front, key earlier ≠ key event) :
    latest key k (feed ++ [event] ++ (front ++ back)) =
      latest key k (feed ++ (front ++ event :: back)) := by
  have hfront : key event = k → latest key k front = none := by
    rintro rfl
    exact latest_eq_none.mpr hother
  simp only [latest_append, latest_cons]
  by_cases hk : key event = k
  · simp [hk, hfront hk]
  · simp [hk]

/-! ### Lists that follow a feed -/

/-- The list with the entry of `k` replaced where it stands, or with a new entry in front, of which no
more than `limit` entries are kept. -/
def upsert (rowKey : ρ → κ) (limit : ℕ) (k : κ) (merge : Option ρ → ρ) (rows : List ρ) : List ρ :=
  match rows.findIdx? fun row => rowKey row = k with
  | some i => rows.set i (merge rows[i]?)
  | none => (merge none :: rows).take limit

section

variable {rowKey : ρ → κ} {limit : ℕ} {merge : Option ρ → ρ} {rows : List ρ}

/-- What an update does: the entry of the key is replaced in its place, or there was none. -/
theorem upsert_cases (rowKey : ρ → κ) (limit : ℕ) (k : κ) (merge : Option ρ → ρ) (rows : List ρ) :
    (∃ front row back, rows = front ++ row :: back ∧ rowKey row = k ∧
        (∀ other ∈ front, rowKey other ≠ k) ∧
        upsert rowKey limit k merge rows = front ++ merge (some row) :: back) ∨
      (∀ row ∈ rows, rowKey row ≠ k) ∧
        upsert rowKey limit k merge rows = (merge none :: rows).take limit := by
  unfold upsert
  cases hfound : rows.findIdx? fun row => rowKey row = k with
  | none =>
      refine .inr ⟨fun row hrow => ?_, rfl⟩
      simpa using List.findIdx?_eq_none_iff.mp hfound row hrow
  | some i =>
      obtain ⟨hlt, hkey, hbefore⟩ := List.findIdx?_eq_some_iff_getElem.mp hfound
      refine .inl ⟨rows.take i, rows[i], rows.drop (i + 1), ?_, by simpa using hkey, ?_, ?_⟩
      · rw [List.getElem_cons_drop, List.take_append_drop]
      · intro other hother
        obtain ⟨j, hj, rfl⟩ := List.mem_iff_getElem.mp hother
        rw [List.length_take] at hj
        rw [List.getElem_take]
        simpa using hbefore j (by omega)
      · simp only [List.getElem?_eq_getElem hlt, List.set_eq_take_append_cons_drop, if_pos hlt]

theorem length_upsert_le (h : rows.length ≤ limit) :
    (upsert rowKey limit k merge rows).length ≤ limit := by
  obtain ⟨front, row, back, rfl, -, -, heq⟩ | ⟨-, heq⟩ := upsert_cases rowKey limit k merge rows
  · rw [heq]
    simpa using h
  · rw [heq, List.length_take]
    omega

theorem nodup_upsert (hmerge : ∀ old, rowKey (merge old) = k) (h : (rows.map rowKey).Nodup) :
    ((upsert rowKey limit k merge rows).map rowKey).Nodup := by
  obtain ⟨front, row, back, rfl, hkey, -, heq⟩ | ⟨hnew, heq⟩ :=
    upsert_cases rowKey limit k merge rows
  · rw [heq]
    simpa [hmerge, hkey] using h
  · rw [heq, List.map_take, List.map_cons]
    refine (List.nodup_cons.mpr ⟨?_, h⟩).sublist (List.take_sublist _ _)
    rw [hmerge, List.mem_map]
    rintro ⟨row, hrow, hk⟩
    exact hnew row hrow hk

/-- An entry after the update is the merged one, or an old one of another key. -/
theorem mem_upsert (hunique : (rows.map rowKey).Nodup) {row : ρ}
    (h : row ∈ upsert rowKey limit k merge rows) :
    (∃ old, row = merge old) ∨ row ∈ rows ∧ rowKey row ≠ k := by
  obtain ⟨front, old, back, rfl, hkey, -, heq⟩ | ⟨hnew, heq⟩ :=
    upsert_cases rowKey limit k merge rows
  · rw [heq, List.mem_append, List.mem_cons] at h
    have hne : ∀ other ∈ front ++ back, rowKey other ≠ k := by
      intro other hother hk
      rw [List.map_append, List.map_cons, List.nodup_middle, List.nodup_cons, ← List.map_append] at hunique
      exact hunique.1 (List.mem_map.mpr ⟨other, hother, hk.trans hkey.symm⟩)
    rcases h with hfront | rfl | hback
    · exact .inr ⟨by simp [hfront], hne row (by simp [hfront])⟩
    · exact .inl ⟨_, rfl⟩
    · exact .inr ⟨by simp [hback], hne row (by simp [hback])⟩
  · rw [heq] at h
    rcases List.mem_cons.mp (List.mem_of_mem_take h) with rfl | hold
    · exact .inl ⟨_, rfl⟩
    · exact .inr ⟨hold, hnew row hold⟩

/-- As long as the list is not full, the key has its entry and no entry is lost. -/
theorem keys_upsert (hmerge : ∀ old, rowKey (merge old) = k)
    (hroom : (upsert rowKey limit k merge rows).length < limit) {other : κ}
    (h : other = k ∨ other ∈ rows.map rowKey) :
    other ∈ (upsert rowKey limit k merge rows).map rowKey := by
  obtain ⟨front, row, back, rfl, hkey, -, heq⟩ | ⟨-, heq⟩ := upsert_cases rowKey limit k merge rows
  · rw [heq]
    rcases h with rfl | h
    · simp [hmerge]
    · simpa [hmerge, hkey] using h
  · rw [heq, List.length_take] at hroom
    rw [heq, List.take_of_length_le (by omega), List.map_cons, hmerge]
    exact List.mem_cons.mpr h

theorem length_le_upsert (h : rows.length ≤ limit) :
    rows.length ≤ (upsert rowKey limit k merge rows).length := by
  obtain ⟨front, row, back, rfl, -, -, heq⟩ | ⟨-, heq⟩ := upsert_cases rowKey limit k merge rows
  · rw [heq]
    simp
  · rw [heq, List.length_take, List.length_cons]
    omega

end

end ChangeFeed
