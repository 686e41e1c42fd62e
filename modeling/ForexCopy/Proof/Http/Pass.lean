import ForexCopy.Http.RetryLoop

/-!
# One pass over the array

The loop goes from the last place down, so what it removes moves only entries it has visited. It never
reaches behind the end of the array, makes a request for each entry that is due, and leaves what the
entries become one by one, in their order. In the range of the counters this is what the pass of the
client comes to.
-/

namespace ForexCopy

variable {β : Type*} {settings : HttpSettings}

/-! ### What a pass is to leave -/

namespace ResultRetryItem

def Due (now : UInt64) (item : ResultRetryItem β) : Prop := item.nextAttemptAtMs ≤ now

instance (now : UInt64) (item : ResultRetryItem β) : Decidable (item.Due now) :=
  inferInstanceAs (Decidable (_ ≤ _))

/-- What becomes of one entry; nothing once it is accepted or given up. -/
def retried (settings : HttpSettings) (now : UInt64) (status : ℤ) (item : ResultRetryItem β) :
    Option (ResultRetryItem β) :=
  if item.Due now then
    if settings.accepts status then none
    else if Int32.ofNat maxAttempts < item.countAttempt.attempts then none
    else some (item.countAttempt.postpone now)
  else some item

end ResultRetryItem

namespace RetryLoop

/-- The array without what is done with, in its order. -/
def passed (settings : HttpSettings) (now : UInt64) (status : ℕ → ℤ)
    (queue : List (ResultRetryItem β)) : List (ResultRetryItem β) :=
  queue.zipIdx.filterMap fun entry => entry.1.retried settings now (status entry.2)

/-- One request for each entry that is due, from the last one on. -/
def requests (now : UInt64) (status : ℕ → ℤ) (queue : List (ResultRetryItem β)) : List (β × ℤ) :=
  ((queue.zipIdx.filter fun entry => entry.1.Due now).map
    fun entry => (entry.1.jsonBody, status entry.2)).reverse

/-! ### The loop -/

/-- The loop over an array, with the array's size in `size`. -/
def holding (queue : List (ResultRetryItem β)) (posts : List (β × ℤ)) : RetryLoop β :=
  ⟨queue, queue.length, posts⟩

section

variable {front visited : List (ResultRetryItem β)} {item : ResultRetryItem β}
  {posts : List (β × ℤ)} {now : UInt64} {status : ℕ → ℤ}

theorem removeAt_holding : (holding (front ++ item :: visited) posts).removeAt front.length =
    some (holding (front ++ visited) posts) := by
  have hplace : front.length < (front ++ item :: visited).length := by simp
  have herased : (front ++ item :: visited).eraseIdx front.length = front ++ visited := by
    rw [List.eraseIdx_append_of_length_le le_rfl]
    simp
  unfold removeAt holding
  rw [Compaction.removeAtChecked_eq hplace, herased]
  simp [Nat.add_sub_assoc]

theorem setItem_holding (item' : ResultRetryItem β) :
    (holding (front ++ item :: visited) posts).setItem front.length item' =
      some (holding (front ++ item' :: visited) posts) := by
  have hplace : front.length < (front ++ item :: visited).length := by simp
  unfold setItem holding
  rw [Compaction.write_eq hplace, Option.map_some, List.set_append_right _ _ le_rfl]
  simp

/-- The pass at a place changes nothing in front of it. -/
theorem retryAt_holding :
    (holding (front ++ item :: visited) posts).retryAt settings now status front.length =
      some (holding (front ++ ((item.retried settings now (status front.length)).toList ++ visited))
        (posts ++ if item.Due now then [(item.jsonBody, status front.length)] else [])) := by
  have hitem : (holding (front ++ item :: visited) posts).queue[front.length]? = some item := by
    simp [holding]
  have hpost : (holding (front ++ item :: visited) posts).post item.jsonBody (status front.length) =
      holding (front ++ item :: visited) (posts ++ [(item.jsonBody, status front.length)]) := rfl
  unfold retryAt ResultRetryItem.retried
  rw [hitem, Option.bind_some, hpost]
  by_cases hdue : item.Due now
  · rw [if_neg (UInt64.not_lt.mpr hdue), if_pos hdue, if_pos hdue]
    dsimp only
    by_cases haccepts : settings.accepts (status front.length)
    · rw [if_pos haccepts, if_pos haccepts, removeAt_holding]
      rfl
    · rw [if_neg haccepts, if_neg haccepts, setItem_holding, Option.bind_some]
      split_ifs
      · rw [removeAt_holding]
        rfl
      · rw [setItem_holding]
        rfl
  · rw [if_pos (UInt64.not_le.mp hdue), if_neg hdue, if_neg hdue, List.append_nil]
    rfl

theorem passed_append (front : List (ResultRetryItem β)) (item : ResultRetryItem β) :
    passed settings now status (front ++ [item]) = passed settings now status front ++
      (item.retried settings now (status front.length)).toList := by
  unfold passed
  rw [List.zipIdx_append, List.filterMap_append]
  cases hitem : item.retried settings now (status front.length) with
  | none => simp [hitem]
  | some item' => simp [hitem]

theorem requests_append (front : List (ResultRetryItem β)) (item : ResultRetryItem β) :
    requests now status (front ++ [item]) =
      (if item.Due now then [(item.jsonBody, status front.length)] else []) ++
        requests now status front := by
  unfold requests
  rw [List.zipIdx_append, List.filter_append, List.map_append, List.reverse_append]
  by_cases hdue : item.Due now
  · simp [hdue]
  · simp [hdue]

/-- By induction on the part that the loop has still to visit, from its last entry. -/
theorem run_holding (front visited : List (ResultRetryItem β)) (posts : List (β × ℤ)) :
    run settings now status front.length (holding (front ++ visited) posts) =
      some (holding (passed settings now status front ++ visited)
        (posts ++ requests now status front)) := by
  induction front using List.reverseRecOn generalizing visited posts with
  | nil => simp [run, passed, requests]
  | append_singleton front item ih =>
      rw [List.length_append, List.length_singleton, List.append_assoc, List.singleton_append]
      unfold run
      rw [retryAt_holding, Option.bind_some, ih, passed_append, requests_append,
        List.append_assoc, List.append_assoc]

end

end RetryLoop

/-! ### The pass of the client -/

/-- An entry in the widths of the array. -/
def RetryItem.stored (item : RetryItem β) : ResultRetryItem β where
  jsonBody := item.jsonBody
  attempts := .ofNat item.attempts
  nextAttemptAtMs := .ofNat item.nextAttemptAtMs

theorem RetryItem.stored_jsonBody (item : RetryItem β) : item.stored.jsonBody = item.jsonBody := rfl

theorem RetryItem.stored_attempts (item : RetryItem β) :
    item.stored.attempts = .ofNat item.attempts := rfl

namespace RetryClient

/-- The counters are in the range of their types, for this pass too. -/
structure InRange (client : RetryClient β) : Prop where
  clock : client.tickCount + 60000 < 2 ^ 64
  attempts : ∀ item ∈ client.queue, item.attempts ≤ maxAttempts
  deadlines : ∀ item ∈ client.queue, item.nextAttemptAtMs < 2 ^ 64

/-- The loop has the client's array, and has made the requests that follow `before` in its log. -/
structure Simulates (before : List (β × ℤ)) (client : RetryClient β) (loop : RetryLoop β) : Prop where
  queue : loop.queue = client.queue.map RetryItem.stored
  size : loop.size = client.queue.length
  posts : client.posts.map (fun post => (post.jsonBody, post.status)) = before ++ loop.posts

theorem attempts_stored {attempts : ℕ} (h : attempts ≤ maxAttempts) :
    Int32.ofNat attempts + 1 = Int32.ofNat (attempts + 1) ∧
      (Int32.ofNat maxAttempts < Int32.ofNat (attempts + 1) ↔ maxAttempts < attempts + 1) ∧
      backoffMs (Int32.ofNat (attempts + 1)) =
        UInt64.ofNat (min ((attempts + 1) * 2) 60 * 1000) := by
  have hall : ∀ n < 9, Int32.ofNat n + 1 = Int32.ofNat (n + 1) ∧
      (Int32.ofNat maxAttempts < Int32.ofNat (n + 1) ↔ maxAttempts < n + 1) ∧
      backoffMs (Int32.ofNat (n + 1)) = UInt64.ofNat (min ((n + 1) * 2) 60 * 1000) := by
    decide
  exact hall attempts (Nat.lt_succ_of_le h)

section

variable {client : RetryClient β} {loop : RetryLoop β} {before : List (β × ℤ)} {status : ℕ → ℤ} {i : ℕ}

theorem waits_iff (h : client.InRange) {item : RetryItem β} (hitem : item ∈ client.queue) :
    UInt64.ofNat client.tickCount < item.stored.nextAttemptAtMs ↔
      client.tickCount < item.nextAttemptAtMs := by
  have hclock : client.tickCount < 2 ^ 64 := by
    have := h.clock
    omega
  rw [UInt64.lt_iff_toNat_lt]
  unfold RetryItem.stored
  rw [UInt64.toNat_ofNat_of_lt' hclock, UInt64.toNat_ofNat_of_lt' (h.deadlines item hitem)]

theorem Simulates.removeAt (h : Simulates before client loop) (hi : i < client.queue.length)
    (number : ℕ) (fate : HttpFate) :
    ∃ loop', loop.removeAt i = some loop' ∧
      Simulates before ((client.removeAt i).settle number fate) loop' := by
  have hplace : i < loop.queue.length := by simpa [h.queue] using hi
  have hsize : loop.size = loop.queue.length := by simp [h.queue, h.size]
  refine ⟨{ loop with queue := loop.queue.eraseIdx i, size := loop.size - 1 }, ?_, ?_, ?_, h.posts⟩
  · unfold RetryLoop.removeAt
    rw [hsize, Compaction.removeAtChecked_eq hplace, Option.map_some]
  · change _ = (Compaction.removeAt client.queue i).map RetryItem.stored
    rw [Compaction.removeAt_eq_eraseIdx hi, ← List.eraseIdx_map, ← h.queue]
  · change loop.size - 1 = (Compaction.removeAt client.queue i).length
    rw [Compaction.removeAt_eq_eraseIdx hi, List.length_eraseIdx_of_lt hi, h.size]

/-- The entry at a place is written in both. -/
theorem Simulates.setItem (h : Simulates before client loop) (hi : i < client.queue.length)
    (item : RetryItem β) :
    ∃ loop', loop.setItem i item.stored = some loop' ∧
      Simulates before { client with queue := client.queue.set i item } loop' := by
  have hplace : i < loop.queue.length := by simpa [h.queue] using hi
  refine ⟨{ loop with queue := loop.queue.set i item.stored }, ?_, ?_, ?_, h.posts⟩
  · unfold RetryLoop.setItem
    rw [Compaction.write_eq hplace, Option.map_some]
  · rw [List.map_set, ← h.queue]
  · rw [List.length_set, h.size]

theorem InRange.retryAt (h : client.InRange) (settings : HttpSettings) (status : ℕ → ℤ) (i : ℕ) :
    (client.retryAt settings status i).InRange := by
  unfold RetryClient.retryAt
  split
  · exact h
  rename_i item hitem
  have hmem := List.mem_of_getElem? hitem
  have hremoved : ∀ other ∈ Compaction.removeAt client.queue i, other ∈ client.queue := by
    intro other hother
    rw [Compaction.removeAt_eq_eraseIdx (List.getElem?_eq_some_iff.mp hitem).1] at hother
    exact List.mem_of_mem_eraseIdx hother
  split
  · exact h
  dsimp only
  split
  · exact ⟨h.clock, fun other hother => h.attempts other (hremoved other hother),
      fun other hother => h.deadlines other (hremoved other hother)⟩
  split
  · exact ⟨h.clock, fun other hother => h.attempts other (hremoved other hother),
      fun other hother => h.deadlines other (hremoved other hother)⟩
  · rename_i hfew
    refine ⟨h.clock, fun other hother => ?_, fun other hother => ?_⟩
    · rcases List.mem_or_eq_of_mem_set hother with hold | rfl
      · exact h.attempts other hold
      · exact not_lt.mp hfew
    · rcases List.mem_or_eq_of_mem_set hother with hold | rfl
      · exact h.deadlines other hold
      · have hclock := h.clock
        change client.tickCount + min ((item.attempts + 1) * 2) 60 * 1000 < 2 ^ 64
        omega

/-- No entry goes but the one at the place. -/
theorem le_length_retryAt (settings : HttpSettings) (status : ℕ → ℤ) (hi : i < client.queue.length) :
    i ≤ (client.retryAt settings status i).queue.length := by
  have hremoved : i ≤ (Compaction.removeAt client.queue i).length := by
    rw [Compaction.removeAt_eq_eraseIdx hi, List.length_eraseIdx_of_lt hi]
    omega
  unfold RetryClient.retryAt
  split
  · exact hi.le
  split
  · exact hi.le
  dsimp only
  split
  · exact hremoved
  split
  · exact hremoved
  · exact (List.length_set ▸ hi.le : i ≤ (client.queue.set i _).length)

theorem retryAt_tickCount (settings : HttpSettings) (client : RetryClient β) (status : ℕ → ℤ) (i : ℕ) :
    (client.retryAt settings status i).tickCount = client.tickCount := by
  unfold RetryClient.retryAt
  split
  · rfl
  split
  · rfl
  dsimp only
  split
  · rfl
  split <;> rfl

/-- A pass at one place does the same to both. -/
theorem Simulates.retryAt (h : Simulates before client loop) (hrange : client.InRange)
    (hi : i < client.queue.length) :
    ∃ loop', loop.retryAt settings (.ofNat client.tickCount) status i = some loop' ∧
      Simulates before (client.retryAt settings status i) loop' := by
  obtain ⟨item, hitem⟩ : ∃ item, client.queue[i]? = some item := ⟨_, List.getElem?_eq_getElem hi⟩
  have hmem := List.mem_of_getElem? hitem
  have hstored : loop.queue[i]? = some item.stored := by
    rw [h.queue, List.getElem?_map, hitem, Option.map_some]
  have hposted : Simulates before (client.post item.number item.jsonBody (status i))
      (loop.post item.jsonBody (status i)) :=
    ⟨h.queue, h.size, by simp [post, RetryLoop.post, h.posts]⟩
  obtain ⟨hattempts, hgivenUp, hbackoff⟩ := attempts_stored (hrange.attempts item hmem)
  unfold RetryLoop.retryAt RetryClient.retryAt
  rw [hstored, hitem, Option.bind_some]
  dsimp only
  by_cases hwaits : client.tickCount < item.nextAttemptAtMs
  · rw [if_pos ((waits_iff hrange hmem).mpr hwaits), if_pos hwaits]
    exact ⟨loop, rfl, h⟩
  rw [if_neg fun hlt => hwaits ((waits_iff hrange hmem).mp hlt), if_neg hwaits]
  by_cases haccepts : settings.accepts (status i)
  · rw [if_pos haccepts, if_pos haccepts]
    exact hposted.removeAt hi _ _
  rw [if_neg haccepts, if_neg haccepts]
  -- The counter is raised in the array first, whatever becomes of the entry then.
  have hcounted : item.stored.countAttempt =
      ({ item with attempts := item.attempts + 1 } : RetryItem β).stored := by
    simp only [RetryItem.stored, ResultRetryItem.countAttempt, hattempts]
  obtain ⟨counted, hwrite, hsimulates⟩ :=
    hposted.setItem hi { item with attempts := item.attempts + 1 }
  have hplace : i < (client.queue.set i { item with attempts := item.attempts + 1 }).length := by
    rw [List.length_set]
    exact hi
  rw [hcounted, RetryItem.stored_jsonBody, hwrite, Option.bind_some, RetryItem.stored_attempts]
  by_cases hmany : maxAttempts < item.attempts + 1
  · rw [if_pos (hgivenUp.mpr hmany), if_pos hmany]
    obtain ⟨loop', hloop', hremoved⟩ := hsimulates.removeAt hplace item.number .givenUp
    have hsame : Compaction.removeAt
        (client.queue.set i { item with attempts := item.attempts + 1 }) i =
        Compaction.removeAt client.queue i := by
      rw [Compaction.removeAt_eq_eraseIdx hplace, Compaction.removeAt_eq_eraseIdx hi,
        List.eraseIdx_set_eq]
    refine ⟨loop', hloop', ?_⟩
    simp only [RetryClient.removeAt, settle, post, hsame] at hremoved ⊢
    exact hremoved
  · rw [if_neg fun hlt => hmany (hgivenUp.mp hlt), if_neg hmany]
    obtain ⟨loop', hloop', hkept⟩ := hsimulates.setItem hplace
      { item with
        attempts := item.attempts + 1
        nextAttemptAtMs := client.tickCount + min ((item.attempts + 1) * 2) 60 * 1000 }
    refine ⟨loop', ?_, ?_⟩
    · rw [← hloop']
      simp only [RetryItem.stored, ResultRetryItem.postpone, hbackoff, UInt64.ofNat_add]
    · simp only [List.set_set] at hkept
      exact hkept

/-- The places from `n` on have been visited. -/
theorem Simulates.run (settings : HttpSettings) (status : ℕ → ℤ) {n : ℕ}
    (h : Simulates before client loop) (hrange : client.InRange) (hn : n ≤ client.queue.length) :
    ∃ loop', RetryLoop.run settings (.ofNat client.tickCount) status n loop = some loop' ∧
      Simulates before
        ((List.range n).foldr (fun i client => client.retryAt settings status i) client) loop' := by
  induction n generalizing client loop with
  | zero => exact ⟨loop, rfl, h⟩
  | succ n ih =>
      obtain ⟨visited, hvisit, hsimulates⟩ :
          ∃ visited, loop.retryAt settings (.ofNat client.tickCount) status n = some visited ∧
            Simulates before (client.retryAt settings status n) visited :=
        h.retryAt hrange hn
      obtain ⟨loop', hrun, hrest⟩ := ih hsimulates (hrange.retryAt settings status n)
        (le_length_retryAt settings status hn)
      refine ⟨loop', ?_, ?_⟩
      · unfold RetryLoop.run
        rw [hvisit, Option.bind_some, ← hrun, retryAt_tickCount]
      · rw [List.range_succ, List.foldr_append]
        exact hrest

end

/-- The loop refines the pass of the client, as long as the counters stay in the range of their types. -/
theorem processRetryQueue_refines {client : RetryClient β} (h : client.InRange) (status : ℕ → ℤ) :
    ∃ loop, RetryLoop.processRetryQueue settings (.ofNat client.tickCount) status
        (client.queue.map RetryItem.stored) = some loop ∧
      Simulates (client.posts.map fun post => (post.jsonBody, post.status))
        (client.processRetryQueue settings status) loop := by
  have hstart : Simulates (client.posts.map fun post => (post.jsonBody, post.status)) client
      { queue := client.queue.map RetryItem.stored
        size := (client.queue.map RetryItem.stored).length } :=
    ⟨rfl, List.length_map _, by simp⟩
  have hrun := hstart.run settings status h le_rfl
  unfold RetryLoop.processRetryQueue RetryClient.processRetryQueue
  rw [List.length_map] at hrun ⊢
  exact hrun

end RetryClient

end ForexCopy
