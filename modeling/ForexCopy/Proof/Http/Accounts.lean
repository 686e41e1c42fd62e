import ForexCopy.Http.RetryQueue
import ForexCopy.Library.Custody

/-!
# Every body is accounted for

A client keeps the bodies it could not deliver in custody: one that was handed over waits in the array,
or the client is done with it, for one reason. The requests made for it tell which: as many as its
attempts, all failed, while it waits; nine failed ones once it is given up; none after an accepted one.
`Init` empties the array, so what waits when an EA is initialised again is never posted again.
-/

namespace ForexCopy

open Machine

variable {β : Type*} {settings : HttpSettings}

/-- The requests made for a body the client is done with. -/
def HttpFate.Posted (settings : HttpSettings) (posts : List (HttpPost β)) : HttpFate → Prop
  | .accepted => ∃ failed last, posts = failed ++ [last] ∧ failed.length ≤ maxAttempts ∧
      (∀ post ∈ failed, ¬settings.accepts post.status) ∧ settings.accepts last.status
  | .givenUp => posts.length = maxAttempts + 1 ∧ ∀ post ∈ posts, ¬settings.accepts post.status
  | .evicted | .dropped => posts.length ≤ maxAttempts ∧ ∀ post ∈ posts, ¬settings.accepts post.status

namespace RetryClient

def custody (client : RetryClient β) : Custody HttpFate :=
  ⟨client.handed.length, client.queue.map RetryItem.number, client.settled⟩

/-- The requests made for a body, in order. -/
def postsOf (client : RetryClient β) (number : ℕ) : List (HttpPost β) :=
  client.posts.filter fun post => post.number = number

structure Accounted (settings : HttpSettings) (client : RetryClient β) : Prop where
  custody : client.custody.Sound
  bounded : client.queue.length ≤ settings.maxRetryQueue
  waiting : ∀ item ∈ client.queue, 1 ≤ item.attempts ∧ item.attempts ≤ maxAttempts ∧
    client.handed[item.number]? = some item.jsonBody ∧
    (client.postsOf item.number).length = item.attempts ∧
    ∀ post ∈ client.postsOf item.number, ¬settings.accepts post.status
  done : ∀ number fate, (number, fate) ∈ client.settled →
    fate.Posted settings (client.postsOf number)
  bodies : ∀ post ∈ client.posts, client.handed[post.number]? = some post.jsonBody

theorem postsOf_append {client client' : RetryClient β} {extra : List (HttpPost β)} {number n : ℕ}
    (hposts : client'.posts = client.posts ++ extra) (hextra : ∀ post ∈ extra, post.number = number) :
    client'.postsOf n = client.postsOf n ++ if number = n then extra else [] := by
  unfold postsOf
  rw [hposts, List.filter_append]
  congr 1
  split_ifs with hn
  · exact List.filter_eq_self.mpr fun post hpost => by simp [hextra post hpost, hn]
  · exact List.filter_eq_nil_iff.mpr fun post hpost => by simp [hextra post hpost, hn]

/-- An entry that keeps its number keeps its place among the numbers. -/
theorem map_number_set {queue : List (RetryItem β)} {i : ℕ} {item item' : RetryItem β}
    (hitem : queue[i]? = some item) (hnumber : item'.number = item.number) :
    (queue.set i item').map RetryItem.number = queue.map RetryItem.number := by
  obtain ⟨hlt, rfl⟩ := List.getElem?_eq_some_iff.mp hitem
  apply List.ext_getElem?
  intro k
  rw [List.getElem?_map, List.getElem?_map, List.getElem?_set]
  split_ifs with hk
  · subst k
    rw [hitem, Option.map_some, Option.map_some, hnumber]
  · rfl

namespace Accounted

variable {client : RetryClient β}

/-- A number not handed out yet has no requests. -/
theorem postsOf_fresh (h : client.Accounted settings) {number : ℕ}
    (hfresh : client.handed.length ≤ number) : client.postsOf number = [] := by
  refine List.filter_eq_nil_iff.mpr fun post hpost => ?_
  have hlt := (List.getElem?_eq_some_iff.mp (h.bodies post hpost)).1
  simp only [decide_eq_true_eq]
  omega

theorem posted_le (h : client.Accounted settings) (number : ℕ) :
    (client.postsOf number).length ≤ maxAttempts + 1 := by
  by_cases hissued : number < client.handed.length
  · rcases h.custody.inside_or_left hissued with hinside | ⟨fate, hfate⟩
    · obtain ⟨item, hitem, rfl⟩ := List.mem_map.mp hinside
      obtain ⟨-, hattempts, -, hlength, -⟩ := h.waiting item hitem
      omega
    · have hposted := h.done number fate hfate
      cases fate with
      | accepted =>
          obtain ⟨failed, last, hposts, hlength, -⟩ := hposted
          rw [hposts, List.length_append, List.length_singleton]
          omega
      | givenUp => exact hposted.1.le
      | evicted => exact hposted.1.trans (Nat.le_succ _)
      | dropped => exact hposted.1.trans (Nat.le_succ _)
  · rw [h.postsOf_fresh (not_lt.mp hissued)]
    exact Nat.zero_le _

/-- The rule for what concerns one body: only for that one is there anything to show, if the requests
made are for it and no body that was handed over is forgotten. -/
theorem concerning (h : client.Accounted settings) {client' : RetryClient β} (number : ℕ)
    (extra : List (HttpPost β)) (hposts : client'.posts = client.posts ++ extra)
    (hextra : ∀ post ∈ extra, post.number = number ∧
      client'.handed[number]? = some post.jsonBody)
    (hhanded : ∀ (n : ℕ) (jsonBody : β), client.handed[n]? = some jsonBody →
      client'.handed[n]? = some jsonBody)
    (hcustody : client'.custody.Sound) (hbounded : client'.queue.length ≤ settings.maxRetryQueue)
    (hwaiting : ∀ item ∈ client'.queue, item ∈ client.queue ∧ number ≠ item.number ∨
      number = item.number ∧ 1 ≤ item.attempts ∧ item.attempts ≤ maxAttempts ∧
        client'.handed[number]? = some item.jsonBody ∧
        (client.postsOf number ++ extra).length = item.attempts ∧
        ∀ post ∈ client.postsOf number ++ extra, ¬settings.accepts post.status)
    (hdone : ∀ n fate, (n, fate) ∈ client'.settled → (n, fate) ∈ client.settled ∧ number ≠ n ∨
      number = n ∧ fate.Posted settings (client.postsOf number ++ extra)) :
    client'.Accounted settings := by
  have hnew : ∀ n, client'.postsOf n = client.postsOf n ++ if number = n then extra else [] :=
    fun n => postsOf_append hposts fun post hpost => (hextra post hpost).1
  refine ⟨hcustody, hbounded, fun item hitem => ?_, fun n fate hfate => ?_, fun post hpost => ?_⟩
  · rw [hnew]
    rcases hwaiting item hitem with ⟨hold, hne⟩ | ⟨rfl, hconcerned⟩
    · obtain ⟨hone, hattempts, hbody, hlength, hfailed⟩ := h.waiting item hold
      rw [if_neg hne, List.append_nil]
      exact ⟨hone, hattempts, hhanded _ _ hbody, hlength, hfailed⟩
    · rw [if_pos rfl]
      exact hconcerned
  · rw [hnew]
    rcases hdone n fate hfate with ⟨hold, hne⟩ | ⟨rfl, hposted⟩
    · rw [if_neg hne, List.append_nil]
      exact h.done n fate hold
    · rw [if_pos rfl]
      exact hposted
  · rw [hposts] at hpost
    rcases List.mem_append.mp hpost with hold | hextraPost
    · exact hhanded _ _ (h.bodies post hold)
    · rw [(hextra post hextraPost).1]
      exact (hextra post hextraPost).2

/-- One more request for a body that was only refused, and refused again. -/
theorem refused_append {posts : List (HttpPost β)} {post : HttpPost β}
    (hposts : ∀ post ∈ posts, ¬settings.accepts post.status)
    (hpost : ¬settings.accepts post.status) :
    ∀ other ∈ posts ++ [post], ¬settings.accepts other.status := by
  intro other hother
  rcases List.mem_append.mp hother with hold | hnew
  · exact hposts other hold
  · rw [List.mem_singleton.mp hnew]
    exact hpost

/-- An entry goes, after the requests `extra` have been made for it. -/
theorem leave (h : client.Accounted settings) (fate : HttpFate) (extra : List (HttpPost β)) {i : ℕ}
    {item : RetryItem β} (hitem : client.queue[i]? = some item)
    (hextra : ∀ post ∈ extra, post.number = item.number ∧ post.jsonBody = item.jsonBody)
    (hfate : fate.Posted settings (client.postsOf item.number ++ extra)) :
    Accounted settings { client with
      queue := Compaction.removeAt client.queue i
      posts := client.posts ++ extra
      settled := client.settled ++ [(item.number, fate)] } := by
  have hmem := List.mem_of_getElem? hitem
  have hbody := (h.waiting item hmem).2.2.1
  have hkept := Compaction.removeAt_eq_eraseIdx (List.getElem?_eq_some_iff.mp hitem).1
  have hsound : (client.custody.leave i item.number fate).Sound :=
    h.custody.leave (by rw [RetryClient.custody, List.getElem?_map, hitem]; rfl) fate
  refine h.concerning item.number extra rfl ?_ (fun _ _ hold => hold) ?_ ?_ ?_ ?_
  · intro post hpost
    obtain ⟨hnumber, hsame⟩ := hextra post hpost
    exact ⟨hnumber, hsame ▸ hbody⟩
  · simpa [RetryClient.custody, Custody.leave, hkept, List.eraseIdx_map] using hsound
  · exact (hkept ▸ List.length_eraseIdx_le _ _).trans h.bounded
  · intro other hother
    rw [hkept] at hother
    refine .inl ⟨List.mem_of_mem_eraseIdx hother, fun hnumber => ?_⟩
    refine hsound.not_left (n := other.number) ?_ fate ?_
    · simpa [Custody.leave, RetryClient.custody, List.eraseIdx_map]
        using List.mem_map_of_mem (f := RetryItem.number) hother
    · exact List.mem_append_right _ (by rw [hnumber]; exact List.mem_singleton_self _)
  · intro n other hother
    rcases List.mem_append.mp hother with hold | hnew
    · refine .inl ⟨hold, fun hnumber => ?_⟩
      exact h.custody.not_left (List.mem_map_of_mem hmem) other (hnumber ▸ hold)
    · obtain ⟨rfl, rfl⟩ := Prod.mk.inj (List.mem_singleton.mp hnew)
      exact .inr ⟨rfl, hfate⟩

/-- An entry stays where it is after one more request for it has failed. -/
theorem stay (h : client.Accounted settings) {i : ℕ} {item : RetryItem β} {status : ℤ}
    {nextAttemptAtMs : ℕ} (hitem : client.queue[i]? = some item)
    (hstatus : ¬settings.accepts status) (hattempts : item.attempts + 1 ≤ maxAttempts) :
    Accounted settings { client.post item.number item.jsonBody status with
      queue := client.queue.set i
        { item with attempts := item.attempts + 1, nextAttemptAtMs := nextAttemptAtMs } } := by
  have hmem := List.mem_of_getElem? hitem
  obtain ⟨-, -, hbody, hlength, hfailed⟩ := h.waiting item hmem
  have hnumbers : (client.queue.set i { item with
        attempts := item.attempts + 1, nextAttemptAtMs := nextAttemptAtMs }).map RetryItem.number =
      client.queue.map RetryItem.number := map_number_set hitem rfl
  refine h.concerning item.number [⟨item.number, item.jsonBody, status⟩] rfl ?_
    (fun _ _ hold => hold) ?_ ?_ ?_ ?_
  · intro post hpost
    rw [List.mem_singleton.mp hpost]
    exact ⟨rfl, hbody⟩
  · simpa [RetryClient.custody, RetryClient.post, hnumbers] using h.custody
  · simpa using h.bounded
  · intro other hother
    obtain ⟨k, hk⟩ := List.mem_iff_getElem?.mp hother
    rw [List.getElem?_set] at hk
    split_ifs at hk with hplace hlt
    · obtain rfl := Option.some.inj hk
      refine .inr ⟨rfl, Nat.le_add_left _ _, hattempts, hbody, ?_, refused_append hfailed hstatus⟩
      rw [List.length_append, hlength, List.length_singleton]
    · refine .inl ⟨List.mem_of_getElem? hk, fun hnumber => hplace ?_⟩
      refine (List.getElem?_inj
        (by simpa [RetryClient.custody] using (List.getElem?_eq_some_iff.mp hitem).1)
        (List.nodup_append.mp h.custody.nodup).1).mp ?_
      simp only [RetryClient.custody, List.getElem?_map, hk, hitem, Option.map_some, hnumber]
  · intro n fate hdone
    refine .inl ⟨hdone, fun hnumber => ?_⟩
    exact h.custody.not_left (List.mem_map_of_mem hmem) fate (hnumber ▸ hdone)

end Accounted

/-! ### The calls -/

variable {client : RetryClient β}

theorem Accounted.retryAt (h : client.Accounted settings) (status : ℕ → ℤ) (i : ℕ) :
    (client.retryAt settings status i).Accounted settings := by
  unfold RetryClient.retryAt
  split
  · exact h
  rename_i item hitem
  split
  · exact h
  obtain ⟨-, hattempts, -, hlength, hfailed⟩ := h.waiting item (List.mem_of_getElem? hitem)
  dsimp only
  split
  · rename_i haccepts
    exact h.leave .accepted [_] hitem (by simp)
      ⟨_, _, rfl, hlength ▸ hattempts, hfailed, haccepts⟩
  · rename_i hrefused
    split
    · rename_i hmany
      refine h.leave .givenUp [_] hitem (by simp) ⟨?_, refused_append hfailed hrefused⟩
      rw [List.length_append, List.length_singleton]
      omega
    · rename_i hfew
      exact h.stay hitem hrefused (not_lt.mp hfew)

theorem Accounted.processRetryQueue (h : client.Accounted settings) (status : ℕ → ℤ) :
    (client.processRetryQueue settings status).Accounted settings := by
  unfold RetryClient.processRetryQueue
  generalize List.range client.queue.length = places
  induction places with
  | nil => exact h
  | cons i rest ih => exact ih.retryAt status i

theorem Accounted.init (h : client.Accounted settings) : client.init.Accounted settings where
  custody := by simpa [RetryClient.custody, Custody.clear, RetryClient.init, Function.comp_def]
    using h.custody.clear .dropped
  bounded := Nat.zero_le _
  waiting _ hitem := absurd hitem List.not_mem_nil
  done number fate hdone := by
    rcases List.mem_append.mp hdone with hold | hnew
    · exact h.done number fate hold
    · obtain ⟨item, hitem, hpair⟩ := List.mem_map.mp hnew
      obtain ⟨rfl, rfl⟩ := Prod.mk.inj hpair
      obtain ⟨-, hattempts, -, hlength, hfailed⟩ := h.waiting item hitem
      exact ⟨hlength ▸ hattempts, hfailed⟩
  bodies := h.bodies

theorem Accounted.evict (h : client.Accounted settings) :
    (client.evict settings).Accounted settings ∧
      (client.evict settings).queue.length < settings.maxRetryQueue := by
  have hroom := settings.hasRoom
  unfold RetryClient.evict
  split
  · rename_i hempty
    exact ⟨h, by rw [hempty]; exact hroom⟩
  rename_i oldest rest hqueue
  have hitem : client.queue[0]? = some oldest := by rw [hqueue]; rfl
  split
  · obtain ⟨-, hattempts, -, hlength, hfailed⟩ := h.waiting oldest (List.mem_of_getElem? hitem)
    have hleave := h.leave .evicted [] hitem (by simp)
      (by rw [List.append_nil]; exact ⟨hlength ▸ hattempts, hfailed⟩)
    refine ⟨by simpa [RetryClient.removeAt, RetryClient.settle] using hleave, ?_⟩
    have hpositive : 0 < client.queue.length := by rw [hqueue]; exact Nat.succ_pos _
    have hshorter : (Compaction.removeAt client.queue 0).length = client.queue.length - 1 := by
      rw [Compaction.removeAt_eq_eraseIdx hpositive, List.length_eraseIdx_of_lt hpositive]
    have hbounded := h.bounded
    change (Compaction.removeAt client.queue 0).length < _
    omega
  · rename_i hfree
    exact ⟨h, not_le.mp hfree⟩

/-- What is handed over later does not displace it. -/
theorem getElem?_handed {handed : List β} {number : ℕ} {jsonBody jsonBody' : β}
    (h : handed[number]? = some jsonBody) : (handed ++ [jsonBody'])[number]? = some jsonBody := by
  rw [List.getElem?_append_left (List.getElem?_eq_some_iff.mp h).1, h]

/-- The rule for the first request of a body, which is the next to be handed over. -/
theorem Accounted.first (h : client.Accounted settings) {client' : RetryClient β} (jsonBody : β)
    (status : ℤ) (hhanded : client'.handed = client.handed ++ [jsonBody])
    (hposts : client'.posts = client.posts ++ [⟨client.handed.length, jsonBody, status⟩])
    (hcustody : client'.custody.Sound) (hbounded : client'.queue.length ≤ settings.maxRetryQueue)
    (hwaiting : ∀ item ∈ client'.queue, item ∈ client.queue ∨
      client.handed.length = item.number ∧ item.attempts = 1 ∧ item.jsonBody = jsonBody ∧
        ¬settings.accepts status)
    (hdone : ∀ n fate, (n, fate) ∈ client'.settled → (n, fate) ∈ client.settled ∨
      client.handed.length = n ∧
        fate.Posted settings [⟨client.handed.length, jsonBody, status⟩]) :
    client'.Accounted settings := by
  have hfresh := h.postsOf_fresh le_rfl
  have hbody : client'.handed[client.handed.length]? = some jsonBody := by
    rw [hhanded]
    simp
  refine h.concerning client.handed.length [⟨client.handed.length, jsonBody, status⟩] hposts ?_ ?_
    hcustody hbounded ?_ ?_
  · intro post hpost
    rw [List.mem_singleton.mp hpost]
    exact ⟨rfl, hbody⟩
  · intro n other hother
    rw [hhanded]
    exact getElem?_handed hother
  · intro item hitem
    rcases hwaiting item hitem with hold | ⟨hnumber, hattempts, rfl, hrefused⟩
    · exact .inl ⟨hold, (h.custody.lt_issued (List.mem_map_of_mem hold)).ne'⟩
    · rw [hfresh, hattempts]
      exact .inr ⟨hnumber, le_rfl, Nat.le_of_ble_eq_true rfl, hbody, rfl,
        refused_append (by simp) hrefused⟩
  · intro n fate hfate
    rw [hfresh]
    exact (hdone n fate hfate).imp_left fun hold => ⟨hold, (h.custody.left_lt_issued hold).ne'⟩

/-- The first request is accepted. -/
theorem Accounted.pass (h : client.Accounted settings) (jsonBody : β) {status : ℤ}
    (hstatus : settings.accepts status) :
    Accounted settings { client with
      handed := client.handed ++ [jsonBody]
      posts := client.posts ++ [⟨client.handed.length, jsonBody, status⟩]
      settled := client.settled ++ [(client.handed.length, .accepted)] } := by
  refine h.first jsonBody status rfl rfl ?_ h.bounded (fun _ hitem => .inl hitem) ?_
  · simpa [RetryClient.custody, Custody.pass] using h.custody.pass .accepted
  · intro n fate hfate
    rcases List.mem_append.mp hfate with hold | hnew
    · exact .inl hold
    · obtain ⟨rfl, rfl⟩ := Prod.mk.inj (List.mem_singleton.mp hnew)
      exact .inr ⟨rfl, [], _, rfl, Nat.zero_le _, by simp, hstatus⟩

/-- The first request has failed and the array has room. -/
theorem Accounted.admit (h : client.Accounted settings) (jsonBody : β) {status : ℤ}
    (hstatus : ¬settings.accepts status) (nextAttemptAtMs : ℕ)
    (hroom : client.queue.length < settings.maxRetryQueue) :
    Accounted settings { client with
      queue := client.queue ++ [⟨client.handed.length, jsonBody, 1, nextAttemptAtMs⟩]
      handed := client.handed ++ [jsonBody]
      posts := client.posts ++ [⟨client.handed.length, jsonBody, status⟩] } := by
  refine h.first jsonBody status rfl rfl ?_ ?_ ?_ (fun _ _ hfate => .inl hfate)
  · simpa [RetryClient.custody, Custody.enter] using h.custody.enter
  · simpa using Nat.succ_le_of_lt hroom
  · intro item hitem
    rcases List.mem_append.mp hitem with hold | hnew
    · exact .inl hold
    · obtain rfl := List.mem_singleton.mp hnew
      exact .inr ⟨rfl, rfl, rfl, hstatus⟩

theorem evict_logs (client : RetryClient β) : (client.evict settings).handed = client.handed ∧
    (client.evict settings).posts = client.posts := by
  unfold evict
  split
  · exact ⟨rfl, rfl⟩
  · split_ifs <;> exact ⟨rfl, rfl⟩

/-- A refused body takes its place behind those that are left after an eviction. -/
theorem send_refused (client : RetryClient β) (jsonBody : β) {status : ℤ}
    (hstatus : ¬settings.accepts status) :
    client.send settings jsonBody status = { client.evict settings with
      queue := (client.evict settings).queue ++
        [⟨client.handed.length, jsonBody, 1, (client.evict settings).tickCount + 2000⟩]
      handed := client.handed ++ [jsonBody]
      posts := client.posts ++ [⟨client.handed.length, jsonBody, status⟩] } := by
  unfold send enqueue post evict
  rw [if_neg hstatus]
  obtain ⟨queue, tickCount, handed, posts, settled⟩ := client
  cases queue with
  | nil => rfl
  | cons oldest rest =>
      dsimp only
      split_ifs <;> rfl

theorem Accounted.send (h : client.Accounted settings) (jsonBody : β) (status : ℤ) :
    (client.send settings jsonBody status).Accounted settings := by
  by_cases haccepts : settings.accepts status
  · unfold RetryClient.send
    rw [if_pos haccepts]
    exact h.pass jsonBody haccepts
  · obtain ⟨hevicted, hroom⟩ := h.evict
    have hadmit := hevicted.admit jsonBody haccepts
      ((client.evict settings).tickCount + 2000) hroom
    rw [(evict_logs client).1, (evict_logs client).2] at hadmit
    rw [send_refused client jsonBody haccepts]
    exact hadmit

/-- The clock is not in the books. -/
theorem Accounted.tick (h : client.Accounted settings) (tickCount : ℕ) :
    Accounted settings { client with tickCount := tickCount } :=
  ⟨h.custody, h.bounded, h.waiting, h.done, h.bodies⟩

theorem Accounted.step (h : client.Accounted settings) {call : HttpCall β} {client' : RetryClient β}
    (hstep : RetryClient.step settings client call = some client') : client'.Accounted settings := by
  cases call with
  | init =>
      obtain rfl := Option.some.inj hstep
      exact h.init
  | send jsonBody status tickCount =>
      simp only [RetryClient.step, Option.ite_none_right_eq_some, Option.some.injEq] at hstep
      obtain ⟨-, rfl⟩ := hstep
      exact (h.tick tickCount).send jsonBody status
  | processRetryQueue status tickCount =>
      simp only [RetryClient.step, Option.ite_none_right_eq_some, Option.some.injEq] at hstep
      obtain ⟨-, rfl⟩ := hstep
      exact (h.tick tickCount).processRetryQueue status

theorem Accounted.empty : Accounted settings ({} : RetryClient β) where
  custody := Custody.Sound.empty
  bounded := Nat.zero_le _
  waiting _ hitem := absurd hitem List.not_mem_nil
  done _ _ hdone := absurd hdone List.not_mem_nil
  bodies _ hpost := absurd hpost List.not_mem_nil

theorem accounted_preserved : Preserved (RetryClient.step settings)
    (fun client : RetryClient β => client.Accounted settings) :=
  fun _ _ _ h hstep => h.step hstep

/-! ### Evictions and what `Init` drops -/

/-- A pass of the loop accepts bodies or gives them up, it has no other fate for one. -/
theorem retryAt_settled {status : ℕ → ℤ} {i number : ℕ} {fate : HttpFate} (haccepted : fate ≠ .accepted)
    (hgivenUp : fate ≠ .givenUp) (h : (number, fate) ∈ (client.retryAt settings status i).settled) :
    (number, fate) ∈ client.settled := by
  unfold retryAt at h
  split at h
  · exact h
  split at h
  · exact h
  dsimp only at h
  split_ifs at h
  · simpa [settle, removeAt, post, haccepted] using h
  · simpa [settle, removeAt, post, hgivenUp] using h
  · exact h

theorem processRetryQueue_settled {status : ℕ → ℤ} {number : ℕ} {fate : HttpFate}
    (haccepted : fate ≠ .accepted) (hgivenUp : fate ≠ .givenUp)
    (h : (number, fate) ∈ (client.processRetryQueue settings status).settled) :
    (number, fate) ∈ client.settled := by
  unfold processRetryQueue at h
  generalize List.range client.queue.length = places at h
  induction places with
  | nil => exact h
  | cons i rest ih => exact ih (retryAt_settled haccepted hgivenUp h)

/-- A call evicts the entry in front, and only when a body that was refused needs its place. -/
theorem step_evicts {call : HttpCall β} {client' : RetryClient β}
    (hstep : RetryClient.step settings client call = some client') {number : ℕ}
    (hbefore : (number, .evicted) ∉ client.settled) (hafter : (number, .evicted) ∈ client'.settled) :
    (∃ jsonBody status tickCount, call = .send jsonBody status tickCount ∧
      ¬settings.accepts status) ∧ settings.maxRetryQueue ≤ client.queue.length ∧
      (client.queue.map RetryItem.number).head? = some number := by
  cases call with
  | init =>
      obtain rfl := Option.some.inj hstep
      exact absurd (by simpa [RetryClient.init] using hafter) hbefore
  | processRetryQueue status tickCount =>
      simp only [RetryClient.step, Option.ite_none_right_eq_some, Option.some.injEq] at hstep
      obtain ⟨-, rfl⟩ := hstep
      exact absurd (processRetryQueue_settled (by decide) (by decide) hafter) hbefore
  | send jsonBody status tickCount =>
      simp only [RetryClient.step, Option.ite_none_right_eq_some, Option.some.injEq] at hstep
      obtain ⟨-, rfl⟩ := hstep
      by_cases haccepts : settings.accepts status
      · unfold send at hafter
        rw [if_pos haccepts] at hafter
        exact absurd (by simpa [settle, post] using hafter) hbefore
      · refine ⟨⟨jsonBody, status, tickCount, rfl, haccepts⟩, ?_⟩
        rw [send_refused _ _ haccepts] at hafter
        unfold evict at hafter
        dsimp only at hafter
        split at hafter
        · exact absurd hafter hbefore
        rename_i oldest rest hqueue
        split_ifs at hafter with hfull
        · rcases List.mem_append.mp hafter with hold | hnew
          · exact absurd hold hbefore
          · obtain ⟨rfl, -⟩ := Prod.mk.inj (List.mem_singleton.mp hnew)
            exact ⟨hfull, by rw [hqueue]; rfl⟩
        · exact absurd hafter hbefore

/-- Only `Init` drops a body, and one that waits. -/
theorem step_drops {call : HttpCall β} {client' : RetryClient β}
    (hstep : RetryClient.step settings client call = some client') {number : ℕ}
    (hbefore : (number, .dropped) ∉ client.settled) (hafter : (number, .dropped) ∈ client'.settled) :
    call = .init ∧ number ∈ client.queue.map RetryItem.number := by
  cases call with
  | init =>
      obtain rfl := Option.some.inj hstep
      rcases List.mem_append.mp hafter with hold | hnew
      · exact absurd hold hbefore
      · obtain ⟨item, hitem, hpair⟩ := List.mem_map.mp hnew
        exact ⟨rfl, List.mem_map.mpr ⟨item, hitem, congrArg Prod.fst hpair⟩⟩
  | processRetryQueue status tickCount =>
      simp only [RetryClient.step, Option.ite_none_right_eq_some, Option.some.injEq] at hstep
      obtain ⟨-, rfl⟩ := hstep
      exact absurd (processRetryQueue_settled (by decide) (by decide) hafter) hbefore
  | send jsonBody status tickCount =>
      simp only [RetryClient.step, Option.ite_none_right_eq_some, Option.some.injEq] at hstep
      obtain ⟨-, rfl⟩ := hstep
      by_cases haccepts : settings.accepts status
      · unfold send at hafter
        rw [if_pos haccepts] at hafter
        exact absurd (by simpa [settle, post] using hafter) hbefore
      · rw [send_refused _ _ haccepts] at hafter
        unfold evict at hafter
        dsimp only at hafter
        split at hafter
        · exact absurd hafter hbefore
        split_ifs at hafter
        · exact absurd (by simpa [settle, removeAt] using hafter) hbefore
        · exact absurd hafter hbefore

/-- In every run of a client each body that was handed over is in the array, once and in its order, or
has met one fate, and the requests made for it are as many as that tells. A body is evicted only from the
front of a full array, by one that was refused, and dropped only by `Init`, which empties the array. -/
theorem retryQueue_accounts (settings : HttpSettings) (calls : List (HttpCall β))
    (client : RetryClient β) (hrun : follow (step settings) {} calls = some client) :
    client.Accounted settings ∧ (∀ number, (client.postsOf number).length ≤ maxAttempts + 1) ∧
      (∀ call client' number, step settings client call = some client' →
        (number, .evicted) ∉ client.settled → (number, .evicted) ∈ client'.settled →
        (∃ jsonBody status tickCount, call = .send jsonBody status tickCount ∧
          ¬settings.accepts status) ∧ client.queue.length = settings.maxRetryQueue ∧
          (client.queue.map RetryItem.number).head? = some number) ∧
      ∀ call client' number, step settings client call = some client' →
        (number, .dropped) ∉ client.settled → (number, .dropped) ∈ client'.settled →
        call = .init ∧ number ∈ client.queue.map RetryItem.number ∧ client'.queue = [] := by
  have haccounted := accounted_preserved.follow Accounted.empty hrun
  refine ⟨haccounted, haccounted.posted_le, fun call client' number hstep hbefore hafter => ?_,
    fun call client' number hstep hbefore hafter => ?_⟩
  · obtain ⟨hcall, hfull, hfront⟩ := step_evicts hstep hbefore hafter
    exact ⟨hcall, le_antisymm haccounted.bounded hfull, hfront⟩
  · obtain ⟨rfl, hwaiting⟩ := step_drops hstep hbefore hafter
    obtain rfl := Option.some.inj hstep
    exact ⟨rfl, hwaiting, rfl⟩

namespace Sample

/-- A result that does not get through at first. -/
def result : ExecutionResult := { copyId := 1, status := .executed, slaveTicket := some "71" }

def retried : List (HttpCall ExecutionResult) :=
  [.send result (-1) 0, .send result 500 0, .processRetryQueue (fun i => if i = 0 then 200 else -1) 3000,
    .init]

end Sample

theorem retried_accounts : Accounted slaveHttpSettings ({
    tickCount := 3000
    handed := [Sample.result, Sample.result]
    posts := [⟨0, Sample.result, -1⟩, ⟨1, Sample.result, 500⟩, ⟨1, Sample.result, -1⟩,
      ⟨0, Sample.result, 200⟩]
    settled := [(0, .accepted), (1, .dropped)] } : SlaveHttpClient) :=
  (retryQueue_accounts slaveHttpSettings Sample.retried _ (by decide)).1

/-- What waits when the client is initialised again has no other fate. -/
theorem init_drops_waiting : ∃ client : SlaveHttpClient,
    follow SlaveHttpClient.step {} [.send Sample.result (-1) 0, .init] = some client ∧
      client.handed = [Sample.result] ∧ client.queue = [] ∧
      ∀ fate ∈ [HttpFate.accepted, .givenUp, .evicted], (0, fate) ∉ client.settled :=
  ⟨_, rfl, rfl, rfl, by decide⟩

end RetryClient

end ForexCopy
