import ForexCopy.Proof.Portal.Backing

/-!
# Connector isolation

Whatever a request or a message contains, the steps it leads to stay within what belongs to the owner
of the token it came with, and a token that was never registered leads to none. Hashes of tokens that
come up in a run are assumed to be different, and a cached entry to be what was stored.
-/

namespace ForexCopy

open Machine Pool Table

/-- Nobody is registered and nothing is under way; the database is any. -/
structure Portal.Fresh (c : Pool Portal Call) : Prop where
  keyed : c.shared.world.Keyed
  sent : c.shared.world.sent = []
  connectors : c.shared.world.connectors = []
  tokenHashes : c.shared.tokenHashes = []
  tokenCache : c.shared.tokenCache = []
  sessions : c.shared.sessions = []
  registered : c.shared.registered = []
  tasks : c.tasks = []

def NoCollisions (hashToken : String → String) (actions : List PortalAction) : Prop :=
  ∀ token ∈ actions.flatMap PortalAction.tokens, ∀ token' ∈ actions.flatMap PortalAction.tokens,
    hashToken token = hashToken token' → token = token'

/-- The token an action is made with: that of the call it resumes, of the request or of the socket. -/
def PortalAction.token (c : Pool Portal Call) : PortalAction → Option String
  | .resume i _ => (c.tasks[i]?).bind Call.token
  | .arrive (.request authHeader _) => bearerToken authHeader
  | .arrive (.socketMessage socketId _) | .arrive (.closeSocket socketId) =>
    (lookup Session.id socketId c.shared.sessions).map Session.token
  | .arrive (.register _ _) | .arrive (.expireToken _) | .arrive (.backend _) => none

theorem Portal.Fresh.backing {c : Pool Portal Call} (h : Portal.Fresh c)
    (hashToken : String → String) (inUse : List String) : (backing hashToken inUse).Holds c where
  left :=
    { sound := ⟨h.keyed.copyIds, h.keyed.dispatchKeys, by simp [h.sent]⟩
      registry :=
        { rows := by rw [h.connectors, h.registered]; rfl
          column := by rw [h.tokenHashes, h.registered]; rfl
          ids := by simp [h.registered]
          hashes := by simp [h.registered] }
      tokens := by simp [h.registered]
      cache := by simp [h.tokenCache]
      sessions := by simp [h.sessions] }
  right := by simp [h.tasks]

section

variable {hashToken : String → String} {inUse : List String} {c c' : Pool Portal Call}
  {actions : List PortalAction} {a : PortalAction} {p : Portal} {reply : Reply} {token : String}

theorem backing_run (hfresh : Portal.Fresh c) (htokens : ∀ token ∈ actions.flatMap PortalAction.tokens,
    token ∈ inUse) (hrun : follow (Portal.step hashToken) c actions = some c') :
    (backing hashToken inUse).Holds c' := by
  -- By induction on the run: what is in use at the end has been in use all along.
  have hinvariant : (∀ token ∈ actions.flatMap PortalAction.tokens, token ∈ inUse) →
      (backing hashToken inUse).Holds c' := by
    refine follow_history (P := fun actions c =>
      (∀ token ∈ actions.flatMap PortalAction.tokens, token ∈ inUse) →
        (backing hashToken inUse).Holds c) (fun _ => hfresh.backing hashToken inUse) ?_ hrun
    intro before mid a mid' _ hmid hstep hall
    rw [List.flatMap_append] at hall
    refine backing_step (hmid fun token htoken => hall token (List.mem_append_left _ htoken)) ?_ hstep
    intro token htoken
    exact hall token (List.mem_append_right _ (by simpa using htoken))
  exact hinvariant htokens

/-! ### One step -/

/-- The frame does not see what is cached. -/
theorem Registration.Within.of_cached {r : Registration} {tokenHash : String}
    {auth : AuthenticatedConnector} {p' : Portal}
    (h : r.Within (p.cacheConnector tokenHash auth) p') : r.Within p p' := by
  unfold Within at h ⊢
  split
  · rename_i slaveId hr
    rw [hr] at h
    exact { h with }
  · rename_i masterId hr
    rw [hr] at h
    exact { h with }

/-- A change within the frame of a registration under the hash, or none. -/
def Portal.Answerable (hashToken : String → String) (token : String) (p p' : Portal) : Prop :=
  p' = p ∨ ∃ r ∈ p.registered, hashToken r.token = hashToken token ∧ r.Within p p'

theorem Call.step_answerable (reply : Reply) (hp : p.Backed hashToken inUse) {work : Work}
    (hcall : (Call.mk (some token) work).Backed hashToken p) :
    p.Answerable hashToken token (work.step hashToken reply p).1 := by
  cases hcall with
  | owned hr hhash howned hground =>
      obtain ⟨hwithin, -⟩ := Work.step_within hashToken reply howned
        (fun connector => hp.registry.ownership_eq hr) hp.sound hground
      exact .inr ⟨_, hr, hhash, hwithin⟩
  | @authenticating _ request point hauth =>
      have hmove := authenticateStep_cases hashToken reply p token request point
      simp only [Work.step]
      generalize p.authenticateStep hashToken reply token request point = outcome at hmove
      obtain ⟨p', next⟩ := outcome
      cases hmove with
      | ends | miss | found => exact .inl rfl
      | hit hcached =>
          obtain ⟨r, hr, hhash, rfl⟩ := hp.cached hcached
          exact .inr ⟨r, hr, hhash, (Portal.handle_within r p token request).1⟩
      | admitted auth =>
          obtain ⟨r, hr, hhash, rfl⟩ := hauth auth rfl
          exact .inr ⟨r, hr, hhash, .of_cached (Portal.handle_within r _ token request).1⟩
      | stored auth =>
          obtain ⟨r, hr, hhash, rfl⟩ := hauth auth rfl
          exact .inr ⟨r, hr, hhash, .of_cached (.refl r _)⟩

theorem Portal.step_answerable (hc : (backing hashToken inUse).Holds c)
    (hstep : Portal.step hashToken c a = some c') (htoken : a.token c = some token) :
    c.shared.Answerable hashToken token c'.shared := by
  cases a with
  | resume i reply =>
      obtain ⟨_, call, _, p', next, hget, _, hmove, rfl⟩ := resume_cases (Call.step hashToken) hstep
      obtain ⟨token', work⟩ := call
      obtain rfl : token' = some token := by simpa [PortalAction.token, hget] using htoken
      obtain ⟨hcall, -⟩ := hc.2 _ (List.mem_of_getElem? hget)
      obtain rfl : (work.step hashToken reply c.shared).1 = p' := congrArg Prod.fst hmove
      exact Call.step_answerable reply hc.1 hcall
  | arrive arrival =>
      simp only [Portal.step] at hstep
      split_ifs at hstep
      obtain rfl := Option.some.inj hstep
      cases arrival with
      | register | expireToken | backend => cases htoken
      | request authHeader request =>
          have hbearer : bearerToken authHeader = some token := htoken
          exact .inl (by simp [Arrival.apply, hbearer, Pool.arrive])
      | socketMessage socketId message =>
          refine .inl ?_
          simp only [Arrival.apply]
          split <;> rfl
      | closeSocket socketId =>
          obtain ⟨session, hfound, rfl⟩ := Option.map_eq_some_iff.mp htoken
          obtain ⟨-, r, hr, hhash, -, hslave⟩ := hc.1.sessions session (lookup_mem hfound)
          refine .inr ⟨r, hr, hhash, ?_⟩
          simp only [Arrival.apply, hfound]
          exact .of_slave hslave (Portal.disconnect_slaveOnly session)

/-- The token of a step is one that has come up. -/
theorem token_inUse (hc : (backing hashToken inUse).Holds c) (htoken : a.token c = some token)
    (htokens : ∀ token ∈ a.tokens, token ∈ inUse) : token ∈ inUse := by
  cases a with
  | resume i reply =>
      obtain ⟨call, hget, hcall⟩ := Option.bind_eq_some_iff.mp htoken
      exact (hc.2 call (List.mem_of_getElem? hget)).2 token hcall
  | arrive arrival =>
      cases arrival with
      | register | expireToken | backend => cases htoken
      | request authHeader request =>
          have hbearer : bearerToken authHeader = some token := htoken
          exact htokens token (by simp [PortalAction.tokens, Arrival.tokens, hbearer])
      | socketMessage socketId message | closeSocket socketId =>
          obtain ⟨session, hfound, rfl⟩ := Option.map_eq_some_iff.mp htoken
          exact (hc.1.sessions session (lookup_mem hfound)).1

end

/-! ### The theorem -/

/-- After any run from registrations on, a step with a slave's token keeps within the slave's frame, one
with a master's token within the master's, and one with a token that is not registered does nothing. -/
theorem connectors_isolated {hashToken : String → String} {c c' c'' : Pool Portal Call}
    {actions : List PortalAction} {a : PortalAction} {token : String} (hfresh : Portal.Fresh c)
    (hhashes : NoCollisions hashToken (actions ++ [a]))
    (hrun : follow (Portal.step hashToken) c actions = some c')
    (hstep : Portal.step hashToken c' a = some c'') (htoken : a.token c' = some token) :
    (∀ slaveId connectorId, ⟨token, connectorId, .slave slaveId⟩ ∈ c'.shared.registered →
      c'.shared.SlaveOnly slaveId connectorId c''.shared) ∧
    (∀ masterId connectorId, ⟨token, connectorId, .master masterId⟩ ∈ c'.shared.registered →
      c'.shared.MasterOnly masterId connectorId c''.shared) ∧
    ((∀ r ∈ c'.shared.registered, r.token ≠ token) → c''.shared = c'.shared) := by
  have hbacking : (backing hashToken ((actions ++ [a]).flatMap PortalAction.tokens)).Holds c' :=
    backing_run hfresh (fun token htoken => by
      rw [List.flatMap_append]
      exact List.mem_append_left _ htoken) hrun
  have hanswer := Portal.step_answerable hbacking hstep htoken
  -- A registration of the token is the only one under its hash.
  have hwithin : ∀ r ∈ c'.shared.registered, r.token = token → r.Within c'.shared c''.shared := by
    rintro r hr rfl
    obtain hsame | ⟨other, hother, hhash, hframe⟩ := hanswer
    · exact hsame ▸ .refl r _
    · obtain rfl := eq_of_key_eq hbacking.1.registry.hashes hother hr hhash
      exact hframe
  refine ⟨fun slaveId connectorId hr => (hwithin _ hr rfl).slaveOnly rfl,
    fun masterId connectorId hr => (hwithin _ hr rfl).masterOnly rfl, fun hunregistered => ?_⟩
  obtain hsame | ⟨r, hr, hhash, -⟩ := hanswer
  · exact hsame
  · have hinUse := token_inUse hbacking htoken fun token htoken => by
      rw [List.flatMap_append]
      exact List.mem_append_right _ (by simpa using htoken)
    exact absurd (hhashes _ (hbacking.1.tokens r hr) _ hinUse hhash) (hunregistered r hr)

namespace Sample

def slaveToken : String := "9f2c61d07be84a3595d0c1e6a87f3b425e0d94c7b1f8263a7c45d9e03b6f18a2"

/-- SHA-256 as far as the run needs it. -/
def sha256 (token : String) : String :=
  if token = slaveToken then "7ddb82427747736ad2483457514bb0b88beb0dc4a555391d6f5c35ec48c5379b"
  else token

/-- A copy order for the slave waits, and no connector is registered yet. -/
def portal : Pool Portal Call where
  shared := { world := { (queued mt5Slave openEvent).shared with connectors := [] } }
  tasks := []

/-- The slave's connector is registered and reports the order, naming another slave beside it. -/
def report : List PortalAction :=
  [.arrive (.register (.slave 5) slaveToken),
    .arrive (.request (some ("Bearer " ++ slaveToken))
      (.executionResult { known := some (executed 1 "71"), others := [("slaveId", "4")] })),
    .resume 0 .ok, .resume 0 .ok, .resume 0 .ok, .resume 1 .ok]

end Sample

open Sample in
theorem slave_report_isolated :
    ∃ c, follow (Portal.step sha256) portal report = some c ∧
      ∃ c', Portal.step sha256 c (.resume 1 .ok) = some c' ∧ c'.shared ≠ c.shared ∧
        c.shared.SlaveOnly 5 1 c'.shared := by
  have hreport : ∃ c, follow (Portal.step sha256) portal report = some c ∧
      ∃ c', Portal.step sha256 c (.resume 1 .ok) = some c' ∧ c'.shared ≠ c.shared ∧
        (PortalAction.resume 1 .ok).token c = some slaveToken ∧
        ⟨slaveToken, 1, .slave 5⟩ ∈ c.shared.registered := by
    decide +kernel
  obtain ⟨c, hrun, c', hstep, hne, htoken, hregistered⟩ := hreport
  have hfresh : Portal.Fresh portal :=
    ⟨⟨by decide, by decide, by decide, by decide⟩, rfl, rfl, rfl, rfl, rfl, rfl, rfl⟩
  have hhashes : NoCollisions sha256 (report ++ [.resume 1 .ok]) := by
    unfold NoCollisions
    decide +kernel
  exact ⟨c, hrun, c', hstep, hne,
    (connectors_isolated hfresh hhashes hrun hstep htoken).1 5 1 hregistered⟩

end ForexCopy
