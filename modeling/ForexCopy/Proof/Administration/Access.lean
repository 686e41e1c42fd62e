import ForexCopy.Proof.Administration.Steps

/-!
# Nothing without a login

The routes of the administration stand behind `requireAdminAuth`, and no other part of the backend
changes what they set up. Where tokens cannot be forged, the masters, the slaves' settings, the
connectors, the symbol mappings and the audit log are as they were until an administrator has logged in.
-/

namespace ForexCopy

open Pool Machine

/-- A token that verifies is one that `login` has handed out, for what it says. -/
def RegistryAction.Unforged (crypto : AdminCrypto) (c : Pool Registry RegistryCall) : RegistryAction → Prop
  | .arrive (.request authHeader queryToken _ _) =>
    ∀ admin ∈ crypto.requireAdminAuth c.shared.world.now authHeader queryToken,
      ∃ token ∈ adminToken authHeader queryToken, c.shared.issued.contains (token, admin) = true
  | .arrive (.login _ _) => True
  | .arrive (.backend _) => True
  | .resume _ _ => True

instance (crypto : AdminCrypto) (c : Pool Registry RegistryCall) (action : RegistryAction) :
    Decidable (action.Unforged crypto c) :=
  match action with
  | .arrive (.request authHeader queryToken _ _) =>
    inferInstanceAs (Decidable
      (∀ admin ∈ crypto.requireAdminAuth c.shared.world.now authHeader queryToken,
        ∃ token ∈ adminToken authHeader queryToken, c.shared.issued.contains (token, admin) = true))
  | .arrive (.login _ _) => .isTrue trivial
  | .arrive (.backend _) => .isTrue trivial
  | .resume _ _ => .isTrue trivial

/-- What only an administrator changes. -/
structure Registry.Untouched (r r' : Registry) : Prop where
  accounts : r.world.SameAccounts r'.world
  masters : r'.masterInputs = r.masterInputs
  slaves : r'.slaveAccounts = r.slaveAccounts
  mappings : r'.mappingIds = r.mappingIds
  connectors : r'.tokenHashes = r.tokenHashes
  auditLog : r'.auditLog = r.auditLog

/-- The administrator has logged in, with a password that fits. -/
def AdminCrypto.LoggedIn (crypto : AdminCrypto) (admins : List Admin) (token : String)
    (payload : AdminTokenPayload) : Prop :=
  ∃ admin ∈ admins, payload = ⟨admin.id, admin.username⟩ ∧
    (∃ password, crypto.compare password admin.passwordHash = true) ∧ ∃ now, token = crypto.sign now payload

structure Registry.Guarded (crypto : AdminCrypto) (start r : Registry) : Prop where
  admins : r.admins = start.admins
  issued : ∀ entry ∈ r.issued, crypto.LoggedIn start.admins entry.1 entry.2
  untouched : r.issued = [] → start.Untouched r

/-- A handler was let in with the token of a login. -/
def Registry.LetIn (r : Registry) : RegistryCall → Prop
  | .admin call => ∃ token, (token, call.admin) ∈ r.issued
  | .backend _ => True

section

variable {crypto : AdminCrypto} {hashToken : String → String} {reply : Reply} {start r r' : Registry}

theorem Registry.LetIn.mono {call : RegistryCall} (h : r.LetIn call) (hissued : r.issued ⊆ r'.issued) :
    r'.LetIn call := by
  cases call with
  | backend task => trivial
  | admin call =>
      obtain ⟨token, htoken⟩ := h
      exact ⟨token, hissued htoken⟩

theorem World.SameAccounts.trans {w w' w'' : World} (h : w.SameAccounts w') (h' : w'.SameAccounts w'') :
    w.SameAccounts w'' :=
  ⟨h'.masters.trans h.masters, h'.slaves.trans h.slaves, h'.connectors.trans h.connectors,
    h'.mappings.trans h.mappings⟩

theorem Registry.Untouched.trans_accounts (h : start.Untouched r) {w' : World}
    (hsame : r.world.SameAccounts w') : start.Untouched { r with world := w' } :=
  ⟨h.accounts.trans hsame, h.masters, h.slaves, h.mappings, h.connectors, h.auditLog⟩

/-- Where a handler waits, somebody has logged in. -/
theorem AdminCall.Step.issued {call : AdminCall} {next : List AdminCall}
    (hstep : call.Step hashToken reply r r' next) :
    r'.issued = r.issued ∧ r'.admins = r.admins ∧ ∀ other ∈ next, other.admin = call.admin := by
  cases hstep with
  | refused | audited | auditLost => exact ⟨rfl, rfl, by simp⟩
  | read => exact ⟨rfl, rfl, by simp⟩
  | wrote hwrite => exact ⟨hwrite.sameLogs.issued, hwrite.sameLogs.admins, by simp⟩
  | lost hwrite => exact ⟨hwrite.sameLogs.issued, hwrite.sameLogs.admins, by simp⟩

theorem RegistryCall.Step.guarded {call : RegistryCall} {next : List RegistryCall}
    (hstep : call.Step hashToken reply r r' next) (hr : start.Guarded crypto r) (hcall : r.LetIn call) :
    r'.issued = r.issued ∧ start.Guarded crypto r' ∧ ∀ other ∈ next, r'.LetIn other := by
  cases hstep with
  | backend hsame =>
      exact ⟨rfl, ⟨hr.admins, hr.issued, fun hnone => (hr.untouched hnone).trans_accounts hsame⟩,
        List.forall_mem_map.mpr fun _ _ => trivial⟩
  | admin hstep =>
      obtain ⟨hissued, hadmins, hnext⟩ := hstep.issued
      obtain ⟨token, htoken⟩ := hcall
      refine ⟨hissued, ⟨hadmins.trans hr.admins, hissued ▸ hr.issued, fun hnone => ?_⟩,
        List.forall_mem_map.mpr fun other hother => ⟨token, ?_⟩⟩
      · rw [← hissued, hnone] at htoken
        simp at htoken
      · rw [hissued, hnext other hother]
        exact htoken

/-- What `login` hands out. -/
theorem Registry.login_loggedIn {username password : String} {entry : String × AdminTokenPayload}
    (h : r.login crypto username password = some entry) :
    crypto.LoggedIn r.admins entry.1 entry.2 := by
  obtain ⟨admin, hadmin, rfl⟩ := Option.map_eq_some_iff.mp h
  obtain ⟨hfound, hcompare⟩ := Option.filter_eq_some_iff.mp hadmin
  exact ⟨admin, Table.lookup_mem hfound, rfl, ⟨password, hcompare⟩, r.world.now, rfl⟩

theorem RegistryArrival.Start.guarded {arrival : RegistryArrival} {calls : List RegistryCall}
    {tasks : List RegistryCall} (hstart : arrival.Start crypto r r' calls) (hr : start.Guarded crypto r)
    (hok : (RegistryAction.arrive arrival).Unforged crypto ⟨r, tasks⟩) :
    r.issued ⊆ r'.issued ∧ start.Guarded crypto r' ∧ ∀ call ∈ calls, r'.LetIn call := by
  cases hstart with
  | refused =>
      refine ⟨List.Subset.refl _, ⟨hr.admins, hr.issued, fun hnone => ?_⟩, by simp⟩
      have hsame := hr.untouched hnone
      exact ⟨hsame.accounts, hsame.masters, hsame.slaves, hsame.mappings, hsame.connectors, hsame.auditLog⟩
  | begun hauth =>
      obtain ⟨token, -, hissued⟩ := hok _ hauth
      exact ⟨List.Subset.refl _, hr, List.forall_mem_singleton.mpr ⟨token, by simpa using hissued⟩⟩
  | login hlogin =>
      refine ⟨List.subset_append_left _ _,
        ⟨hr.admins, List.forall_mem_append.mpr ⟨hr.issued, ?_⟩, ?_⟩, by simp⟩
      · exact fun entry hentry => hr.admins ▸ Registry.login_loggedIn (hlogin entry hentry)
      · intro hnone
        have hsame := hr.untouched (List.append_eq_nil_iff.mp hnone).1
        exact ⟨hsame.accounts, hsame.masters, hsame.slaves, hsame.mappings, hsame.connectors, hsame.auditLog⟩
  | backend hsame =>
      exact ⟨List.Subset.refl _, ⟨hr.admins, hr.issued, fun hnone => (hr.untouched hnone).trans_accounts hsame⟩,
        List.forall_mem_map.mpr fun _ _ => trivial⟩

def Registry.guarding (crypto : AdminCrypto) (start : Registry) : Outline Registry RegistryCall where
  shared r := start.Guarded crypto r
  task r call := r.LetIn call

theorem Registry.guarding_preserved :
    Preserved (restrict (Registry.step crypto hashToken) fun c action => action.Unforged crypto c)
      (start.guarding crypto).Holds := by
  intro c action c' h hstep
  obtain ⟨hok, hstep⟩ := restrict_eq_some.mp hstep
  cases action with
  | resume i reply =>
      refine h.resume (RegistryCall.step hashToken) hstep ?_ ?_
      · intro task s' next _ hmove hguarded hcall
        exact ((RegistryCall.step_sound hmove).guarded hguarded hcall).2
      · intro task s' next hget hmove hguarded other _ hother
        have hcall := h.2 task (List.mem_of_getElem? hget)
        have hissued := ((RegistryCall.step_sound hmove).guarded hguarded hcall).1
        exact hother.mono (hissued ▸ List.Subset.refl _)
  | arrive arrival =>
      obtain ⟨⟨r', calls⟩, happly, rfl⟩ := Option.map_eq_some_iff.mp hstep
      obtain ⟨hissued, hguarded, hcalls⟩ := (RegistryArrival.apply_sound happly).guarded h.1 hok
      exact .arrive hguarded (fun task htask => (h.2 task htask).mono hissued) hcalls

end

/-- Until somebody has logged in as an administrator, with a password that fits, everything that the
administration sets up is as it was. -/
theorem Registry.untouched_or_loggedIn {crypto : AdminCrypto} {hashToken : String → String}
    {start c : Pool Registry RegistryCall} {actions : List RegistryAction}
    (hidle : start.tasks = []) (hnone : start.shared.issued = [])
    (hrun : follow (restrict (Registry.step crypto hashToken) fun c action => action.Unforged crypto c)
      start actions = some c) :
    start.shared.Untouched c.shared ∨
      ∃ entry ∈ c.shared.issued, crypto.LoggedIn start.shared.admins entry.1 entry.2 := by
  have hstart : (start.shared.guarding crypto).Holds start :=
    ⟨⟨rfl, by simp [hnone], fun _ => ⟨.refl _, rfl, rfl, rfl, rfl, rfl⟩⟩, by simp [hidle]⟩
  obtain ⟨hguarded, -⟩ := Registry.guarding_preserved.follow hstart hrun
  cases hissued : c.shared.issued with
  | nil => exact .inl (hguarded.untouched hissued)
  | cons entry rest =>
      have hentry : entry ∈ c.shared.issued := hissued ▸ List.mem_cons_self
      exact .inr ⟨entry, List.mem_cons_self, hguarded.issued entry hentry⟩

/-- The master has a connector. -/
def Sample.connectedRegistry : Pool Registry RegistryCall :=
  { registry with
    shared := { registry.shared with
      world := { registry.shared.world with connectors := [{ id := 9, masterId := some 1 }] }
      tokenHashes := [(9, "hash")] } }

/-- A wrong password, a forged token and no token, beside a heartbeat with new figures of the master. -/
def Sample.intrusion : List RegistryAction :=
  [.arrive (.backend (.heartbeat 9 (some ⟨5, 5⟩))), .arrive (.login "admin" "guess"),
    .resume 0 .ok, .arrive (.request (some "Bearer forged") none none (.deleteSymbolMapping 1 1)),
    .resume 0 .ok, .arrive (.request none none none (.createMaster none)), .resume 0 .ok]

theorem Sample.intruded_untouched :
    ∃ c, follow (restrict (Registry.step adminCrypto id) fun c action => action.Unforged adminCrypto c)
        connectedRegistry intrusion = some c ∧
      c.shared.world.masters.map Master.balance = [some ⟨500⟩] ∧
      connectedRegistry.shared.Untouched c.shared := by
  have hruns : ∃ c, follow
      (restrict (Registry.step adminCrypto id) fun c action => action.Unforged adminCrypto c)
      connectedRegistry intrusion = some c ∧
        c.shared.world.masters.map Master.balance = [some ⟨500⟩] ∧ c.shared.issued = [] := by
    decide +kernel
  obtain ⟨c, hrun, hbalance, hnone⟩ := hruns
  rcases Registry.untouched_or_loggedIn rfl rfl hrun with huntouched | ⟨entry, hentry, -⟩
  · exact ⟨c, hrun, hbalance, huntouched⟩
  · rw [hnone] at hentry
    cases hentry

end ForexCopy
