import Mathlib.Data.List.Flatten
import Mathlib.Data.List.Forall2
import Mathlib.Data.List.Nodup
import Mathlib.Data.List.Perm.Subperm

/-!
# Sessions

A server that is reached through sessions. In a session requests go one way and responses the other,
each in the order in which they are written, and what is on its way may stay there for good. The server
takes the next request when it has written the response to the last one; it may leave a session at any
moment, and never comes back to it.
-/

/-- The requests and responses written so far, with how many of them have come to the other end. -/
structure Session (Request Response : Type*) where
  requests : List Request := []
  taken : ℕ := 0
  responses : List Response := []
  arrived : ℕ := 0
  deriving DecidableEq

namespace Session

variable {Request Response : Type*}

def write (new : List Request) (session : Session Request Response) : Session Request Response :=
  { session with requests := session.requests ++ new }

def take (session : Session Request Response) : Session Request Response :=
  { session with taken := session.taken + 1 }

def respond (response : Response) (session : Session Request Response) : Session Request Response :=
  { session with responses := session.responses ++ [response] }

def arrive (session : Session Request Response) : Session Request Response :=
  { session with arrived := session.arrived + 1 }

variable {Answers : Request → Response → Prop} {session : Session Request Response}
  {pending : List Request}

/-- The responses are those to the requests that were taken, up to the pending ones. -/
def InTurn (Answers : Request → Response → Prop) (session : Session Request Response)
    (pending : List Request) : Prop :=
  ∃ answered unread, session.requests = answered ++ (pending ++ unread) ∧
    session.taken = answered.length + pending.length ∧ List.Forall₂ Answers answered session.responses

theorem inTurn_empty : InTurn Answers ({} : Session Request Response) [] :=
  ⟨[], [], rfl, rfl, .nil⟩

theorem InTurn.write (h : session.InTurn Answers pending) (new : List Request) :
    (session.write new).InTurn Answers pending := by
  obtain ⟨answered, unread, hrequests, htaken, hanswers⟩ := h
  refine ⟨answered, unread ++ new, ?_, htaken, hanswers⟩
  simp only [Session.write, hrequests, List.append_assoc]

theorem InTurn.take (h : session.InTurn Answers []) {request : Request}
    (hnext : session.requests[session.taken]? = some request) :
    session.take.InTurn Answers [request] := by
  obtain ⟨answered, unread, hrequests, htaken, hanswers⟩ := h
  rw [hrequests, htaken] at hnext
  cases unread with
  | nil => simp at hnext
  | cons next rest =>
      obtain rfl : next = request := by simpa using hnext
      exact ⟨answered, rest, by simp [Session.take, hrequests], by simp [Session.take, htaken], hanswers⟩

theorem InTurn.respond {request : Request} (h : session.InTurn Answers [request]) {response : Response}
    (hanswers : Answers request response) : (session.respond response).InTurn Answers [] := by
  obtain ⟨answered, unread, hrequests, htaken, hbefore⟩ := h
  refine ⟨answered ++ [request], unread, ?_, ?_, List.rel_append hbefore (.cons hanswers .nil)⟩
  · simp [Session.respond, hrequests]
  · simpa [Session.respond] using htaken

theorem InTurn.arrive (h : session.InTurn Answers pending) : session.arrive.InTurn Answers pending := h

/-- The responses are, in order, those to the first requests. -/
theorem InTurn.responses (h : session.InTurn Answers pending) :
    List.Forall₂ Answers (session.requests.take session.responses.length) session.responses := by
  obtain ⟨answered, unread, hrequests, -, hanswers⟩ := h
  rw [hrequests, ← hanswers.length_eq, List.take_left]
  exact hanswers

theorem InTurn.taken_eq (h : session.InTurn Answers pending) :
    session.taken = session.responses.length + pending.length := by
  obtain ⟨answered, unread, -, htaken, hanswers⟩ := h
  rw [htaken, hanswers.length_eq]

theorem InTurn.taken_le (h : session.InTurn Answers pending) :
    session.taken ≤ session.requests.length := by
  obtain ⟨answered, unread, hrequests, htaken, -⟩ := h
  rw [hrequests, htaken, List.length_append, List.length_append]
  omega

def takenRequests (session : Session Request Response) : List Request :=
  session.requests.take session.taken

end Session

/-! ### The server -/

inductive ServerPhase (Request Response : Type*)
  | away
  | ready (session : ℕ)
  | working (session : ℕ) (request : Request)
  | replying (session : ℕ) (response : Response)
  deriving DecidableEq

/-- What the phase makes of the pending requests of the session at the position. -/
def ServerPhase.Allows {Request Response : Type*} (Answers : Request → Response → Prop) (i : ℕ)
    (pending : List Request) : ServerPhase Request Response → Prop
  | .away => pending.length ≤ 1
  | .ready session => if session = i then pending = [] else pending.length ≤ 1
  | .working session request => if session = i then pending = [request] else pending.length ≤ 1
  | .replying session response =>
    if session = i then ∃ request, pending = [request] ∧ Answers request response
    else pending.length ≤ 1

theorem ServerPhase.Allows.length_le_one {Request Response : Type*}
    {Answers : Request → Response → Prop} {phase : ServerPhase Request Response}
    {i : ℕ} {pending : List Request} (h : phase.Allows Answers i pending) : pending.length ≤ 1 := by
  cases phase with
  | away => exact h
  | ready session =>
      obtain ⟨-, rfl⟩ | ⟨-, hle⟩ := ite_prop_iff_or.mp h
      · exact Nat.zero_le 1
      · exact hle
  | working session request =>
      obtain ⟨-, rfl⟩ | ⟨-, hle⟩ := ite_prop_iff_or.mp h
      · exact Nat.le_refl 1
      · exact hle
  | replying session response =>
      obtain ⟨-, request, rfl, -⟩ | ⟨-, hle⟩ := ite_prop_iff_or.mp h
      · exact Nat.le_refl 1
      · exact hle

structure Server (Request Response : Type*) where
  sessions : List (Session Request Response) := []
  phase : ServerPhase Request Response := .away
  deriving DecidableEq

namespace Server

variable {Request Response : Type*}

def «open» (server : Server Request Response) : Option (Server Request Response) :=
  match server.phase with
  | .away =>
    some { sessions := server.sessions ++ [{}], phase := .ready server.sessions.length }
  | _ => none

/-- Requests for the session at the position. -/
def write (server : Server Request Response) (i : ℕ) (new : List Request) : Server Request Response :=
  { server with sessions := server.sessions.modify i (Session.write new) }

/-- The next request that the session has for the server. -/
def next (server : Server Request Response) (i : ℕ) : Option Request :=
  server.sessions[i]?.bind fun session => session.requests[session.taken]?

def take (server : Server Request Response) : Option (Server Request Response) :=
  match server.phase with
  | .ready i =>
    (server.next i).map fun request =>
      { sessions := server.sessions.modify i Session.take, phase := .working i request }
  | _ => none

/-- The work on a request ends with a response, or with the session. -/
def finish (server : Server Request Response) (response : Option Response) :
    Option (Server Request Response) :=
  match server.phase, response with
  | .working i _, some response => some { server with phase := .replying i response }
  | .working _ _, none => some { server with phase := .away }
  | _, _ => none

def reply (server : Server Request Response) : Option (Server Request Response) :=
  match server.phase with
  | .replying i response =>
    some { sessions := server.sessions.modify i (Session.respond response), phase := .ready i }
  | _ => none

def leave (server : Server Request Response) : Server Request Response :=
  { server with phase := .away }

/-- The next response of the session comes to the other end. -/
def arrive (server : Server Request Response) (i : ℕ) : Option (Response × Server Request Response) :=
  server.sessions[i]?.bind fun session =>
    session.responses[session.arrived]?.map fun response =>
      (response, { server with sessions := server.sessions.modify i Session.arrive })

/-! ### Requests in turn -/

variable {Answers : Request → Response → Prop} {server server' : Server Request Response}

/-- Every session has its requests served in turn, and at most one is pending. -/
def Serial (Answers : Request → Response → Prop) (server : Server Request Response) : Prop :=
  ∀ i session, server.sessions[i]? = some session →
    ∃ pending, session.InTurn Answers pending ∧ server.phase.Allows Answers i pending

theorem Serial.mono (h : server.Serial Answers) {Answers' : Request → Response → Prop}
    (himp : ∀ request response, Answers request response → Answers' request response) :
    server.Serial Answers' := by
  intro i session hsession
  obtain ⟨pending, ⟨answered, unread, hrequests, htaken, hanswers⟩, hallows⟩ := h i session hsession
  refine ⟨pending, ⟨answered, unread, hrequests, htaken, hanswers.imp himp⟩, ?_⟩
  cases hphase : server.phase with
  | away | ready | working =>
      rw [hphase] at hallows
      exact hallows
  | replying current response =>
      rw [hphase] at hallows
      by_cases hi : current = i
      · obtain ⟨request, hpending, hanswer⟩ := (if_pos hi).mp hallows
        exact (if_pos hi).mpr ⟨request, hpending, himp _ _ hanswer⟩
      · exact (if_neg hi).mpr ((if_neg hi).mp hallows)

theorem serial_start : Serial Answers ({} : Server Request Response) := by
  rintro i session ⟨⟩

/-- One session and the phase change, the other sessions have nothing to do with either phase. -/
theorem Serial.modify (h : server.Serial Answers) {i : ℕ}
    {change : Session Request Response → Session Request Response}
    {phase : ServerPhase Request Response}
    (hown : ∀ session pending, server.sessions[i]? = some session → session.InTurn Answers pending →
      server.phase.Allows Answers i pending →
        ∃ pending', (change session).InTurn Answers pending' ∧ phase.Allows Answers i pending')
    (hothers : ∀ j pending, j ≠ i → server.phase.Allows Answers j pending →
      phase.Allows Answers j pending) :
    Serial Answers ⟨server.sessions.modify i change, phase⟩ := by
  intro j session hsession
  by_cases hj : i = j
  · subst hj
    rw [List.getElem?_modify_eq] at hsession
    obtain ⟨before, hbefore, rfl⟩ := Option.map_eq_some_iff.mp hsession
    obtain ⟨pending, hturn, hallows⟩ := h i before hbefore
    exact hown before pending hbefore hturn hallows
  · rw [List.getElem?_modify_ne _ _ hj] at hsession
    obtain ⟨pending, hturn, hallows⟩ := h j session hsession
    exact ⟨pending, hturn, hothers j pending (Ne.symm hj) hallows⟩

theorem Serial.open (h : server.Serial Answers) (hopen : server.open = some server') :
    server'.Serial Answers := by
  unfold Server.open at hopen
  split at hopen
  swap
  · cases hopen
  rename_i hphase
  obtain rfl := Option.some.inj hopen
  intro i session hsession
  by_cases hi : i = server.sessions.length
  · subst hi
    obtain rfl : {} = session := by simpa using hsession
    exact ⟨[], Session.inTurn_empty, by simp [ServerPhase.Allows]⟩
  · have hlt := (List.getElem?_eq_some_iff.mp hsession).1
    rw [List.length_append, List.length_singleton] at hlt
    rw [List.getElem?_append_left (by omega)] at hsession
    obtain ⟨pending, hturn, hallows⟩ := h i session hsession
    exact ⟨pending, hturn, (if_neg (Ne.symm hi)).mpr hallows.length_le_one⟩

theorem Serial.write (h : server.Serial Answers) (i : ℕ) (new : List Request) :
    (server.write i new).Serial Answers :=
  h.modify (fun _ pending _ hturn hallows => ⟨pending, hturn.write new, hallows⟩)
    fun _ _ _ hallows => hallows

theorem Serial.take (h : server.Serial Answers) (htake : server.take = some server') :
    server'.Serial Answers := by
  unfold Server.take at htake
  split at htake
  swap
  · cases htake
  rename_i i hphase
  obtain ⟨request, hnext, rfl⟩ := Option.map_eq_some_iff.mp htake
  obtain ⟨current, hcurrent, hrequest⟩ := Option.bind_eq_some_iff.mp hnext
  refine h.modify (fun session pending hsession hturn hallows => ?_) fun j pending hj hallows => ?_
  · obtain rfl := Option.some.inj (hcurrent.symm.trans hsession)
    obtain rfl : pending = [] := by simpa [hphase, ServerPhase.Allows] using hallows
    exact ⟨[request], hturn.take hrequest, by simp [ServerPhase.Allows]⟩
  · simpa [ServerPhase.Allows, hj.symm] using hallows.length_le_one

theorem Serial.leave (h : server.Serial Answers) : server.leave.Serial Answers := by
  intro i session hsession
  obtain ⟨pending, hturn, hallows⟩ := h i session hsession
  exact ⟨pending, hturn, hallows.length_le_one⟩

theorem Serial.finish (h : server.Serial Answers) {response : Option Response}
    (hfinish : server.finish response = some server')
    (hanswers : ∀ i request, server.phase = .working i request → ∀ given ∈ response,
      Answers request given) : server'.Serial Answers := by
  unfold Server.finish at hfinish
  split at hfinish
  · rename_i i request response hphase
    obtain rfl := Option.some.inj hfinish
    intro j session hsession
    obtain ⟨pending, hturn, hallows⟩ := h j session hsession
    refine ⟨pending, hturn, ?_⟩
    by_cases hj : i = j
    · have hpending : pending = [request] := by simpa [hphase, ServerPhase.Allows, hj] using hallows
      simpa [ServerPhase.Allows, hj, hpending] using hanswers i request hphase response rfl
    · simpa [ServerPhase.Allows, hj] using hallows.length_le_one
  · obtain rfl := Option.some.inj hfinish
    exact h.leave
  · cases hfinish

theorem Serial.reply (h : server.Serial Answers) (hreply : server.reply = some server') :
    server'.Serial Answers := by
  unfold Server.reply at hreply
  split at hreply
  swap
  · cases hreply
  rename_i i response hphase
  obtain rfl := Option.some.inj hreply
  refine h.modify (fun session pending hsession hturn hallows => ?_) fun j pending hj hallows => ?_
  · obtain ⟨request, rfl, hanswers⟩ : ∃ request, pending = [request] ∧ Answers request response := by
      simpa [hphase, ServerPhase.Allows] using hallows
    exact ⟨[], hturn.respond hanswers, by simp [ServerPhase.Allows]⟩
  · simpa [ServerPhase.Allows, hj.symm] using hallows.length_le_one

theorem Serial.arrive (h : server.Serial Answers) {i : ℕ} {response : Response}
    (harrive : server.arrive i = some (response, server')) : server'.Serial Answers := by
  obtain ⟨session, -, hmap⟩ := Option.bind_eq_some_iff.mp harrive
  obtain ⟨_, -, heq⟩ := Option.map_eq_some_iff.mp hmap
  obtain ⟨rfl, rfl⟩ := Prod.mk.inj heq
  exact h.modify (fun _ pending _ hturn hallows => ⟨pending, hturn.arrive, hallows⟩)
    fun _ _ _ hallows => hallows

/-! ### Every request once -/

section

variable {α β : Type*} {f : α → α} {g : α → List β} {l : List α} {i : ℕ}

theorem flatMap_modify_perm {a : α} (hget : l[i]? = some a) {new : List β} (hnew : g (f a) = g a ++ new) :
    ((l.modify i f).flatMap g).Perm (l.flatMap g ++ new) := by
  obtain ⟨hlt, rfl⟩ := List.getElem?_eq_some_iff.mp hget
  have hsplit : l = l.take i ++ l[i] :: l.drop (i + 1) := by simp
  rw [List.modify_eq_take_cons_drop hlt]
  conv => rhs; rw [hsplit]
  simp only [List.flatMap_append, List.flatMap_cons, hnew, List.append_assoc]
  exact (List.perm_append_comm.append_left _).append_left _

theorem flatMap_modify_eq (hsame : ∀ a, l[i]? = some a → g (f a) = g a) :
    (l.modify i f).flatMap g = l.flatMap g := by
  induction l generalizing i with
  | nil => rw [List.modify_nil]
  | cons a rest ih =>
      cases i with
      | zero => rw [List.modify_zero_cons, List.flatMap_cons, List.flatMap_cons, hsame a rfl]
      | succ i =>
          rw [List.modify_succ_cons, List.flatMap_cons, List.flatMap_cons,
            ih fun b hb => hsame b hb]

end

/-- What was ever written for the server. -/
def requests (server : Server Request Response) : List Request :=
  server.sessions.flatMap Session.requests

/-- What it has taken. -/
def taken (server : Server Request Response) : List Request :=
  server.sessions.flatMap Session.takenRequests

theorem taken_sublist (server : Server Request Response) : server.taken.Sublist server.requests :=
  .flatMap_right _ fun _ _ => List.take_sublist _ _

theorem requests_write (i : ℕ) (new : List Request) :
    (server.write i new).requests.Subperm (server.requests ++ new) := by
  cases hget : server.sessions[i]? with
  | none =>
      have hsame : (server.write i new).requests = server.requests := by
        rw [write, requests, List.modify_eq_self (List.getElem?_eq_none_iff.mp hget), requests]
      rw [hsame]
      exact (List.sublist_append_left _ _).subperm
  | some session => exact (flatMap_modify_perm hget rfl).subperm

theorem Serial.taken_write (h : server.Serial Answers) (i : ℕ) (new : List Request) :
    (server.write i new).taken = server.taken := by
  refine flatMap_modify_eq fun session hsession => ?_
  obtain ⟨pending, hturn, -⟩ := h i session hsession
  exact List.take_append_of_le_length hturn.taken_le

/-- The server works on a request that it has not taken before. -/
theorem take_cases (htake : server.take = some server') :
    ∃ i request, server'.phase = .working i request ∧ server'.requests = server.requests ∧
      server'.taken.Perm (server.taken ++ [request]) := by
  unfold take at htake
  split at htake
  swap
  · cases htake
  rename_i i hphase
  obtain ⟨request, hnext, rfl⟩ := Option.map_eq_some_iff.mp htake
  obtain ⟨session, hsession, hrequest⟩ := Option.bind_eq_some_iff.mp hnext
  refine ⟨i, request, rfl, flatMap_modify_eq fun _ _ => rfl, flatMap_modify_perm hsession ?_⟩
  rw [Session.takenRequests, Session.take, List.take_add_one, hrequest]
  rfl

theorem open_same (hopen : server.open = some server') :
    server'.requests = server.requests ∧ server'.taken = server.taken ∧
      ∀ i request, server'.phase ≠ .working i request := by
  unfold Server.open at hopen
  split at hopen
  swap
  · cases hopen
  obtain rfl := Option.some.inj hopen
  exact ⟨by simp [requests], by simp [taken, Session.takenRequests], nofun⟩

theorem finish_same {response : Option Response} (hfinish : server.finish response = some server') :
    server'.sessions = server.sessions := by
  unfold finish at hfinish
  split at hfinish
  · obtain rfl := Option.some.inj hfinish
    rfl
  · obtain rfl := Option.some.inj hfinish
    rfl
  · cases hfinish

/-- When the work on a request has ended there is none. -/
theorem finish_idle {response : Option Response} (hfinish : server.finish response = some server')
    (i : ℕ) (request : Request) : server'.phase ≠ .working i request := by
  unfold finish at hfinish
  split at hfinish
  · obtain rfl := Option.some.inj hfinish
    nofun
  · obtain rfl := Option.some.inj hfinish
    nofun
  · cases hfinish

theorem reply_same (hreply : server.reply = some server') :
    server'.requests = server.requests ∧ server'.taken = server.taken ∧
      ∀ i request, server'.phase ≠ .working i request := by
  unfold reply at hreply
  split at hreply
  swap
  · cases hreply
  obtain rfl := Option.some.inj hreply
  exact ⟨flatMap_modify_eq fun _ _ => rfl, flatMap_modify_eq fun _ _ => rfl, nofun⟩

theorem arrive_same {i : ℕ} {response : Response} (harrive : server.arrive i = some (response, server')) :
    server'.requests = server.requests ∧ server'.taken = server.taken ∧ server'.phase = server.phase := by
  obtain ⟨session, -, hmap⟩ := Option.bind_eq_some_iff.mp harrive
  obtain ⟨_, -, heq⟩ := Option.map_eq_some_iff.mp hmap
  obtain ⟨rfl, rfl⟩ := Prod.mk.inj heq
  exact ⟨flatMap_modify_eq fun _ _ => rfl, flatMap_modify_eq fun _ _ => rfl, rfl⟩

/-- A response that arrives is that to a request. -/
theorem Serial.arrived (h : server.Serial Answers) {i : ℕ} {response : Response}
    (harrive : server.arrive i = some (response, server')) :
    ∃ request ∈ server.requests, Answers request response := by
  obtain ⟨session, hsession, hmap⟩ := Option.bind_eq_some_iff.mp harrive
  obtain ⟨arrived, hresponse, heq⟩ := Option.map_eq_some_iff.mp hmap
  obtain ⟨rfl, -⟩ := Prod.mk.inj heq
  obtain ⟨pending, hturn, -⟩ := h i session hsession
  have hanswers := hturn.responses
  obtain ⟨hlt, hget⟩ := List.getElem?_eq_some_iff.mp hresponse
  have hlength := hanswers.length_eq
  refine ⟨(session.requests.take session.responses.length)[session.arrived],
    List.mem_flatMap.mpr ⟨session, List.mem_of_getElem? hsession, List.mem_of_mem_take
      (List.getElem_mem _)⟩, ?_⟩
  rw [← hget]
  exact hanswers.get (by omega) hlt

end Server
