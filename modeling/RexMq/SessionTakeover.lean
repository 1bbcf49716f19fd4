import Mathlib.Tactic.Common
import RexMq.ServerRun

/-!
# Taking over a session

Several connections log in with one client id. The first one gives its
object to the registry; a later login puts its sender into that object, while
its own connection keeps an object with another id. A teardown removes the id
of its own object, so what it ends depends on which connection was first and
not on which logged in last.

A login looks the id up and acts on what it found later, without a lock in
between, so the two are separate steps and those of several connections
interleave. The runs in which a session follows the last login are those in
which every step meets a condition on the objects it is about to touch.
-/

set_option autoImplicit false

namespace RexMq.SessionTakeover
open RexMq.FiniteRun RexMq.FrameData RexMq.ClientRegistry RexMq.PersistentStore
open RexMq.ServerState RexMq.Handlers RexMq.HandlerEffects RexMq.FrameAccess RexMq.ServerRun

/-- The frames that log in as `k`. -/
structure LoginFrame (k : ClientId) where
  frame : RexData
  title : Title
  command_eq : frame.command = .ok .login
  source_eq : frame.source = .ok k
  title_eq : frame.title = .ok title

/-- What the connections of one client id do. The id a connection has before
its login is drawn at random. A login is the step in which its handler looks
the id up, and the step in which the handler does the rest. -/
inductive SessionEvent (k : ClientId) where
  | accept (c : ClientRef) (uuid : { u : ClientId // u ≠ k }) (transport : String) (now : UInt64)
  | look (c : ClientRef)
  | login (c : ClientRef) (env : Env) (f : LoginFrame k)
  | close (c : ClientRef)

/-- The system, the connection of the most recent login, and what the handlers
that are under way have found. -/
structure Session where
  system : System
  latest : Option ClientRef
  found : ClientRef → Option (Option ClientRef)

def Session.server (y : Session) : Server := y.system.server

def Session.IsOpen (c : ClientRef) (y : Session) : Prop :=
  c ∈ y.system.opened ∧ c ∉ y.system.closed

instance (c : ClientRef) (y : Session) : Decidable (y.IsOpen c) := by
  unfold Session.IsOpen
  infer_instance

variable (k : ClientId)

/-- The loop body around `handle` for a login frame, from the lookup on. -/
def resumeLogin (env : Env) (c : ClientRef) (f : LoginFrame k) (found : Option ClientRef)
    (s : Server) : Server :=
  match loginFound env c k f.title f.frame s found with
  | .error _ => s
  | .ok t => { t with clients := modify t.clients c (.updateLastRecv env.now) }

def sessionStep (y : Session) : SessionEvent k → Session
  | .accept c uuid transport now =>
    { y with system := step y.system (.accept c uuid transport now) }
  | .look c =>
    if y.IsOpen c then { y with found := Function.update y.found c (some (y.server.live k)) }
    else y
  | .login c env f => match y.found c with
    | some found =>
      if y.IsOpen c then
        ⟨{ y.system with server := resumeLogin k env c f found y.server },some c,
          Function.update y.found c none⟩
      else y
    | none => y
  | .close c => { y with system := step y.system (.teardown c) }

def sessionStart (config : RexSystemConfig) (cluster : ClusterPort) (db : Option SledDb)
    (clients : Clients) : Session :=
  ⟨start config cluster db clients,none,fun _ => none⟩

/-- Without another handler in between, the two steps are the login frame of
`ServerRun`. -/
theorem resume_login_at_once (env : Env) (c : ClientRef) (f : LoginFrame k) (s : Server) :
    resumeLogin k env c f (s.live k) s = receiveFrame env c f.frame s := by
  have hhandle : handle env c f.frame s = loginFound env c k f.title f.frame s (s.live k) := by
    rw [handle, bind_of_ok f.command_eq]
    show loginHandler env c f.frame s = _
    rw [loginHandler, bind_of_ok f.source_eq, bind_of_ok f.title_eq]
  cases hfound : loginFound env c k f.title f.frame s (s.live k) with
  | error e => simp only [receiveFrame, resumeLogin, hhandle, hfound]
  | ok t => simp only [receiveFrame, resumeLogin, hhandle, hfound]

/-- What a login that found `found` does to the sessions. -/
def joined (env : Env) (c : ClientRef) (title : Title) (found : Option ClientRef) (s : Server) :
    Server :=
  found.elim (enroll env c k title s) fun client => takeOver client c title s

theorem resume_login_quiet (env : Env) (c : ClientRef) (f : LoginFrame k)
    (found : Option ClientRef) (s : Server) :
    Quiet (joined k env c f.title found s) (resumeLogin k env c f found s) := by
  have hfits := fits_of_title f.frame f.title f.title_eq (by rw [f.command_eq]; simp)
  obtain ⟨t, ht⟩ := login_found_ok env c f.frame s k f.title found (by have := hfits.length; omega)
  rw [resumeLogin, ht]
  exact quiet_trans _ t _ (login_found_follows (quiet_follows env) c f.frame s t k f.title found ht)
    (quiet_touch t c env.now)

/-- The id is registered, with the sender of the most recent login, exactly
while the connection of that login is open. -/
def Current (y : Session) : Prop :=
  match y.latest with
  | none => y.server.live k = none
  | some c =>
    if c ∈ y.system.closed then y.server.live k = none
    else ∃ d, y.server.live k = some d ∧ (y.server.clients d).sender = c ∧
      c ∉ y.server.closedSenders

/-- A login that found nothing ends while its own object has its own sender.
One that found an object ends while that object is registered and its own has
its own sender; or its connection is the latest already. -/
def Joins (y : Session) (c : ClientRef) : Option ClientRef → Prop
  | none => (y.server.clients c).sender = c
  | some d => if y.server.live k = some d then (y.server.clients c).sender = c
      else y.latest = some c

/-- Every login joins the session; a connection that logged in last has the id
on its own object when it closes, and one that closes with the id on its
object while the id is registered logged in last. -/
def Cooperative (y : Session) : SessionEvent k → Prop
  | .accept .. => True
  | .look _ => True
  | .login c _ _ => y.IsOpen c → ∀ found, y.found c = some found → Joins k y c found
  | .close c => y.IsOpen c → (y.latest = some c → (y.server.clients c).id = k) ∧
      ((y.server.clients c).id = k → y.server.live k ≠ none → y.latest = some c)

structure Tended (y : Session) : Prop where
  current : Current k y
  others : ∀ j, j ≠ k → y.server.live j = none
  shut : ∀ c ∈ y.server.closedSenders, c ∈ y.system.closed
  held : ∀ d, y.server.live k = some d → d ∈ y.system.opened

section Steps
variable (y : Session)

theorem current_open (c : ClientRef) (hl : y.latest = some c) (hc : c ∉ y.system.closed) :
    Current k y ↔ ∃ d, y.server.live k = some d ∧ (y.server.clients d).sender = c ∧
      c ∉ y.server.closedSenders := by
  simp only [Current, hl, if_neg hc]

theorem current_closed (c : ClientRef) (hl : y.latest = some c) (hc : c ∈ y.system.closed) :
    Current k y ↔ y.server.live k = none := by
  simp only [Current, hl, if_pos hc]

theorem current_of_same (z : Session) (hlatest : z.latest = y.latest)
    (hclosed : ∀ c, y.latest = some c → (c ∈ z.system.closed ↔ c ∈ y.system.closed))
    (hlive : z.server.live k = y.server.live k)
    (hsender : ∀ d, y.server.live k = some d →
      (z.server.clients d).sender = (y.server.clients d).sender)
    (hshut : z.server.closedSenders = y.server.closedSenders) (h : Current k y) :
    Current k z := by
  unfold Current at h ⊢
  rw [hlatest, hlive, hshut]
  cases hl : y.latest with
  | none =>
    rw [hl] at h
    exact h
  | some c =>
    rw [hl] at h
    simp only [hclosed c hl] at h ⊢
    split_ifs at h ⊢
    · exact h
    · obtain ⟨d, hd, hs, hcs⟩ := h
      exact ⟨d,hd,(hsender d hd).trans hs,hcs⟩

theorem current_live (h : Current k y) (d : ClientRef) (hd : y.server.live k = some d) :
    ∃ c, y.latest = some c ∧ c ∉ y.system.closed ∧ (y.server.clients d).sender = c := by
  unfold Current at h
  cases hl : y.latest with
  | none =>
    rw [hl] at h
    rw [h] at hd
    cases hd
  | some c =>
    rw [hl] at h
    simp only at h
    split_ifs at h with hc
    · rw [h] at hd
      cases hd
    · obtain ⟨e, he, hs, -⟩ := h
      rw [hd] at he
      cases he
      exact ⟨c,rfl,hc,hs⟩

theorem tended_accept (c : ClientRef) (uuid : { u : ClientId // u ≠ k }) (transport : String)
    (now : UInt64) (h : Tended k y) :
    Tended k (sessionStep k y (.accept c uuid transport now)) := by
  simp only [sessionStep, step]
  split_ifs with hc
  · exact h
  · have hother : ∀ d, d ≠ c →
        (acceptClient c uuid transport now y.system.server).clients d = y.server.clients d :=
      fun d hd => Function.update_of_ne hd _ _
    have hheld : ∀ d, y.server.live k = some d → d ≠ c := by
      rintro d hd rfl
      exact hc (h.held d hd)
    refine ⟨?_,h.others,h.shut,fun d hd => List.mem_cons_of_mem c (h.held d hd)⟩
    exact current_of_same k y _ rfl (fun _ _ => Iff.rfl) rfl
      (fun d hd => congrArg RexClientInner.sender (hother d (hheld d hd))) rfl h.current

theorem tended_look (c : ClientRef) (h : Tended k y) : Tended k (sessionStep k y (.look c)) := by
  simp only [sessionStep]
  split_ifs
  · exact ⟨h.current,h.others,h.shut,h.held⟩
  · exact h

/-- The session after a login of `c` that left the server `t`. -/
def Session.loggedIn (c : ClientRef) (t : Server) (y : Session) : Session :=
  ⟨⟨t,y.system.opened,y.system.closed⟩,some c,Function.update y.found c none⟩

theorem session_login (c : ClientRef) (env : Env) (f : LoginFrame k) (found : Option ClientRef)
    (ho : y.IsOpen c) (hf : y.found c = some found) :
    ∃ t, sessionStep k y (.login c env f) = y.loggedIn c t ∧
      Quiet (joined k env c f.title found y.server) t := by
  refine ⟨_,?_,resume_login_quiet k env c f found y.server⟩
  simp only [sessionStep, hf, if_pos ho]
  rfl

theorem session_login_idle (c : ClientRef) (env : Env) (f : LoginFrame k)
    (h : y.IsOpen c → y.found c = none) : sessionStep k y (.login c env f) = y := by
  cases hf : y.found c with
  | none => simp only [sessionStep, hf]
  | some found =>
    have ho : ¬ y.IsOpen c := fun ho => by
      rw [h ho] at hf
      cases hf
    simp only [sessionStep, hf, if_neg ho]

section Logins
variable (c : ClientRef) (env : Env) (title : Title) (t : Server)

theorem live_joined (found : Option ClientRef) (j : ClientId)
    (hq : Quiet (joined k env c title found y.server) t) :
    t.live j = if found = none ∧ j = k then some c else y.server.live j := by
  rw [hq.live]
  cases found with
  | none =>
    simp only [true_and]
    exact live_enroll env c k title y.server j
  | some e =>
    rw [if_neg (by simp)]
    rfl

theorem sender_joined (found : Option ClientRef) (d : ClientRef)
    (hq : Quiet (joined k env c title found y.server) t) :
    (t.clients d).sender =
      if found = some d then (y.server.clients c).sender else (y.server.clients d).sender := by
  rw [hq.sender]
  cases found with
  | none =>
    rw [if_neg (by simp)]
    exact sender_enroll env c k title y.server d
  | some e =>
    refine (sender_take_over ..).trans ?_
    by_cases hd : d = e
    · rw [if_pos hd, if_pos (by rw [hd])]
    · rw [if_neg hd, if_neg fun he => hd (Option.some.inj he).symm]

theorem shut_joined (found : Option ClientRef)
    (hq : Quiet (joined k env c title found y.server) t) :
    t.closedSenders = y.server.closedSenders := by
  rw [hq.closed]
  cases found <;> rfl

theorem current_joined_iff (found : Option ClientRef) (h : Tended k y) (ho : y.IsOpen c)
    (hq : Quiet (joined k env c title found y.server) t) :
    Current k (y.loggedIn c t) ↔ Joins k y c found := by
  have hshut : c ∉ t.closedSenders := fun hc =>
    ho.2 (h.shut c (shut_joined k y c env title t found hq ▸ hc))
  have hlive := live_joined k y c env title t found k hq
  have hsender := fun d => sender_joined k y c env title t found d hq
  rw [current_open k (y.loggedIn c t) c rfl ho.2]
  show (∃ d, t.live k = some d ∧ (t.clients d).sender = c ∧ c ∉ t.closedSenders) ↔ _
  cases found with
  | none =>
    rw [if_pos ⟨rfl,rfl⟩] at hlive
    simp only [hlive, hsender, Option.some.injEq, exists_eq_left', reduceCtorEq, if_false,
      and_iff_left hshut, Joins]
  | some e =>
    rw [if_neg (by simp)] at hlive
    simp only [hlive, hsender, Option.some.injEq, and_iff_left hshut, Joins]
    split_ifs with he
    · simp [he]
    · constructor
      · rintro ⟨d, hd, hs⟩
        have hed : e ≠ d := fun hed => he (hed ▸ hd)
        rw [if_neg hed] at hs
        obtain ⟨b, hb, -, hs'⟩ := current_live k y h.current d hd
        rw [hb, ← hs', hs]
      · intro hlast
        obtain ⟨d, hd, hs, -⟩ := (current_open k y c hlast ho.2).mp h.current
        have hed : e ≠ d := fun hed => he (hed ▸ hd)
        exact ⟨d,hd,by rwa [if_neg hed]⟩

theorem tended_joined (found : Option ClientRef) (h : Tended k y) (ho : y.IsOpen c)
    (hq : Quiet (joined k env c title found y.server) t) (hj : Joins k y c found) :
    Tended k (y.loggedIn c t) := by
  have hlive := fun j => live_joined k y c env title t found j hq
  refine ⟨(current_joined_iff k y c env title t found h ho hq).mpr hj,fun j hne => ?_,
    fun d hd => ?_,fun d hd => ?_⟩
  · exact (hlive j).trans ((if_neg fun hn => hne hn.2).trans (h.others j hne))
  · exact h.shut d (shut_joined k y c env title t found hq ▸ hd)
  · have hd' := (hlive k).symm.trans hd
    split_ifs at hd'
    · cases hd'
      exact ho.1
    · exact h.held d hd'

end Logins

/-- The session after a teardown of `c` that left the server `t`. -/
def Session.closing (c : ClientRef) (t : Server) (y : Session) : Session :=
  ⟨⟨t,y.system.opened,c::y.system.closed⟩,y.latest,y.found⟩

theorem session_close (c : ClientRef) (ho : y.IsOpen c) :
    sessionStep k y (.close c) =
      y.closing c (y.server.removeClient (y.server.clients c).id).2 := by
  simp only [sessionStep, step, if_pos (show c ∈ y.system.opened ∧ c ∉ y.system.closed from ho)]
  rfl

theorem session_close_closed (c : ClientRef) (ho : ¬ y.IsOpen c) :
    sessionStep k y (.close c) = y := by
  simp only [sessionStep, step]
  rw [if_neg (show ¬ (c ∈ y.system.opened ∧ c ∉ y.system.closed) from ho)]

theorem tended_close_latest (c : ClientRef) (h : Tended k y) (ho : y.IsOpen c)
    (hid : (y.server.clients c).id = k) (hlast : y.latest = some c) :
    Tended k (sessionStep k y (.close c)) := by
  obtain ⟨d, hd, hs, -⟩ := (current_open k y c hlast ho.2).mp h.current
  have hlive : ∀ j, (y.server.removeClient k).2.live j = none := by
    intro j
    rw [Server.live_remove_client]
    split_ifs with hj
    · rfl
    · exact h.others j hj
  have hshut : (y.server.removeClient k).2.closedSenders = y.server.closedSenders++[c] := by
    rw [Server.closed_remove_client, hd, Option.map_some, hs]
    rfl
  rw [session_close k y c ho, hid]
  refine ⟨?_,fun j _ => hlive j,fun e he => ?_,fun e he => ?_⟩
  · exact (current_closed k (y.closing c _) c hlast List.mem_cons_self).mpr (hlive k)
  · rcases List.mem_append.mp (hshut ▸ he) with he | he
    · exact List.mem_cons_of_mem c (h.shut e he)
    · exact List.mem_cons.mpr (.inl (List.mem_singleton.mp he))
  · exact absurd ((hlive k).symm.trans he) (by simp)

theorem session_close_other (c : ClientRef) (ho : y.IsOpen c)
    (hl : y.server.live (y.server.clients c).id = none) :
    sessionStep k y (.close c) = y.closing c y.server := by
  rw [session_close k y c ho, Server.remove_client_none _ _ hl]

theorem tended_close_other (c : ClientRef) (h : Tended k y) (ho : y.IsOpen c)
    (hl : y.server.live (y.server.clients c).id = none) (hlast : y.latest ≠ some c) :
    Tended k (sessionStep k y (.close c)) := by
  rw [session_close_other k y c ho hl]
  refine ⟨?_,h.others,fun d hd => List.mem_cons_of_mem c (h.shut d hd),h.held⟩
  refine current_of_same k y _ rfl (fun e he => ?_) rfl (fun _ _ => rfl) rfl h.current
  have hec : e ≠ c := by
    rintro rfl
    exact hlast he
  exact ⟨fun hm => (List.mem_cons.mp hm).resolve_left hec,List.mem_cons_of_mem c⟩

theorem tended_close (c : ClientRef) (h : Tended k y) (hco : Cooperative k y (.close c)) :
    Tended k (sessionStep k y (.close c)) := by
  by_cases ho : y.IsOpen c
  · obtain ⟨hnamed, hlatest⟩ := hco ho
    by_cases hlast : y.latest = some c
    · exact tended_close_latest k y c h ho (hnamed hlast) hlast
    · refine tended_close_other k y c h ho ?_ hlast
      by_cases hid : (y.server.clients c).id = k
      · by_contra hl
        exact hlast (hlatest hid (by rwa [hid] at hl))
      · exact h.others _ hid
  · rw [session_close_closed k y c ho]
    exact h

theorem session_step_tended (e : SessionEvent k) (h : Tended k y) (hco : Cooperative k y e) :
    Tended k (sessionStep k y e) := by
  cases e with
  | accept c uuid transport now => exact tended_accept k y c uuid transport now h
  | look c => exact tended_look k y c h
  | login c env f =>
    by_cases hidle : y.IsOpen c → y.found c = none
    · rw [session_login_idle k y c env f hidle]
      exact h
    · obtain ⟨ho, hf⟩ := Classical.not_imp.mp hidle
      obtain ⟨found, hf⟩ := Option.ne_none_iff_exists'.mp hf
      obtain ⟨t, hstep, hq⟩ := session_login k y c env f found ho hf
      rw [hstep]
      exact tended_joined k y c env f.title t found h ho hq (hco ho found hf)
  | close c => exact tended_close k y c h hco

theorem close_latest_not_current (c : ClientRef) (h : Tended k y) (ho : y.IsOpen c)
    (hid : (y.server.clients c).id ≠ k) (hlast : y.latest = some c) :
    ¬ Current k (sessionStep k y (.close c)) := by
  obtain ⟨d, hd, -⟩ := (current_open k y c hlast ho.2).mp h.current
  rw [session_close_other k y c ho (h.others _ hid),
    current_closed k (y.closing c _) c hlast List.mem_cons_self]
  intro hnone
  rw [show y.server.live k = none from hnone] at hd
  cases hd

/-- A superseded connection with the id on its object ends the session of the
one that took it over. -/
theorem close_holder_not_current (c : ClientRef) (h : Tended k y) (ho : y.IsOpen c)
    (hid : (y.server.clients c).id = k) (hl : y.server.live k ≠ none)
    (hlast : y.latest ≠ some c) : ¬ Current k (sessionStep k y (.close c)) := by
  obtain ⟨d, hd⟩ := Option.ne_none_iff_exists'.mp hl
  obtain ⟨b, hb, hopen, -⟩ := current_live k y h.current d hd
  have hbc : b ≠ c := by
    rintro rfl
    exact hlast hb
  rw [session_close k y c ho, hid,
    current_open k (y.closing c _) b hb (List.not_mem_cons_of_ne_of_not_mem hbc hopen)]
  rintro ⟨e, he, -⟩
  have hnone : (y.server.removeClient k).2.live k = none := by
    rw [Server.live_remove_client, if_pos rfl]
  rw [show (y.server.removeClient k).2.live k = some e from he] at hnone
  cases hnone

theorem session_step_not_current (e : SessionEvent k) (h : Tended k y)
    (hco : ¬ Cooperative k y e) : ¬ Current k (sessionStep k y e) := by
  cases e with
  | accept => exact absurd trivial hco
  | look => exact absurd trivial hco
  | login c env f =>
    simp only [Cooperative, Classical.not_imp, not_forall] at hco
    obtain ⟨ho, found, hf, hj⟩ := hco
    obtain ⟨t, hstep, hq⟩ := session_login k y c env f found ho hf
    rw [hstep, current_joined_iff k y c env f.title t found h ho hq]
    exact hj
  | close c =>
    simp only [Cooperative, Classical.not_imp, not_and_or] at hco
    obtain ⟨ho, ⟨hlast, hid⟩ | ⟨hid, hl, hlast⟩⟩ := hco
    · exact close_latest_not_current k y c h ho hid hlast
    · exact close_holder_not_current k y c h ho hid hl hlast

end Steps

theorem session_start_tended (config : RexSystemConfig) (cluster : ClusterPort)
    (db : Option SledDb) (clients : Clients) :
    Tended k (sessionStart config cluster db clients) := by
  have hlive : ∀ j, (sessionStart config cluster db clients).server.live j = none :=
    live_start config cluster db clients
  have hshut : (sessionStart config cluster db clients).server.closedSenders = [] :=
    closed_start config cluster db clients
  refine ⟨hlive k,fun j _ => hlive j,fun c hc => ?_,fun d hd => ?_⟩
  · rw [hshut] at hc
    cases hc
  · rw [hlive k] at hd
    cases hd

def loginSeven : LoginFrame 7 where
  frame := loginFrame 7 []
  title := []
  command_eq := by decide
  source_eq := by decide +kernel
  title_eq := by decide

/-- A login begins while no other login is under way and no other connection
is logged in. -/
def Serial (y : Session) : SessionEvent k → Prop
  | .look c => y.IsOpen c → (∀ d, y.latest = some d → d ∈ y.system.closed ∨ d = c) ∧
      ∀ d, y.IsOpen d → y.found d ≠ none → d = c
  | _ => True

/-- The registered object is that of the latest login, every object keeps its
own sender, and what the login under way found is still so. -/
structure Alone (y : Session) : Prop where
  holder : ∀ d, y.server.live k = some d → y.latest = some d ∧ (y.server.clients d).id = k
  named : ∀ c, y.IsOpen c → (y.server.clients c).id = k → y.server.live k = some c
  own : ∀ c, y.IsOpen c → (y.server.clients c).sender = c
  single : ∀ c, y.IsOpen c → y.found c ≠ none → y.found c = some (y.server.live k) ∧
    (∀ d, y.latest = some d → d ∈ y.system.closed ∨ d = c) ∧
      ∀ d, y.IsOpen d → y.found d ≠ none → d = c
  idle : ∀ c, c ∉ y.system.opened → y.found c = none

section Serial
variable (y : Session)

theorem alone_cooperative (e : SessionEvent k) (h : Tended k y) (ha : Alone k y) :
    Cooperative k y e := by
  cases e with
  | accept => trivial
  | look => trivial
  | login c env f =>
    intro ho found hf
    obtain ⟨hlive, -, -⟩ := ha.single c ho (by simp [hf])
    obtain rfl : found = y.server.live k := Option.some.inj (hf.symm.trans hlive)
    have hown := ha.own c ho
    cases hl : y.server.live k with
    | none => exact hown
    | some d =>
      rw [Joins, if_pos hl]
      exact hown
  | close c =>
    intro ho
    refine ⟨fun hlast => ?_,fun hid _ => (ha.holder c (ha.named c ho hid)).1⟩
    obtain ⟨d, hd, -⟩ := (current_open k y c hlast ho.2).mp h.current
    obtain ⟨hd', hid⟩ := ha.holder d hd
    rw [hlast] at hd'
    cases hd'
    exact hid

theorem alone_accept (c : ClientRef) (uuid : { u : ClientId // u ≠ k }) (transport : String)
    (now : UInt64) (h : Tended k y) (ha : Alone k y) :
    Alone k (sessionStep k y (.accept c uuid transport now)) := by
  simp only [sessionStep, step]
  split_ifs with hc
  · exact ha
  · have hother : ∀ d, d ≠ c →
        (acceptClient c uuid transport now y.system.server).clients d = y.server.clients d :=
      fun d hd => Function.update_of_ne hd _ _
    have hnew : (acceptClient c uuid transport now y.system.server).clients c =
        (RexClientInner.new uuid [] c now).setTransportLabel transport := Function.update_self ..
    have hopen : ∀ d, d ≠ c → d ∈ c::y.system.opened → d ∈ y.system.opened :=
      fun d hd hm => (List.mem_cons.mp hm).resolve_left hd
    have hbusy : ∀ d, y.found d ≠ none → d ≠ c := by
      rintro d hd rfl
      exact hd (ha.idle d hc)
    refine ⟨fun d hd => ?_,fun d hd hid => ?_,fun d hd => ?_,fun d hd hf => ?_,
      fun d hd => ha.idle d fun hm => hd (List.mem_cons_of_mem c hm)⟩
    · have hdc : d ≠ c := by
        rintro rfl
        exact hc (h.held d hd)
      obtain ⟨hlast, hid⟩ := ha.holder d hd
      exact ⟨hlast,(congrArg RexClientInner.id (hother d hdc)).trans hid⟩
    · by_cases hdc : d = c
      · rw [hdc] at hid
        exact absurd ((congrArg RexClientInner.id hnew).symm.trans hid) uuid.2
      · exact ha.named d ⟨hopen d hdc hd.1,hd.2⟩
          ((congrArg RexClientInner.id (hother d hdc)).symm.trans hid)
    · by_cases hdc : d = c
      · rw [hdc]
        exact congrArg RexClientInner.sender hnew
      · exact (congrArg RexClientInner.sender (hother d hdc)).trans
          (ha.own d ⟨hopen d hdc hd.1,hd.2⟩)
    · obtain ⟨hlive, hlast, honly⟩ := ha.single d ⟨hopen d (hbusy d hf) hd.1,hd.2⟩ hf
      exact ⟨hlive,hlast,fun e he hef => honly e ⟨hopen e (hbusy e hef) he.1,he.2⟩ hef⟩

section Login
variable {c : ClientRef} {env : Env} {f : LoginFrame k} {t : Server}

/-- Whoever holds the id is the latest login, and so the one under way. -/
theorem login_live_alone (h : Tended k y) (ha : Alone k y)
    (hlast : ∀ d, y.latest = some d → d ∈ y.system.closed ∨ d = c)
    (hq : Quiet (joined k env c f.title (y.server.live k) y.server) t) :
    t.live k = some c ∧ ∀ e, y.server.live k = some e → e = c := by
  have hholder : ∀ e, y.server.live k = some e → e = c := by
    intro e hl
    obtain ⟨hle, -⟩ := ha.holder e hl
    obtain ⟨b, hb, hopen, -⟩ := current_live k y h.current e hl
    obtain rfl : e = b := Option.some.inj (hle.symm.trans hb)
    exact (hlast e hle).resolve_left hopen
  refine ⟨?_,hholder⟩
  rw [live_joined k y c env f.title t _ k hq]
  cases hl : y.server.live k with
  | none => simp
  | some e => simp [hholder e hl]

theorem login_ids_alone (ha : Alone k y) (hholder : ∀ e, y.server.live k = some e → e = c)
    (hq : Quiet (joined k env c f.title (y.server.live k) y.server) t) (d : ClientRef) :
    (t.clients d).id = if d = c then k else (y.server.clients d).id := by
  rw [hq.id]
  cases hl : y.server.live k with
  | none => exact id_enroll env c k f.title y.server d
  | some e =>
    obtain rfl := hholder e hl
    refine (id_take_over ..).trans ?_
    split_ifs with hd
    · rw [hd]
      exact (ha.holder e hl).2
    · rfl

theorem login_senders_alone (ha : Alone k y) (hholder : ∀ e, y.server.live k = some e → e = c)
    (hq : Quiet (joined k env c f.title (y.server.live k) y.server) t) (d : ClientRef)
    (hd : y.IsOpen d) : (t.clients d).sender = d := by
  rw [sender_joined k y c env f.title t _ d hq]
  split_ifs with hl
  · obtain rfl := hholder d hl
    exact ha.own d hd
  · exact ha.own d hd

end Login

theorem alone_login (c : ClientRef) (env : Env) (f : LoginFrame k) (h : Tended k y)
    (ha : Alone k y) : Alone k (sessionStep k y (.login c env f)) := by
  by_cases hidle : y.IsOpen c → y.found c = none
  · rw [session_login_idle k y c env f hidle]
    exact ha
  · obtain ⟨ho, hf⟩ := Classical.not_imp.mp hidle
    obtain ⟨hfound, hlast, honly⟩ := ha.single c ho hf
    obtain ⟨t, hstep, hq⟩ := session_login k y c env f _ ho hfound
    have hdone : ∀ d, y.IsOpen d → Function.update y.found c none d = none := by
      intro d hd
      by_cases hdc : d = c
      · rw [hdc, Function.update_self]
      · rw [Function.update_of_ne hdc]
        by_contra hfd
        exact hdc (honly d hd hfd)
    obtain ⟨hlive, hholder⟩ := login_live_alone k y h ha hlast hq
    have hid := login_ids_alone k y ha hholder hq
    rw [hstep]
    refine ⟨fun d hd => ?_,fun d hd hdk => ?_,login_senders_alone k y ha hholder hq,
      fun d hd hf => absurd (hdone d hd) hf,fun d hd => ?_⟩
    · obtain rfl : c = d := Option.some.inj (hlive.symm.trans hd)
      exact ⟨rfl,(hid c).trans (if_pos rfl)⟩
    · have hdk' := (hid d).symm.trans hdk
      split_ifs at hdk' with hdc
      · rw [hdc]
        exact hlive
      · exact absurd (hholder d (ha.named d hd hdk')) hdc
    · have hdc : d ≠ c := by
        rintro rfl
        exact hd ho.1
      exact (Function.update_of_ne hdc none y.found).trans (ha.idle d hd)

theorem alone_look (c : ClientRef) (ha : Alone k y) (hs : Serial k y (.look c)) :
    Alone k (sessionStep k y (.look c)) := by
  simp only [sessionStep]
  split_ifs with ho
  · obtain ⟨hlast, honly⟩ := hs ho
    have hpending : ∀ d, y.IsOpen d →
        Function.update y.found c (some (y.server.live k)) d ≠ none → d = c := by
      intro d hd hf
      by_contra hdc
      rw [Function.update_of_ne hdc] at hf
      exact hdc (honly d hd hf)
    refine ⟨ha.holder,ha.named,ha.own,fun d hd hf => ?_,fun d hd => ?_⟩
    · rw [hpending d hd hf]
      exact ⟨Function.update_self ..,hlast,hpending⟩
    · have hdc : d ≠ c := by
        rintro rfl
        exact hd ho.1
      exact (Function.update_of_ne hdc _ y.found).trans (ha.idle d hd)
  · exact ha

theorem alone_close (c : ClientRef) (ha : Alone k y) :
    Alone k (sessionStep k y (.close c)) := by
  by_cases ho : y.IsOpen c
  · rw [session_close k y c ho]
    have hopen : ∀ d, (y.closing c (y.server.removeClient (y.server.clients c).id).2).IsOpen d →
        d ≠ c ∧ y.IsOpen d :=
      fun d hd => ⟨List.ne_of_not_mem_cons hd.2,hd.1,List.not_mem_of_not_mem_cons hd.2⟩
    have hclients : (y.server.removeClient (y.server.clients c).id).2.clients = y.server.clients :=
      y.server.clients_remove_client _
    have hlive : ∀ d, (y.server.removeClient (y.server.clients c).id).2.live k = some d →
        y.server.live k = some d := by
      intro d hd
      rw [Server.live_remove_client] at hd
      split_ifs at hd
      exact hd
    have hstay : (y.server.clients c).id ≠ k →
        (y.server.removeClient (y.server.clients c).id).2.live k = y.server.live k := by
      intro hid
      rw [Server.live_remove_client, if_neg (Ne.symm hid)]
    refine ⟨fun d hd => ?_,fun d hd hid => ?_,fun d hd => ?_,fun d hd hfd => ?_,ha.idle⟩
    · obtain ⟨hlast, hid⟩ := ha.holder d (hlive d hd)
      exact ⟨hlast,(congrArg (fun cl => (cl d).id) hclients).trans hid⟩
    · obtain ⟨hdc, hd⟩ := hopen d hd
      have hl := ha.named d hd ((congrArg (fun cl => (cl d).id) hclients).symm.trans hid)
      refine (hstay fun hck => hdc ?_).trans hl
      exact Option.some.inj (hl.symm.trans (ha.named c ho hck))
    · obtain ⟨-, hd⟩ := hopen d hd
      exact (congrArg (fun cl => (cl d).sender) hclients).trans (ha.own d hd)
    · obtain ⟨hdc, hd⟩ := hopen d hd
      obtain ⟨hfound, hlast, honly⟩ := ha.single d hd hfd
      have hck : (y.server.clients c).id ≠ k := by
        intro hck
        obtain ⟨hlc, -⟩ := ha.holder c (ha.named c ho hck)
        rcases hlast c hlc with hc | hc
        · exact ho.2 hc
        · exact hdc hc.symm
      refine ⟨hfound.trans (congrArg some (hstay hck).symm),fun e he => ?_,
        fun e he hef => honly e (hopen e he).2 hef⟩
      exact (hlast e he).imp_left (List.mem_cons_of_mem c)
  · rw [session_close_closed k y c ho]
    exact ha

theorem alone_step (e : SessionEvent k) (h : Tended k y) (ha : Alone k y) (hs : Serial k y e) :
    Alone k (sessionStep k y e) := by
  cases e with
  | accept c uuid transport now => exact alone_accept k y c uuid transport now h ha
  | look c => exact alone_look k y c ha hs
  | login c env f => exact alone_login k y c env f h ha
  | close c => exact alone_close k y c ha

end Serial

/-- Connections that log in one after the other, each closed before the next
one begins its login, keep the session current. -/
theorem serial_sessions_current (config : RexSystemConfig) (cluster : ClusterPort)
    (db : Option SledDb) (clients : Clients) (es : List (SessionEvent k))
    (hs : Along (sessionStep k) (Serial k) (sessionStart config cluster db clients) es) :
    Always (sessionStep k) (Current k) (sessionStart config cluster db clients) es := by
  have htended := session_start_tended k config cluster db clients
  have hnone : (sessionStart config cluster db clients).server.live k = none := htended.current
  refine always_mono (sessionStep k) (fun y => Tended k y ∧ Alone k y) _
    (fun y hy => hy.1.current) _ es
    (always_of_along (sessionStep k) (Serial k) _ (fun y e hy he => ?_) _ es
      ⟨htended,fun d hd => ?_,fun c hc => ?_,fun c hc => ?_,fun c hc => ?_,fun _ _ => rfl⟩ hs)
  · exact ⟨session_step_tended k y e hy.1 (alone_cooperative k y e hy.1 hy.2),
      alone_step k y e hy.1 hy.2 he⟩
  · rw [hnone] at hd
    cases hd
  · cases hc.1
  · cases hc.1
  · cases hc.1

end RexMq.SessionTakeover
