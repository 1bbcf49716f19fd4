import Mathlib.Tactic.Common
import RexMq.FiniteRun
import RexMq.FrameAccess
import RexMq.ServerSweeps

/-!
# Runs of a server

Connections are accepted, deliver frames and are torn down in any order, and
the janitor sweeps in between. Each handler call, teardown and sweep is one
step. A connection, its client object and its original sender share one
number. Frames can still arrive after the teardown of their connection, as
they do from the streams of a QUIC connection. A frame that faults ends its
task before it changes the state.
-/

set_option autoImplicit false

namespace RexMq.ServerRun
open RexMq.ByteWords RexMq.FiniteRun RexMq.FrameData RexMq.ClientRegistry RexMq.PersistentStore
open RexMq.ServerState RexMq.Handlers RexMq.HandlerEffects RexMq.FrameAccess

structure System where
  server : Server
  opened : List ClientRef
  closed : List ClientRef

inductive Event where
  | accept (c : ClientRef) (uuid : ClientId) (transport : String) (now : UInt64)
  | frame (c : ClientRef) (env : Env) (f : RexData)
  | teardown (c : ClientRef)
  | inactiveSweep (now : UInt64)
  | ackSweep (env : Env)
  | ghostSweep (now : UInt64)
  | restore

def acceptClient (c : ClientRef) (uuid : ClientId) (transport : String) (now : UInt64)
    (s : Server) : Server :=
  let peer := (RexClientInner.new uuid [] c now).setTransportLabel transport
  { s with clients := Function.update s.clients c peer }

/-- The loop body around `handle` for one frame. -/
def receiveFrame (env : Env) (c : ClientRef) (f : RexData) (s : Server) : Server :=
  match handle env c f s with
  | .error _ => s
  | .ok t => { t with clients := modify t.clients c (.updateLastRecv env.now) }

/-- `Services::remove_client(peer.id())`, run when a connection ends. -/
def teardownClient (c : ClientRef) (s : Server) : Server := (s.removeClient (s.clients c).id).2

def sweepAcks (env : Env) (s : Server) : Server :=
  match s.cleanupExpiredAcks env with
  | .error _ => s
  | .ok t => t

def step (y : System) : Event → System
  | .accept c uuid transport now =>
    if c ∈ y.opened then y
    else { y with server := acceptClient c uuid transport now y.server, opened := c::y.opened }
  | .frame c env f =>
    if c ∈ y.opened then { y with server := receiveFrame env c f y.server } else y
  | .teardown c =>
    if c ∈ y.opened ∧ c ∉ y.closed then
      { y with server := teardownClient c y.server, closed := c::y.closed }
    else y
  | .inactiveSweep now => { y with server := y.server.cleanupInactiveClients now }
  | .ackSweep env => { y with server := sweepAcks env y.server }
  | .ghostSweep now => { y with server := y.server.cleanupExpiredGhosts now }
  | .restore => { y with server := y.server.restore }

/-- The state in which the transports start: built and restored. -/
def start (config : RexSystemConfig) (cluster : ClusterPort) (db : Option SledDb)
    (clients : Clients) : System :=
  ⟨(Server.build config cluster db clients).restore,[],[]⟩

theorem live_start (config : RexSystemConfig) (cluster : ClusterPort) (db : Option SledDb)
    (clients : Clients) (k : ClientId) : (start config cluster db clients).server.live k = none :=
  (Server.build config cluster db clients).restore_keeps (fun s => s.live k = none)
    (fun _ _ _ hr hs => (hr.live k).trans hs) rfl

theorem closed_start (config : RexSystemConfig) (cluster : ClusterPort) (db : Option SledDb)
    (clients : Clients) : (start config cluster db clients).server.closedSenders = [] :=
  (Server.build config cluster db clients).restore_keeps (fun s => s.closedSenders = [])
    (fun _ _ _ hr hs => hr.closed.trans hs) rfl

theorem receive_effect (env : Env) (c : ClientRef) (f : RexData) (s : Server) :
    receiveFrame env c f s = s ∨
      ∃ u, Effect env c f s u ∧ Quiet u (receiveFrame env c f s) := by
  unfold receiveFrame
  cases h : handle env c f s with
  | error e => exact .inl rfl
  | ok t =>
    obtain ⟨u, he, hq⟩ := handle_effect c f s t h
    exact .inr ⟨u,he,quiet_trans u t _ hq (quiet_touch t c env.now)⟩

def login (env : Env) (c : ClientRef) (k : ClientId) (title : Bytes) (s : Server) : Server :=
  match s.live k with
  | some client => takeOver client c title s
  | none => enroll env c k title s

theorem handle_login (env : Env) (c : ClientRef) (f : RexData) (s t : Server) (k : ClientId)
    (title : Bytes) (hc : f.command = .ok .login) (hk : f.source = .ok k)
    (ht : f.title = .ok title) (hok : handle env c f s = .ok t) :
    Quiet (login env c k title s) t := by
  obtain ⟨u, he, hq⟩ := handle_effect c f s t hok
  have hu : login env c k title s = u := by
    cases he with
    | quiet hne => exact absurd hc hne
    | takeOver k' title' client _ hk' ht' hl =>
      rw [hk] at hk'
      rw [ht] at ht'
      cases hk'
      cases ht'
      simp only [login, hl]
    | enroll k' title' _ hk' ht' hl =>
      rw [hk] at hk'
      rw [ht] at ht'
      cases hk'
      cases ht'
      simp only [login, hl]
    | mutate m command k' title' client hc' hm _ _ _ =>
      rw [hc] at hc'
      cases hc'
      cases hm
    | remove t' ks hc' _ =>
      rw [hc] at hc'
      cases hc'
  rw [hu]
  exact hq

theorem receive_login (env : Env) (c : ClientRef) (f : RexData) (s : Server) (k : ClientId)
    (title : Bytes) (hc : f.command = .ok .login) (hk : f.source = .ok k)
    (ht : f.title = .ok title) : Quiet (login env c k title s) (receiveFrame env c f s) := by
  obtain ⟨t, hok⟩ := handle_ok env c f s (fits_of_title f title ht (by rw [hc]; simp))
  have hq := handle_login env c f s t k title hc hk ht hok
  rw [receiveFrame, hok]
  exact quiet_trans _ t _ hq (quiet_touch t c env.now)

theorem receive_frame_keeps (I : Server → Prop) (env : Env) (c : ClientRef) (f : RexData)
    (s : Server) (hs : I s) (hquiet : ∀ s t, Quiet s t → I s → I t)
    (htake : ∀ k title client, s.live k = some client → I (takeOver client c title s))
    (henroll : ∀ k title, f.command = .ok .login → f.source = .ok k → f.title = .ok title →
      s.live k = none → I (enroll env c k title s))
    (hmutate : ∀ m command k title client, f.command = .ok command →
      Mutation.fromCommand command = some m → f.title = .ok title →
      s.live k = some client → I (mutate m k title s))
    (hremove : ∀ s k, I s → I (s.removeClient k).2) : I (receiveFrame env c f s) := by
  rcases receive_effect env c f s with h | ⟨u, he, hq⟩
  · rwa [h]
  · refine hquiet u _ hq ?_
    cases he with
    | quiet _ => exact hs
    | takeOver k title client _ _ _ hl => exact htake k title client hl
    | enroll k title hc hk ht hl => exact henroll k title hc hk ht hl
    | mutate m command k title client hc hm _ ht hl =>
      exact hmutate m command k title client hc hm ht hl
    | remove t ks _ ht =>
      have hI := hquiet s t ht hs
      clear hq ht
      induction ks generalizing t with
      | nil => exact hI
      | cons k ks ih => exact ih _ (hremove t k hI)

theorem live_remove_all (ks : List ClientId) (s : Server) (k : ClientId) :
    (removeAll ks s).live k = if k ∈ ks then none else s.live k := by
  induction ks generalizing s with
  | nil => simp [removeAll]
  | cons j ks ih =>
    refine (ih (s.removeClient j).2).trans ?_
    rw [Server.live_remove_client]
    by_cases hk : k ∈ ks <;> by_cases hj : k = j <;> simp [hk, hj]

theorem receive_live (env : Env) (c : ClientRef) (f : RexData) (s : Server) (k : ClientId)
    (d : ClientRef) (h : (receiveFrame env c f s).live k = some d) :
    s.live k = some d ∨ (d = c ∧ s.live k = none ∧ f.command = .ok .login ∧
      f.source = .ok k ∧ ∃ title, f.title = .ok title) := by
  rcases receive_effect env c f s with hs | ⟨u, he, hq⟩
  · rw [hs] at h
    exact .inl h
  · rw [hq.live] at h
    cases he with
    | quiet _ => exact .inl h
    | takeOver k' title client _ _ _ _ => exact .inl h
    | enroll k' title hc hk ht hl =>
      rw [live_enroll] at h
      split_ifs at h with hkk
      · cases h
        rw [hkk]
        exact .inr ⟨rfl,hl,hc,hk,title,ht⟩
      · exact .inl h
    | mutate m command k' title client _ _ _ _ hl =>
      rw [mutate_some m k' title s client hl] at h
      exact .inl h
    | remove t ks _ hst =>
      rw [live_remove_all, hst.live] at h
      split_ifs at h
      exact .inl h

theorem sweep_acks_quiet (env : Env) (s : Server) : Quiet s (sweepAcks env s) := by
  unfold sweepAcks
  cases h : s.cleanupExpiredAcks env with
  | error e => exact quiet_refl s
  | ok t =>
    unfold Server.cleanupExpiredAcks at h
    split_ifs at h
    · cases h
      exact quiet_refl _
    · refine quiet_trans s _ t ?_ ((quiet_follows env).foldlM _ (fun s e t ht => ?_) _ _ t h)
      · exact quiet_plain _ _ ⟨rfl,rfl,rfl,rfl,rfl,fun _ => rfl,rfl⟩
      · cases hl : s.live e.2 with
        | none =>
          simp only [hl] at ht
          cases ht
          exact quiet_refl _
        | some d =>
          simp only [hl] at ht
          obtain ⟨g, -, ht⟩ := bind_ok ht
          cases ht
          exact quiet_send_buf env d g.content s

theorem inactive_sweep_keeps (I : Server → Prop) (hevict : ∀ s k, I s → I (s.evict k))
    (now : UInt64) (s : Server) (hs : I s) : I (s.cleanupInactiveClients now) := by
  unfold Server.cleanupInactiveClients
  generalize s.registry.takeInactive s.clients now s.config.clientTimeout = ks
  induction ks generalizing s with
  | nil => exact hs
  | cons k ks ih => exact ih _ (hevict s k hs)

/-- The step rule: a property of servers kept by everything an event can do to
a server is kept by every event. What a sweep over stale clients does is left
to the caller, since it depends on which clients are stale. -/
theorem step_keeps (I : Server → Prop) (y : System) (e : Event)
    (hquiet : ∀ s t, Quiet s t → I s → I t)
    (haccept : ∀ s c uuid transport now, I s → I (acceptClient c uuid transport now s))
    (htake : ∀ s client c title, I s → I (takeOver client c title s))
    (henroll : ∀ s env c k title, I s → I (enroll env c k title s))
    (hmutate : ∀ s m k title client, s.live k = some client → I s → I (mutate m k title s))
    (hremove : ∀ s k, I s → I (s.removeClient k).2)
    (hstale : ∀ now, e = .inactiveSweep now → I (y.server.cleanupInactiveClients now))
    (hghosts : ∀ s now, I s → I (s.cleanupExpiredGhosts now)) (hrestore : ∀ s, I s → I s.restore)
    (h : I y.server) : I (step y e).server := by
  cases e with
  | accept c uuid transport now =>
    simp only [step]
    split_ifs
    · exact h
    · exact haccept y.server c uuid transport now h
  | frame c env f =>
    simp only [step]
    split_ifs
    · apply receive_frame_keeps I env c f y.server h hquiet
      · exact fun k title client _ => htake y.server client c title h
      · exact fun k title _ _ _ _ => henroll y.server env c k title h
      · exact fun m _ k title client _ _ _ hl => hmutate y.server m k title client hl h
      · exact hremove
    · exact h
  | teardown c =>
    simp only [step]
    split_ifs
    · exact hremove y.server _ h
    · exact h
  | inactiveSweep now => exact hstale now rfl
  | ackSweep env => exact hquiet _ _ (sweep_acks_quiet env y.server) h
  | ghostSweep now => exact hghosts y.server now h
  | restore => exact hrestore y.server h

/-- A login frame as clients build it. -/
def loginFrame (k : ClientId) (title : Title) : RexData :=
  ⟨writeWord 128 20 k (RexData.new .login title []).content⟩

def titleFrame (k : ClientId) (title : Title) : RexData :=
  ⟨writeWord 128 20 k (RexData.new .title title []).content⟩

/-- Time stands still, every send succeeds and there is no cluster. -/
def quietEnv : Env :=
  { now := 0
    sendOk := fun _ => true
    draw := 0
    messageId := 1
    ring := fun _ => none
    forward := fun _ _ => .noPeerForTitle }

def plainConfig : RexSystemConfig :=
  { clientTimeout := 45
    persistenceEnabled := false
    ackEnabled := false
    ackTimeout := 30
    ghostTtlSecs := 86400 }

def storedConfig : RexSystemConfig := { plainConfig with persistenceEnabled := true }

/-- The heap before any connection. -/
def unusedClients : Clients := fun c => .new 0 [] c 0

end RexMq.ServerRun
