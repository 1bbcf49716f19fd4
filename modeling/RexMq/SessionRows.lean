import Mathlib.Tactic.Common
import RexMq.ServerRun

/-!
# Stored rows of live sessions

Adding a client writes its row once, with the titles and the time of that
login, and nothing later updates the row: a sweep can collect it under a
live session, and a restart brings back the titles of the login. Runs carry
the login time and titles of every session as a history, which says exactly
which sweeps do harm and which restarts are complete.
-/

set_option autoImplicit false

namespace RexMq.SessionRows
open RexMq.FiniteRun RexMq.FrameData RexMq.ClientRegistry RexMq.PersistentStore
open RexMq.ServerState RexMq.Handlers RexMq.HandlerEffects RexMq.ServerRun

/-- A change after which every live session was live before and has kept its
row. -/
structure Narrows (s t : Server) : Prop where
  config : t.config = s.config
  stored : t.db.isSome = s.db.isSome
  session : ∀ k, t.live k ≠ none → s.live k ≠ none ∧ t.row k = s.row k

section Narrowing
variable (s t u : Server)

theorem narrows_of_same (hc : t.config = s.config) (hd : t.db.isSome = s.db.isSome)
    (hl : ∀ k, t.live k = s.live k) (hr : ∀ k, t.row k = s.row k) : Narrows s t :=
  ⟨hc,hd,fun k hk => ⟨by rwa [hl] at hk,hr k⟩⟩

theorem narrows_refl : Narrows s s := narrows_of_same s s rfl rfl (fun _ => rfl) (fun _ => rfl)

theorem narrows_trans (h : Narrows s t) (g : Narrows t u) : Narrows s u :=
  ⟨g.config.trans h.config,g.stored.trans h.stored,fun k hk => by
    obtain ⟨ht, htu⟩ := g.session k hk
    obtain ⟨hs, hst⟩ := h.session k ht
    exact ⟨hs,htu.trans hst⟩⟩

theorem narrows_quiet (hq : Quiet s t) : Narrows s t :=
  narrows_of_same s t hq.config hq.stored hq.live hq.row

theorem narrows_remove (k : ClientId) : Narrows s (s.removeClient k).2 := by
  refine ⟨s.config_remove_client k,s.stored_remove_client k,fun j hj => ?_⟩
  rw [Server.live_remove_client] at hj
  rw [Server.row_remove_client]
  split_ifs at hj with hjk
  · exact absurd rfl hj
  · exact ⟨hj,if_neg (fun hc => hjk hc.1)⟩

theorem narrows_remove_all (ks : List ClientId) : Narrows s (removeAll ks s) := by
  induction ks generalizing s with
  | nil => exact narrows_refl s
  | cons k ks ih => exact narrows_trans s _ _ (narrows_remove s k) (ih (s.removeClient k).2)

theorem narrows_inactive_sweep (now : UInt64) : Narrows s (s.cleanupInactiveClients now) := by
  have hev := s.inactive_sweep_evicted now
  refine ⟨hev.config,by rw [hev.db],fun k hk => ?_⟩
  rw [hev.live] at hk
  split_ifs at hk
  · exact absurd rfl hk
  · exact ⟨hk,hev.row k⟩

theorem narrows_restore : Narrows s s.restore :=
  s.restore_keeps (Narrows s)
    (fun a b p hr h => narrows_trans s a b h
      (narrows_of_same a b hr.config (by rw [hr.db]) hr.live hr.row)) (narrows_refl s)

end Narrowing

theorem receive_narrows_or_enrolls (env : Env) (c : ClientRef) (f : RexData) (s : Server) :
    Narrows s (receiveFrame env c f s) ∨ ∃ k title, s.live k = none ∧
      Quiet (enroll env c k title s) (receiveFrame env c f s) := by
  rcases receive_effect env c f s with h | ⟨u, he, hq⟩
  · rw [h]
    exact .inl (narrows_refl s)
  · cases he with
    | quiet _ => exact .inl (narrows_quiet s _ hq)
    | takeOver k title client _ _ _ hl =>
      refine .inl (narrows_trans s _ _ ?_ (narrows_quiet _ _ hq))
      exact narrows_of_same s _ rfl rfl (fun _ => rfl) (fun _ => rfl)
    | enroll k title _ _ _ hl => exact .inr ⟨k,title,hl,hq⟩
    | mutate m command k title client _ _ _ _ hl =>
      refine .inl (narrows_trans s _ _ ?_ (narrows_quiet _ _ hq))
      rw [mutate_some m k title s client hl]
      exact narrows_of_same s _ rfl rfl (fun _ => rfl) (fun _ => rfl)
    | remove t ks _ hst =>
      exact .inl (narrows_trans s _ _ (narrows_trans s _ _ (narrows_quiet s t hst)
        (narrows_remove_all t ks)) (narrows_quiet _ _ hq))

/-- Time and titles of the login that made a session. -/
structure Birth where
  time : UInt64
  titles : List Title

structure Tracked where
  system : System
  born : ClientId → Birth

/-- The births after a change from `s` to `t`: an id that was not live and is
now begins a session. -/
def recordBirths (now : UInt64) (s t : Server) (born : ClientId → Birth) (k : ClientId) : Birth :=
  match s.live k, t.live k with
  | none, some o => ⟨now,(t.clients o).subscribedTitles⟩
  | _, _ => born k

theorem record_births_old (now : UInt64) (s t : Server) (born : ClientId → Birth) (k : ClientId)
    (hs : s.live k ≠ none) : recordBirths now s t born k = born k := by
  obtain ⟨o, ho⟩ := Option.ne_none_iff_exists'.mp hs
  simp only [recordBirths, ho]

theorem record_births_new (now : UInt64) (s t : Server) (born : ClientId → Birth) (k : ClientId)
    (o : ClientRef) (hs : s.live k = none) (ht : t.live k = some o) :
    recordBirths now s t born k = ⟨now,(t.clients o).subscribedTitles⟩ := by
  simp only [recordBirths, hs, ht]

def trackedStep (y : Tracked) : Event → Tracked
  | .frame c env f =>
    let z := step y.system (.frame c env f)
    ⟨z,recordBirths env.now y.system.server z.server y.born⟩
  | e => ⟨step y.system e,y.born⟩

def trackedStart (config : RexSystemConfig) (cluster : ClusterPort) (db : Option SledDb)
    (clients : Clients) : Tracked :=
  ⟨start config cluster db clients,fun _ => ⟨0,[]⟩⟩

theorem system_tracked_step (y : Tracked) (e : Event) :
    (trackedStep y e).system = step y.system e := by
  cases e <;> rfl

def birthRow (config : RexSystemConfig) (k : ClientId) (b : Birth) : PersistedClient :=
  ⟨k,b.titles,b.time,saturatingAdd b.time config.ghostTtlSecs⟩

/-- With a database, every live session has the row of its login. -/
def Rowed (s : Server) (born : ClientId → Birth) : Prop :=
  ∀ k, s.live k ≠ none → s.db.isSome → s.row k = some (birthRow s.config k (born k))

theorem rowed_narrows (s t : Server) (born : ClientId → Birth) (hn : Narrows s t)
    (h : Rowed s born) : Rowed t born := by
  intro k hk hd
  obtain ⟨hs, hrow⟩ := hn.session k hk
  rw [hrow, hn.config]
  exact h k hs (by rwa [hn.stored] at hd)

/-- No sweep comes after the ghost time of a live session. -/
def InTime (y : Tracked) : Event → Prop
  | .ghostSweep now => y.system.server.db.isSome → ∀ k, y.system.server.live k ≠ none →
      now ≤ saturatingAdd (y.born k).time y.system.server.config.ghostTtlSecs
  | _ => True

theorem live_not_expired (s : Server) (born : ClientId → Birth) (h : Rowed s born) (now : UInt64)
    (k : ClientId) (hk : s.live k ≠ none) :
    k ∉ s.expired now ↔
      (s.db.isSome → now ≤ saturatingAdd (born k).time s.config.ghostTtlSecs) := by
  rw [Server.mem_expired_iff]
  cases hd : s.db.isSome with
  | false =>
    have hnone : s.db = none := by simpa using hd
    simp [Server.row, hnone]
  | true =>
    rw [h k hk hd]
    simp [birthRow]

theorem rowed_ghost_sweep (s : Server) (born : ClientId → Birth) (now : UInt64)
    (h : Rowed s born) (hlate : ∀ k, s.live k ≠ none → k ∉ s.expired now) :
    Rowed (s.cleanupExpiredGhosts now) born := by
  have hcol := s.ghost_sweep_collected now
  refine rowed_narrows s _ born ⟨hcol.config,hcol.stored,fun k hk => ?_⟩ h
  rw [hcol.live] at hk
  exact ⟨hk,by rw [hcol.row, if_neg (hlate k hk)]⟩

theorem rowed_receive (env : Env) (c : ClientRef) (f : RexData) (s : Server)
    (born : ClientId → Birth) (h : Rowed s born) :
    Rowed (receiveFrame env c f s) (recordBirths env.now s (receiveFrame env c f s) born) := by
  intro j hj hd
  rcases receive_narrows_or_enrolls env c f s with hn | ⟨k, title, hl, hq⟩
  · rw [rowed_narrows s _ born hn h j hj hd, record_births_old _ _ _ _ _ (hn.session j hj).1]
  · have hcfg : (receiveFrame env c f s).config = s.config := hq.config
    have hdb : s.db.isSome := by
      rw [hq.stored] at hd
      simpa [enroll] using hd
    rw [hq.row, row_enroll, hcfg]
    by_cases hjk : j = k
    · -- The new session: its row holds the titles its object has after the login.
      subst hjk
      have hlive : (receiveFrame env c f s).live j = some c := by
        rw [hq.live, live_enroll, if_pos rfl]
      rw [if_pos ⟨rfl,hdb⟩, record_births_new _ _ _ _ _ c hl hlive, birthRow, hq.titles]
    · rw [hq.live, live_enroll, if_neg hjk] at hj
      rw [if_neg (fun hc => hjk hc.1), record_births_old _ _ _ _ _ hj]
      exact h j hj hdb

theorem tracked_step_rowed (y : Tracked) (e : Event) (h : Rowed y.system.server y.born)
    (ht : InTime y e) : Rowed (trackedStep y e).system.server (trackedStep y e).born := by
  cases e with
  | frame c env f =>
    by_cases hc : c ∈ y.system.opened
    · simp only [trackedStep, step, if_pos hc]
      exact rowed_receive env c f y.system.server y.born h
    · intro k hk hd
      simp only [trackedStep, step, if_neg hc] at hk hd ⊢
      rw [record_births_old _ _ _ _ _ hk]
      exact h k hk hd
  | accept c uuid transport now =>
    simp only [trackedStep, step]
    split_ifs
    · exact h
    · exact rowed_narrows y.system.server _ _
        (narrows_of_same _ _ rfl rfl (fun _ => rfl) (fun _ => rfl)) h
  | teardown c =>
    simp only [trackedStep, step]
    split_ifs
    · exact rowed_narrows _ _ _ (narrows_remove _ _) h
    · exact h
  | inactiveSweep now => exact rowed_narrows _ _ _ (narrows_inactive_sweep _ now) h
  | ackSweep env => exact rowed_narrows _ _ _ (narrows_quiet _ _ (sweep_acks_quiet env _)) h
  | ghostSweep now =>
    exact rowed_ghost_sweep _ _ now h (fun k hk =>
      (live_not_expired _ _ h now k hk).mpr (fun hd => ht hd k hk))
  | restore => exact rowed_narrows _ _ _ (narrows_restore _) h

theorem tracked_start_rowed (config : RexSystemConfig) (cluster : ClusterPort)
    (db : Option SledDb) (clients : Clients) :
    Rowed (trackedStart config cluster db clients).system.server (fun _ => ⟨0,[]⟩) :=
  fun k hk => absurd (live_start config cluster db clients k) hk

/-- A ghost sweep leaves registration, row and queue of every live client. -/
def Harmless (y : Tracked) : Event → Prop
  | .ghostSweep now => ∀ k, y.system.server.live k ≠ none →
      let t := (trackedStep y (.ghostSweep now)).system.server
      t.node k = y.system.server.node k ∧ t.row k = y.system.server.row k ∧
        t.queue k = y.system.server.queue k
  | _ => True

theorem harmless_iff_in_time (y : Tracked) (e : Event) (h : Rowed y.system.server y.born) :
    Harmless y e ↔ InTime y e := by
  cases e with
  | ghostSweep now =>
    have hcol := y.system.server.ghost_sweep_collected now
    constructor
    · intro hh hd k hk
      refine (live_not_expired _ _ h now k hk).mp (fun hm => ?_) hd
      have hrow : (y.system.server.cleanupExpiredGhosts now).row k = y.system.server.row k :=
        (hh k hk).2.1
      rw [hcol.row, if_pos hm, h k hk hd] at hrow
      cases hrow
    · intro ht k hk
      have hm := (live_not_expired _ _ h now k hk).mpr (fun hd => ht hd k hk)
      exact ⟨(hcol.node k).trans (if_neg hm),(hcol.row k).trans (if_neg hm),
        (hcol.queue k).trans (if_neg hm)⟩
  | accept | frame | teardown | inactiveSweep | ackSweep | restore => exact Iff.rfl

/-- Ghost sweeps spare the live clients exactly in the runs in which no
session is live at a sweep later than its login by more than the ghost
time. -/
theorem ghost_sweeps_harmless_iff (config : RexSystemConfig) (cluster : ClusterPort)
    (db : Option SledDb) (clients : Clients) (es : List Event) :
    Along trackedStep Harmless (trackedStart config cluster db clients) es ↔
      Along trackedStep InTime (trackedStart config cluster db clients) es :=
  along_iff_along trackedStep Harmless InTime (fun y => Rowed y.system.server y.born)
    harmless_iff_in_time
    (fun y e h hh => tracked_step_rowed y e h ((harmless_iff_in_time y e h).mp hh)) _ es
    (tracked_start_rowed config cluster db clients)

def shortGhosts : RexSystemConfig := { storedConfig with ghostTtlSecs := 10 }

/-- A client that logged in at second 0 and is still live at second 11 loses
registration and row to the sweep. -/
theorem live_client_collected :
    let y := [Event.accept 0 1 "tcp" 0,.frame 0 quietEnv (loginFrame 7 [])].foldl trackedStep
      (trackedStart shortGhosts (.manager "n1" ∅) (some SledDb.empty) unusedClients)
    let z := trackedStep y (.ghostSweep 11)
    (y.system.server.live 7 = some 0 ∧ y.system.server.node 7 = some "n1" ∧
        (y.system.server.row 7).isSome) ∧
      z.system.server.live 7 = some 0 ∧ z.system.server.node 7 = none ∧
        z.system.server.row 7 = none := by
  decide +kernel

/-- The titles of an id in the registry. -/
def Subscribed (s : Server) (k : ClientId) (title : Title) : Prop :=
  ∃ o, s.live k = some o ∧ o ∈ s.registry.subscribers title

/-- Teardowns that still run when the server ends: none in a crash, those of
the open connections after a shutdown signal. -/
def exitWith (cs : List ClientRef) (y : System) : System :=
  cs.foldl (fun y c => step y (.teardown c)) y

def restart (cs : List ClientRef) (cluster : ClusterPort) (clients : Clients) (y : System) :
    System :=
  start y.server.config cluster (exitWith cs y).server.db clients

/-- Every session of `s` is a ghost of `t` with the titles of the session. -/
def Recovered (s t : Server) : Prop :=
  ∀ k, s.live k ≠ none → ∃ titles ghostUntil, t.ghost k = some (titles,ghostUntil) ∧
    ∀ title, title ∈ titles ↔ Subscribed s k title

/-- No teardown among the exit's is for the id. -/
def Spared (cs : List ClientRef) (y : System) (k : ClientId) : Prop :=
  ∀ c ∈ cs, c ∈ y.opened → c ∉ y.closed → (y.server.clients c).id ≠ k

instance (cs : List ClientRef) (y : System) (k : ClientId) : Decidable (Spared cs y k) := by
  unfold Spared
  infer_instance

/-- The exit spares every session, and every session has the titles of its
login. -/
def Unchanged (cs : List ClientRef) (y : Tracked) : Prop :=
  ∀ k, y.system.server.live k ≠ none → Spared cs y.system k ∧
    ∀ title, title ∈ (y.born k).titles ↔ Subscribed y.system.server k title

section Exit
variable (y : System) (k : ClientId)

theorem teardown_hit (c : ClientRef) (ho : c ∈ y.opened) (hc : c ∉ y.closed)
    (hid : (y.server.clients c).id = k) (hk : y.server.live k ≠ none) :
    (step y (.teardown c)).server.live k = none ∧ (step y (.teardown c)).server.row k = none := by
  simp only [step, if_pos (And.intro ho hc), teardownClient]
  rw [Server.live_remove_client, Server.row_remove_client, hid, if_pos rfl, if_pos ⟨rfl,hk⟩]
  exact ⟨rfl,rfl⟩

theorem teardown_miss (c : ClientRef)
    (h : c ∈ y.opened → c ∉ y.closed → (y.server.clients c).id ≠ k) :
    (step y (.teardown c)).server.live k = y.server.live k ∧
      (step y (.teardown c)).server.row k = y.server.row k := by
  simp only [step]
  split_ifs with hc
  · have hid : k ≠ (y.server.clients c).id := (h hc.1 hc.2).symm
    rw [teardownClient, Server.live_remove_client, Server.row_remove_client, if_neg hid,
      if_neg (fun hh => hid hh.1)]
    exact ⟨rfl,rfl⟩
  · exact ⟨rfl,rfl⟩

theorem teardown_absent (c : ClientRef) (hk : y.server.live k = none) :
    (step y (.teardown c)).server.live k = none ∧
      (step y (.teardown c)).server.row k = y.server.row k := by
  simp only [step]
  split_ifs
  · rw [teardownClient, Server.live_remove_client, Server.row_remove_client, hk]
    refine ⟨ite_self _,if_neg (fun hh => hh.2 ?_)⟩
    rw [← hh.1, hk]
  · exact ⟨hk,rfl⟩

theorem teardown_frame (c : ClientRef) :
    (step y (.teardown c)).server.clients = y.server.clients ∧
      (step y (.teardown c)).opened = y.opened ∧
      (∀ d, d ∈ y.closed → d ∈ (step y (.teardown c)).closed) ∧
      ∀ d, d ∈ (step y (.teardown c)).closed → d = c ∨ d ∈ y.closed := by
  simp only [step]
  split_ifs
  · exact ⟨by rw [teardownClient, Server.clients_remove_client],rfl,
      fun d hd => List.mem_cons_of_mem c hd,fun d hd => List.mem_cons.mp hd⟩
  · exact ⟨rfl,rfl,fun d hd => hd,fun d hd => .inr hd⟩

theorem row_exit_absent (cs : List ClientRef) (hk : y.server.live k = none) :
    (exitWith cs y).server.row k = y.server.row k := by
  induction cs generalizing y with
  | nil => rfl
  | cons c cs ih =>
    obtain ⟨hl, hr⟩ := teardown_absent y k c hk
    exact (ih _ hl).trans hr

theorem spared_cons (c : ClientRef) (cs : List ClientRef) :
    Spared (c::cs) y k ↔
      (c ∈ y.opened → c ∉ y.closed → (y.server.clients c).id ≠ k) ∧
        Spared cs (step y (.teardown c)) k := by
  obtain ⟨hclients, hopened, hmono, hclosed⟩ := teardown_frame y c
  simp only [Spared, List.forall_mem_cons, hclients, hopened]
  refine and_congr_right (fun hc => ⟨fun h d hd ho hcl => ?_,fun h d hd ho hcl => ?_⟩)
  · exact h d hd ho (fun hm => hcl (hmono d hm))
  · by_cases hdc : d = c
    · rw [hdc] at ho hcl ⊢
      exact hc ho hcl
    · exact h d hd ho (fun hm => (hclosed d hm).elim hdc hcl)

theorem row_exit (cs : List ClientRef) (hk : y.server.live k ≠ none) :
    (exitWith cs y).server.row k = if Spared cs y k then y.server.row k else none := by
  induction cs generalizing y with
  | nil => simp [exitWith, Spared]
  | cons c cs ih =>
    change (exitWith cs (step y (.teardown c))).server.row k = _
    by_cases hc : c ∈ y.opened → c ∉ y.closed → (y.server.clients c).id ≠ k
    · obtain ⟨hl, hr⟩ := teardown_miss y k c hc
      have hsp : Spared (c::cs) y k ↔ Spared cs (step y (.teardown c)) k :=
        (spared_cons y k c cs).trans (and_iff_right hc)
      rw [ih _ (by rwa [hl]), hr]
      simp only [hsp]
    · rw [if_neg (fun h => hc ((spared_cons y k c cs).mp h).1)]
      simp only [not_forall, not_not] at hc
      obtain ⟨ho, hcl, hid⟩ := hc
      obtain ⟨hl, hr⟩ := teardown_hit y k c ho hcl hid hk
      exact (row_exit_absent (step y (.teardown c)) k cs hl).trans hr

end Exit

theorem step_same_store (y : System) (e : Event) :
    (step y e).server.config = y.server.config ∧
      (step y e).server.db.isSome = y.server.db.isSome := by
  cases e with
  | accept | teardown =>
    simp only [step]
    split_ifs <;> simp [acceptClient, teardownClient]
  | frame c env f =>
    simp only [step]
    split_ifs
    · rcases receive_narrows_or_enrolls env c f y.server with hn | ⟨k, title, -, hq⟩
      · exact ⟨hn.config,hn.stored⟩
      · exact ⟨hq.config,hq.stored.trans (by simp [enroll])⟩
    · exact ⟨rfl,rfl⟩
  | inactiveSweep now =>
    have hn := narrows_inactive_sweep y.server now
    exact ⟨hn.config,hn.stored⟩
  | ackSweep env =>
    have hq := sweep_acks_quiet env y.server
    exact ⟨hq.config,hq.stored⟩
  | ghostSweep now =>
    have hcol := y.server.ghost_sweep_collected now
    exact ⟨hcol.config,hcol.stored⟩
  | restore =>
    have hn := narrows_restore y.server
    exact ⟨hn.config,hn.stored⟩

/-- Sessions over a database: what a restart relies on. -/
structure Backed (y : Tracked) : Prop where
  enabled : y.system.server.config.persistenceEnabled = true
  stored : y.system.server.db.isSome
  rowed : Rowed y.system.server y.born

theorem tracked_step_backed (y : Tracked) (e : Event) (h : Backed y) (ht : InTime y e) :
    Backed (trackedStep y e) := by
  obtain ⟨hcfg, hdb⟩ := step_same_store y.system e
  refine ⟨?_,?_,tracked_step_rowed y e h.rowed ht⟩
  · rw [system_tracked_step, hcfg]
    exact h.enabled
  · rw [system_tracked_step, hdb]
    exact h.stored

theorem tracked_start_backed (config : RexSystemConfig) (cluster : ClusterPort) (db : SledDb)
    (clients : Clients) (he : config.persistenceEnabled = true) :
    Backed (trackedStart config cluster (some db) clients) := by
  have hn := narrows_restore (Server.build config cluster (some db) clients)
  refine ⟨?_,?_,tracked_start_rowed config cluster (some db) clients⟩
  · exact (congrArg RexSystemConfig.persistenceEnabled hn.config).trans he
  · exact hn.stored.trans (by simp [Server.build, he])

theorem ghost_restart (cs : List ClientRef) (cluster : ClusterPort) (clients : Clients)
    (y : System) (he : y.server.config.persistenceEnabled = true) (k : ClientId) :
    (restart cs cluster clients y).server.ghost k =
      ((exitWith cs y).server.row k).map (fun p => (p.titles,p.ghostUntil)) := by
  have hg := Server.ghost_restore_build y.server.config cluster (exitWith cs y).server.db clients k
  refine hg.trans ?_
  simp only [Server.row, Server.build, if_pos he]

theorem recovered_iff_unchanged (cs : List ClientRef) (cluster : ClusterPort) (clients : Clients)
    (y : Tracked) (h : Backed y) :
    Recovered y.system.server (restart cs cluster clients y.system).server ↔ Unchanged cs y := by
  refine forall_congr' (fun k => forall_congr' (fun hk => ?_))
  have hrow := h.rowed k hk h.stored
  rw [ghost_restart _ _ _ _ h.enabled, row_exit y.system k cs hk, hrow]
  constructor
  · rintro ⟨titles, ghostUntil, hg, ht⟩
    split_ifs at hg with hsp
    · cases hg
      exact ⟨hsp,ht⟩
    · cases hg
  · rintro ⟨hsp, ht⟩
    exact ⟨_,_,by rw [if_pos hsp]; rfl,ht⟩

/-- A restart brings every session back with its titles exactly when the exit
ran no teardown for one of them and each had just the titles of its login. -/
theorem restart_recovers_iff (config : RexSystemConfig) (cluster cluster' : ClusterPort)
    (db : SledDb) (clients clients' : Clients) (es : List Event) (cs : List ClientRef)
    (he : config.persistenceEnabled = true)
    (ht : Along trackedStep InTime (trackedStart config cluster (some db) clients) es) :
    let y := es.foldl trackedStep (trackedStart config cluster (some db) clients)
    Recovered y.system.server (restart cs cluster' clients' y.system).server ↔
      Unchanged cs y := by
  have hrun := always_of_along trackedStep InTime Backed tracked_step_backed _ es
    (tracked_start_backed config cluster db clients he) ht
  exact recovered_iff_unchanged cs cluster' clients' _
    ((always_iff trackedStep Backed _ es).mp hrun es List.prefix_rfl)

def news : Title := [110,101,119,115]

def emptyStore : Tracked := trackedStart storedConfig .noop (some SledDb.empty) unusedClients

def newsLogin : List Event := [.accept 0 1 "tcp" 0,.frame 0 quietEnv (loginFrame 7 news)]

/-- A crash right after a login with title `news` loses nothing. -/
theorem login_recovered_after_crash :
    let y := newsLogin.foldl trackedStep emptyStore
    y.system.server.live 7 = some 0 ∧
      Recovered y.system.server (restart [] .noop unusedClients y.system).server := by
  set y := newsLogin.foldl trackedStep emptyStore
  have hlive : y.system.server.registry.id2client = AList.singleton 7 0 :=
    AList.ext (by decide +kernel)
  have hlists : y.system.server.registry.title2clients = AList.singleton news [0] :=
    AList.ext (by decide +kernel)
  have hborn : (y.born 7).titles = [news] := by decide +kernel
  refine ⟨by decide +kernel,(restart_recovers_iff storedConfig .noop .noop SledDb.empty
    unusedClients unusedClients newsLogin [] rfl ⟨trivial,trivial,trivial⟩).mpr
      (fun k hk => ⟨?_,?_⟩)⟩
  · exact fun c hc => by cases hc
  · change y.system.server.registry.id2client.lookup k ≠ none at hk
    change ∀ title, title ∈ (y.born k).titles ↔ Subscribed y.system.server k title
    have hk7 : k = 7 := by
      by_contra hne
      rw [hlive] at hk
      exact hk (List.dlookup_cons_ne _ _ hne)
    intro title
    have hk0 : y.system.server.live 7 = some 0 := by decide +kernel
    rw [hk7, hborn, Subscribed, List.mem_singleton]
    simp only [hk0, Option.some.injEq, exists_eq_left', ClientRegistryImpl.subscribers,
      RelationIndex.listed, hlists]
    by_cases ht : title = news
    · rw [ht]
      decide
    · rw [AList.lookup_eq_none.mpr (by simpa [AList.mem_keys] using ht)]
      simp [ht]

/-- `RegTitle` leaves the row as it was, so a crash afterwards loses the
title; the teardown of a shutdown deletes the row altogether. -/
theorem registered_title_lost :
    let regTitle : RexData :=
      ⟨ByteWords.writeWord 128 20 7#128 (RexData.new .regTitle news []).content⟩
    let y := [Event.accept 0 1 "tcp" 0,.frame 0 quietEnv (loginFrame 7 []),
      .frame 0 quietEnv regTitle].foldl trackedStep emptyStore
    let crashed := restart [] .noop unusedClients y.system
    let shutDown := restart [0] .noop unusedClients y.system
    y.system.server.live 7 = some 0 ∧ 0 ∈ y.system.server.registry.subscribers news ∧
      crashed.server.ghost 7 = some ([],86400) ∧ shutDown.server.ghost 7 = none := by
  decide +kernel

end RexMq.SessionRows
