import Mathlib.Tactic.Common
import RexMq.ServerRun

/-!
# What the inactivity sweep removes

The sweep reads one timestamp of each registered object. A frame refreshes
the object of its connection, and a successful send refreshes the object it
goes through. A client is idle by what it said: the time of its last frame,
whatever connection carried it. A run therefore keeps, beside the server,
when each client was last heard, when each object's own connection last
delivered a frame and when it was last sent to. Handlers only make up such
events, so runs of these events cover the frames of the server.
-/

set_option autoImplicit false

namespace RexMq.IdleReaping
open RexMq.ByteWords RexMq.FiniteRun RexMq.FrameData RexMq.ClientRegistry RexMq.PersistentStore
open RexMq.ServerState RexMq.Handlers RexMq.HandlerEffects RexMq.ServerRun

def lastRecv (s : Server) (d : ClientRef) : UInt64 := (s.clients d).lastRecv

def touch (now : UInt64) (c : ClientRef) (s : Server) : Server :=
  { s with clients := modify s.clients c (.updateLastRecv now) }

def timed (now : UInt64) (env : Env) : Env := { env with now := now }

/-- `speaks` is the id a connection last logged in with. -/
structure Watched where
  server : Server
  clock : UInt64
  opened : List ClientRef
  speaks : ClientRef → Option ClientId
  heard : ClientId → UInt64
  framed : ClientRef → UInt64
  sentTo : ClientRef → Option UInt64

/-- A frame is what its connection delivered; what its handler does besides
is an event of its own. The clock never goes back. -/
inductive WatchEvent where
  | wait (now : UInt64)
  | accept (c : ClientRef) (uuid : ClientId) (transport : String)
  | login (env : Env) (c : ClientRef) (k : ClientId) (title : Bytes)
  | frame (c : ClientRef)
  | send (env : Env) (c : ClientRef) (buf : Bytes)
  | remove (k : ClientId)
  | sweep

namespace Watched

def noteHeard (c : ClientRef) (x : Watched) : ClientId → UInt64 :=
  match x.speaks c with
  | some k => Function.update x.heard k x.clock
  | none => x.heard

def hear (c : ClientRef) (x : Watched) : Watched :=
  { x with
    server := touch x.clock c x.server
    heard := x.noteHeard c
    framed := Function.update x.framed c x.clock }

def welcome (c : ClientRef) (uuid : ClientId) (transport : String) (x : Watched) : Watched :=
  { x with
    server := acceptClient c uuid transport x.clock x.server
    opened := c::x.opened
    framed := Function.update x.framed c x.clock
    sentTo := Function.update x.sentTo c none }

def post (env : Env) (c : ClientRef) (buf : Bytes) (x : Watched) : Watched :=
  let sent := x.server.sendBuf (timed x.clock env) c buf
  { x with
    server := sent.2
    sentTo := if sent.1 then Function.update x.sentTo c (some x.clock) else x.sentTo }

def enter (env : Env) (c : ClientRef) (k : ClientId) (title : Bytes) (x : Watched) : Watched :=
  { x with
    server := login (timed x.clock env) c k title x.server
    speaks := Function.update x.speaks c (some k) }

end Watched

def watchStep (x : Watched) : WatchEvent → Watched
  | .wait now => if x.clock ≤ now then { x with clock := now } else x
  | .accept c uuid transport => if c ∈ x.opened then x else x.welcome c uuid transport
  | .login env c k title => if c ∈ x.opened then (x.enter env c k title).hear c else x
  | .frame c => if c ∈ x.opened then x.hear c else x
  | .send env c buf => x.post env c buf
  | .remove k => { x with server := (x.server.removeClient k).2 }
  | .sweep => { x with server := x.server.cleanupInactiveClients x.clock }

def watchStart (config : RexSystemConfig) (cluster : ClusterPort) (db : Option SledDb) :
    Watched :=
  { server := (start config cluster db unusedClients).server
    clock := 0
    opened := []
    speaks := fun _ => none
    heard := fun _ => 0
    framed := fun _ => 0
    sentTo := fun _ => none }

section Timestamps
variable (x : Watched)

def Recent (t : UInt64) : Prop := ¬ x.server.config.clientTimeout < saturatingSub x.clock t

instance (t : UInt64) : Decidable (Recent x t) := by
  unfold Recent
  infer_instance

/-- What the sweep should go by: the client spoke or connected lately. -/
def Active (k : ClientId) (c : ClientRef) : Prop :=
  Recent x (x.heard k) ∨ Recent x (x.server.clients c).connectedAt

instance (k : ClientId) (c : ClientRef) : Decidable (Active x k c) := by
  unfold Active
  infer_instance

/-- The object's own connection delivered a frame lately, or something was
sent through the object lately. -/
def Stirred (c : ClientRef) : Prop :=
  Recent x (x.framed c) ∨ ∃ t, x.sentTo c = some t ∧ Recent x t

theorem recent_mono (t u : UInt64) (htu : t ≤ u) (ht : Recent x t) : Recent x u := by
  unfold Recent at ht ⊢
  rw [UInt64.lt_iff_toNat_lt, saturating_sub_toNat] at ht ⊢
  rw [UInt64.le_iff_toNat_le] at htu
  omega

/-- The timestamp of an object is its last frame or its last send, whichever
came later. -/
structure Stamps : Prop where
  framed : ∀ c, x.framed c ≤ lastRecv x.server c
  sent : ∀ c t, x.sentTo c = some t → t ≤ lastRecv x.server c
  last : ∀ c, lastRecv x.server c = x.framed c ∨ x.sentTo c = some (lastRecv x.server c)
  clock : ∀ c, lastRecv x.server c ≤ x.clock

theorem recent_iff_stirred (h : Stamps x) (c : ClientRef) :
    Recent x (lastRecv x.server c) ↔ Stirred x c := by
  constructor
  · intro hr
    rcases h.last c with hl | hl
    · rw [hl] at hr
      exact .inl hr
    · exact .inr ⟨_,hl,hr⟩
  · rintro (hr | ⟨t, ht, hr⟩)
    · exact recent_mono x _ _ (h.framed c) hr
    · exact recent_mono x _ _ (h.sent c t ht) hr

end Timestamps

section Steps
variable (x y : Watched)

theorem last_recv_touch (now : UInt64) (c d : ClientRef) (s : Server) :
    lastRecv (touch now c s) d = if d = c then now else lastRecv s d := by
  simp only [lastRecv, touch]
  by_cases hd : d = c
  · rw [if_pos hd, hd, modify_same]
    rfl
  · rw [if_neg hd, modify_other _ _ _ _ hd]

theorem last_recv_send (env : Env) (c d : ClientRef) (buf : Bytes) (s : Server) :
    lastRecv (s.sendBuf env c buf).2 d =
      if (s.sendBuf env c buf).1 ∧ d = c then env.now else lastRecv s d := by
  unfold Server.sendBuf
  cases env.sendOk s.sent.length with
  | false => simp [lastRecv]
  | true =>
    have ht := last_recv_touch env.now c d
      { s with sent := s.sent++[⟨(s.clients c).sender,buf,true⟩] }
    simpa [lastRecv, touch] using ht

theorem last_recv_login (env : Env) (c d : ClientRef) (k : ClientId) (title : Bytes)
    (s : Server) : lastRecv (login env c k title s) d = lastRecv s d := by
  unfold login
  cases s.live k with
  | some client => exact modify_field s.clients client d _ RexClientInner.lastRecv rfl
  | none => exact modify_field s.clients c d _ RexClientInner.lastRecv rfl

theorem last_recv_accept (c d : ClientRef) (uuid : ClientId) (transport : String) (now : UInt64)
    (s : Server) : lastRecv (acceptClient c uuid transport now s) d =
      if d = c then now else lastRecv s d := by
  simp only [lastRecv, acceptClient]
  by_cases hd : d = c
  · rw [if_pos hd, hd, Function.update_self]
    rfl
  · rw [if_neg hd, Function.update_of_ne hd]

theorem stamps_same (h : Stamps x) (hl : ∀ c, lastRecv y.server c = lastRecv x.server c)
    (hf : y.framed = x.framed) (hs : y.sentTo = x.sentTo) (hc : x.clock ≤ y.clock) :
    Stamps y := by
  constructor
  · intro c
    rw [hl, hf]
    exact h.framed c
  · intro c t ht
    rw [hl]
    exact h.sent c t (by rw [← hs, ht])
  · intro c
    rw [hl, hf, hs]
    exact h.last c
  · intro c
    rw [hl]
    exact UInt64.le_trans (h.clock c) hc

theorem stamps_refreshed (h : Stamps x) (c : ClientRef) (hclock : y.clock = x.clock)
    (hl : ∀ d, lastRecv y.server d = if d = c then x.clock else lastRecv x.server d)
    (hf : ∀ d, d ≠ c → y.framed d = x.framed d) (hs : ∀ d, d ≠ c → y.sentTo d = x.sentTo d)
    (hfc : y.framed c ≤ x.clock) (hsc : ∀ t, y.sentTo c = some t → t ≤ x.clock)
    (hlast : x.clock = y.framed c ∨ y.sentTo c = some x.clock) : Stamps y := by
  have hself : lastRecv y.server c = x.clock := by rw [hl, if_pos rfl]
  have hother : ∀ d, d ≠ c → lastRecv y.server d = lastRecv x.server d :=
    fun d hd => by rw [hl, if_neg hd]
  constructor
  · intro d
    by_cases hd : d = c
    · rw [hd, hself]
      exact hfc
    · rw [hother d hd, hf d hd]
      exact h.framed d
  · intro d t ht
    by_cases hd : d = c
    · rw [hd] at ht ⊢
      rw [hself]
      exact hsc t ht
    · rw [hother d hd]
      exact h.sent d t (by rw [← hs d hd, ht])
  · intro d
    by_cases hd : d = c
    · rw [hd, hself]
      exact hlast
    · rw [hother d hd, hf d hd, hs d hd]
      exact h.last d
  · intro d
    rw [hclock]
    by_cases hd : d = c
    · rw [hd, hself]
      exact UInt64.le_refl _
    · rw [hother d hd]
      exact h.clock d

theorem stamps_hear (h : Stamps x) (c : ClientRef) : Stamps (x.hear c) := by
  apply stamps_refreshed x (x.hear c) h c rfl (fun d => last_recv_touch x.clock c d x.server)
  · exact fun d hd => Function.update_of_ne hd ..
  · exact fun d _ => rfl
  · exact UInt64.le_of_eq (Function.update_self ..)
  · exact fun t ht => UInt64.le_trans (h.sent c t ht) (h.clock c)
  · exact .inl (Function.update_self c x.clock x.framed).symm

theorem stamps_welcome (h : Stamps x) (c : ClientRef) (uuid : ClientId) (transport : String) :
    Stamps (x.welcome c uuid transport) := by
  apply stamps_refreshed x (x.welcome c uuid transport) h c rfl
    (fun d => last_recv_accept c d uuid transport x.clock x.server)
  · exact fun d hd => Function.update_of_ne hd ..
  · exact fun d hd => Function.update_of_ne hd ..
  · exact UInt64.le_of_eq (Function.update_self ..)
  · intro t ht
    simp [Watched.welcome] at ht
  · exact .inl (Function.update_self c x.clock x.framed).symm

theorem stamps_post (h : Stamps x) (env : Env) (c : ClientRef) (buf : Bytes) :
    Stamps (x.post env c buf) := by
  have hl : ∀ d, lastRecv (x.post env c buf).server d =
      if (x.server.sendBuf (timed x.clock env) c buf).1 ∧ d = c then x.clock
      else lastRecv x.server d :=
    fun d => last_recv_send (timed x.clock env) c d buf x.server
  cases hok : (x.server.sendBuf (timed x.clock env) c buf).1 with
  | false =>
    apply stamps_same x (x.post env c buf) h _ rfl _ (UInt64.le_refl _)
    · intro d
      rw [hl, hok, if_neg (fun hd => Bool.false_ne_true hd.1)]
    · simp only [Watched.post, hok, Bool.false_eq_true, if_false]
  | true =>
    have hs : (x.post env c buf).sentTo = Function.update x.sentTo c (some x.clock) := by
      simp only [Watched.post, hok, if_true]
    apply stamps_refreshed x (x.post env c buf) h c rfl
    · intro d
      rw [hl, hok]
      simp only [true_and]
    · exact fun d _ => rfl
    · intro d hd
      rw [hs, Function.update_of_ne hd]
    · exact UInt64.le_trans (h.framed c) (h.clock c)
    · intro t ht
      rw [hs, Function.update_self] at ht
      cases ht
      exact UInt64.le_refl _
    · rw [hs, Function.update_self]
      exact .inr rfl

theorem stamps_step (e : WatchEvent) (h : Stamps x) : Stamps (watchStep x e) := by
  cases e with
  | wait now =>
    simp only [watchStep]
    split_ifs with hn
    · exact stamps_same x _ h (fun _ => rfl) rfl rfl hn
    · exact h
  | accept c uuid transport =>
    simp only [watchStep]
    split_ifs
    · exact h
    · exact stamps_welcome x h c uuid transport
  | login env c k title =>
    simp only [watchStep]
    split_ifs
    · apply stamps_hear
      exact stamps_same x _ h (fun d => last_recv_login _ c d k title x.server) rfl rfl
        (UInt64.le_refl _)
    · exact h
  | frame c =>
    simp only [watchStep]
    split_ifs
    · exact stamps_hear x h c
    · exact h
  | send env c buf => exact stamps_post x h env c buf
  | remove k =>
    apply stamps_same x (watchStep x (.remove k)) h _ rfl rfl (UInt64.le_refl _)
    intro c
    simp only [watchStep, lastRecv, Server.clients_remove_client]
  | sweep =>
    apply stamps_same x (watchStep x .sweep) h _ rfl rfl (UInt64.le_refl _)
    intro c
    simp only [watchStep, lastRecv, (x.server.inactive_sweep_evicted x.clock).clients]

theorem stamps_start (config : RexSystemConfig) (cluster : ClusterPort) (db : Option SledDb) :
    Stamps (watchStart config cluster db) := by
  have hl : ∀ c, lastRecv (watchStart config cluster db).server c = 0 :=
    fun c => (Server.build config cluster db unusedClients).restore_keeps
      (fun s => lastRecv s c = 0) (fun s _ _ hr hs => by rw [lastRecv, hr.clients]; exact hs) rfl
  constructor
  · exact fun c => UInt64.le_of_eq (hl c).symm
  · exact fun c t ht => absurd ht (by simp [watchStart])
  · exact fun c => .inl (hl c)
  · exact fun c => UInt64.le_of_eq (hl c)

end Steps

section Sweeps

/-- The sweep leaves registered exactly the clients that were active. -/
def Exact (x : Watched) : WatchEvent → Prop
  | .sweep => ∀ k c, (watchStep x .sweep).server.live k = some c ↔
      x.server.live k = some c ∧ Active x k c
  | _ => True

/-- Of every registered client: it was active exactly if its object was
stirred. -/
def Heeded (x : Watched) : WatchEvent → Prop
  | .sweep => ∀ k c, x.server.live k = some c → (Active x k c ↔ Stirred x c)
  | _ => True

theorem live_sweep (x : Watched) (k : ClientId) (c : ClientRef) :
    (watchStep x .sweep).server.live k = some c ↔
      x.server.live k = some c ∧ Recent x (lastRecv x.server c) := by
  have hev := x.server.inactive_sweep_evicted x.clock
  simp only [watchStep]
  rw [hev.live]
  split_ifs with hin
  · obtain ⟨d, hd, hlate⟩ := (x.server.mem_inactive_iff x.clock k).mp hin
    constructor
    · intro h
      cases h
    · rintro ⟨hc, hr⟩
      rw [hd] at hc
      cases hc
      exact absurd hlate hr
  · constructor
    · intro hc
      exact ⟨hc,fun hlate => hin ((x.server.mem_inactive_iff x.clock k).mpr ⟨c,hc,hlate⟩)⟩
    · exact fun h => h.1

theorem exact_iff_heeded (x : Watched) (e : WatchEvent) (h : Stamps x) :
    Exact x e ↔ Heeded x e := by
  cases e with
  | sweep =>
    constructor
    · intro hx k c hc
      rw [← recent_iff_stirred x h c]
      constructor
      · exact fun ha => ((live_sweep x k c).mp ((hx k c).mpr ⟨hc,ha⟩)).2
      · exact fun hr => ((hx k c).mp ((live_sweep x k c).mpr ⟨hc,hr⟩)).2
    · intro hx k c
      rw [live_sweep, recent_iff_stirred x h c]
      exact and_congr_right (fun hc => (hx k c hc).symm)
  | wait | accept | login | frame | send | remove => exact Iff.rfl

/-- The sweeps of a run remove exactly the idle clients if and only if, at
each of them, no silent client was sent to and no speaking one went unseen
by its registered object. -/
theorem idle_reaping_exact_iff (config : RexSystemConfig) (cluster : ClusterPort)
    (db : Option SledDb) (es : List WatchEvent) :
    Along watchStep Exact (watchStart config cluster db) es ↔
      Along watchStep Heeded (watchStart config cluster db) es :=
  along_iff_along watchStep Exact Heeded Stamps exact_iff_heeded
    (fun x e h _ => stamps_step x e h) _ es (stamps_start config cluster db)

/-- Client 7 is silent for 100 seconds but is sent a message; or it talks
over a second connection while its first object stays registered. -/
def sentWhileSilent : List WatchEvent :=
  [.accept 0 1 "tcp",.login quietEnv 0 7 [],.wait 100,.send quietEnv 0 []]

def talkingElsewhere : List WatchEvent :=
  [.accept 0 1 "tcp",.login quietEnv 0 7 [],.accept 1 2 "tcp",.login quietEnv 1 7 [],
    .send quietEnv 0 [],.wait 100,.frame 1,.send quietEnv 1 []]

theorem silent_kept_talking_reaped :
    let x := sentWhileSilent.foldl watchStep (watchStart plainConfig .noop none)
    let y := talkingElsewhere.foldl watchStep (watchStart plainConfig .noop none)
    (x.server.live 7 = some 0 ∧ ¬ Active x 7 0 ∧
        (watchStep x .sweep).server.live 7 = some 0) ∧
      (y.server.live 7 = some 0 ∧ Active y 7 0 ∧ y.heard 7 = y.clock ∧
        (watchStep y .sweep).server.live 7 = none) := by
  decide +kernel

end Sweeps

/-! Frames of the server as runs of these events. -/

section Frames

def Refreshed (now : UInt64) (s t : Server) : Prop :=
  ∃ ds : List ClientRef, ∀ d, lastRecv t d = if d ∈ ds then now else lastRecv s d

theorem refreshed_same (now : UInt64) (s t : Server) (h : ∀ d, lastRecv t d = lastRecv s d) :
    Refreshed now s t :=
  ⟨[],fun d => by rw [h, if_neg List.not_mem_nil]⟩

theorem refreshed_trans (now : UInt64) (s t u : Server) (h : Refreshed now s t)
    (g : Refreshed now t u) : Refreshed now s u := by
  obtain ⟨ds, hds⟩ := h
  obtain ⟨es, hes⟩ := g
  refine ⟨es++ds,fun d => ?_⟩
  rw [hes, hds]
  by_cases he : d ∈ es <;> by_cases hd : d ∈ ds <;> simp [he, hd]

theorem refreshed_follows (env : Env) : Follows env (Refreshed env.now) := by
  constructor
  · exact fun s t h => refreshed_same env.now s t (fun d => by rw [lastRecv, h.clients, lastRecv])
  · exact refreshed_trans env.now
  · intro s c buf
    refine ⟨if (s.sendBuf env c buf).1 then [c] else [],fun d => ?_⟩
    rw [last_recv_send]
    cases (s.sendBuf env c buf).1 <;> simp

theorem last_recv_mutate (m : Mutation) (k : ClientId) (title : Bytes) (client d : ClientRef)
    (s : Server) (h : s.live k = some client) :
    lastRecv (mutate m k title s) d = lastRecv s d := by
  rw [mutate_some m k title s client h]
  apply modify_field s.clients client d _ RexClientInner.lastRecv
  cases m <;> rfl

theorem last_recv_remove_all (ks : List ClientId) (d : ClientRef) (s : Server) :
    lastRecv (removeAll ks s) d = lastRecv s d := by
  induction ks generalizing s with
  | nil => rfl
  | cons k ks ih =>
    refine (ih (s.removeClient k).2).trans ?_
    rw [lastRecv, Server.clients_remove_client, lastRecv]

theorem handle_refreshed (env : Env) (c : ClientRef) (f : RexData) (s t : Server)
    (h : handle env c f s = .ok t) : Refreshed env.now s t := by
  apply handle_follows (refreshed_follows env) c f s t _ _ h
  · intro u he hne
    apply refreshed_same
    intro d
    cases he with
    | quiet _ => rfl
    | takeOver k title client _ _ _ hl =>
      exact modify_field s.clients client d _ RexClientInner.lastRecv rfl
    | enroll k title _ _ _ hl => exact modify_field s.clients c d _ RexClientInner.lastRecv rfl
    | mutate m command k title client _ _ _ _ hl =>
      exact last_recv_mutate m k title client d s hl
    | remove t ks hc _ => exact absurd hc hne
  · exact fun s ks => refreshed_same env.now s _ (fun d => last_recv_remove_all ks d s)

theorem config_remove_all (ks : List ClientId) (s : Server) :
    (removeAll ks s).config = s.config := by
  induction ks generalizing s with
  | nil => rfl
  | cons j ks ih => exact (ih (s.removeClient j).2).trans (s.config_remove_client j)

def removals (ks : List ClientId) : List WatchEvent := ks.map .remove

theorem removals_run (ks : List ClientId) (x : Watched) :
    (removals ks).foldl watchStep x = { x with server := removeAll ks x.server } := by
  induction ks generalizing x with
  | nil => rfl
  | cons k ks ih => exact ih (watchStep x (.remove k))

def sends (ds : List ClientRef) : List WatchEvent := ds.map (fun d => .send quietEnv d [])

/-- `y` came from `x` without a tick, and has the sessions of `s`. -/
structure Keeps (x y : Watched) (s : Server) : Prop where
  clock : y.clock = x.clock
  opened : y.opened = x.opened
  config : y.server.config = s.config
  live : ∀ k, y.server.live k = s.live k

theorem sends_run (ds : List ClientRef) (x : Watched) :
    Keeps x ((sends ds).foldl watchStep x) x.server ∧
      ∀ d, lastRecv ((sends ds).foldl watchStep x).server d =
        if d ∈ ds then x.clock else lastRecv x.server d := by
  induction ds generalizing x with
  | nil => exact ⟨⟨rfl,rfl,rfl,fun _ => rfl⟩,fun d => (if_neg List.not_mem_nil).symm⟩
  | cons c ds ih =>
    obtain ⟨hk, hs⟩ := ih (x.post quietEnv c [])
    have hq := quiet_send_buf (timed x.clock quietEnv) c [] x.server
    refine ⟨⟨hk.clock,hk.opened,hk.config.trans hq.config,
      fun k => (hk.live k).trans (hq.live k)⟩,fun d => (hs d).trans ?_⟩
    have hl : lastRecv (x.post quietEnv c []).server d =
        if d = c then x.clock else lastRecv x.server d := by
      refine (last_recv_send (timed x.clock quietEnv) c d [] x.server).trans ?_
      simp [Server.sendBuf, timed, quietEnv]
    rw [hl]
    by_cases hd : d = c <;> by_cases hm : d ∈ ds <;> simp [hd, hm, Watched.post]

theorem login_run (x : Watched) (env : Env) (c : ClientRef) (k : ClientId) (title : Bytes)
    (hc : c ∈ x.opened) (hnow : env.now = x.clock) :
    Keeps x (watchStep x (.login env c k title)) (login env c k title x.server) ∧
      ∀ d, d ≠ c →
        lastRecv (watchStep x (.login env c k title)).server d = lastRecv x.server d := by
  have htimed : timed x.clock env = env := by
    rw [← hnow]
    rfl
  simp only [watchStep, if_pos hc, Watched.enter, htimed]
  refine ⟨⟨rfl,rfl,rfl,fun _ => rfl⟩,fun d hd => ?_⟩
  refine (last_recv_touch x.clock c d _).trans ?_
  rw [if_neg hd]
  exact last_recv_login env c d k title x.server

theorem effect_run (x : Watched) (env : Env) (c : ClientRef) (f : RexData) (u : Server)
    (hc : c ∈ x.opened) (hnow : env.now = x.clock) (he : Effect env c f x.server u) :
    ∃ es : List WatchEvent, Keeps x (es.foldl watchStep x) u ∧
      ∀ d, d ≠ c → lastRecv (es.foldl watchStep x).server d = lastRecv x.server d := by
  cases he with
  | quiet _ => exact ⟨[],⟨rfl,rfl,rfl,fun _ => rfl⟩,fun _ _ => rfl⟩
  | takeOver k title client _ _ _ hl =>
    have h := login_run x env c k title hc hnow
    simp only [login, hl] at h
    exact ⟨[.login env c k title],h⟩
  | enroll k title _ _ _ hl =>
    have h := login_run x env c k title hc hnow
    simp only [login, hl] at h
    exact ⟨[.login env c k title],h⟩
  | mutate m command k title client _ _ _ _ hl =>
    rw [mutate_some m k title x.server client hl]
    exact ⟨[],⟨rfl,rfl,rfl,fun _ => rfl⟩,fun _ _ => rfl⟩
  | remove t ks _ hq =>
    refine ⟨removals ks,?_,fun d _ => ?_⟩
    · rw [removals_run]
      refine ⟨rfl,rfl,?_,fun k => ?_⟩
      · rw [config_remove_all, config_remove_all, hq.config]
      · rw [live_remove_all, live_remove_all, hq.live]
    · rw [removals_run]
      exact last_recv_remove_all ks d x.server

/-- Every frame of the server is a run of events to all that a sweep reads. -/
theorem receive_run (x : Watched) (env : Env) (c : ClientRef) (f : RexData) (hc : c ∈ x.opened)
    (hnow : env.now = x.clock) :
    ∃ es : List WatchEvent,
      Keeps x (es.foldl watchStep x) (receiveFrame env c f x.server) ∧
        ∀ d, lastRecv (es.foldl watchStep x).server d =
          lastRecv (receiveFrame env c f x.server) d := by
  unfold receiveFrame
  cases ht : handle env c f x.server with
  | error e => exact ⟨[],⟨rfl,rfl,rfl,fun _ => rfl⟩,fun _ => rfl⟩
  | ok t =>
    obtain ⟨u, he, hq⟩ := handle_effect c f x.server t ht
    obtain ⟨ds, hds⟩ := handle_refreshed env c f x.server t ht
    obtain ⟨es, hes, hstamp⟩ := effect_run x env c f u hc hnow he
    obtain ⟨hk, hsent⟩ := sends_run ds (es.foldl watchStep x)
    refine ⟨es++sends ds++[.frame c],?_⟩
    rw [List.foldl_append, List.foldl_append]
    simp only [List.foldl_cons, List.foldl_nil]
    generalize es.foldl watchStep x = y at hes hstamp hk hsent ⊢
    generalize (sends ds).foldl watchStep y = z at hk hsent ⊢
    have hopen : c ∈ z.opened := by rwa [hk.opened, hes.opened]
    simp only [watchStep, if_pos hopen]
    refine ⟨⟨hk.clock.trans hes.clock,hk.opened.trans hes.opened,?_,fun k => ?_⟩,fun d => ?_⟩
    · exact (hk.config.trans hes.config).trans hq.config.symm
    · exact ((hk.live k).trans (hes.live k)).trans (hq.live k).symm
    · refine (last_recv_touch z.clock c d z.server).trans
        (Eq.trans ?_ (last_recv_touch env.now c d t).symm)
      rw [hk.clock, hes.clock, hnow]
      by_cases hd : d = c
      · rw [if_pos hd, if_pos hd]
      · rw [if_neg hd, if_neg hd, hsent, hds, hes.clock, hstamp d hd, hnow]

/-- The heartbeats of a client that logged in again do not reach the object
the sweep reads. -/
example :
    let y := [Event.accept 0 1 "tcp" 0,.frame 0 quietEnv (loginFrame 7 []),
      .accept 1 2 "tcp" 0,.frame 1 quietEnv (loginFrame 7 []),
      .frame 1 (timed 100 quietEnv) (RexData.new .check [] [])].foldl step
        (start plainConfig .noop none unusedClients)
    y.server.live 7 = some 0 ∧ (step y (.inactiveSweep 100)).server.live 7 = none := by
  decide +kernel

end Frames

end RexMq.IdleReaping
