import Mathlib.Data.Set.Function
import Mathlib.Tactic.Common
import RexMq.ServerRun

/-!
# Clients with one connection each

Where every process has an id of its own and stamps its frames with it, the
server holds each client under its id, through its own connection and once
under every title, however frames, teardowns and sweeps are interleaved.
-/

set_option autoImplicit false

namespace RexMq.SeatedClients
open RexMq.ByteWords RexMq.RelationIndex RexMq.FrameData RexMq.ClientRegistry RexMq.ServerState
open RexMq.PersistentStore RexMq.Handlers RexMq.HandlerEffects RexMq.ServerRun

/-- The processes that take part, each with an id of its own. -/
structure Naming where
  idOf : ClientRef → ClientId
  parties : Set ClientRef
  distinct : Set.InjOn idOf parties

/-- Every party is logged in under its id, if at all, and through its own
connection; titles list parties that have logged in. -/
structure Seated (N : Naming) (s : Server) : Prop where
  sender : ∀ d, (s.clients d).sender = d
  live : ∀ k d, s.live k = some d → d ∈ N.parties ∧ k = N.idOf d ∧ (s.clients d).id = k
  listed : ∀ t, ∀ d ∈ s.registry.subscribers t, d ∈ N.parties ∧ (s.clients d).id = N.idOf d
  once : ∀ t, (s.registry.subscribers t).Nodup

/-- A frame of the process `c`: only a heartbeat has another source. -/
def Stamps (N : Naming) (c : ClientRef) (f : RexData) : Prop :=
  f.command = .ok .check ∨ f.source = .ok (N.idOf c)

theorem Stamps.source {N : Naming} {c : ClientRef} {f : RexData} {command : RexCommand}
    (h : Stamps N c f) (hc : f.command = .ok command) (hne : command ≠ .check) :
    f.source = .ok (N.idOf c) := by
  rcases h with h | h
  · rw [hc] at h
    exact absurd (Except.ok.inj h) hne
  · exact h

section Servers
variable {N : Naming} {s t : Server}

theorem Seated.quiet (h : Seated N s) (hq : Quiet s t) : Seated N t := by
  refine ⟨fun d => (hq.sender d).trans (h.sender d),fun k d hl => ?_,fun u d hd => ?_,fun u => ?_⟩
  · rw [hq.live] at hl
    obtain ⟨hd, hk, hid⟩ := h.live k d hl
    exact ⟨hd,hk,(hq.id d).trans hid⟩
  · rw [hq.registry] at hd
    obtain ⟨hp, hid⟩ := h.listed u d hd
    exact ⟨hp,(hq.id d).trans hid⟩
  · rw [hq.registry]
    exact h.once u

/-- Fewer clients, with their objects as they were. -/
structure Fewer (s t : Server) : Prop where
  clients : t.clients = s.clients
  live : ∀ k d, t.live k = some d → s.live k = some d
  listed : ∀ u, (t.registry.subscribers u).Sublist (s.registry.subscribers u)

theorem fewer_refl (s : Server) : Fewer s s :=
  ⟨rfl,fun _ _ hd => hd,fun _ => List.Sublist.refl _⟩

theorem Fewer.trans {u : Server} (h : Fewer s t) (g : Fewer t u) : Fewer s u :=
  ⟨g.clients.trans h.clients,fun k d hd => h.live k d (g.live k d hd),
    fun v => (g.listed v).trans (h.listed v)⟩

theorem Seated.fewer (h : Seated N s) (hf : Fewer s t) : Seated N t := by
  refine ⟨fun d => ?_,fun k d hd => ?_,fun u d hd => ?_,fun u => (h.once u).sublist (hf.listed u)⟩
  · rw [hf.clients]
    exact h.sender d
  · rw [hf.clients]
    exact h.live k d (hf.live k d hd)
  · rw [hf.clients]
    exact h.listed u d ((hf.listed u).subset hd)

theorem subscribers_remove_sublist (h : Clients) (r : ClientRegistryImpl) (k : ClientId)
    (u : Title) : ((r.removeClient h k).2.subscribers u).Sublist (r.subscribers u) := by
  unfold ClientRegistryImpl.removeClient
  cases r.id2client.lookup k with
  | none => exact List.Sublist.refl _
  | some c =>
    dsimp only [ClientRegistryImpl.subscribers]
    rw [listed_delists]
    split_ifs
    · exact List.filter_sublist
    · exact List.Sublist.refl _

theorem fewer_remove (s : Server) (k : ClientId) : Fewer s (s.removeClient k).2 := by
  refine ⟨by simp,fun j d hd => ?_,fun u => ?_⟩
  · rw [Server.live_remove_client] at hd
    split_ifs at hd
    exact hd
  · rw [Server.registry_remove_client]
    exact subscribers_remove_sublist _ _ _ _

theorem fewer_remove_all (ks : List ClientId) (s : Server) : Fewer s (removeAll ks s) := by
  induction ks generalizing s with
  | nil => exact fewer_refl s
  | cons k ks ih => exact (fewer_remove s k).trans (ih (s.removeClient k).2)

theorem fewer_evict (s : Server) (k : ClientId) : Fewer s (s.evict k) := by
  refine ⟨by simp,fun j d hd => ?_,fun u => ?_⟩
  · rw [Server.live_evict] at hd
    split_ifs at hd
    exact hd
  · rw [Server.registry_evict]
    exact subscribers_remove_sublist _ _ _ _

theorem fewer_sweep (s : Server) (now : UInt64) : Fewer s (s.cleanupInactiveClients now) :=
  inactive_sweep_keeps (Fewer s) (fun t k ht => ht.trans (fewer_evict t k)) now s (fewer_refl s)

theorem fewer_ghosts (s : Server) (now : UInt64) : Fewer s (s.cleanupExpiredGhosts now) := by
  have hc := Server.ghost_sweep_collected now s
  refine ⟨hc.clients,fun k d hd => ?_,fun u => ?_⟩
  · rwa [hc.live] at hd
  · rw [hc.subscribers]

theorem fewer_restore (s : Server) : Fewer s s.restore := by
  refine s.restore_keeps (Fewer s) (fun t u p hr ht => ht.trans ⟨hr.clients,fun k d hd => ?_,
    fun v => ?_⟩) (fewer_refl s)
  · rwa [hr.live] at hd
  · rw [ClientRegistryImpl.subscribers, hr.title2clients]
    exact List.Sublist.refl _

theorem Seated.accept (h : Seated N s) (c : ClientRef) (uuid : ClientId) (transport : String)
    (now : UInt64) (hl : ∀ k, s.live k ≠ some c) (hs : ∀ u, c ∉ s.registry.subscribers u) :
    Seated N (acceptClient c uuid transport now s) := by
  have hother : ∀ d, d ≠ c → (acceptClient c uuid transport now s).clients d = s.clients d := by
    intro d hd
    simp [acceptClient, hd]
  refine ⟨fun d => ?_,fun k d hd => ?_,fun u d hd => ?_,h.once⟩
  · by_cases hd : d = c
    · subst hd
      simp [acceptClient, RexClientInner.setTransportLabel, RexClientInner.new]
    · rw [hother d hd]
      exact h.sender d
  · rw [hother d (by rintro rfl; exact hl k hd)]
    exact h.live k d hd
  · rw [hother d (by rintro rfl; exact hs u hd)]
    exact h.listed u d hd

theorem Seated.take_over (h : Seated N s) (c : ClientRef) (title : Bytes) :
    Seated N (takeOver c c title s) := by
  refine ⟨fun d => ?_,fun k d hl => ?_,fun u d hd => ?_,h.once⟩
  · rw [sender_take_over, h.sender c, h.sender d]
    split_ifs with hd
    · exact hd.symm
    · rfl
  · rw [id_take_over]
    exact h.live k d hl
  · rw [id_take_over]
    exact h.listed u d hd

theorem Seated.enroll (h : Seated N s) (env : Env) (c : ClientRef) (hc : c ∈ N.parties)
    (title : Bytes) : Seated N (Handlers.enroll env c (N.idOf c) title s) := by
  have hid : ∀ d, (s.clients d).id = N.idOf d →
      ((Handlers.enroll env c (N.idOf c) title s).clients d).id = N.idOf d := by
    intro d hd
    rw [id_enroll]
    split_ifs with hdc
    · rw [hdc]
    · exact hd
  refine ⟨fun d => (sender_enroll env c _ title s d).trans (h.sender d),fun k d hl => ?_,
    fun u d hd => ?_,fun u => ?_⟩
  · rw [live_enroll] at hl
    split_ifs at hl with hk
    · cases hl
      exact ⟨hc,hk,by rw [id_enroll, if_pos rfl, hk]⟩
    · obtain ⟨hp, hd, hdid⟩ := h.live k d hl
      refine ⟨hp,hd,?_⟩
      rw [hid d (hdid.trans hd), hd]
  · rcases mem_subscribers_enroll env c _ title s d u hd with hd | ⟨rfl, -⟩
    · obtain ⟨hp, hd⟩ := h.listed u d hd
      exact ⟨hp,hid d hd⟩
    · refine ⟨hc,?_⟩
      rw [id_enroll, if_pos rfl]
  · refine nodup_listed_enlists _ _ c rfl _ _ (fun u => ?_) u
    exact h.once u

theorem Seated.mutate (h : Seated N s) (m : Mutation) (k : ClientId) (title : Bytes)
    (client : ClientRef) (hl : s.live k = some client) :
    Seated N (Handlers.mutate m k title s) := by
  have hsender : ∀ o, (onClient title m o).sender = o.sender := by
    intro o
    cases m <;> rfl
  have hid : ∀ d, (modify s.clients client (onClient title m) d).id = (s.clients d).id :=
    fun d => modify_field s.clients client d _ RexClientInner.id (id_on_client m title _)
  obtain ⟨hp, hk, hcid⟩ := h.live k client hl
  rw [mutate_some m k title s client hl]
  refine ⟨fun d => ?_,fun j d hd => ?_,fun u d hd => ?_,fun u => ?_⟩
  · exact (modify_field s.clients client d _ _ (hsender _)).trans (h.sender d)
  · obtain ⟨hp, hj, hdid⟩ := h.live j d hd
    exact ⟨hp,hj,(hid d).trans hdid⟩
  · dsimp only
    rw [hid]
    rcases mem_listed_on_index m k title _ client d _ u hd with hd | rfl
    · exact h.listed u d hd
    · exact ⟨hp,hcid.trans hk⟩
  · cases m with
    | register => exact nodup_listed_enlist _ k client hcid _ title h.once u
    | unregister =>
      dsimp only [onIndex, ClientRegistryImpl.subscribers]
      rw [listed_delist]
      split_ifs
      · exact (h.once u).filter _
      · exact h.once u

theorem Seated.effect (h : Seated N s) (env : Env) (c : ClientRef) (hparty : c ∈ N.parties)
    (f : RexData) (hs : Stamps N c f) (he : Effect env c f s t) : Seated N t := by
  have hsource : ∀ k, f.command = .ok .login → f.source = .ok k → k = N.idOf c := by
    intro k hl hk
    rw [hs.source hl nofun] at hk
    exact (Except.ok.inj hk).symm
  cases he with
  | quiet _ => exact h
  | takeOver k title client hl hk _ hlive =>
    obtain rfl := hsource k hl hk
    obtain ⟨hp, hclient, -⟩ := h.live _ client hlive
    obtain rfl := N.distinct hparty hp hclient
    exact h.take_over c title
  | enroll k title hl hk _ hlive =>
    obtain rfl := hsource k hl hk
    exact h.enroll env c hparty title
  | mutate m command k title client _ _ _ _ hl => exact h.mutate m k title client hl
  | remove u ks _ hq => exact (h.quiet hq).fewer (fewer_remove_all ks u)

theorem Seated.receive (h : Seated N s) (env : Env) (c : ClientRef) (hparty : c ∈ N.parties)
    (f : RexData) (hs : Stamps N c f) : Seated N (receiveFrame env c f s) := by
  rcases receive_effect env c f s with hsame | ⟨u, he, hq⟩
  · rwa [hsame]
  · exact (h.effect env c hparty f hs he).quiet hq

end Servers

/-- Everybody the server knows has come in through a connection of a party. -/
structure Hosts (N : Naming) (y : System) : Prop where
  seated : Seated N y.server
  live : ∀ k d, y.server.live k = some d → d ∈ y.opened
  listed : ∀ t, ∀ d ∈ y.server.registry.subscribers t, d ∈ y.opened
  parties : ∀ c ∈ y.opened, c ∈ N.parties

/-- Connections are those of parties, and so are the frames they carry. -/
def OfParties (N : Naming) : Event → Prop
  | .accept c _ _ _ => c ∈ N.parties
  | .frame c _ f => Stamps N c f
  | _ => True

section Systems
variable {N : Naming} {y : System}

theorem Hosts.fewer (h : Hosts N y) (t : Server) (closed : List ClientRef)
    (hf : Fewer y.server t) : Hosts N { y with server := t, closed := closed } :=
  ⟨h.seated.fewer hf,fun k d hd => h.live k d (hf.live k d hd),
    fun u d hd => h.listed u d ((hf.listed u).subset hd),h.parties⟩

theorem receive_listed (env : Env) (c : ClientRef) (f : RexData) (s : Server) (u : Title)
    (d : ClientRef) (hd : d ∈ (receiveFrame env c f s).registry.subscribers u) :
    d ∈ s.registry.subscribers u ∨ d = c ∨ ∃ k, s.live k = some d := by
  rcases receive_effect env c f s with hsame | ⟨v, he, hq⟩
  · rw [hsame] at hd
    exact .inl hd
  · rw [hq.registry] at hd
    cases he with
    | quiet _ => exact .inl hd
    | takeOver k title client _ _ _ _ => exact .inl hd
    | enroll k title _ _ _ _ =>
      exact (mem_subscribers_enroll env c k title s d u hd).imp_right fun h => .inl h.1
    | mutate m command k title client _ _ _ _ hl =>
      rw [mutate_some m k title s client hl] at hd
      rcases mem_listed_on_index m k title _ client d _ u hd with hd | rfl
      · exact .inl hd
      · exact .inr (.inr ⟨k,hl⟩)
    | remove t ks _ hst =>
      rw [← hst.registry]
      exact .inl (((fewer_remove_all ks t).listed u).subset hd)

theorem hosts_step (e : Event) (h : Hosts N y) (he : OfParties N e) :
    Hosts N (ServerRun.step y e) := by
  cases e with
  | accept c uuid transport now =>
    simp only [ServerRun.step]
    split_ifs with hc
    · exact h
    · have hl : ∀ k, y.server.live k ≠ some c := fun k hk => hc (h.live k c hk)
      have hs : ∀ u, c ∉ y.server.registry.subscribers u := fun u hu => hc (h.listed u c hu)
      refine ⟨h.seated.accept c uuid transport now hl hs,fun k d hd => ?_,fun u d hd => ?_,?_⟩
      · exact List.mem_cons_of_mem c (h.live k d hd)
      · exact List.mem_cons_of_mem c (h.listed u d hd)
      · intro d hd
        rcases List.mem_cons.mp hd with rfl | hd
        · exact he
        · exact h.parties d hd
  | frame c env f =>
    simp only [ServerRun.step]
    split_ifs with hc
    · refine ⟨h.seated.receive env c (h.parties c hc) f he,fun k d hd => ?_,fun u d hd => ?_,
        h.parties⟩
      · rcases receive_live env c f y.server k d hd with hd | ⟨rfl, -⟩
        · exact h.live k d hd
        · exact hc
      · rcases receive_listed env c f y.server u d hd with hd | rfl | ⟨k, hk⟩
        · exact h.listed u d hd
        · exact hc
        · exact h.live k d hk
    · exact h
  | teardown c =>
    simp only [ServerRun.step]
    split_ifs
    · exact h.fewer _ _ (fewer_remove y.server _)
    · exact h
  | inactiveSweep now => exact h.fewer _ _ (fewer_sweep y.server now)
  | ackSweep env =>
    have hq := sweep_acks_quiet env y.server
    refine ⟨h.seated.quiet hq,fun k d hd => ?_,fun u d hd => ?_,h.parties⟩
    · exact h.live k d ((hq.live k).symm.trans hd)
    · exact h.listed u d (hq.registry ▸ hd)
  | ghostSweep now => exact h.fewer _ _ (fewer_ghosts y.server now)
  | restore => exact h.fewer _ _ (fewer_restore y.server)

theorem hosts_start (config : RexSystemConfig) (cluster : ClusterPort) (db : Option SledDb)
    (clients : Clients) (hs : ∀ d, (clients d).sender = d) :
    Hosts N (start config cluster db clients) := by
  have hbuilt : Hosts N ⟨Server.build config cluster db clients,[],[]⟩ := by
    refine ⟨⟨hs,?_,?_,?_⟩,?_,?_,?_⟩
    · exact fun k d hd => by cases hd
    · exact fun u d hd => by cases hd
    · exact fun u => List.nodup_nil
    · exact fun k d hd => by cases hd
    · exact fun u d hd => by cases hd
    · exact fun c hc => by cases hc
  exact hbuilt.fewer _ _ (fewer_restore _)

end Systems

end RexMq.SeatedClients
