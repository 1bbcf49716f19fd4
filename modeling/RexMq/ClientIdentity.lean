import Mathlib.Tactic.Common
import RexMq.ServerRun

/-!
# Which object stands under which id

The registry keys client objects by the id they had when they were added,
and a login can change that id afterwards. Entries stay keyed by the present
id, and an object is released when its connection ends, exactly in the runs
where fresh ids are taken by objects that are neither registered nor torn
down, and where every list an object stands in is under a title its
registered holder still has when the connection ends.
-/

set_option autoImplicit false

namespace RexMq.ClientIdentity
open RexMq.FiniteRun RexMq.FrameData RexMq.ClientRegistry RexMq.PersistentStore
open RexMq.ServerState RexMq.Handlers RexMq.HandlerEffects RexMq.FrameAccess RexMq.ServerRun

structure Identified (y : System) : Prop where
  keyed : ∀ k c, y.server.live k = some c → (y.server.clients c).id = k
  unique : ∀ j k c, y.server.live j = some c → y.server.live k = some c → j = k
  released : ∀ c ∈ y.closed, (∀ k, y.server.live k ≠ some c) ∧
    ∀ t, c ∉ y.server.registry.subscribers t

/-- What a step must meet, judged in the state before it. -/
def Orderly (y : System) : Event → Prop
  | .frame c _ f => c ∈ y.opened → ∀ k title, f.command = .ok .login → f.source = .ok k →
      f.title = .ok title → y.server.live k = none →
      (∀ j, y.server.live j ≠ some c) ∧ c ∉ y.closed
  | .teardown c => c ∈ y.opened → c ∉ y.closed → ∀ t, c ∈ y.server.registry.subscribers t →
      ∃ d, y.server.live (y.server.clients c).id = some d ∧
        t ∈ (y.server.clients d).subscribedTitles
  | _ => True

def Held (s : Server) (c : ClientRef) : Prop :=
  (∃ k, s.live k = some c) ∨ ∃ t, c ∈ s.registry.subscribers t

structure Settled (opened closed : List ClientRef) (s : Server) : Prop where
  keyed : ∀ k c, s.live k = some c → (s.clients c).id = k
  held : ∀ c, Held s c → c ∈ opened ∧ c ∉ closed

theorem settled_identified (y : System) (h : Settled y.opened y.closed y.server) :
    Identified y where
  keyed := h.keyed
  unique := fun j k c hj hk => (h.keyed j c hj).symm.trans (h.keyed k c hk)
  released := fun c hc => ⟨fun k hk => (h.held c (.inl ⟨k,hk⟩)).2 hc,
    fun t ht => (h.held c (.inr ⟨t,ht⟩)).2 hc⟩

section Changes
variable (opened closed : List ClientRef) (s t : Server)

theorem settled_of_le (h : Settled opened closed s)
    (hid : ∀ c, (t.clients c).id = (s.clients c).id)
    (hlive : ∀ k c, t.live k = some c → s.live k = some c)
    (hsub : ∀ u c, c ∈ t.registry.subscribers u → c ∈ s.registry.subscribers u) :
    Settled opened closed t where
  keyed := fun k c hc => (hid c).trans (h.keyed k c (hlive k c hc))
  held := by
    rintro c (⟨k, hk⟩ | ⟨u, hu⟩)
    · exact h.held c (.inl ⟨k,hlive k c hk⟩)
    · exact h.held c (.inr ⟨u,hsub u c hu⟩)

theorem settled_quiet (hq : Quiet s t) (h : Settled opened closed s) :
    Settled opened closed t :=
  settled_of_le opened closed s t h hq.id (fun k c hc => (hq.live k).symm.trans hc)
    (fun u c hc => by rwa [hq.registry] at hc)

theorem settled_remove (k : ClientId) (h : Settled opened closed s) :
    Settled opened closed (s.removeClient k).2 := by
  refine settled_of_le opened closed s _ h (fun c => by simp) (fun j c hc => ?_)
    (fun u c hc => ?_)
  · rw [Server.live_remove_client] at hc
    split_ifs at hc
    exact hc
  · rw [Server.registry_remove_client] at hc
    exact ((ClientRegistryImpl.mem_subscribers_remove_client ..).mp hc).1

theorem settled_evict (k : ClientId) (h : Settled opened closed s) :
    Settled opened closed (s.evict k) := by
  refine settled_of_le opened closed s _ h (fun c => by simp) (fun j c hc => ?_)
    (fun u c hc => ?_)
  · rw [Server.live_evict] at hc
    split_ifs at hc
    exact hc
  · rw [Server.registry_evict] at hc
    exact ((ClientRegistryImpl.mem_subscribers_remove_client ..).mp hc).1

theorem settled_take_over (c client : ClientRef) (title : Title)
    (h : Settled opened closed s) : Settled opened closed (takeOver client c title s) :=
  settled_of_le opened closed s _ h (id_take_over c title s client) (fun _ _ hc => hc)
    (fun _ _ hc => hc)

theorem settled_enroll (env : Env) (c : ClientRef) (k : ClientId) (title : Title)
    (h : Settled opened closed s) (ho : c ∈ opened) (hfree : ∀ j, s.live j ≠ some c)
    (hc : c ∉ closed) : Settled opened closed (enroll env c k title s) where
  keyed := by
    intro j d hd
    rw [live_enroll] at hd
    rw [id_enroll]
    split_ifs at hd with hj
    · cases hd
      rw [if_pos rfl, hj]
    · rw [if_neg]
      · exact h.keyed j d hd
      · rintro rfl
        exact hfree j hd
  held := by
    rintro d (⟨j, hj⟩ | ⟨u, hu⟩)
    · rw [live_enroll] at hj
      split_ifs at hj
      · cases hj
        exact ⟨ho,hc⟩
      · exact h.held d (.inl ⟨j,hj⟩)
    · rcases mem_subscribers_enroll env c k title s d u hu with hu | ⟨rfl, -⟩
      · exact h.held d (.inr ⟨u,hu⟩)
      · exact ⟨ho,hc⟩

theorem settled_mutate (m : Mutation) (k : ClientId) (title : Title) (client : ClientRef)
    (h : Settled opened closed s) (hl : s.live k = some client) :
    Settled opened closed (mutate m k title s) := by
  rw [mutate_some m k title s client hl]
  refine ⟨fun j d hd => ?_,?_⟩
  · have hid := modify_field s.clients client d (onClient title m) RexClientInner.id
      (id_on_client m title _)
    exact hid.trans (h.keyed j d hd)
  · rintro d (⟨j, hj⟩ | ⟨u, hu⟩)
    · exact h.held d (.inl ⟨j,hj⟩)
    · rcases mem_listed_on_index m k title _ client d _ u hu with hu | rfl
      · exact h.held d (.inr ⟨u,hu⟩)
      · exact h.held d (.inl ⟨k,hl⟩)

theorem settled_accept (c : ClientRef) (uuid : ClientId) (transport : String) (now : UInt64)
    (h : Settled opened closed s) (hc : c ∉ opened) :
    Settled (c::opened) closed (acceptClient c uuid transport now s) where
  keyed := by
    intro k d hd
    have hne : d ≠ c := by
      rintro rfl
      exact hc (h.held d (.inl ⟨k,hd⟩)).1
    simp only [acceptClient, Function.update_of_ne hne]
    exact h.keyed k d hd
  held := by
    intro d hd
    have := h.held d hd
    exact ⟨List.mem_cons_of_mem _ this.1,this.2⟩

theorem settled_ghost_sweep (now : UInt64) (h : Settled opened closed s) :
    Settled opened closed (s.cleanupExpiredGhosts now) := by
  have hcol := s.ghost_sweep_collected now
  refine settled_of_le opened closed s _ h (fun c => by rw [hcol.clients])
    (fun k c hc => (hcol.live k).symm.trans hc) (fun u c hc => ?_)
  rwa [hcol.subscribers] at hc

theorem settled_restore (h : Settled opened closed s) : Settled opened closed s.restore := by
  refine s.restore_keeps (Settled opened closed) (fun s t p hr hs => ?_) h
  refine settled_of_le opened closed s t hs (fun c => by rw [hr.clients])
    (fun k c hc => (hr.live k).symm.trans hc) (fun u c hc => ?_)
  rwa [ClientRegistryImpl.subscribers, hr.title2clients] at hc

theorem settled_teardown (c : ClientRef) (h : Settled opened closed s)
    (hlists : ∀ u, c ∈ s.registry.subscribers u →
      ∃ d, s.live (s.clients c).id = some d ∧ u ∈ (s.clients d).subscribedTitles) :
    Settled opened (c::closed) (teardownClient c s) := by
  have hr := settled_remove opened closed s (s.clients c).id h
  refine ⟨hr.keyed,fun d hd => ⟨(hr.held d hd).1,?_⟩⟩
  rw [List.mem_cons, not_or]
  refine ⟨?_,(hr.held d hd).2⟩
  rintro rfl
  rcases hd with ⟨k, hk⟩ | ⟨u, hu⟩
  · rw [teardownClient, Server.live_remove_client] at hk
    split_ifs at hk with hkd
    exact hkd (h.keyed k d hk).symm
  · rw [teardownClient, Server.registry_remove_client,
      ClientRegistryImpl.mem_subscribers_remove_client] at hu
    obtain ⟨e, he, ht⟩ := hlists u hu.1
    exact hu.2 ⟨e,he,ht,rfl⟩

end Changes

theorem step_settled (y : System) (e : Event) (h : Settled y.opened y.closed y.server)
    (ho : Orderly y e) :
    Settled (step y e).opened (step y e).closed (step y e).server := by
  cases e with
  | accept c uuid transport now =>
    simp only [step]
    split_ifs with hc
    · exact h
    · exact settled_accept _ _ _ c uuid transport now h hc
  | frame c env f =>
    simp only [step]
    split_ifs with hc
    · refine receive_frame_keeps (Settled y.opened y.closed) env c f y.server h
        (settled_quiet _ _) (fun k title client _ => settled_take_over _ _ _ c client title h)
        (fun k title hcmd hk ht hl => ?_)
        (fun m _ k title client _ _ _ hl => settled_mutate _ _ _ m k title client h hl)
        (fun s k => settled_remove _ _ s k)
      obtain ⟨hfree, hopen⟩ := ho hc k title hcmd hk ht hl
      exact settled_enroll _ _ _ env c k title h hc hfree hopen
    · exact h
  | teardown c =>
    simp only [step]
    split_ifs with hc
    · exact settled_teardown _ _ _ c h (ho hc.1 hc.2)
    · exact h
  | inactiveSweep now =>
    exact inactive_sweep_keeps _ (fun s k => settled_evict _ _ s k) now y.server h
  | ackSweep env => exact settled_quiet _ _ _ _ (sweep_acks_quiet env y.server) h
  | ghostSweep now => exact settled_ghost_sweep _ _ _ now h
  | restore => exact settled_restore _ _ _ h

/-- Taking a fresh id with a registered or torn down object, or ending a
connection whose object stands in an unreached list, breaks the property at
once. -/
theorem step_not_identified (y : System) (e : Event) (ho : ¬ Orderly y e) :
    ¬ Identified (step y e) := by
  cases e with
  | frame c env f =>
    simp only [Orderly, Classical.not_imp, not_forall] at ho
    obtain ⟨hc, k, title, hcmd, hk, ht, hl, hbad⟩ := ho
    intro hi
    have hstep : step y (.frame c env f) = { y with server := receiveFrame env c f y.server } :=
      if_pos hc
    have hq := receive_login env c f y.server k title hcmd hk ht
    simp only [login, hl] at hq
    have hlive : ∀ j, (receiveFrame env c f y.server).live j =
        if j = k then some c else y.server.live j :=
      fun j => (hq.live j).trans (live_enroll env c k title y.server j)
    have hnew : (receiveFrame env c f y.server).live k = some c := by rw [hlive, if_pos rfl]
    rw [hstep] at hi
    refine hbad ⟨fun j hj => ?_,fun hcl => (hi.released c hcl).1 k hnew⟩
    have hjk : j ≠ k := by
      rintro rfl
      rw [hl] at hj
      cases hj
    refine hjk (hi.unique j k c ?_ hnew)
    rw [hlive, if_neg hjk]
    exact hj
  | teardown c =>
    simp only [Orderly, Classical.not_imp, not_forall] at ho
    obtain ⟨hc, hcl, u, hu, hbad⟩ := ho
    intro hi
    have hstep : step y (.teardown c) =
        { y with server := teardownClient c y.server, closed := c::y.closed } :=
      if_pos ⟨hc,hcl⟩
    rw [hstep] at hi
    refine (hi.released c List.mem_cons_self).2 u ?_
    rw [teardownClient, Server.registry_remove_client,
      ClientRegistryImpl.mem_subscribers_remove_client]
    refine ⟨hu,?_⟩
    rintro ⟨d, hd, htd, -⟩
    exact hbad ⟨d,hd,htd⟩
  | accept | inactiveSweep | ackSweep | ghostSweep | restore => exact absurd trivial ho

theorem start_settled (config : RexSystemConfig) (cluster : ClusterPort) (db : Option SledDb)
    (clients : Clients) : Settled [] [] (start config cluster db clients).server := by
  refine settled_restore _ _ _ ⟨fun k c hc => ?_,?_⟩
  · cases hc
  · rintro c (⟨k, hk⟩ | ⟨t, ht⟩)
    · cases hk
    · cases ht

/-- Identity consistency holds in every state of exactly the orderly runs. -/
theorem identified_iff_orderly (config : RexSystemConfig) (cluster : ClusterPort)
    (db : Option SledDb) (clients : Clients) (es : List Event) :
    Always step Identified (start config cluster db clients) es ↔
      Along step Orderly (start config cluster db clients) es :=
  always_iff_along step Orderly (fun y => Settled y.opened y.closed y.server) Identified
    settled_identified step_settled (fun y e _ => step_not_identified y e) _ es
    (start_settled config cluster db clients)

/-- One connection logs in under two ids and ends: the first id still holds
its object. -/
theorem second_login_leaves_first_id :
    let y := [Event.accept 0 1 "tcp" 0,.frame 0 quietEnv (loginFrame 7 []),
      .frame 0 quietEnv (loginFrame 8 [])].foldl step (start plainConfig .noop none unusedClients)
    let z := step y (.teardown 0)
    y.server.live 7 = some 0 ∧ y.server.live 8 = some 0 ∧ (y.server.clients 0).id = 8 ∧
      0 ∈ z.closed ∧ z.server.live 7 = some 0 := by
  decide +kernel

/-- Every list entry is a registered object with the title of the list. -/
def Filed (s : Server) : Prop := ∀ c t, c ∈ s.registry.subscribers t →
  s.live (s.clients c).id = some c ∧ t ∈ (s.clients c).subscribedTitles

section Filing
variable (s t : Server)

theorem filed_of_same (h : Filed s) (hid : ∀ c, (t.clients c).id = (s.clients c).id)
    (htitles : ∀ c u, u ∈ (s.clients c).subscribedTitles → u ∈ (t.clients c).subscribedTitles)
    (hlive : ∀ k, t.live k = s.live k)
    (hsub : ∀ u, t.registry.subscribers u = s.registry.subscribers u) : Filed t := by
  intro c u hc
  rw [hsub] at hc
  obtain ⟨hl, hu⟩ := h c u hc
  exact ⟨by rw [hid, hlive]; exact hl,htitles c u hu⟩

theorem filed_quiet (hq : Quiet s t) (h : Filed s) : Filed t :=
  filed_of_same s t h hq.id (fun c u hu => by rwa [hq.titles]) hq.live
    (fun u => by rw [hq.registry])

theorem filed_restored (p : PersistedClient) (hr : Server.Restored p s t) (h : Filed s) :
    Filed t :=
  filed_of_same s t h (fun c => by rw [hr.clients]) (fun c u hu => by rw [hr.clients]; exact hu)
    hr.live (fun u => by rw [ClientRegistryImpl.subscribers, hr.title2clients]; rfl)

theorem filed_of_removed (h : Filed s) (k : ClientId) (hc : t.clients = s.clients)
    (hr : t.registry = (s.registry.removeClient s.clients k).2) : Filed t := by
  intro c u hu
  rw [hr, ClientRegistryImpl.mem_subscribers_remove_client] at hu
  obtain ⟨hl, ht⟩ := h c u hu.1
  have hk : (s.clients c).id ≠ k := fun hk => hu.2 ⟨c,by rw [← hk]; exact hl,ht,hk⟩
  rw [hc, Server.live_def, hr, ClientRegistryImpl.find_remove_client, if_neg hk]
  exact ⟨hl,ht⟩

theorem filed_enroll (env : Env) (c : ClientRef) (k : ClientId) (title : Title) (h : Filed s)
    (hl : s.live k = none) (hfree : ∀ j, s.live j ≠ some c) :
    Filed (enroll env c k title s) := by
  intro d u hu
  rcases mem_subscribers_enroll env c k title s d u hu with hu | ⟨rfl, hu⟩
  · obtain ⟨hd, ht⟩ := h d u hu
    have hdc : d ≠ c := by
      rintro rfl
      exact hfree _ hd
    rw [enroll_other env c k title s d hdc, live_enroll, if_neg]
    · exact ⟨hd,ht⟩
    · intro hk
      rw [hk, hl] at hd
      cases hd
  · rw [id_enroll, if_pos rfl, live_enroll, if_pos rfl]
    exact ⟨rfl,hu⟩

theorem filed_mutate (m : Mutation) (k : ClientId) (title : Title) (client : ClientRef)
    (h : Filed s) (hl : s.live k = some client) (hid : (s.clients client).id = k)
    (hs : m = .register → SingleTitle title) : Filed (mutate m k title s) := by
  rw [mutate_some m k title s client hl]
  intro d u hu
  have hidd := modify_field s.clients client d (onClient title m) RexClientInner.id
    (id_on_client m title _)
  change s.live (modify s.clients client (onClient title m) d).id = some d ∧
    u ∈ (modify s.clients client (onClient title m) d).subscribedTitles
  rw [hidd]
  cases m with
  | register =>
    have hgrow : ∀ e v, v ∈ (s.clients e).subscribedTitles →
        v ∈ (modify s.clients client (.insertTitle title) e).subscribedTitles := by
      intro e v hv
      by_cases he : e = client
      · rw [he, modify_same, RexClientInner.mem_insert_title]
        exact .inl (he ▸ hv)
      · rwa [modify_other _ _ _ _ he]
    rcases (RelationIndex.mem_listed_enlist ..).mp hu with hu | ⟨rfl, rfl, -⟩
    · obtain ⟨hd, ht⟩ := h d u hu
      exact ⟨hd,hgrow d u ht⟩
    · rw [hid]
      refine ⟨hl,?_⟩
      simp only [onClient, modify_same]
      rw [RexClientInner.mem_insert_title, split_single u (hs rfl)]
      exact .inr List.mem_cons_self
  | unregister =>
    obtain ⟨hu, hne⟩ := (RelationIndex.mem_listed_delist ..).mp hu
    obtain ⟨hd, ht⟩ := h d u hu
    refine ⟨hd,?_⟩
    by_cases hdc : d = client
    · subst hdc
      simp only [onClient, modify_same]
      rw [RexClientInner.mem_remove_title]
      exact ⟨ht,fun he => hne ⟨he,hid⟩⟩
    · rwa [modify_other _ _ _ _ hdc]

end Filing

/-- Conditions on the input alone: the login condition, and single titles in
the `RegTitle` frames. -/
def WellFormed (y : System) : Event → Prop
  | .frame c env f => Orderly y (.frame c env f) ∧
      ∀ title, f.command = .ok .regTitle → f.title = .ok title → SingleTitle title
  | _ => True

theorem step_filed (y : System) (e : Event) (h : Settled y.opened y.closed y.server)
    (hf : Filed y.server) (hw : WellFormed y e) : Filed (step y e).server := by
  have removed : ∀ s k, Filed s → Filed (s.removeClient k).2 := fun s k hs =>
    filed_of_removed s _ hs k (s.clients_remove_client k) (s.registry_remove_client k)
  cases e with
  | accept c uuid transport now =>
    simp only [step]
    split_ifs with hc
    · exact hf
    · intro d u hu
      have hne : d ≠ c := by
        rintro rfl
        exact hc (h.held d (.inr ⟨u,hu⟩)).1
      simp only [acceptClient, Function.update_of_ne hne]
      exact hf d u hu
  | frame c env f =>
    simp only [step]
    split_ifs with hc
    · refine receive_frame_keeps Filed env c f y.server hf filed_quiet
        (fun k title client _ => ?_) (fun k title hcmd hk ht hl => ?_)
        (fun m command k title client hcmd hm ht hl => ?_) removed
      · refine filed_of_same y.server _ hf (id_take_over c title y.server client)
          (fun d u hu => ?_) (fun _ => rfl) (fun _ => rfl)
        by_cases hd : d = client
        · subst hd
          simp only [takeOver, modify_same]
          exact (RexClientInner.mem_insert_title ..).mpr (.inl hu)
        · simp only [takeOver, modify_other _ _ _ _ hd]
          exact hu
      · exact filed_enroll y.server env c k title hf hl (hw.1 hc k title hcmd hk ht hl).1
      · refine filed_mutate y.server m k title client hf hl (h.keyed k client hl) ?_
        rintro rfl
        cases command <;> cases hm
        exact hw.2 title hcmd ht
    · exact hf
  | teardown c =>
    simp only [step]
    split_ifs
    · exact removed y.server _ hf
    · exact hf
  | inactiveSweep now =>
    exact inactive_sweep_keeps Filed (fun s k hs =>
      filed_of_removed s _ hs k (s.clients_evict k) (s.registry_evict k)) now y.server hf
  | ackSweep env => exact filed_quiet _ _ (sweep_acks_quiet env y.server) hf
  | ghostSweep now =>
    have hcol := y.server.ghost_sweep_collected now
    exact filed_of_same y.server (y.server.cleanupExpiredGhosts now) hf
      (fun c => by rw [hcol.clients]) (fun c u hu => by rw [hcol.clients]; exact hu) hcol.live
      hcol.subscribers
  | restore => exact y.server.restore_keeps Filed filed_restored hf

theorem well_formed_orderly (y : System) (e : Event) (hf : Filed y.server)
    (hw : WellFormed y e) : Orderly y e := by
  cases e with
  | frame c env f => exact hw.1
  | teardown c => exact fun _ _ t ht => ⟨c,hf c t ht⟩
  | accept | inactiveSweep | ackSweep | ghostSweep | restore => trivial

/-- Well-formed input keeps identities consistent. -/
theorem well_formed_identified (config : RexSystemConfig) (cluster : ClusterPort)
    (db : Option SledDb) (clients : Clients) (es : List Event)
    (hw : Along step WellFormed (start config cluster db clients) es) :
    Always step Identified (start config cluster db clients) es := by
  have hs := start_settled config cluster db clients
  have hf : Filed (start config cluster db clients).server :=
    (Server.build config cluster db clients).restore_keeps Filed filed_restored
      (fun c t ht => by cases ht)
  refine always_mono step (fun y => Settled y.opened y.closed y.server ∧ Filed y.server) _
    (fun y hy => settled_identified y hy.1) _ _
    (always_of_along step WellFormed _ (fun y e hy he => ?_) _ es ⟨hs,hf⟩ hw)
  exact ⟨step_settled y e hy.1 (well_formed_orderly y e hy.2 he),step_filed y e hy.1 hy.2 he⟩

end RexMq.ClientIdentity
